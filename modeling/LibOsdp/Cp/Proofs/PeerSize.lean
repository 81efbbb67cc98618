/-
The packet size a CP keeps to, over whole runs.

REPLY_PDCAP stores the capabilities of a PD one record at a time and then
reads the packet size off the table.  The table outlives the reply, and
so does the size: a later REPLY_PDCAP without a record for it takes the
size from the table again.  Nothing else stores either, so what was true
of every size announced is true of the one in force (`CapStep`), in every
state of a run.
-/
import LibOsdp.Cp.Proofs.Capabilities
import LibOsdp.Cp.Proofs.Bus
import LibOsdp.Cp.Proofs.Commands
import LibOsdp.Pd.Proofs.Room

namespace LibOsdp

open Lib

-- =============================================================== the reply

/-- The packet size in a table of capabilities, if it has one. -/
def rxSizeOf (cap : Nat → PdCap) : Option Nat :=
  if (cap capReceiveBuffersize).functionCode = capReceiveBuffersize then
    some ((cap capReceiveBuffersize).complianceLevel.toNat +
      256 * (cap capReceiveBuffersize).numItems.toNat)
  else none

/-- The packet size a REPLY_PDCAP of the right length announces. -/
def pdcapSizeOf (payload : Bytes) : Option Nat :=
  if payloadId payload = replyPdcap ∧ payload.tail.length % 3 = 0 then
    rxSizeOf (capsOf (fun _ => {}) payload.tail)
  else none

/-- No size the CP accepted from PD `i` leaves it without a packet. -/
def AcceptsCapRoom (i : Nat) (log : List Obs) : Prop :=
  ∀ payload n, .verdict i payload cpErrNone ∈ log →
    pdcapSizeOf payload = some n → ¬ Mutes n

/-- The size in force leaves room for packets, and so does the one in the
table it may be read from again. -/
structure KeepsRoom (p : OsdpPd) : Prop where
  force : ¬ Mutes p.peerRxSize
  table : ∀ n, rxSizeOf p.cap = some n → ¬ Mutes n

/-- A record of a capability is the reply's own or the table's, whatever
the table holds otherwise. -/
theorem capsOf_cases (data : Bytes) (k : Nat) :
    (∀ cap, capsOf cap data k = cap k) ∨
      ∃ r, ∀ cap, capsOf cap data k = r := by
  cases hlast : lastFor k (heard (entities data)) with
  | none =>
    refine .inl fun cap => ?_
    rw [capsOf_eq, hlast]
    rfl
  | some r =>
    refine .inr ⟨r, fun cap => ?_⟩
    rw [capsOf_eq, hlast]
    rfl

/-- The size in the table after a reply is the reply's own, or the one
that was there. -/
theorem rxSizeOf_capsOf (cap : Nat → PdCap) (data : Bytes) :
    rxSizeOf (capsOf cap data) = rxSizeOf (capsOf (fun _ => {}) data) ∨
      rxSizeOf (capsOf cap data) = rxSizeOf cap := by
  unfold rxSizeOf
  rcases capsOf_cases data capReceiveBuffersize with hkeep | ⟨r, hr⟩
  · rw [hkeep cap]
    exact .inr rfl
  · rw [hr cap, hr fun _ => {}]
    exact .inl rfl

theorem applyCaps_peerRxSize (p : OsdpPd) :
    (applyCaps p).peerRxSize = (rxSizeOf p.cap).getD p.peerRxSize := by
  unfold applyCaps rxSizeOf
  dsimp only
  split <;> rfl

/-- Storing capabilities keeps room where the size they announce does. -/
theorem KeepsRoom.applyCaps {p : OsdpPd} {data : Bytes} (h : KeepsRoom p)
    (hdata : ∀ n, rxSizeOf (capsOf (fun _ => {}) data) = some n →
      ¬ Mutes n) :
    KeepsRoom (applyCaps { p with cap := capsOf p.cap data }) := by
  have htable (n : Nat) (hn : rxSizeOf (capsOf p.cap data) = some n) :
      ¬ Mutes n := by
    rcases rxSizeOf_capsOf p.cap data with e | e
    · exact hdata n (e ▸ hn)
    · exact h.table n (e ▸ hn)
  refine ⟨?_, htable⟩
  rw [applyCaps_peerRxSize]
  show ¬ Mutes ((rxSizeOf (capsOf p.cap data)).getD p.peerRxSize)
  cases hsize : rxSizeOf (capsOf p.cap data) with
  | none => exact h.force
  | some n => exact htable n hsize

-- ================================================================ one step

theorem AcceptsCapRoom.of_ext {i : Nat} {E : Obs → Bool} {s t : Osdp}
    (h : AcceptsCapRoom i t.log) (he : LogExt E s t) :
    AcceptsCapRoom i s.log := by
  obtain ⟨l, hl, -⟩ := he
  intro payload n hv
  refine h payload n ?_
  rw [hl]
  exact List.mem_append_right l hv

/-- No PD changes its role, the transmit buffer does not shrink, and as
long as every size accepted leaves room for packets, so does the one in
force. -/
structure CapStep (s t : Osdp) : Prop where
  log : LogExt Obs.isAny s t
  role : ∀ j, (t.pd j).flags.pdMode = (s.pd j).flags.pdMode
  room : Roomy s t
  size : ∀ j, AcceptsCapRoom j t.log → KeepsRoom (s.pd j) →
    KeepsRoom (t.pd j)

instance : IsPreorder Osdp CapStep where
  refl s :=
    ⟨refl_of (LogExt _) s, fun _ => rfl, refl_of Roomy s, fun _ _ => id⟩
  trans _ _ _ h k :=
    ⟨trans_of _ h.log k.log, fun j => (k.role j).trans (h.role j),
      trans_of Roomy h.room k.room, fun j ha hs =>
        k.size j ha (h.size j (ha.of_ext k.log) hs)⟩

/-- A PD's role and what it announced are all that counts. -/
theorem KeepsRoom.of_announced {p q : OsdpPd} (h : KeepsRoom p)
    (e : q.announced = p.announced) : KeepsRoom q := by
  simp only [OsdpPd.announced, Prod.mk.injEq] at e
  obtain ⟨-, hsize, hcap, -⟩ := e
  refine ⟨?_, ?_⟩
  · rw [hsize]
    exact h.force
  · rw [hcap]
    exact h.table

theorem capStep_updPd {s : Osdp} {i : Nat} {f : OsdpPd → OsdpPd}
    (h : (f (s.pd i)).announced = (s.pd i).announced) :
    CapStep s (s.updPd i f) := by
  have hj (j : Nat) :
      ((s.updPd i f).pd j).announced = (s.pd j).announced := by
    by_cases e : j = i
    · subst e
      rw [updPd_pd_same]
      exact h
    · rw [updPd_pd_ne s f e]
  refine ⟨refl_of (LogExt _) s, fun j => ?_, Nat.le_refl _,
    fun j _ hs => hs.of_announced (hj j)⟩
  exact congrArg Prod.fst (hj j)

/-- Nothing but the history, the line and the counters changed. -/
theorem capStep_same {s t : Osdp} (hl : LogExt Obs.isAny s t)
    (hp : t.pd = s.pd) (hr : Roomy s t) : CapStep s t := by
  refine ⟨hl, fun j => ?_, hr, fun j _ hs => ?_⟩
  · rw [hp]
  · rw [hp]
    exact hs

instance : BusMoves CapStep where
  call s j f h := capStep_updPd (by
    have e := congrArg OsdpPd.announced (h (s.pd j))
    exact e)
  enable s j _ := capStep_updPd rfl
  disable s j := capStep_updPd rfl
  note _ _ _ := capStep_same (LogExt.cons rfl) rfl (Nat.le_refl _)
  running s _ := capStep_same (refl_of (LogExt _) s) rfl (Nat.le_refl _)
  entry _ _ _ := capStep_same (LogExt.cons rfl) rfl (Nat.le_refl _)
  txBuf s off data := capStep_same (refl_of (LogExt _) s) rfl
    (length_le_writeAt s.txBuf off data)
  flush s := capStep_same (refl_of (LogExt _) s) rfl (Nat.le_refl _)
  drawn s _ := capStep_same (refl_of (LogExt _) s) rfl (Nat.le_refl _)

instance (i : Nat) : MarkMoves i CapStep where
  mark _ _ _ := capStep_same (LogExt.cons rfl) rfl (Nat.le_refl _)

instance (i : Nat) : CoreMoves i CapStep where
  core _ _ _ h := capStep_updPd (h _)

instance (i : Nat) : PassMoves i CapStep where
  pass _ _ _ h := capStep_updPd (h _)
  letGo _ _ _ h := capStep_updPd (h _)

/-- Reception leaves what a PD announced. -/
theorem ReadStep.announced {p q : OsdpPd} (h : ReadStep p q) :
    q.announced = p.announced := by
  have hrest := congrArg (fun p : OsdpPd => (p.peerRxSize, p.cap)) h.rest
  have hrest : q.peerRxSize = p.peerRxSize ∧ q.cap = p.cap :=
    Prod.mk.inj hrest
  have hmode := congrArg PdFlags.pdMode h.flags
  have hmode : q.flags.pdMode = p.flags.pdMode := hmode
  have hskip := congrArg PdFlags.pktSkipMark h.flags
  have hskip : q.flags.pktSkipMark = p.flags.pktSkipMark := hskip
  unfold OsdpPd.announced
  rw [hmode, hskip, hrest.1, hrest.2]

instance (i : Nat) : ReadMoves i CapStep where
  read _ _ h := capStep_updPd h.announced
  rxBuf s _ := capStep_same (refl_of (LogExt _) s) rfl (Nat.le_refl _)
  line s _ := capStep_same (refl_of (LogExt _) s) rfl (Nat.le_refl _)

section Run

variable {env : Env} {depth : Nat} {i : Nat}

-- ============================================================ a reply

/-- Storing a report keeps the size, once the verdict on it stands in the
history. -/
theorem capStep_decodePdcap {payload : Bytes} {rc : Int} {s t : Osdp}
    (hid : payloadId payload = replyPdcap)
    (h : decodePdcap i payload.tail s = .ok rc t) :
    CapStep s { t with log := .verdict i payload rc :: t.log } := by
  unfold decodePdcap at h
  by_cases hlen : payload.tail.length % 3 = 0
  · rw [if_neg (not_not.mpr hlen)] at h
    obtain ⟨_, u, hu, h⟩ := bind_ok.mp h
    obtain ⟨rfl, rfl⟩ := pure_ok.mp h
    have hu := updPd_ok.mp hu
    have hsame : u.pd i = applyCaps
        { s.pd i with cap := capsOf (s.pd i).cap payload.tail } := by
      rw [← hu, updPd_pd_same]
    have hother (j : Nat) (e : j ≠ i) : u.pd j = s.pd j := by
      rw [← hu, updPd_pd_ne s _ e]
    have hlog : u.log = s.log := by
      rw [← hu]
      rfl
    have hroom : Roomy s u := by
      rw [← hu]
      exact Nat.le_refl _
    refine ⟨⟨[.verdict i payload cpErrNone], ?_, fun _ _ => rfl⟩, fun j => ?_,
      hroom, fun j ha hs => ?_⟩
    · rw [← hlog]
      rfl
    · show (u.pd j).flags.pdMode = _
      by_cases e : j = i
      · rw [e, hsame]
        rfl
      · rw [hother j e]
    · show KeepsRoom (u.pd j)
      by_cases e : j = i
      · subst e
        rw [hsame]
        refine hs.applyCaps fun n hn => ?_
        refine ha payload n (List.mem_cons_self ..) ?_
        unfold pdcapSizeOf
        rw [if_pos ⟨hid, hlen⟩]
        exact hn
      · rw [hother j e]
        exact hs
  · rw [if_pos hlen] at h
    obtain ⟨rfl, rfl⟩ := pure_ok.mp h
    exact capStep_same (LogExt.cons rfl) rfl (Nat.le_refl _)

/-- Decoding a payload and judging it keeps the size. -/
theorem capStep_judged {payload : Bytes} {rc : Int} {s t : Osdp}
    (h : cpDecodeResponse env (cpRunCalls env depth) i payload s
      = .ok rc t) :
    CapStep s { t with log := .verdict i payload rc :: t.log } := by
  obtain ⟨_, u, hu, h⟩ := bind_ok.mp h
  have hsu : CapStep s u := by
    obtain rfl := updPd_ok.mp hu
    exact capStep_updPd rfl
  refine trans_of CapStep hsu ?_
  by_cases hid : payloadId payload = replyPdcap
  · have h : cpDecodeCases env (cpRunCalls env depth) i
        (payloadId payload) payload.tail u = .ok rc t := h
    rw [hid, (decodeCases_eq ..).2.1] at h
    exact capStep_decodePdcap hid h
  · have hut : CapStep u t :=
      (frame_cpDecodeCases (keeps_cpRunCalls depth) _ payload.tail
        fun e => absurd e hid).of h
    exact trans_of CapStep hut
      (capStep_same (LogExt.cons rfl) rfl (Nat.le_refl _))

theorem capStep_cpProcessFrame :
    Keeps CapStep (cpProcessFrame env (cpRunCalls env depth) i) := by
  intro s a t h
  obtain ⟨⟨len, payload⟩, u, hu, h⟩ := bind_ok.mp h
  have hsu : CapStep s u := read_osdpPhyDecodePacket.of hu
  refine trans_of CapStep hsu ?_
  dsimp only at h
  by_cases hlen : len ≤ 0
  · rw [if_pos hlen] at h
    obtain ⟨-, rfl⟩ := pure_ok.mp h
    exact refl_of CapStep _
  · rw [if_neg hlen] at h
    obtain ⟨p, v, hg, h⟩ := bind_ok.mp h
    obtain ⟨rfl, rfl⟩ := getPd_ok.mp hg
    obtain ⟨_, v, hv, h⟩ := bind_ok.mp h
    obtain rfl := observe_ok.mp hv
    obtain ⟨rc, w, hw, h⟩ := bind_ok.mp h
    obtain ⟨_, x, hx, h⟩ := bind_ok.mp h
    obtain rfl := observe_ok.mp hx
    obtain ⟨-, rfl⟩ := pure_ok.mp h
    exact trans_of CapStep
      (capStep_same (LogExt.cons rfl) rfl (Nat.le_refl _)) (capStep_judged hw)

theorem capStep_stateUpdate :
    Keeps CapStep (stateUpdate env (cpRunCalls env depth) i) :=
  read_stateUpdate_of (keeps_cpRunCalls depth) capStep_cpProcessFrame

-- ================================================================= states

/-- The line's bytes and the clock are not the PDs'. -/
structure RoomInv (s : Osdp) : Prop where
  mode : ∀ j, (s.pd j).flags.pdMode = false
  room : packetBufSize ≤ s.txBuf.length
  size : ∀ j, AcceptsCapRoom j s.log → KeepsRoom (s.pd j)

theorem RoomInv.step {s t : Osdp} (h : RoomInv s) (k : CapStep s t) :
    RoomInv t where
  mode j := (k.role j).trans (h.mode j)
  room := Nat.le_trans h.room k.room
  size j ha := k.size j ha (h.size j (ha.of_ext k.log))

/-- A PD that was just set up announced nothing. -/
theorem keepsRoom_blank {p : OsdpPd} (hsize : p.peerRxSize = 0)
    (hcap : p.cap = fun _ => {}) : KeepsRoom p := by
  refine ⟨?_, fun n hn => ?_⟩
  · rw [hsize]
    decide
  · rw [hcap] at hn
    cases hn

theorem blank_cpSetupDevice (info : CpPdInfo) :
    (cpSetupDevice env info).flags.pdMode = false ∧
      KeepsRoom (cpSetupDevice env info) :=
  ⟨rfl, keepsRoom_blank rfl rfl⟩

/-- Teardown changes nothing a packet depends on. -/
theorem capStep_osdpCpTeardown :
    Keeps CapStep (osdpCpTeardown env (cpRunCalls env depth)) :=
  keeps_osdpCpTeardown (keeps_cpRunCalls depth) (fun _ _ => capStep_updPd rfl)
    fun s => capStep_same (refl_of (LogExt _) s) rfl (Nat.le_refl _)

/-- The invariant, over every kind of step. -/
theorem roomInv_invariant (env : Env) (depth : Nat) :
    CpInvariant env depth RoomInv where
  call c s t h e := by
    have hk : CapStep s t := (keeps_cpApiCall (keeps_cpRunCalls depth) c).of e
    exact h.step hk
  addPd infos s t a h e := by
    rcases osdpCpAddPd_ok e with rfl | ⟨-, hadd⟩
    · exact h
    · obtain ⟨hlog, -, -, hpd⟩ := cpAddPd_pd hadd
      have htx : t.txBuf = s.txBuf := congrArg (·.2.2.1) (cpAddPd_ctx hadd)
      refine ⟨fun j => ?_, ?_, fun j ha => ?_⟩
      · rcases hpd j with e | ⟨info, e⟩
        · rw [e]
          exact h.mode j
        · rw [e]
          exact (blank_cpSetupDevice info).1
      · rw [htx]
        exact h.room
      · rcases hpd j with e | ⟨info, e⟩
        · rw [e]
          exact h.size j (hlog ▸ ha)
        · rw [e]
          exact (blank_cpSetupDevice info).2
  teardown s t h e := h.step (capStep_osdpCpTeardown.of e)
  arrive s now rx h := ⟨h.mode, h.room, h.size⟩
  begin s now rx h := ⟨h.mode, h.room, h.size⟩
  pass s t h _ _ _ e := h.step (capStep_stateUpdate.of e)
  turn s i h _ _ := ⟨h.mode, h.room, h.size⟩
  finish s h := ⟨h.mode, h.room, h.size⟩
  sealed s h := ⟨h.mode, h.room, h.size⟩

/-- A CP fresh from setup was announced nothing. -/
theorem roomInv_setup {infos : List CpPdInfo} {s : Osdp}
    (h : osdpCpSetup env infos = some s) : RoomInv s := by
  have hroom : packetBufSize ≤ s.txBuf.length := by
    unfold osdpCpSetup at h
    split at h
    · cases h
      exact (List.length_replicate ..).ge
    · have htx : s.txBuf = zeros packetBufSize :=
        congrArg (·.2.2.1) (cpAddPd_ctx h)
      rw [htx]
      exact (List.length_replicate ..).ge
  refine ⟨fun j => ?_, hroom, fun j _ => ?_⟩
  · rcases osdpCpSetup_pd h j with e | ⟨info, e⟩
    · rw [e]
    · rw [e]
      exact (blank_cpSetupDevice info).1
  · rcases osdpCpSetup_pd h j with e | ⟨info, e⟩
    · rw [e]
      exact keepsRoom_blank rfl rfl
    · rw [e]
      exact (blank_cpSetupDevice info).2

end Run

-- ================================================================ packets

/-- PD `i` is built a packet for command `id`. -/
def CpBuilds (env : Env) (run : List ApiCall → OsdpM Unit) (i id : Nat)
    (s : Osdp) : Prop :=
  ∃ t, cpBuildPacket env run i (s.updPd i fun p => { p with cmdId := id })
    = .ok true t

/-- The commands that carry one byte of data at most and ask for nothing
of the application. -/
def shortCommand (id : Nat) : Bool :=
  id == cmdPoll || id == cmdIdent || id == cmdCap

theorem shortCommand_cases {id : Nat} (h : shortCommand id = true) :
    id = cmdPoll ∨ id = cmdIdent ∨ id = cmdCap := by
  unfold shortCommand at h
  simp only [Bool.or_eq_true, beq_iff_eq] at h
  omega

section Short

variable {env : Env} {run : List ApiCall → OsdpM Unit} {i : Nat}

/-- The data block of a short command. -/
theorem cpBuildCases_short {cmd : Option OsdpCmd} {smb : Option Nat}
    {maxLen : Int} {s : Osdp} (hid : shortCommand (s.pd i).cmdId = true)
    (hmax : 1 ≤ maxLen) :
    ∃ d, d.length ≤ 1 ∧
      cpBuildCases env run i cmd smb maxLen s = .ok (.data d) s := by
  have hfits : ifFits maxLen [0] = some [0] := if_neg (by
    show ¬ maxLen < (1 : Nat)
    omega)
  unfold cpBuildCases
  rw [bind_eq (m := getPd i) (s := s) rfl]
  rcases shortCommand_cases hid with e | e | e
  · rw [e]
    exact ⟨[], Nat.zero_le _, rfl⟩
  · rw [e]
    refine ⟨[0], Nat.le_refl _, ?_⟩
    show EStateM.Result.ok (CmdBody.of (ifFits maxLen [0])) s = _
    rw [hfits]
    rfl
  · rw [e]
    refine ⟨[0], Nat.le_refl _, ?_⟩
    show EStateM.Result.ok (CmdBody.of (ifFits maxLen [0])) s = _
    rw [hfits]
    rfl

/-- A short command was laid with two bytes at most. -/
theorem CommandLaid.short {size : Nat} {s t : Osdp} {block : Bytes}
    (h : CommandLaid env run i size s block t)
    (hid : shortCommand (s.pd i).cmdId = true) : block.length ≤ 2 := by
  have hmin : 128 ≤ size := h.large
  have hpos : dataPos i t ≤ 9 := by
    have e := h.pos
    have hscb := initScbLen_le (s.pd i) (s.pd i).cmdId
    have hm := markLen_le (t.pd i)
    omega
  obtain ⟨x, y, smb, body, hx, hcases, hbody⟩ := h.what
  obtain ⟨d, hd, e⟩ : ∃ d, d.length ≤ 1 ∧
      cpBuildCases env run i (cpPacketCmd (s.pd i)) smb
        (size - dataPos i t - 1 : Nat) x = .ok (.data d) x :=
    cpBuildCases_short (by rw [hx]; exact hid) (by omega)
  rw [hcases] at e
  cases e
  obtain rfl := Option.some.inj hbody
  exact Nat.succ_le_succ hd

/-- A short command is built exactly where the mark byte is counted as it
is written and the size announced leaves room for a packet. -/
theorem cpBuilds_iff (hr : ∀ calls, Keeps Calm (run calls)) {id : Nat}
    {s : Osdp} (hid : shortCommand id = true)
    (hmode : (s.pd i).flags.pdMode = false)
    (hroom : packetBufSize ≤ s.txBuf.length)
    (hrMac : (s.pd i).sc.rMac.length = 16)
    (hcMac : (s.pd i).sc.cMac.length = 16) :
    CpBuilds env run i id s ↔
      MarkAgrees (s.pd i) ∧ ¬ Mutes (s.pd i).peerRxSize := by
  -- the state in which the packet is laid
  obtain ⟨u, hu⟩ : ∃ u, u = { s.updPd i fun p => { p with cmdId := id } with
      log := .build i id (s.pd i).flags.scActive :: s.log } := ⟨_, rfl⟩
  have hupd : u.pd i = { s.pd i with cmdId := id } := by
    rw [hu]
    show (s.updPd i fun p => { p with cmdId := id }).pd i = _
    exact updPd_pd_same s i _
  have hutx : u.txBuf = s.txBuf := by
    rw [hu]
    rfl
  have hsize : getTxBufSize (u.pd i) = getTxBufSize (s.pd i) := by
    rw [hupd]
    rfl
  have hord : hsCommand (u.pd i).cmdId = false := by
    rw [hupd]
    rcases shortCommand_cases hid with rfl | rfl | rfl <;> rfl
  have hshort : shortCommand (u.pd i).cmdId = true := by
    rw [hupd]
    exact hid
  have humode : (u.pd i).flags.pdMode = false := by
    rw [hupd]
    exact hmode
  have hmark : MarkAgrees (u.pd i) ↔ MarkAgrees (s.pd i) := by
    rw [hupd]
    rfl
  have huroom : packetBufSize ≤ u.txBuf.length := by
    rw [hutx]
    exact hroom
  have hbuild : cpBuildPacket env run i
        (s.updPd i fun p => { p with cmdId := id })
      = (do
        let total ← cpLayCommand env run i (getTxBufSize (u.pd i))
        cpFinishPacket env i (getTxBufSize (u.pd i)) total) u := by
    rw [cpBuildPacket_eq, hupd, hu]
    have hpd : (s.updPd i fun p => { p with cmdId := id }).pd i
        = { s.pd i with cmdId := id } := updPd_pd_same s i _
    rw [bind_eq (m := getPd i)
      (s := s.updPd i fun p => { p with cmdId := id }) rfl, hpd]
    rfl
  unfold CpBuilds
  rw [hbuild, ← minimumPacketSize_le_iff, ← hsize, ← hmark]
  constructor
  · rintro ⟨t, h⟩
    obtain ⟨total, v, hlay, h⟩ := bind_ok.mp h
    cases total with
    | none => exact absurd (pure_ok.mp h).1 (by decide)
    | some total =>
      have hfin : Finalizes env i (getTxBufSize (u.pd i)) total v := by
        obtain ⟨done, w, hdone, h⟩ := bind_ok.mp h
        refine ⟨done, w, hdone, Int.not_lt.mp fun hneg => ?_⟩
        rw [if_pos hneg] at h
        exact absurd (pure_ok.mp h).1 (by decide)
      have hagrees : MarkAgrees (u.pd i) := by
        by_contra hstale
        obtain ⟨hfirst, hm⟩ := cpLayCommand_stale hr hlay hstale huroom
          (getTxBufSize_le _) hord
        exact finalize_unmarked hfirst hm hfin
      obtain ⟨block, -, -, hlaid⟩ :=
        cpLayCommand_ok hr hlay humode hagrees huroom hord
      exact ⟨hagrees, hlaid.large⟩
  · rintro ⟨hagrees, hlarge⟩
    obtain ⟨total, v, hlay⟩ : ∃ total v, cpLayCommand env run i
        (getTxBufSize (u.pd i)) u = .ok (some total) v := by
      refine cpLayCommand_total humode hagrees huroom hlarge (fun _ => ?_)
        fun x smb hx => ?_
      · rcases shortCommand_cases hshort with e | e | e <;> rw [e] <;> rfl
      · have hmin : 128 ≤ getTxBufSize (u.pd i) := hlarge
        have hhead := headerLen_le (u.pd i) (u.pd i).cmdId
        obtain ⟨d, -, e⟩ : ∃ d, d.length ≤ 1 ∧
            cpBuildCases env run i (cpPacketCmd (u.pd i)) smb
              (getTxBufSize (u.pd i)
                - headerLen (u.pd i) (u.pd i).cmdId - 1 : Nat) x
                = .ok (.data d) x :=
          cpBuildCases_short (by rw [hx]; exact hshort) (by omega)
        refine ⟨_, _, e, ?_⟩
        intro e
        cases e
    obtain ⟨block, rfl, hne, hlaid⟩ :=
      cpLayCommand_ok hr hlay humode hagrees huroom hord
    have hblock := hlaid.short hshort
    have hsc : (v.pd i).sc = (s.pd i).sc := by
      have e := congrArg Prod.fst hlaid.chan
      rw [hupd] at e
      exact e
    have hpos : dataPos i v ≤ 9 := by
      have e := hlaid.pos
      have hscb := initScbLen_le (u.pd i) (u.pd i).cmdId
      have hm := markLen_le (v.pd i)
      omega
    obtain ⟨done, w, hdone, hge⟩ : Finalizes env i (getTxBufSize (u.pd i))
        (dataPos i v + block.length) v := by
      refine finalizes_short env hlaid.laid hne (getTxBufSize_le _)
        (hsc ▸ hrMac) (hsc ▸ hcMac) ?_
      have hmin : 128 ≤ getTxBufSize (u.pd i) := hlarge
      have hmax : sealMax = 22 := rfl
      omega
    refine ⟨w.updPd i fun p => { p with packetBufLen := done.toNat }, ?_⟩
    refine bind_ok.mpr ⟨_, v, hlay, bind_ok.mpr ⟨done, w, hdone, ?_⟩⟩
    rw [if_neg (Int.not_lt.mpr hge)]
    rfl

end Short

end LibOsdp
