/-
From one application to the other: a command a CP sends is the one the
application of the PD is handed, an event a PD answers with the one the
application of the CP is.

# The way of a message

Four things happen to it.  A builder lays its data block behind a header
(`CommandLaid`, `ReplyLaid`); the finalizer pads, encrypts and signs the
packet; the other end checks and decodes the frame; and the parser takes
the fields up again.  The first and the last are inverse to each other by
the codecs, the two in the middle by `Ready.arrives`.

# What has to hold

The two ends keep step, which every frame that arrives leaves them in.  A
packet that could be finished carries a mark byte where it is counted with
one, so nothing has to be assumed of that (`markAgrees_of_built`).
-/
import LibOsdp.Phy.Proofs.RoundTrip
import LibOsdp.Proofs.EventCodec

namespace LibOsdp

open Lib

-- ============================================================== the packet

/-- What goes out of the packet in the transmit buffer, from SOM on. -/
def sentFrame (i : Nat) (u : Osdp) : Bytes :=
  frameOf i u (u.pd i).packetBufLen

section Packet

variable {i : Nat} {p q r : OsdpPd} {s t : Osdp} {block : Bytes}

/-- The security block of a packet that is none of a handshake. -/
theorem initScbLen_ordinary {id : Nat}
    (hhs : osdpPhyInScHandshake p.flags.pdMode id = false)
    (hbusy : p.flags.scActive = true →
      (p.flags.pdMode && id == replyBusy) = false) :
    initScbLen p id = if p.flags.scActive then 2 else 0 := by
  unfold initScbLen
  cases hact : p.flags.scActive with
  | true =>
    rw [hbusy hact, if_neg Bool.false_ne_true]
    rfl
  | false =>
    rw [hhs]
    split
    · rfl
    · rfl

/-- A packet that was laid and typed is ready. -/
theorem ready_of_laid {id : Nat} {type : UInt8}
    (hl : Laid i t block (dataPos i t + block.length))
    (hact : (t.pd i).flags.scActive = p.flags.scActive)
    (hctl : byteAt t.txBuf ((t.pd i).markLen + 4) = initControl p id)
    (hlen : initScbLen p id = if p.flags.scActive then 2 else 0)
    (hpos : dataPos i t = (t.pd i).markLen + 5 + initScbLen p id)
    (htype : p.flags.scActive = true →
      byteAt t.txBuf ((t.pd i).markLen + 6) = type)
    (hmac : maced type = true) : Ready i t block := by
  refine ⟨hl, ?_, fun ha => ?_, fun ha => ?_⟩
  · rw [hctl, ctrlScb_initControl, hlen, hact]
    cases p.flags.scActive <;> rfl
  · rw [hact] at ha
    rw [hpos, hlen, ha]
    rfl
  · rw [htype (hact ▸ ha)]
    exact hmac

/-- The channel of a PD, and its role. -/
def chanView (p : OsdpPd) : OsdpSecureChannel × Bool × Bool :=
  (p.sc, p.flags.scActive, p.flags.pdMode)

theorem chanView_of_sealView (h : sealView q = sealView p) :
    chanView q = chanView p :=
  congrArg (fun v => (v.1, v.2.1, v.2.2.1)) h

/-- Keeping step is about these two. -/
theorem InStep.of_chanView (h : InStep p r) (hv : chanView q = chanView p)
    (hcap : q.flags.pdMode = true → q.scIsCapable = p.scIsCapable) :
    InStep q r := by
  have hsc : q.sc = p.sc := congrArg (fun v => v.1) hv
  have hact : q.flags.scActive = p.flags.scActive :=
    congrArg (fun v => v.2.1) hv
  have hmode : q.flags.pdMode = p.flags.pdMode :=
    congrArg (fun v => v.2.2) hv
  refine ⟨?_, ?_, fun hpd ha => ?_, h.capable', ?_, ?_, ?_⟩
  · rw [hmode]
    exact h.roles
  · rw [hact]
    exact h.active
  · rw [hcap hpd]
    exact h.capable (hmode ▸ hpd) (hact ▸ ha)
  · rw [hsc]
    exact h.chain
  · rw [hsc]
    exact h.rMac
  · rw [hsc]
    exact h.cMac

/-- The end of either builder: the packet is finished, and its length
stored. -/
theorem sentFrame_of {u v : Osdp} {done : Int} {f : OsdpPd → OsdpPd}
    (hv : v = u.updPd i f)
    (hlen : (f (u.pd i)).packetBufLen = done.toNat)
    (hmark : (f (u.pd i)).markLen = (u.pd i).markLen) :
    sentFrame i v = frameOf i u done.toNat := by
  have hpd : v.pd i = f (u.pd i) := by
    rw [hv, updPd_pd_same]
  have htx : v.txBuf = u.txBuf := by
    rw [hv]
    rfl
  unfold sentFrame frameOf
  rw [hpd, hlen, hmark, htx]

/-- A frame that arrives does so whatever of the sender is stored that is
not of the channel. -/
theorem Arrives.of_chanView {env : Env} {j : Nat} {frame : Bytes}
    {w : Osdp} (h : Arrives env j frame block p w)
    (hv : chanView q = chanView p)
    (hcap : q.flags.pdMode = true → q.scIsCapable = p.scIsCapable) :
    Arrives env j frame block q w := by
  refine ⟨h.length, h.intact, fun rest hw => ?_⟩
  obtain ⟨v, sc, hdec, hpd, hlog, hs⟩ := h.reads rest hw
  exact ⟨v, sc, hdec, hpd, hlog, hs.of_chanView hv hcap⟩

end Packet

-- =============================================================== a command

section Command

variable {env env' : Env} {run : List ApiCall → OsdpM Unit} {i j : Nat}
variable {s u w : Osdp}

/-- The data block of the command PD `i` is to be sent, worked out behind
a header of `pos` bytes. -/
def CommandBlock (env : Env) (run : List ApiCall → OsdpM Unit) (i : Nat)
    (s : Osdp) (block : Bytes) : Prop :=
  ∃ pos x y smb body, x.pd i = headedPd (s.pd i) pos ∧
    cpBuildCases env run i (cpPacketCmd (s.pd i)) smb
      (getTxBufSize (s.pd i) - pos - 1 : Nat) x = .ok body y ∧
    body.block (s.pd i).cmdId = some block

/-- A packet that could be finished has its mark byte. -/
theorem markAgrees_of_built (hr : ∀ calls, Keeps Calm (run calls))
    {size total : Nat} {t v : Osdp} {done : Int}
    (hlay : cpLayCommand env run i size s = .ok (some total) t)
    (hroom : packetBufSize ≤ s.txBuf.length) (hsize : size ≤ packetBufSize)
    (hord : hsCommand (s.pd i).cmdId = false)
    (hfin : osdpPhyFinalizePacket env i total size t = .ok done v)
    (hge : 0 ≤ done) : MarkAgrees (s.pd i) := by
  by_contra hmark
  obtain ⟨hfirst, hm⟩ := cpLayCommand_stale hr hlay hmark hroom hsize hord
  exact finalize_unmarked hfirst hm ⟨done, v, hfin, hge⟩

/-- **A command arrives.**  What a CP builds for a command that is none of
a handshake, the PD reads, to the byte. -/
theorem command_arrives (hr : ∀ calls, Keeps Calm (run calls))
    (hcrc : env.crc16 = env'.crc16) (hcip : env.cipher = env'.cipher)
    (hs : InStep (s.pd i) (w.pd j))
    (hmode : (s.pd i).flags.pdMode = false)
    (hroom : packetBufSize ≤ s.txBuf.length)
    (hord : hsCommand (s.pd i).cmdId = false)
    (hrun : cpBuildPacket env run i s = .ok true u) :
    ∃ block, CommandBlock env run i s block ∧
      Arrives env' j (sentFrame i u) block (u.pd i) w := by
  rw [cpBuildPacket_eq] at hrun
  obtain ⟨p, a, hg, hrun⟩ := bind_ok.mp hrun
  obtain ⟨rfl, rfl⟩ := getPd_ok.mp hg
  obtain ⟨_, a, ho, hrun⟩ := bind_ok.mp hrun
  obtain rfl := observe_ok.mp ho
  obtain ⟨total, t, hlay, hrun⟩ := bind_ok.mp hrun
  cases total with
  | none => cases (pure_ok.mp hrun).1
  | some total =>
    obtain ⟨done, v, hfin, hrun⟩ := bind_ok.mp hrun
    by_cases hneg : done < 0
    · rw [if_pos hneg] at hrun
      cases (pure_ok.mp hrun).1
    · rw [if_neg hneg] at hrun
      obtain ⟨_, x, hx, hrun⟩ := bind_ok.mp hrun
      obtain ⟨-, rfl⟩ := pure_ok.mp hrun
      obtain rfl := updPd_ok.mp hx
      have hge : 0 ≤ done := Int.not_lt.mp hneg
      have hsize := getTxBufSize_le (s.pd i)
      have hmark := markAgrees_of_built hr hlay hroom hsize hord hfin hge
      obtain ⟨block, rfl, hne, hlaid⟩ :=
        cpLayCommand_ok hr hlay hmode hmark hroom hord
      have hchan : chanView (t.pd i) = chanView (startedPd (s.pd i)) :=
        chanView_of_sealView hlaid.chan
      have hchan : chanView (t.pd i) = chanView (s.pd i) := hchan
      have hact : (t.pd i).flags.scActive = (s.pd i).flags.scActive :=
        congrArg (fun v => v.2.1) hchan
      have hcp : (t.pd i).flags.pdMode = false :=
        (congrArg (fun v => v.2.2) hchan).trans hmode
      have hlen : initScbLen (s.pd i) (s.pd i).cmdId
          = if (s.pd i).flags.scActive then 2 else 0 := by
        refine initScbLen_ordinary ?_ fun _ => ?_
        · rw [hmode]
          exact hord
        · rw [hmode]
          rfl
      have hready : Ready i t block :=
        ready_of_laid hlaid.laid hact hlaid.control hlen hlaid.pos hlaid.type
          (by unfold cpFinalType; split <;> rfl)
      have hst : InStep (t.pd i) (w.pd j) :=
        hs.of_chanView hchan fun e => by rw [hcp] at e; cases e
      obtain ⟨x, y, smb, body, hx, hcases, hbody⟩ := hlaid.what
      refine ⟨block, ⟨_, x, y, smb, body, hx, hcases, hbody⟩, ?_⟩
      obtain ⟨id, data, rfl⟩ := List.exists_cons_of_ne_nil hne
      rw [sentFrame_of rfl rfl rfl, updPd_pd_same]
      refine (hready.arrives hcrc hcip hst hsize hfin hge).of_chanView rfl ?_
      exact fun _ => rfl

end Command

-- ================================================================= a reply

section Reply

variable {env env' : Env} {run : List ApiCall → OsdpM Unit} {i j : Nat}
variable {s u w : Osdp}

/-- The data block PD `j` answers with: the reply's own, or the NAK put in
its place where that could not be built. -/
def ReplyBlock (env : Env) (run : List ApiCall → OsdpM Unit) (j : Nat)
    (s : Osdp) (block : Bytes) : Prop :=
  ∃ t, Accepted env run j (getTxBufSize (s.pd j)) s block t ∨
    Substituted env run j (getTxBufSize (s.pd j)) s block t

/-- **A reply arrives.**  What a PD builds for a reply that is none of a
handshake, and no busy one under a channel, the CP reads, to the byte. -/
theorem reply_arrives (hr : ∀ calls, Keeps Quiet (run calls))
    (hcrc : env.crc16 = env'.crc16) (hcip : env.cipher = env'.cipher)
    (hs : InStep (s.pd j) (w.pd i))
    (hmode : (s.pd j).flags.pdMode = true)
    (hroom : packetBufSize ≤ s.txBuf.length)
    (hord : hsReply (s.pd j).replyId = false)
    (hbusy : (s.pd j).flags.scActive = true →
      (s.pd j).replyId ≠ replyBusy)
    (hrun : pdBuildReplyPacket env run j s = .ok pdErrNone u) :
    ∃ block, ReplyBlock env run j s block ∧
      Arrives env' i (sentFrame j u) block (u.pd j) w := by
  have hkeep := ((builds_pdBuildReplyPacket hr j).of hrun).pd j
  have hcap : (u.pd j).scIsCapable = (s.pd j).scIsCapable := by
    have e := congrArg OsdpPd.scIsCapable hkeep
    exact e
  rw [pdBuildReplyPacket_eq] at hrun
  obtain ⟨p, a, hg, hrun⟩ := bind_ok.mp hrun
  obtain ⟨rfl, rfl⟩ := getPd_ok.mp hg
  obtain ⟨total, t, hlay, hrun⟩ := bind_ok.mp hrun
  cases total with
  | none => cases (pure_ok.mp hrun).1
  | some total =>
    obtain ⟨done, v, hfin, hrun⟩ := bind_ok.mp hrun
    by_cases hneg : done < 0
    · rw [if_pos hneg] at hrun
      cases (pure_ok.mp hrun).1
    · rw [if_neg hneg] at hrun
      obtain ⟨_, x, hx, hrun⟩ := bind_ok.mp hrun
      obtain ⟨-, rfl⟩ := pure_ok.mp hrun
      obtain rfl := updPd_ok.mp hx
      have hge : 0 ≤ done := Int.not_lt.mp hneg
      have hsize := getTxBufSize_le (s.pd j)
      obtain ⟨block, rfl, hne, hlaid⟩ :=
        pdLayReply_ok hr hlay hmode hroom hord
      have hchan : chanView (t.pd j) = chanView (s.pd j) :=
        chanView_of_sealView hlaid.chan
      have hact : (t.pd j).flags.scActive = (s.pd j).flags.scActive :=
        congrArg (fun v => v.2.1) hchan
      have hlen : initScbLen (s.pd j) (s.pd j).replyId
          = if (s.pd j).flags.scActive then 2 else 0 := by
        refine initScbLen_ordinary ?_ fun ha => ?_
        · rw [hmode]
          exact hord
        · rw [hmode, Bool.true_and]
          exact beq_eq_false_iff_ne.mpr (hbusy ha)
      have hready : Ready j t block := by
        refine ready_of_laid hlaid.laid hact hlaid.control hlen ?_
          (fun ha => hlaid.type ha (hbusy ha)) ?_
        · rw [markLen_of_sealView hlaid.chan]
          exact hlaid.pos
        · unfold finalType
          split <;> rfl
      obtain ⟨id, data, rfl⟩ := List.exists_cons_of_ne_nil hne
      obtain ⟨sc, -, hvpd⟩ :=
        finalize_frame hlaid.laid (List.cons_ne_nil _ _) hfin hge
      have hst : InStep (t.pd j) (w.pd i) := by
        refine hs.of_chanView hchan fun _ => ?_
        rw [updPd_pd_same, hvpd] at hcap
        exact hcap
      refine ⟨id :: data, ⟨t, hlaid.what⟩, ?_⟩
      rw [sentFrame_of rfl rfl rfl, updPd_pd_same]
      refine (hready.arrives hcrc hcip hst hsize hfin hge).of_chanView rfl ?_
      exact fun _ => rfl

end Reply

-- ============================================================= both codecs

section Delivery

variable {env env' : Env} {depth depth' i j : Nat} {s u w : Osdp}
variable {rest : Bytes}

/-- No command of an application is one of the handshake. -/
theorem hsCommand_of_wire {c : OsdpCmd} {id : Nat}
    (h : wireCmdOf c = some id) : hsCommand id = false := by
  unfold wireCmdOf at h
  split at h
  all_goals first
    | (cases h; rfl)
    | skip
  split at h
  all_goals first
    | (cases h; rfl)
    | cases h

/-- The CP has taken `c` from its queue for PD `i`, and is about to build
the packet for it: a command that a data block has room for, as the wire
command it translates to. -/
structure TakenUp (s : Osdp) (i : Nat) (c : OsdpCmd) : Prop where
  active : (s.pd i).activeCmd.map (·.cmd) = some c
  queued : (s.pd i).state ≠ .setScbk
  id : wireCmdOf c = some (s.pd i).cmdId
  key : keysetRefused (s.pd i) c = false
  family : queuedFamily c = true
  fits : c.fits

/-- The packet is built from that command. -/
theorem TakenUp.cpPacketCmd {c : OsdpCmd} (h : TakenUp s i c) :
    cpPacketCmd (s.pd i) = some c := by
  unfold LibOsdp.cpPacketCmd
  rw [if_neg fun e => h.queued e.1]
  exact h.active

/-- Its data block is the command's record. -/
theorem TakenUp.block {run : List ApiCall → OsdpM Unit} {c : OsdpCmd}
    {block : Bytes} (h : TakenUp s i c)
    (hb : CommandBlock env run i s block) :
    ∃ p maxLen d, queuedBody env p maxLen c = .data d ∧
      block = UInt8.ofNat (s.pd i).cmdId :: d := by
  obtain ⟨pos, x, y, smb, body, hx, hcases, hbody⟩ := hb
  have hid : wireCmdOf c = some (x.pd i).cmdId := by
    rw [hx]
    exact h.id
  rw [h.cpPacketCmd] at hcases
  obtain ⟨-, rfl⟩ := cpBuildCases_queued hid h.family hcases
  cases hd : queuedBody env (x.pd i)
      (getTxBufSize (s.pd i) - pos - 1 : Nat) c with
  | fail =>
    rw [hd] at hbody
    cases hbody
  | abort => exact absurd hd (queuedBody_ne_abort c)
  | data d =>
    rw [hd] at hbody
    exact ⟨_, _, d, hd, (Option.some.inj hbody).symm⟩

/-- What a PD checks before its application sees a command is nothing the
channel's keys have a part in. -/
theorem PdAdmits.of_sc {p : OsdpPd} {id : Nat} {c : OsdpCmd}
    {sc : OsdpSecureChannel} (h : PdAdmits env p id c) :
    PdAdmits env { p with sc := sc } id c :=
  ⟨h.asked, h.policy, h.capable, h.valid, h.address, h.keyed⟩

/-- **From the queue of a CP to the application of a PD.**  When the frame
a CP built for a queued command lies in the packet buffer of a PD that
keeps step with it and admits the command, the PD decodes it, keeps step,
and hands its application the command, once, as it travels. -/
theorem command_delivered {c : OsdpCmd}
    (hcrc : env.crc16 = env'.crc16) (hcip : env.cipher = env'.cipher)
    (hs : InStep (s.pd i) (w.pd j))
    (hmode : (s.pd i).flags.pdMode = false)
    (hroom : packetBufSize ≤ s.txBuf.length) (htaken : TakenUp s i c)
    (hasked : PdAdmits env' (w.pd j) (s.pd i).cmdId c)
    (hrun : cpBuildPacket env (cpRunCalls env depth) i s = .ok true u)
    (hheld : FrameHeld j w (sentFrame i u) rest) :
    phyIntegrityOk env' (sentFrame i u) = true ∧
      ∃ payload v,
        osdpPhyDecodePacket env' j w = .ok (payload.length, payload) v ∧
        InStep (u.pd i) (v.pd j) ∧
        callbacks (leaves (pdDecodeCommand env' (pdRunCalls env' depth') j
          payload) v).log = (j, c.onWire) :: callbacks w.log := by
  obtain ⟨block, hblock, harr⟩ := command_arrives
    (fun calls => keeps_cpRunCalls depth calls) hcrc hcip hs hmode hroom
    (hsCommand_of_wire htaken.id) hrun
  obtain ⟨v, sc, hdec, hpd, hlog, hstep⟩ := harr.reads rest hheld
  obtain ⟨p, maxLen, d, hd, rfl⟩ := htaken.block hblock
  refine ⟨harr.intact, _, v, hdec, hstep, ?_⟩
  have hadmits : PdAdmits env' (v.pd j) (s.pd i).cmdId c := by
    rw [hpd]
    exact hasked.of_sc
  have hr := abides_pdRunCalls env' depth'
  rw [← hlog]
  refine hands_pdDecodeCommand (wireCmdOf_lt htaken.id) hadmits fun x hx => ?_
  have hride := htaken.family
  cases c with
  | status r =>
    cases hd
    exact hands_status hr hasked.asked htaken.id hx
  | output | led | buzzer | text | tdset | comset | mfg | bioread
  | biomatch | keyset =>
    exact hands_appCmdBytes hr hasked.asked htaken.id hride htaken.key
      htaken.fits (of_eq_data hd) hx
  | _ => cases hride

/-- A run returned this. -/
def returned {α : Type} [DecidableEq α] (a : α) :
    EStateM.Result Fault Osdp α → Bool
  | .ok b _ => decide (b = a)
  | .error _ _ => false

theorem returned_ok {α : Type} [DecidableEq α] {a : α}
    {r : EStateM.Result Fault Osdp α} (h : returned a r = true) :
    ∃ u, r = .ok a u := by
  cases r with
  | ok b u => exact ⟨u, by rw [of_decide_eq_true h]⟩
  | error e u => cases h

/-- A frame lies in the receive buffer of the one end. -/
def holding (p : OsdpPd) (frame : Bytes) : Osdp :=
  { rxBuf := frame
    pd := fun _ => { p with packetBuf := .rx, packetBufLen := frame.length } }

theorem frameHeld_holding {p : OsdpPd} (frame : Bytes)
    (hm : p.flags.pktHasMark = false) :
    FrameHeld 0 (holding p frame) frame [] := by
  have hlen : ((holding p frame).pd 0).markLen = 0 := by
    show (if p.flags.pktHasMark then 1 else 0) = 0
    rw [hm]
    rfl
  constructor
  · rw [hlen, List.append_nil]
    rfl
  · rw [hlen]
    rfl

/-- A CP under a channel that has taken up a text. -/
def textCp : OsdpPd :=
  { (sealedSide false).pd 0 with
    state := .online
    cmdId := cmdText
    activeCmd := some { node := 1, cmd := codecText } }

/-- A PD at the other end, with a text display and nothing to say. -/
def textPd : OsdpPd :=
  { (sealedSide true).pd 0 with cap := (codecPd.pd 0).cap }

theorem command_delivered_text :
    ∃ u, cpBuildPacket codecEnv (cpRunCalls codecEnv 0) 0
        { pd := fun _ => textCp } = .ok true u ∧
      ∃ payload v,
        osdpPhyDecodePacket codecEnv 0 (holding textPd (sentFrame 0 u))
          = .ok (payload.length, payload) v ∧
        InStep (u.pd 0) (v.pd 0) ∧
        callbacks (leaves (pdDecodeCommand codecEnv (pdRunCalls codecEnv 0) 0
          payload) v).log = [(0, codecText)] := by
  obtain ⟨u, hu⟩ := returned_ok (a := true)
    (r := cpBuildPacket codecEnv (cpRunCalls codecEnv 0) 0
      { pd := fun _ => textCp }) (by decide +kernel)
  have hs : InStep textCp ((holding textPd (sentFrame 0 u)).pd 0) :=
    ⟨rfl, rfl, fun _ _ => rfl, fun _ _ => rfl, ⟨rfl, rfl, rfl, rfl, rfl⟩,
      rfl, rfl⟩
  have htaken : TakenUp { pd := fun _ => textCp } 0 codecText :=
    ⟨rfl, by decide, rfl, rfl, rfl, show (2 : UInt8) ≤ 32 by decide⟩
  have hasked : PdAdmits codecEnv ((holding textPd (sentFrame 0 u)).pd 0)
      cmdText codecText :=
    ⟨rfl, rfl, fun _ => rfl,
      show validateCommand textPd codecText = true by decide,
      fun _ _ h => (by cases h), fun h => absurd h (by decide)⟩
  exact ⟨u, hu, (command_delivered rfl rfl hs rfl
    (Nat.le_of_eq List.length_replicate.symm) htaken hasked hu
    (frameHeld_holding _ rfl)).2⟩

/-- PD `j` has accepted `ev` for submission and taken it up, and is about
to build the reply for it: one that carries the event whole. -/
structure EventTaken (s : Osdp) (j : Nat) (ev : OsdpEvent) : Prop where
  active : ∃ node, (s.pd j).activeEvent = some ⟨node, ev⟩
  submitted : ∃ p, eventSubmittable p ev = true
  id : pdTranslateEvent ev = some (s.pd j).replyId
  single : singleReply ev = true
  whole : (s.pd j).flags.bioreadrMp = false
  fits : ev.fits

/-- The reply of such an event is an ordinary one, and no NAK. -/
theorem EventTaken.kind {ev : OsdpEvent} (h : EventTaken s j ev) :
    hsReply (s.pd j).replyId = false ∧ (s.pd j).replyId ≠ replyBusy ∧
      (UInt8.ofNat (s.pd j).replyId).toNat = (s.pd j).replyId := by
  obtain ⟨p, hsub⟩ := h.submitted
  rcases kind_singleReply hsub h.single h.id with hin | hbio
  · generalize (s.pd j).replyId = id at hin
    simp only [singleReplies, List.mem_cons, List.not_mem_nil,
      or_false] at hin
    rcases hin with rfl | rfl | rfl | rfl | rfl | rfl | rfl | rfl | rfl |
      rfl <;> decide
  · rw [hbio]
    decide

/-- Its data block is the event's record, unless that did not fit. -/
theorem EventTaken.block {run : List ApiCall → OsdpM Unit} {ev : OsdpEvent}
    {block : Bytes} (h : EventTaken s j ev)
    (hb : ReplyBlock env run j s block) :
    block = nakBlock ∨ ∃ p maxLen d, p.cap = (s.pd j).cap ∧
      eventReplyBytes p (s.pd j).replyId maxLen ev = some d ∧
      block = UInt8.ofNat (s.pd j).replyId :: d := by
  obtain ⟨t, ⟨x, hx, -, d, y, z, hy, hdata, hd⟩ | ⟨x, -, -, -, hnak⟩⟩ := hb
  · right
    obtain ⟨node, hact⟩ := h.active
    obtain ⟨p, hsub⟩ := h.submitted
    have hrep : (x.pd j).replyId = (s.pd j).replyId := by
      rw [hx]
      rfl
    have hown := pdBuildData_event (p := x.pd j) (by rw [hx]; exact hact)
      hsub h.single h.id hrep (congrFun hy j) (by rw [hx]; exact h.whole)
      hdata
    refine ⟨x.pd j, _, d, by rw [hx]; rfl, hown.symm, hrep ▸ hd⟩
  · exact .inl hnak

/-- A PD under a channel that has taken up a card read. -/
def cardSender : OsdpPd :=
  { textPd with
    activeEvent := some ⟨1, codecCard⟩
    replyId := replyRaw }

/-- A CP at the other end that knows its capabilities. -/
def cardListener : OsdpPd :=
  { (sealedSide false).pd 0 with cap := (codecPd.pd 0).cap }

end Delivery

end LibOsdp
