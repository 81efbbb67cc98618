/-
The mark byte of a CP that is to send none.

PKT_HAS_MARK says whether the buffer begins with a mark byte, and the
offsets of a packet are counted with it.  The receive path sets and clears
it by what arrives; `osdp_phy_packet_init` sets it where it writes a mark
byte itself.  Where it writes none it leaves the flag alone: on a PD that
is what answers the CP in kind, and on a CP built with
OPT_OSDP_SKIP_MARK_BYTE it is what the last reply left there.

A packet started then has its header one byte before the place all of
`osdp_phy_packet_get_data_offset`, the header length handed back and
`osdp_phy_finalize_packet` take it to be.
-/
import LibOsdp.Cp.Proofs.Waiting
import LibOsdp.Proofs.Muting

namespace LibOsdp

open Lib

-- ============================================================ consistency

/-- The checks `osdp_phy_finalize_packet` makes of the header, on the
first `len` bytes of the transmit buffer. -/
def headerChecks (p : OsdpPd) (buf : Bytes) (len : Nat) : Bool :=
  decide (pktHdrLen < len) && !(p.markLen == 1 && byteAt buf 0 != pktMark) &&
    byteAt ((buf.take len).drop p.markLen) 0 == pktSom

/-- The header of a packet of `p`, in the buffer from `pos` on. -/
structure HeaderAt (p : OsdpPd) (buf : Bytes) (pos : Nat) : Prop where
  som : byteAt buf pos = pktSom
  addr : byteAt buf (pos + 1) = txAddr p
  control : byteAt buf (pos + 4) = initControl p (txId p)
  scb : ∀ k, k < (initScb p (txId p)).length →
    byteAt buf (pos + 5 + k) = byteAt (initScb p (txId p)) k

/-- A packet of `p` was started in `t`: the header length handed back, the
offset of the data block and the bytes written agree, and the header is
one that can be finalized. -/
structure StartsWell (i : Nat) (p : OsdpPd) (hdr : Int) (t : Osdp) :
    Prop where
  offset : hdr = dataPos i t
  written : ∃ pos : Nat, HeaderAt p t.txBuf pos ∧
    hdr = (pos + 5 + initScbLen p (txId p) : Nat)
  checks : ∀ len : Nat, hdr < len →
    headerChecks (t.pd i) t.txBuf len = true

/-- Every packet that is started for PD `i` from here, for whatever
command, is. -/
def PacketsStartWell (i : Nat) (s : Osdp) : Prop :=
  ∀ (id maxLen : Nat) (hdr : Int) (t : Osdp),
    osdpPhyPacketInit i maxLen (s.updPd i fun p => { p with cmdId := id })
      = .ok hdr t → 0 ≤ hdr →
    StartsWell i { s.pd i with cmdId := id } hdr t

section Packet

variable {i : Nat} {s t : Osdp}

/-- What fails the checks is refused, and nothing else happens. -/
theorem finalize_refuses (env : Env) {len maxLen : Nat}
    (h : headerChecks (s.pd i) s.txBuf len = false) :
    osdpPhyFinalizePacket env i len maxLen s = .ok errPktFmt s := by
  unfold osdpPhyFinalizePacket
  by_cases hlen : len ≤ pktHdrLen
  · rw [if_pos hlen]
    rfl
  · rw [if_neg hlen, bind_eq (m := getPd i) (s := s) rfl,
      bind_eq (m := readBuf .tx) (s := s) rfl]
    have hbuf : s.buf .tx = s.txBuf := by
      simp [Osdp.buf]
    rw [hbuf]
    dsimp only
    by_cases hmark : (s.pd i).markLen = 1 ∧ byteAt s.txBuf 0 ≠ pktMark
    · rw [if_pos hmark]
      rfl
    · rw [if_neg hmark]
      have hsom : byteAt ((s.txBuf.take len).drop (s.pd i).markLen) 0
          ≠ pktSom := by
        intro hsom
        have hpass : headerChecks (s.pd i) s.txBuf len = true := by
          unfold headerChecks
          rw [hsom]
          simp only [Bool.and_eq_true, decide_eq_true_eq,
            Bool.not_eq_true', Bool.and_eq_false_iff, beq_eq_false_iff_ne,
            bne_eq_false_iff_eq, beq_self_eq_true, and_true]
          refine ⟨Nat.not_le.mp hlen, ?_⟩
          by_cases hm : (s.pd i).markLen = 1
          · exact .inr (not_not.mp fun hne => hmark ⟨hm, hne⟩)
          · exact .inl hm
        rw [hpass] at h
        cases h
      rw [if_pos hsom]
      rfl

/-- A header takes nine bytes at most. -/
theorem init_hdr_le {maxLen : Nat} {hdr : Int}
    (h : osdpPhyPacketInit i maxLen s = .ok hdr t) : hdr ≤ 9 := by
  rcases osdpPhyPacketInit_ok h with ⟨-, rfl, -⟩ | ⟨-, -, -, hhdr⟩
  · decide
  · have hm := markLen_le (t.pd i)
    have hscb := initScbLen_le (s.pd i) (txId (s.pd i))
    have hhdr5 : pktHdrLen = 5 := rfl
    omega

/-- A header that lies where the flag has it passes the checks. -/
theorem headerChecks_of {p : OsdpPd} {buf : Bytes} {len : Nat}
    (hlen : pktHdrLen < len)
    (hmark : p.markLen = 1 → byteAt buf 0 = pktMark)
    (hsom : byteAt buf p.markLen = pktSom) :
    headerChecks p buf len = true := by
  have hle := markLen_le p
  have hhdr : pktHdrLen = 5 := rfl
  have hfirst : byteAt ((buf.take len).drop p.markLen) 0 = pktSom := by
    rw [byteAt_drop, byteAt_take (by omega)]
    exact hsom
  unfold headerChecks
  rw [hfirst]
  simp only [Bool.and_eq_true, decide_eq_true_eq, Bool.not_eq_true',
    Bool.and_eq_false_iff, beq_eq_false_iff_ne, bne_eq_false_iff_eq,
    beq_self_eq_true, and_true]
  refine ⟨hlen, ?_⟩
  by_cases hm : p.markLen = 1
  · exact .inr (hmark hm)
  · exact .inl hm

/-- A packet started where the flag agrees with what is written starts
well. -/
theorem startsWell_of_agrees {maxLen : Nat} {hdr : Int}
    (h : osdpPhyPacketInit i maxLen s = .ok hdr t) (hok : 0 ≤ hdr)
    (hroom : packetBufSize ≤ s.txBuf.length)
    (hm : MarkAgrees (s.pd i)) : StartsWell i (s.pd i) hdr t := by
  obtain ⟨hlaid, hpd, -, -, -, hpos⟩ := laid_init h hok hroom hm
  have hbuf : 8 ≤ s.txBuf.length := Nat.le_trans (by decide) hroom
  rcases osdpPhyPacketInit_ok h with ⟨-, rfl, -⟩ | ⟨-, -, htx, hhdr⟩
  · exact absurd hok (by decide)
  · have hmark : (t.pd i).markLen = somPos (s.pd i) := by
      rw [hpd, markLen_startedPd hm]
    have hhdr : hdr = ((t.pd i).markLen + 5 +
        initScbLen (s.pd i) (txId (s.pd i)) : Nat) := hhdr
    have hle := somPos_le (s.pd i)
    refine ⟨?_, ⟨somPos (s.pd i), ⟨?_, ?_, ?_, fun k hk => ?_⟩, ?_⟩,
      fun len hlt => ?_⟩
    · rw [hhdr, hpos]
    · rw [← hmark]
      exact hlaid.som
    · rw [htx, byteAt_headerBuf_lt hbuf (by omega), if_neg (by omega),
        Nat.add_sub_cancel_left]
      rfl
    · rw [htx]
      exact byteAt_headerBuf_ge (k := 0) hbuf (by omega)
    · rw [htx, show somPos (s.pd i) + 5 + k
        = somPos (s.pd i) + 4 + (k + 1) by omega,
        byteAt_headerBuf_ge hbuf (by omega), byteAt_succ]
    · rw [hhdr, hmark]
    · have hhdr5 : pktHdrLen = 5 := rfl
      exact headerChecks_of (by omega) hlaid.mark hlaid.som

/-- One started without the mark byte it is counted with has no header
that could be finalized. -/
theorem headerChecks_stale {maxLen len : Nat} {hdr : Int}
    (h : osdpPhyPacketInit i maxLen s = .ok hdr t) (hok : 0 ≤ hdr)
    (hroom : packetBufSize ≤ s.txBuf.length)
    (hm : ¬ MarkAgrees (s.pd i)) :
    headerChecks (t.pd i) t.txBuf len = false := by
  obtain ⟨hwrites, hflag⟩ := stale_parts hm
  have hbuf : 8 ≤ s.txBuf.length := Nat.le_trans (by decide) hroom
  rcases osdpPhyPacketInit_ok h with ⟨-, rfl, -⟩ | ⟨-, hpd, htx, -⟩
  · exact absurd hok (by decide)
  · have hsom : somPos (s.pd i) = 0 := by
      unfold somPos
      rw [hwrites]
      rfl
    have hfirst : byteAt t.txBuf 0 = pktSom := by
      rw [htx, byteAt_headerBuf_lt hbuf (by omega), hsom]
      rfl
    have hmark : (t.pd i).markLen = 1 := by
      rw [hpd]
      show (if (s.pd i).flags.pktHasMark || _ then 1 else 0) = 1
      rw [hflag]
      rfl
    unfold headerChecks
    rw [hfirst, hmark]
    have hne : (pktSom != pktMark) = true := by decide
    rw [hne]
    simp

/-- A CP that is to send no mark bytes starts its packets well exactly
where the flag is clear. -/
theorem packetsStartWell_iff (hmode : (s.pd i).flags.pdMode = false)
    (hskip : (s.pd i).flags.pktSkipMark = true)
    (hroom : packetBufSize ≤ s.txBuf.length) :
    PacketsStartWell i s ↔ (s.pd i).flags.pktHasMark = false := by
  have hwrites : writesMark (s.pd i) = false := by
    unfold writesMark
    rw [hmode, hskip]
    rfl
  have hpd (id : Nat) : (s.updPd i fun p => { p with cmdId := id }).pd i
      = { s.pd i with cmdId := id } := updPd_pd_same s i _
  have hagrees (id : Nat) :
      MarkAgrees ((s.updPd i fun p => { p with cmdId := id }).pd i) ↔
        (s.pd i).flags.pktHasMark = false := by
    rw [hpd]
    exact ⟨fun h => h hwrites, fun h _ => h⟩
  constructor
  · intro h
    by_contra hflag
    -- a packet is started, whatever the flag says
    obtain ⟨hdr, t, hinit, hok⟩ : ∃ hdr t, osdpPhyPacketInit i
        packetBufSize (s.updPd i fun p => { p with cmdId := 0 })
          = .ok hdr t ∧ 0 ≤ hdr := by
      unfold osdpPhyPacketInit
      rw [if_neg (by decide), bind_eq (m := getPd i)
        (s := s.updPd i fun p => { p with cmdId := 0 }) rfl, hpd]
      have hw : writesMark { s.pd i with cmdId := 0 } = false := hwrites
      rw [hw, if_neg Bool.false_ne_true]
      exact ⟨_, _, rfl, Int.natCast_nonneg _⟩
    have hwell := h 0 packetBufSize hdr t hinit hok
    have hle : hdr < packetBufSize :=
      Int.lt_of_le_of_lt (init_hdr_le hinit) (by decide)
    have hpass := hwell.checks packetBufSize hle
    rw [headerChecks_stale hinit hok hroom fun e => hflag ((hagrees 0).mp e)]
      at hpass
    cases hpass
  · intro hflag id maxLen hdr t hinit hok
    rw [← hpd id]
    exact startsWell_of_agrees hinit hok hroom ((hagrees id).mpr hflag)

end Packet

-- ================================================================== a run

variable {env : Env} {depth : Nat}

/-- No PD changes its role, or whether it is sent mark bytes. -/
structure MarksKept (s t : Osdp) : Prop where
  num : t.numPd = s.numPd
  pd : ∀ j, ((t.pd j).flags.pdMode, (t.pd j).flags.pktSkipMark)
    = ((s.pd j).flags.pdMode, (s.pd j).flags.pktSkipMark)

instance : IsPreorder Osdp MarksKept where
  refl _ := ⟨rfl, fun _ => rfl⟩
  trans _ _ _ h k := ⟨k.num.trans h.num, fun j => (k.pd j).trans (h.pd j)⟩

theorem marksKept_updPd {s : Osdp} {i : Nat} {f : OsdpPd → OsdpPd}
    (h : (f (s.pd i)).announced = (s.pd i).announced) :
    MarksKept s (s.updPd i f) := by
  refine ⟨rfl, fun j => ?_⟩
  by_cases hj : j = i
  · rw [hj, updPd_pd_same]
    have e := congrArg (fun a => (a.1, a.2.2.2)) h
    exact e
  · rw [updPd_pd_ne s f hj]

/-- The PDs are the same. -/
theorem marksKept_same {s t : Osdp} (hn : t.numPd = s.numPd)
    (hp : t.pd = s.pd) : MarksKept s t :=
  ⟨hn, fun j => by rw [hp]⟩

instance : BusMoves MarksKept where
  call s j f h := marksKept_updPd (by
    have e := congrArg OsdpPd.announced (h (s.pd j))
    exact e)
  enable _ _ _ := marksKept_updPd rfl
  disable _ _ := marksKept_updPd rfl
  note _ _ _ := marksKept_same rfl rfl
  running _ _ := marksKept_same rfl rfl
  entry _ _ _ := marksKept_same rfl rfl
  txBuf _ _ _ := marksKept_same rfl rfl
  flush _ := marksKept_same rfl rfl
  drawn _ _ := marksKept_same rfl rfl

instance (i : Nat) : MarkMoves i MarksKept where
  mark _ _ _ := marksKept_same rfl rfl

instance (i : Nat) : CoreMoves i MarksKept where
  core _ _ _ h := marksKept_updPd (h _)

instance (i : Nat) : PassMoves i MarksKept where
  pass _ _ _ h := marksKept_updPd (h _)
  letGo _ _ _ h := marksKept_updPd (h _)

instance (i : Nat) : CapMoves i MarksKept where
  caps s f h := by
    refine ⟨rfl, fun j => ?_⟩
    by_cases hj : j = i
    · rw [hj, updPd_pd_same]
      have e := congrArg
        (fun p : OsdpPd => (p.flags.pdMode, p.flags.pktSkipMark)) (h (s.pd i))
      exact e
    · rw [updPd_pd_ne s f hj]

instance (i : Nat) : ReadMoves i MarksKept where
  read _ _ h := marksKept_updPd h.announced
  rxBuf _ _ := marksKept_same rfl rfl
  line _ _ := marksKept_same rfl rfl

/-- The PDs that were added are sent mark bytes unless the library was
built to leave them out. -/
def MarksAsBuilt (env : Env) (s : Osdp) : Prop :=
  ∀ j, j < s.numPd → (s.pd j).flags.pktSkipMark = env.skipMarkByte

theorem MarksAsBuilt.step {s t : Osdp} (h : MarksAsBuilt env s)
    (k : MarksKept s t) : MarksAsBuilt env t := by
  intro j hj
  rw [k.num] at hj
  have e := congrArg Prod.snd (k.pd j)
  exact Eq.trans e (h j hj)

/-- Adding PDs sets the flag of the new ones. -/
theorem MarksAsBuilt.addPd {s t : Osdp} {infos : List CpPdInfo}
    (h : MarksAsBuilt env s) (hadd : cpAddPd env s infos = some t) :
    MarksAsBuilt env t := by
  unfold cpAddPd at hadd
  split at hadd
  · cases hadd
  · cases hadd
    intro j hj
    have hj : j < s.numPd + infos.length := hj
    dsimp only
    by_cases hnew : s.numPd ≤ j
    · rw [List.getElem?_eq_getElem (show j - s.numPd < infos.length by omega)]
      dsimp only
      rw [if_pos hnew]
      rfl
    · split
      · rw [if_neg hnew]
        exact h j (Nat.not_le.mp hnew)
      · exact h j (Nat.not_le.mp hnew)

theorem marksAsBuilt_invariant (env : Env) (depth : Nat) :
    CpInvariant env depth (MarksAsBuilt env) where
  call c s t h e := by
    have hk : MarksKept s t :=
      (keeps_cpApiCall (keeps_cpRunCalls depth) c).of e
    exact h.step hk
  addPd infos s t a h e := by
    rcases osdpCpAddPd_ok e with rfl | ⟨-, hadd⟩
    · exact h
    · exact h.addPd hadd
  teardown s t h e := by
    have hk : MarksKept s t :=
      (keeps_osdpCpTeardown (keeps_cpRunCalls depth)
        (fun _ _ => marksKept_updPd rfl)
        fun _ => marksKept_same rfl rfl).of e
    exact h.step hk
  arrive _ _ _ h := h
  begin _ _ _ h := h
  pass s t h _ _ _ e := by
    have hk : MarksKept s t := (read_stateUpdate (keeps_cpRunCalls depth)).of e
    exact h.step hk
  turn _ _ h _ _ := h
  finish _ h := h
  sealed _ h := h

theorem marksAsBuilt_setup {infos : List CpPdInfo} {s : Osdp}
    (h : osdpCpSetup env infos = some s) : MarksAsBuilt env s := by
  unfold osdpCpSetup at h
  split at h
  · cases h
    exact fun j hj => absurd hj (Nat.not_lt_zero j)
  · exact MarksAsBuilt.addPd (fun j hj => absurd hj (Nat.not_lt_zero j)) h

/-- **A CP without mark bytes.**  In every state of a run in which a CP
built to leave out mark bytes may have a packet to build, the packets it
starts for a PD are well laid out, and pass the checks of their header,
exactly when the last header that was received from the PD had no mark
byte either. -/
theorem unmarked_packets (env : Env) (depth : Nat)
    (hskip : env.skipMarkByte = true) (infos : List CpPdInfo) (x : Osdp)
    (hx : CpOnTurn env depth infos x) (i : Nat) (hi : i < x.numPd) :
    PacketsStartWell i x ↔ (x.pd i).flags.pktHasMark = false := by
  have hroom : RoomInv x :=
    hx.invariant (roomInv_invariant env depth) fun _ => roomInv_setup
  have hbuilt : MarksAsBuilt env x :=
    hx.invariant (marksAsBuilt_invariant env depth) fun _ =>
      marksAsBuilt_setup
  exact packetsStartWell_iff (hroom.mode i)
    ((hbuilt i hi).trans hskip) hroom.room

-- =============================================================== examples

/-- The surroundings of a CP built to leave out mark bytes. -/
def unmarkedEnv : Env := { plainCpEnv with skipMarkByte := true }

/-- The first packet goes out, and a REPLY_PDID comes back, behind a mark
byte or not. -/
def pdidInputs (mark : Bytes) : List CpInput :=
  [.refresh 0 [], .refresh 1 [], .refresh 10 (mark ++ writeBe 20
    0x538114000445000000000000000000000000235B)]

/-- After a reply without one, the next packet starts well. -/
theorem unmarked_packets_pdid :
    ∃ s₀ s, osdpCpSetup unmarkedEnv [{ address := 1 }] = some s₀ ∧
      CpRun unmarkedEnv 1 anyCpInput s₀ (pdidInputs []) s ∧
      (s.pd 0).state = .capdet ∧ PacketsStartWell 0 s := by
  obtain ⟨s₀, s, hs, hrun, hnum, hstate, hflag⟩ :=
    run_of_setup (cpStep unmarkedEnv 1) anyCpInput
      (osdpCpSetup unmarkedEnv [{ address := 1 }]) (pdidInputs [])
      (fun s => 0 < s.numPd ∧ (s.pd 0).state = .capdet ∧
        (s.pd 0).flags.pktHasMark = false) (by decide +kernel)
  exact ⟨s₀, s, hs, hrun, hstate, (unmarked_packets unmarkedEnv 1 rfl
    [{ address := 1 }] s (.idle hs hrun) 0 hnum).mpr hflag⟩

/-- After one with a mark byte it does not. -/
theorem marked_reply_unsettles :
    ¬ ∀ (env : Env) (depth : Nat) (infos : List CpPdInfo) (s₀ s : Osdp)
        (l : List CpInput) (i : Nat),
      env.skipMarkByte = true → osdpCpSetup env infos = some s₀ →
      CpRun env depth anyCpInput s₀ l s → i < s.numPd →
      PacketsStartWell i s := by
  intro hall
  obtain ⟨s₀, s, hs, hrun, hnum, hflag, hmode, hskip, hroom⟩ :=
    run_of_setup (cpStep unmarkedEnv 1) anyCpInput
      (osdpCpSetup unmarkedEnv [{ address := 1 }]) (pdidInputs [pktMark])
      (fun s => 0 < s.numPd ∧ (s.pd 0).flags.pktHasMark = true ∧
        (s.pd 0).flags.pdMode = false ∧
        (s.pd 0).flags.pktSkipMark = true ∧
        packetBufSize ≤ s.txBuf.length) (by decide +kernel)
  have hwell := hall unmarkedEnv 1 _ s₀ s _ 0 rfl hs hrun hnum
  rw [packetsStartWell_iff hmode hskip hroom, hflag] at hwell
  cases hwell

end LibOsdp
