/-
What receiving a frame touches.

`Scans` is the frame of everything up to the sequence check: the receive
side of the PD, the session and the retransmit cache (both of which a
restart drops), and the buffers.  `Receives` is the frame of a whole
reception, decoding included: it adds the reply a refusal leaves, the MAC
chain and the peer's choice of key.
-/
import LibOsdp.Phy.Proofs.Decode
import LibOsdp.Phy.Proofs.Footprint

namespace LibOsdp

open Lib

-- ================================================================= frames

/-- A PD without what collecting and checking a frame may change. -/
@[grind] def OsdpPd.sansScan (p : OsdpPd) : OsdpPd :=
  { p with
    rxRb := []
    packetBufLen := 0
    packetLen := 0
    tstamp := 0
    seqNumber := 0
    lastTxLen := 0
    trs := { p.trs with mode := 0 }
    flags :=
      { p.flags with
        pktHasMark := false, pktBroadcast := false, scActive := false } }

/-- The context without its buffers and the line. -/
def Osdp.sansLine (s : Osdp) : Osdp :=
  { s with txBuf := [], rxBuf := [], line := [] }

/-- The entries made while a frame is received. -/
@[grind] def Obs.isRx : Obs → Bool
  | .frame .. | .resent .. | .sent .. => true
  | _ => false

/-- Bytes were collected. -/
abbrev Collects : Osdp → Osdp → Prop :=
  Frame OsdpPd.sansScan Osdp.sansLine Obs.isNone

/-- A frame was collected and checked, short of its sequence number. -/
abbrev Scans : Osdp → Osdp → Prop :=
  Frame OsdpPd.sansScan Osdp.sansLine Obs.isRx

/-- A PD without what receiving a frame may change. -/
@[grind] def OsdpPd.sansRx (p : OsdpPd) : OsdpPd :=
  { p.sansScan with
    replyId := 0
    pending := []
    phyState := .idle
    packetBuf := .tx
    flags :=
      { p.flags with
        pktHasMark := false, pktBroadcast := false, scActive := false
        scUseScbkd := false }
    sc := { p.sc with rMac := [], cMac := [] } }

/-- A frame was received. -/
abbrev Receives : Osdp → Osdp → Prop :=
  Frame OsdpPd.sansRx Osdp.sansLine Obs.isRx

theorem sansRx_of_sansScan {p q : OsdpPd} (h : p.sansScan = q.sansScan) :
    p.sansRx = q.sansRx := by
  have e := congrArg OsdpPd.sansRx h
  exact e

theorem scans_of_collects {α : Type} {m : OsdpM α} (h : Keeps Collects m) :
    Keeps Scans m :=
  h.mono fun _ _ q =>
    q.mono (fun _ _ => id) (fun _ _ => id) fun _ e => by cases e

theorem receives_of_scans {α : Type} {m : OsdpM α} (h : Keeps Scans m) :
    Keeps Receives m :=
  h.mono fun _ _ q => q.mono (fun _ _ => sansRx_of_sansScan)
    (fun _ _ => id) fun _ => id

-- ============================================================ primitives

@[grind ←]
theorem collects_writeBuf (ref : BufRef) (off : Nat) (data : Bytes) :
    Keeps Collects (writeBuf ref off data) := by
  intro s a t e
  unfold writeBuf at e
  split at e
  all_goals
    cases e
    exact ⟨fun _ => rfl, rfl, refl_of (LogExt _) s⟩

@[grind ←]
theorem collects_osdpChannelReceive (i : Nat) :
    Keeps Collects (osdpChannelReceive i) := by
  intro s a t e
  cases e
  have h := Frame.updPd (v := OsdpPd.sansScan) (w := Osdp.sansLine)
    (E := Obs.isNone) s i
    (f := fun p =>
      { p with
        rxRb := (channelReceive (s.line.length + 1) (s.pd i).rxRb
          s.line 0).1 }) fun _ => rfl
  exact ⟨h.pd, rfl, refl_of (LogExt _) s⟩

@[grind ←]
theorem scans_osdpChannelSend {env : Env} (i : Nat) (data : Bytes) :
    Keeps Scans (osdpChannelSend env i data) := by
  intro s a t e
  cases e
  exact ⟨fun _ => rfl, rfl, [_], rfl, fun o ho => by
    rw [List.mem_singleton.mp ho]
    rfl⟩

@[grind ←]
theorem collects_phySetMark (i : Nat) (mark : Bool) :
    Keeps Collects (phySetMark i mark) :=
  keeps_updPd fun _ => rfl

@[grind ←]
theorem scans_scDeactivate (i : Nat) : Keeps Scans (scDeactivate i) :=
  keeps_updPd fun _ => rfl

-- ============================================================== collecting

@[grind ←]
theorem collects_phyFindStart (i : Nat) : Keeps Collects (phyFindStart i) := by
  unfold phyFindStart
  grind

@[grind ←]
theorem collects_phyTopUp (i n : Nat) : Keeps Collects (phyTopUp i n) := by
  unfold phyTopUp
  grind

@[grind ←]
theorem collects_phyFillHeader (i : Nat) : Keeps Collects (phyFillHeader i) := by
  unfold phyFillHeader
  grind

@[grind ←]
theorem collects_phyJudgeHeader (i : Nat) : Keeps Collects (phyJudgeHeader i) := by
  unfold phyJudgeHeader
  grind

@[grind ←]
theorem collects_phyCheckHeader (i : Nat) : Keeps Collects (phyCheckHeader i) := by
  unfold phyCheckHeader
  grind

@[grind ←]
theorem collects_phyReceive (i : Nat) : Keeps Collects (phyReceive i) := by
  unfold phyReceive
  grind

@[grind ←]
theorem collects_phyComplete (i : Nat) : Keeps Collects (phyComplete i) := by
  unfold phyComplete
  grind

@[grind ←]
theorem collects_phyAssemble (i : Nat) : Keeps Collects (phyAssemble i) := by
  unfold phyAssemble
  grind

-- ================================================================ checking

@[grind ←]
theorem scans_writeBuf (ref : BufRef) (off : Nat) (data : Bytes) :
    Keeps Scans (writeBuf ref off data) :=
  scans_of_collects (collects_writeBuf ref off data)

@[grind ←]
theorem scans_phyAssemble (i : Nat) : Keeps Scans (phyAssemble i) :=
  scans_of_collects (collects_phyAssemble i)

section Checking

variable {env : Env}

@[grind ←]
theorem scans_phyRestart (i : Nat) : Keeps Scans (phyRestart i) := by
  unfold phyRestart
  grind

@[grind ←]
theorem scans_phyResend (i : Nat) (frame rest : Bytes) :
    Keeps Scans (phyResend env i frame rest) := by
  unfold phyResend
  grind

@[grind =]
theorem sansScan_phyRollbackSeqNumber (p : OsdpPd) :
    (phyRollbackSeqNumber p).sansScan = p.sansScan := rfl

/-- The last act of a frame check: the sequence number is right and
nothing happens, or it is wrong and a NAK is left behind. -/
def SequenceChecked (i : Nat) (s : Osdp) (r : Int) (t : Osdp) : Prop :=
  if r = errPktNack then t = s.updPd i (·.nak nakSeqNum) else t = s

@[grind ←]
theorem ends_phyCheckSequence (i : Nat) (frame : Bytes) :
    Ends Scans (SequenceChecked i) (phyCheckSequence i frame) := by
  refine .last fun s r t h => ?_
  unfold phyCheckSequence at h
  obtain ⟨p, u, hg, h⟩ := bind_ok.mp h
  obtain ⟨rfl, rfl⟩ := getPd_ok.mp hg
  split at h
  · obtain ⟨a, v, hu, h⟩ := bind_ok.mp h
    obtain ⟨rfl, rfl⟩ := pure_ok.mp h
    exact (updPd_ok.mp hu).symm
  · obtain ⟨rfl, rfl⟩ := pure_ok.mp h
    rfl

@[grind ←]
theorem ends_phyAcceptPd (i : Nat) (frame : Bytes) :
    Ends Scans (SequenceChecked i) (phyAcceptPd i frame) := by
  unfold phyAcceptPd
  grind

/-- Nothing happened, and the result is no NAK. -/
@[grind ←]
theorem sequenceChecked_self {i : Nat} {s : Osdp} {r : Int}
    (h : r ≠ errPktNack) : SequenceChecked i s r s := by
  rw [SequenceChecked, if_neg h]

@[grind ←]
theorem ends_phyCheckPacketPd (i : Nat) (frame rest : Bytes) :
    Ends Scans (SequenceChecked i) (phyCheckPacketPd env i frame rest) := by
  unfold phyCheckPacketPd
  grind

@[grind ←]
theorem ends_phyCheckPacketCp (i : Nat) (frame : Bytes) :
    Ends Scans (SequenceChecked i) (phyCheckPacketCp i frame) := by
  unfold phyCheckPacketCp
  grind

@[grind ←]
theorem ends_phyCheckPacket (i : Nat) (pkt : Bytes) (len : Nat) :
    Ends Scans (SequenceChecked i) (phyCheckPacket env i pkt len) := by
  unfold phyCheckPacket
  grind

-- ====================================================== the whole check

/-- A header is a length, or one of three codes. -/
theorem phyValidateHeader_ne_nack (p : OsdpPd) (buf : Bytes)
    (bufLen maxLen : Nat) :
    (phyValidateHeader p buf bufLen maxLen).2 ≠ errPktNack := by
  unfold phyValidateHeader
  dsimp only
  repeat' split
  all_goals
    simp only [errPktNack, errPktWait, errPktFmt, errPktSkip]
    omega

/-- The result says nothing about a NAK. -/
@[grind] def NotNack (r : Int) : Prop := r ≠ errPktNack

@[grind ←]
theorem returns_phyJudgeHeader (i : Nat) :
    Returns NotNack (phyJudgeHeader i) := by
  have h := phyValidateHeader_ne_nack
  unfold phyJudgeHeader
  grind

@[grind ←]
theorem returns_phyCheckHeader (i : Nat) :
    Returns NotNack (phyCheckHeader i) := by
  unfold phyCheckHeader
  grind

@[grind ←]
theorem returns_phyComplete (i : Nat) :
    Returns NotNack (phyComplete i) := by
  unfold phyComplete
  grind

/-- No frame is answered before it is complete. -/
theorem returns_phyAssemble (i : Nat) :
    Returns NotNack (phyAssemble i) := by
  unfold phyAssemble
  refine .bind fun _ => .bind fun p => ?_
  split
  · refine .bind_of (returns_phyCheckHeader i) fun r hr => ?_
    grind
  · grind

/-- A frame check ends with the sequence number, if it gets that far. -/
theorem ends_osdpPhyCheckPacket (i : Nat) :
    Ends Scans (SequenceChecked i) (osdpPhyCheckPacket env i) := by
  unfold osdpPhyCheckPacket
  refine .bind_of (scans_phyAssemble i) (returns_phyAssemble i)
    fun err herr => ?_
  grind

-- ================================================================ decoding

/-- The buffer a received frame lies in, from SOM on. -/
def Osdp.frameBuf (s : Osdp) (i : Nat) : Bytes :=
  (s.buf (s.pd i).packetBuf).drop (s.pd i).markLen

/-- The length of the frame in it. -/
def Osdp.frameLen (s : Osdp) (i : Nat) : Nat :=
  (s.pd i).packetBufLen - (s.pd i).markLen

/-- Decoding stays within the footprint of a reception. -/
theorem Decoded.sansRx {p : OsdpPd} {pkt : Bytes} {n : Nat}
    {r : DecodeResult} (h : Decoded env p pkt n r) :
    r.pd.sansRx = p.sansRx := by
  have hsel : (takeSelector p pkt).sansRx = p.sansRx := by
    unfold takeSelector
    split <;> rfl
  have hmac : (afterMac env p pkt n).sansRx = p.sansRx := by
    rw [← hsel]
    unfold afterMac phyComputeMac osdpComputeMac
    split <;> rfl
  cases h with
  | refused code href => rfl
  | plain href hm => exact hsel
  | dropped pkt' href hm hbad => exact hmac
  | maced href hm hok he => exact hmac
  | decrypted pkt' text href hm hok he => exact hmac

/-- A run of the decoder is a decode of the frame in hand. -/
theorem osdpPhyDecodePacket_ok {i : Nat} {s t : Osdp} {len : Int}
    {payload : Bytes}
    (h : osdpPhyDecodePacket env i s = .ok (len, payload) t) :
    ∃ r, phyDecode env (s.pd i) (s.frameBuf i) (s.frameLen i) = .ok r ∧
      r.len = len ∧ r.payload = payload ∧ t.pd i = r.pd ∧
      Receives s t ∧ t.log = s.log := by
  unfold osdpPhyDecodePacket at h
  obtain ⟨p, u, hg, h⟩ := bind_ok.mp h
  obtain ⟨rfl, rfl⟩ := getPd_ok.mp hg
  obtain ⟨buf, v, hb, h⟩ := bind_ok.mp h
  cases hb
  cases hr : phyDecode env (s.pd i) (s.frameBuf i) (s.frameLen i) with
  | error f =>
    unfold Osdp.frameBuf Osdp.frameLen at hr
    rw [hr] at h
    exact absurd h throw_ok
  | ok r =>
    have hr' := hr
    unfold Osdp.frameBuf Osdp.frameLen at hr'
    rw [hr'] at h
    obtain ⟨_, w, hw, h⟩ := bind_ok.mp h
    obtain ⟨_, x, hx, h⟩ := bind_ok.mp h
    obtain ⟨e, rfl⟩ := pure_ok.mp h
    obtain ⟨rfl, rfl⟩ := Prod.mk.inj e
    have hx := updPd_ok.mp hx
    subst hx
    have hS : Scans s w := (scans_writeBuf _ _ _).of hw
    have hwpd : w.pd = s.pd ∧ w.log = s.log := by
      unfold writeBuf at hw
      split at hw <;> (cases hw; exact ⟨rfl, rfl⟩)
    refine ⟨r, rfl, rfl, rfl, by rw [updPd_pd_same], ?_, hwpd.2⟩
    have hrest : Receives s w := (receives_of_scans (scans_writeBuf _ _ _)).of hw
    refine ⟨fun j => ?_, hrest.rest, hrest.log⟩
    by_cases hj : j = i
    · subst hj
      rw [updPd_pd_same]
      exact (decoded_of hr).sansRx
    · rw [updPd_pd_ne w _ hj, hwpd.1]

@[grind ←]
theorem receives_osdpPhyDecodePacket (i : Nat) :
    Keeps Receives (osdpPhyDecodePacket env i) := by
  rintro s ⟨len, payload⟩ t h
  obtain ⟨r, -, -, -, -, hR, -⟩ := osdpPhyDecodePacket_ok h
  exact hR

@[grind ←]
theorem receives_osdpPhyCheckPacket (i : Nat) :
    Keeps Receives (osdpPhyCheckPacket env i) := by
  intro s r t h
  obtain ⟨u, hS, hc⟩ := ends_osdpPhyCheckPacket i s r t h
  have hR : Receives s u :=
    hS.mono (fun _ _ => sansRx_of_sansScan) (fun _ _ => id) fun _ => id
  unfold SequenceChecked at hc
  split at hc
  · subst hc
    exact trans_of Receives hR (Frame.updPd u i (f := (·.nak nakSeqNum)) fun _ => rfl)
  · subst hc
    exact hR

/-- Letting go of a frame. -/
@[grind ←]
theorem receives_osdpPhyStateReset (i : Nat) :
    Keeps Receives (osdpPhyStateReset env i false) := by
  unfold osdpPhyStateReset
  grind

end Checking

end LibOsdp
