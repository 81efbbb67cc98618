/-
Framing and the way a stream is cut into chunks.

A run is a list of calls of `osdp_phy_check_packet`, each with the bytes
that arrived since the one before.  What a call hands on is looked at
where the code hands it on: a whole frame with the mark flag, or a header
that `phy_validate_header` refuses.  After a frame, and after a packet to
be skipped, the caller resets the receive state and goes on; nothing is
timed out.

Such a run is one on the receive side alone (`phyPoll_ok`), since what
is done with a frame after it was handed over leaves the receive side as
it is (`stays_phyCheckPacket`).
-/
import LibOsdp.Phy.Proofs.Framing
import LibOsdp.Lib.Stays
import LibOsdp.Pd.Api

namespace LibOsdp

open Lib

-- ============================================================== the calls

variable (env : Env) (i : Nat)

/-- Bytes arrive on the line. -/
def Osdp.load (s : Osdp) (c : Bytes) : Osdp := { s with line := s.line ++ c }

/-- The header a call judges, with its verdict and the mark flag it
leaves: `phy_check_header` up to that point. -/
def headerJudged : OsdpM (Option (Bytes × Bool × Int)) := do
  phyReceive i
  let p ← getPd i
  if p.packetLen ≠ 0 then
    return none
  if !(← phyFindStart i) then
    return none
  phyFillHeader i
  let p ← getPd i
  let buf ← readBuf p.packetBuf
  return some (buf.take p.packetBufLen,
    phyValidateHeader p buf p.packetBufLen packetBufSize)

/-- What a call of `osdp_phy_check_packet` makes known: the frame it hands
to `phy_check_packet`, or else the header it refuses. -/
def phyHeard (s : Osdp) : Option Finding :=
  match phyAssemble i s with
  | .ok rc t =>
    let p := t.pd i
    if rc = errPktNone then
      some (frameHeard p.flags.pktHasMark
        ((t.buf p.packetBuf).take p.packetLen))
    else
      match headerJudged i s with
      | .ok (some (b, m, v)) _ =>
        if v = errPktFmt ∨ v = errPktSkip then some (headerHeard m b)
        else none
      | _ => none
  | .error _ _ => none

/-- `osdp_phy_state_reset`, run. -/
def startOver (s : Osdp) : Osdp :=
  match osdpPhyStateReset env i false s with
  | .ok _ t => t
  | .error _ t => t

/-- A call of `osdp_phy_check_packet` with `c` newly on the line.  After
anything but a wait for more bytes its caller starts over. -/
def phyPoll (c : Bytes) (s : Osdp) : Osdp :=
  match osdpPhyCheckPacket env i (s.load c) with
  | .ok rc t =>
    if rc = errPktWait ∨ rc = errPktNoData then t else startOver env i t
  | .error _ t => startOver env i t

/-- What is made known in a run of calls, one chunk arriving for each. -/
def phyHeardAll : List Bytes → Osdp → List Finding
  | [], _ => []
  | c :: cs, s =>
    (phyHeard i (s.load c)).toList ++ phyHeardAll cs (phyPoll env i c s)

/-- No call of the run forgets anything: `slips`, of the state before the
call, the bytes that arrive for it and those that arrive later. -/
def KeepsPlace : List Bytes → Osdp → Prop
  | [], _ => True
  | c :: cs, s =>
    slips (s.pd i).flags.pdMode (s.rx i).pos ((s.rx i).held ++ c) cs.flatten
        = false ∧
      KeepsPlace cs (phyPoll env i c s)

instance decidableKeepsPlace :
    ∀ cs s, Decidable (KeepsPlace env i cs s)
  | [], _ => isTrue trivial
  | c :: cs, s =>
    have := decidableKeepsPlace cs (phyPoll env i c s)
    inferInstanceAs (Decidable (_ ∧ _))

/-- Nothing was received yet. -/
def FreshRx (s : Osdp) : Prop :=
  (s.pd i).packetBufLen = 0 ∧ (s.pd i).packetLen = 0 ∧ (s.pd i).rxRb = [] ∧
    s.line = []

instance (s : Osdp) : Decidable (FreshRx i s) :=
  inferInstanceAs (Decidable (_ ∧ _ ∧ _ ∧ _))

section Calls

variable {env : Env} {i : Nat} {pdMode : Bool} {s t : Osdp} {r : RxSide}

/-- The receive side and the buffers are left alone, and so is the line,
unless it is flushed. -/
structure RxKept (i : Nat) (s t : Osdp) : Prop where
  side : ∀ pdMode r, TakesIn i pdMode s r → TakesIn i pdMode t r
  line : t.line = s.line ∨ t.line = []
  buf : t.buf = s.buf

instance : IsPreorder Osdp (RxKept i) where
  refl _ := ⟨fun _ _ h => h, .inl rfl, rfl⟩
  trans := by
    intro _ _ _ h₁ h₂
    refine ⟨fun pdMode r h => h₂.side pdMode r (h₁.side pdMode r h), ?_,
      h₂.buf.trans h₁.buf⟩
    rcases h₂.line with e | e
    · rw [e]
      exact h₁.line
    · exact .inr e

/-- The result is none that waits for more bytes. -/
def Settles (rc : Int) : Prop := ¬ (rc = errPktWait ∨ rc = errPktNoData)

/-- What of a PD the receive side is made of. -/
def OsdpPd.rxPart (p : OsdpPd) : Nat × BufRef × Bool × Nat × Bytes × Bool :=
  (p.packetBufLen, p.packetBuf, p.flags.pdMode, p.packetLen, p.rxRb,
    p.flags.pktHasMark)

/-- Changing anything else keeps it. -/
theorem stays_updPd {f : OsdpPd → OsdpPd}
    (hf : ∀ p, (f p).rxPart = p.rxPart) :
    Stays (RxKept i) (fun _ => True) (updPd i f) := by
  refine .of_total fun s => ⟨(), _, updPd_ok.mpr rfl, ⟨?_, .inl rfl, rfl⟩,
    trivial⟩
  intro pdMode r h
  have hpart := hf (s.pd i)
  simp only [OsdpPd.rxPart, Prod.mk.injEq] at hpart
  obtain ⟨hfill, href, hmode, hlen, hring, hmark⟩ := hpart
  have hupd := h.upd hfill href hmode
  rw [hlen, hring, hmark, h.len, h.ring, h.mark] at hupd
  exact hupd

theorem stays_getPd : Stays (RxKept i) (fun _ => True) (getPd i) :=
  .of_total fun s =>
    ⟨_, s, getPd_ok.mpr ⟨rfl, rfl⟩, refl_of (RxKept i) s, trivial⟩

theorem stays_readBuf (ref : BufRef) :
    Stays (RxKept i) (fun _ => True) (readBuf ref) :=
  .of_total fun s => ⟨s.buf ref, s, rfl, refl_of (RxKept i) s, trivial⟩

theorem stays_observe (o : Obs) :
    Stays (RxKept i) (fun _ => True) (observe o) :=
  .of_total fun _ => ⟨(), _, observe_ok.mpr rfl,
    ⟨fun _ _ h => ⟨h.room, h.mode, h.side⟩, .inl rfl, rfl⟩, trivial⟩

theorem stays_osdpChannelSend (data : Bytes) :
    Stays (RxKept i) (fun _ => True) (osdpChannelSend env i data) := by
  refine .of_total fun s => ⟨_, _, rfl, ⟨fun _ _ h =>
    ⟨h.room, h.mode, h.side⟩, ?_, rfl⟩, trivial⟩
  show (if env.channelFlush then [] else s.line) = s.line ∨
    (if env.channelFlush then [] else s.line) = []
  split
  · exact .inr rfl
  · exact .inl rfl

theorem stays_phyResend (frame rest : Bytes) :
    Stays (RxKept i) (fun _ => True) (phyResend env i frame rest) := by
  unfold phyResend
  refine .bind stays_getPd fun p _ => ?_
  split
  · have hsend : Stays (RxKept i) (fun _ => True) (do
        let buf ← readBuf .tx
        observe (.resent i (buf.take p.lastTxLen))
        let _ ← osdpChannelSend env i (buf.take p.lastTxLen)
        return true) := by
      refine .bind (stays_readBuf _) fun buf _ => ?_
      refine .bind (stays_observe _) fun _ _ => ?_
      exact .bind (stays_osdpChannelSend _) fun _ _ => .pure trivial
    dsimp only
    split
    · exact .bind (Q := fun _ => True) (.throw _) fun _ _ => hsend
    · exact hsend
  · have hdrop : Stays (RxKept i) (fun _ => True) (do
        updPd i fun p => { p with lastTxLen := 0 }
        return false) :=
      .bind (stays_updPd fun _ => rfl) fun _ _ => .pure trivial
    dsimp only
    split
    · exact .bind (Q := fun _ => True) (.throw _) fun _ _ => hdrop
    · exact hdrop

theorem stays_phyCheckSequence (frame : Bytes) :
    Stays (RxKept i) Settles (phyCheckSequence i frame) := by
  unfold phyCheckSequence
  refine .bind stays_getPd fun p _ => ?_
  split
  · refine .bind (stays_updPd fun _ => rfl) fun _ _ => ?_
    exact .pure (by unfold Settles; decide)
  · exact .pure (by unfold Settles; decide)

theorem stays_phyAcceptPd (frame : Bytes) :
    Stays (RxKept i) Settles (phyAcceptPd i frame) := by
  unfold phyAcceptPd
  split
  · exact .bind (stays_updPd fun _ => rfl) fun _ _ =>
      stays_phyCheckSequence frame
  · exact stays_phyCheckSequence frame

theorem stays_phyRestart :
    Stays (RxKept i) (fun _ => True) (phyRestart i) := by
  unfold phyRestart scDeactivate
  refine .bind (stays_updPd fun _ => rfl) fun _ _ => ?_
  refine .bind (stays_updPd fun _ => rfl) fun _ _ => ?_
  exact stays_updPd fun _ => rfl

theorem stays_phyCheckPacketPd (frame rest : Bytes) :
    Stays (RxKept i) Settles (phyCheckPacketPd env i frame rest) := by
  have hback : Stays (RxKept i) (fun _ => True)
      (updPd i phyRollbackSeqNumber) :=
    stays_updPd fun _ => rfl
  have hskip : Settles errPktSkip := by
    unfold Settles
    decide
  unfold phyCheckPacketPd
  refine .bind stays_getPd fun p _ => ?_
  have haccept : Stays (RxKept i) Settles (phyAcceptPd i frame) :=
    stays_phyAcceptPd frame
  have hagain : Stays (RxKept i) Settles (do
      updPd i phyRollbackSeqNumber
      phyAcceptPd i frame) :=
    .bind hback fun _ _ => haccept
  dsimp only
  split
  · exact .bind stays_phyRestart fun _ _ => haccept
  · split
    · split
      · refine .bind (stays_phyResend frame rest) fun resent _ => ?_
        split
        · exact .pure hskip
        · exact hagain
      · exact hagain
    · exact haccept

theorem stays_phyCheckPacketCp (frame : Bytes) :
    Stays (RxKept i) Settles (phyCheckPacketCp i frame) := by
  unfold phyCheckPacketCp
  split
  · exact .pure (by unfold Settles; decide)
  · exact stays_phyCheckSequence frame

/-- The rest of a check is done on the frame and leaves the receive side
alone. -/
theorem stays_phyCheckPacket (pkt : Bytes) (len : Nat) :
    Stays (RxKept i) Settles (phyCheckPacket env i pkt len) := by
  unfold phyCheckPacket
  dsimp only
  split
  · exact .pure (by unfold Settles; decide)
  · refine .bind stays_getPd fun p _ => ?_
    split
    · refine .pure ?_
      unfold Settles
      split <;> decide
    · split
      · exact stays_phyCheckPacketPd _ pkt
      · exact stays_phyCheckPacketCp _

/-- The receive side is cleared, and the ring with it kept. -/
theorem startOver_ok (h : TakesIn i pdMode s r) :
    TakesIn i pdMode (startOver env i s) { r with buf := [], len := 0 } ∧
      (startOver env i s).line = s.line ∧
      (startOver env i s).buf = s.buf := by
  let f : OsdpPd → OsdpPd := fun p =>
    { p with
      packetBufLen := 0, packetLen := 0, phyState := .idle
      packetBuf := .rx }
  have hover : startOver env i s = s.updPd i f := rfl
  rw [hover]
  refine ⟨⟨?_, ?_, ?_⟩, rfl, rfl⟩
  · rw [updPd_pd_same]
    exact Nat.zero_le _
  · rw [updPd_pd_same]
    exact h.mode
  · unfold Osdp.rx
    simp only [updPd_pd_same]
    show (⟨List.take 0 _, 0, (s.pd i).rxRb, (s.pd i).flags.pktHasMark⟩ :
      RxSide) = _
    rw [List.take_zero, h.ring, h.mark]

/-- The header that is judged in a call. -/
theorem headerJudged_ok (h : TakesIn i pdMode s r)
    (hfit : r.ring.length + s.line.length ≤ rxRbSize - 1) :
    ∃ t, headerJudged i s
      = .ok (({ r with ring := r.ring ++ s.line } : RxSide).judged pdMode)
        t := by
  obtain ⟨u, hu, hur, -⟩ := phyReceive_ok h hfit
  generalize ({ r with ring := r.ring ++ s.line } : RxSide) = q at hur ⊢
  unfold RxSide.judged
  by_cases hlen : q.len = 0
  · rw [if_pos hlen]
    cases hstart : q.findStart with
    | none =>
      obtain ⟨v, hv, -, -⟩ := findStart_none hur hstart
      refine ⟨v, bind_ok.mpr ⟨(), u, hu, ?_⟩⟩
      refine bind_ok.mpr ⟨_, _, getPd_ok.mpr ⟨rfl, rfl⟩, ?_⟩
      rw [if_neg (not_not.mpr (by rw [hur.len]; exact hlen))]
      exact bind_ok.mpr ⟨false, v, hv, rfl⟩
    | some q' =>
      obtain ⟨v, hv, hvr, -⟩ := findStart_some hur hstart
      obtain ⟨w, hw, hwr, -⟩ := fillHeader_ok hvr (findStart_buf hstart)
      refine ⟨w, bind_ok.mpr ⟨(), u, hu, ?_⟩⟩
      refine bind_ok.mpr ⟨_, _, getPd_ok.mpr ⟨rfl, rfl⟩, ?_⟩
      rw [if_neg (not_not.mpr (by rw [hur.len]; exact hlen))]
      refine bind_ok.mpr ⟨true, v, hv, bind_ok.mpr ⟨(), w, hw, ?_⟩⟩
      refine bind_ok.mpr ⟨_, _, getPd_ok.mpr ⟨rfl, rfl⟩, ?_⟩
      refine bind_ok.mpr ⟨w.buf (w.pd i).packetBuf, w, rfl, ?_⟩
      rw [judgeHeader_eq hwr, hwr.buf]
      rfl
  · rw [if_neg hlen]
    refine ⟨u, bind_ok.mpr ⟨(), u, hu, ?_⟩⟩
    refine bind_ok.mpr ⟨_, _, getPd_ok.mpr ⟨rfl, rfl⟩, ?_⟩
    rw [if_pos (by rw [hur.len]; exact hlen)]
    rfl

/-- A frame that is whole fills the buffer. -/
theorem complete_whole (h : r.complete.1 = errPktNone) :
    r.complete.2.buf.length = r.complete.2.len := by
  unfold RxSide.complete at h ⊢
  by_cases hlong : r.len < r.buf.length
  · rw [if_pos hlong] at h
    cases h
  · rw [if_neg hlong] at h ⊢
    dsimp only at h ⊢
    by_cases hfull : (r.topUp (r.len - r.buf.length)).buf.length
        ≠ (r.topUp (r.len - r.buf.length)).len
    · rw [if_pos hfull] at h
      cases h
    · exact not_not.mp hfull

theorem takeHeader_whole (h : (r.takeHeader pdMode).1 = errPktNone) :
    (r.takeHeader pdMode).2.buf.length = (r.takeHeader pdMode).2.len := by
  unfold RxSide.takeHeader at h ⊢
  dsimp only at h ⊢
  by_cases hfmt : (judgeHeader pdMode r.mark r.buf).2 = errPktFmt
  · rw [if_pos hfmt] at h
    cases h
  · rw [if_neg hfmt] at h ⊢
    by_cases hneg : (judgeHeader pdMode r.mark r.buf).2 < 0
    · rw [if_pos hneg] at h
      rw [errPktNone] at h
      dsimp only at h
      omega
    · rw [if_neg hneg] at h ⊢
      exact complete_whole h

theorem assemble_whole (h : (r.assemble pdMode).1 = errPktNone) :
    (r.assemble pdMode).2.buf.length = (r.assemble pdMode).2.len := by
  unfold RxSide.assemble at h ⊢
  by_cases hlen : r.len = 0
  · rw [if_pos hlen] at h ⊢
    cases hstart : r.findStart with
    | none =>
      rw [hstart] at h
      cases h
    | some t =>
      rw [hstart] at h
      exact takeHeader_whole h
  · rw [if_neg hlen] at h ⊢
    exact complete_whole h

/-- What a call makes known is what its receive side makes known. -/
theorem phyHeard_eq (h : TakesIn i pdMode s r)
    (hfit : r.ring.length + s.line.length ≤ rxRbSize - 1) :
    phyHeard i s
      = ({ r with ring := r.ring ++ s.line } : RxSide).heard pdMode := by
  obtain ⟨t, ht, htr, -⟩ := assemble_ok h hfit
  obtain ⟨u, hu⟩ := headerJudged_ok h hfit
  generalize ({ r with ring := r.ring ++ s.line } : RxSide) = q at *
  unfold phyHeard RxSide.heard
  rw [ht, hu]
  dsimp only
  by_cases hnone : (q.assemble pdMode).1 = errPktNone
  · have hwhole := assemble_whole hnone
    rw [if_pos hnone, if_pos hnone, htr.mark, htr.len, ← htr.buf,
      htr.filled, hwhole, List.take_take, Nat.min_self]
  · rw [if_neg hnone, if_neg hnone]
    cases q.judged pdMode with
    | none => rfl
    | some v => rfl

/-- A call of `osdp_phy_check_packet`, and what its caller does after it,
is a call on the receive side, with the ring as the reads left it. -/
theorem phyPoll_takes {c : Bytes} {u : Osdp} {q : RxSide}
    (hu : phyReceive i (s.load c) = .ok () u) (hur : TakesIn i pdMode u q) :
    ∃ rc t, phyAssemble i (s.load c) = .ok rc t ∧
      TakesIn i pdMode (phyPoll env i c s) (q.call pdMode []).2 ∧
      ((phyPoll env i c s).line = u.line ∨ (phyPoll env i c s).line = []) ∧
      (phyPoll env i c s).buf = t.buf := by
  obtain ⟨t, ht, htr, htline⟩ := assemble_takes hu hur
  refine ⟨_, t, ht, ?_⟩
  unfold RxSide.call
  rw [List.append_nil]
  dsimp only
  have hover (v : Osdp) (hv : TakesIn i pdMode v (q.assemble pdMode).2)
      (hline : v.line = u.line ∨ v.line = []) (hbuf : v.buf = t.buf) :
      TakesIn i pdMode (startOver env i v)
          { (q.assemble pdMode).2 with buf := [], len := 0 } ∧
        ((startOver env i v).line = u.line ∨
          (startOver env i v).line = []) ∧
        (startOver env i v).buf = t.buf := by
    obtain ⟨hr, hl, hb⟩ := @startOver_ok env i _ _ _ hv
    rw [hl, hb]
    exact ⟨hr, hline, hbuf⟩
  by_cases hnone : (q.assemble pdMode).1 = errPktNone
  · have hset : ¬ (errPktNone = errPktWait ∨ errPktNone = errPktNoData) := by
      decide
    rw [hnone, if_neg hset]
    rw [hnone] at ht
    have hcheck := bind_eq (k := fun err => do
      if err ≠ errPktNone then
        return err
      let p ← getPd i
      let buf ← readBuf p.packetBuf
      observe (.frame i ((buf.take p.packetLen).drop p.markLen))
      phyCheckPacket env i (buf.drop p.markLen) (p.packetLen - p.markLen))
      ht
    have htail : Stays (RxKept i) Settles (do
        let p ← getPd i
        let buf ← readBuf p.packetBuf
        observe (.frame i ((buf.take p.packetLen).drop p.markLen))
        phyCheckPacket env i (buf.drop p.markLen)
          (p.packetLen - p.markLen)) := by
      refine .bind stays_getPd fun p _ => ?_
      refine .bind (stays_readBuf _) fun buf _ => ?_
      exact .bind (stays_observe _) fun _ _ => stays_phyCheckPacket _ _
    rw [if_neg (not_not.mpr rfl)] at hcheck
    have hkeep {v : Osdp} (hkept : RxKept i t v) :
        v.line = u.line ∨ v.line = [] := by
      rw [← htline]
      exact hkept.line
    unfold phyPoll osdpPhyCheckPacket
    rw [hcheck]
    split
    · next rc v hv =>
      obtain ⟨hkept, hset'⟩ := htail.ok t rc v hv
      rw [if_neg hset']
      exact hover v (hkept.side pdMode _ htr) (hkeep hkept) hkept.buf
    · next e v hv =>
      have hkept := htail.error t e v hv
      exact hover v (hkept.side pdMode _ htr) (hkeep hkept) hkept.buf
  · have hcheck : osdpPhyCheckPacket env i (s.load c)
        = .ok (q.assemble pdMode).1 t := by
      refine bind_ok.mpr ⟨(q.assemble pdMode).1, t, ht, ?_⟩
      rw [if_pos hnone]
      rfl
    unfold phyPoll
    rw [hcheck]
    dsimp only
    by_cases hwait : (q.assemble pdMode).1 = errPktWait ∨
        (q.assemble pdMode).1 = errPktNoData
    · rw [if_pos hwait, if_pos hwait]
      exact ⟨htr, .inl htline, rfl⟩
    · rw [if_neg hwait, if_neg hwait]
      exact hover t htr (.inl htline) rfl

/-- The same, where all that arrived fits the ring. -/
theorem phyPoll_ok {c : Bytes} (h : TakesIn i pdMode s r)
    (hline : s.line = [])
    (hfit : r.ring.length + c.length ≤ rxRbSize - 1) :
    phyHeard i (s.load c) = (r.call pdMode c).1 ∧
      TakesIn i pdMode (phyPoll env i c s) (r.call pdMode c).2 ∧
      (phyPoll env i c s).line = [] := by
  have hload : TakesIn i pdMode (s.load c) r := ⟨h.room, h.mode, h.side⟩
  have hc : (s.load c).line = c := by
    unfold Osdp.load
    rw [hline, List.nil_append]
  have hheard := phyHeard_eq hload (by rw [hc]; exact hfit)
  obtain ⟨u, hu, hur, huline⟩ := phyReceive_ok hload (by rw [hc]; exact hfit)
  obtain ⟨rc, t, -, hnext, hempty, -⟩ := @phyPoll_takes env i _ _ _ _ _ hu hur
  rw [huline, or_self] at hempty
  have hcall : (({ r with ring := r.ring ++ (s.load c).line } : RxSide).call
      pdMode []).2 = (r.call pdMode c).2 := by
    unfold RxSide.call
    rw [List.append_nil, hc]
  rw [hcall] at hnext
  rw [hc] at hheard
  exact ⟨hheard, hnext, hempty⟩

/-- A run of calls is one on the receive side. -/
theorem phyHeardAll_eq {cs : List Bytes} {pos : Option Bool} {l : Bytes}
    (h : TakesIn i pdMode s r) (hat : r.At pdMode pos l)
    (hline : s.line = [])
    (hfit : r.size + cs.flatten.length ≤ rxRbSize - 1) :
    phyHeardAll env i cs s = r.heardAll pdMode cs ∧
      (KeepsPlace env i cs s → r.KeepsPlace pdMode cs) := by
  induction cs generalizing s r pos l with
  | nil => exact ⟨rfl, fun _ => trivial⟩
  | cons c cs ih =>
    rw [List.flatten_cons, List.length_append] at hfit
    have hring : r.ring.length ≤ r.size := Nat.le_add_left _ _
    obtain ⟨hheard, hnext, hempty⟩ := @phyPoll_ok env i _ _ _ c h hline
      (by omega)
    have hcall := call_spec hat c
    obtain ⟨pos', l', hat'⟩ := hcall.at
    have hsize := hcall.size.1
    have hgrow : inHand pos (l ++ c) = r.size + c.length := by
      rw [← hat.eq.2.2]
      unfold inHand
      rw [List.length_append]
      omega
    obtain ⟨hrest, hkeep⟩ := ih hnext hat' hempty (by omega)
    refine ⟨?_, fun hk => ?_⟩
    · show (phyHeard i (s.load c)).toList ++ _ = _
      rw [hheard, hrest]
      rfl
    · obtain ⟨hslip, hk⟩ := hk
      rw [h.mode, h.side] at hslip
      exact ⟨hslip, hkeep hk⟩

/-- A receive side that has received nothing. -/
theorem FreshRx.takesIn (h : FreshRx i s) :
    TakesIn i (s.pd i).flags.pdMode s
      ⟨[], 0, [], (s.pd i).flags.pktHasMark⟩ := by
  obtain ⟨hfill, hlen, hring, -⟩ := h
  refine ⟨?_, rfl, ?_⟩
  · rw [hfill]
    exact Nat.zero_le _
  · unfold Osdp.rx
    dsimp only
    rw [hfill, hlen, hring, List.take_zero]

end Calls

-- =============================================================== the claim

/-- However a stream that fits the ring is cut into the chunks that
arrive for one call after the other: if no call forgets anything, the
calls hand over the frames and refuse the headers that they would with
the whole stream there at once. -/
theorem framing_of_chunks (env : Env) (i : Nat) (s : Osdp)
    (chunks : List Bytes) (n m : Nat) (hfresh : FreshRx i s)
    (hfit : chunks.flatten.length ≤ rxRbSize - 1)
    (hn : chunks.flatten.length < n) (hm : chunks.flatten.length < m)
    (hkeep : KeepsPlace env i chunks s) :
    phyHeardAll env i (chunks ++ List.replicate n []) s
      = phyHeardAll env i (chunks.flatten :: List.replicate m []) s := by
  have htakes := hfresh.takesIn
  have hline : s.line = [] := hfresh.2.2.2
  generalize (s.pd i).flags.pdMode = pdMode at htakes
  generalize (s.pd i).flags.pktHasMark = mark at htakes
  have hat : (⟨[], 0, [], mark⟩ : RxSide).At pdMode none [] :=
    .hunting [] mark
  have hidle (k : Nat) : (List.replicate k ([] : Bytes)).flatten = [] := by
    induction k with
    | zero => rfl
    | succ k ih =>
      rw [List.replicate_succ, List.flatten_cons, ih]
      rfl
  have hsize : (⟨[], 0, [], mark⟩ : RxSide).size = 0 := rfl
  obtain ⟨hcut, -⟩ := @phyHeardAll_eq env i _ _ _
    (chunks ++ List.replicate n []) _ _ htakes hat hline
    (by rw [List.flatten_append, hidle, List.append_nil]; omega)
  obtain ⟨-, hplace⟩ := @phyHeardAll_eq env i _ _ _ chunks _ _ htakes hat
    hline (by omega)
  obtain ⟨hall, -⟩ := @phyHeardAll_eq env i _ _ _
    (chunks.flatten :: List.replicate m []) _ _ htakes hat hline
    (by rw [List.flatten_cons, hidle, List.append_nil]; omega)
  have hcuts := heardAll_cuts hat (hplace hkeep) (n := n) (by omega)
  have hwhole := @heardAll_cuts _ _ _ _ [chunks.flatten] m hat
    ⟨slips_nil, trivial⟩
    (by rw [List.flatten_cons, List.flatten_nil, List.append_nil]; omega)
  rw [List.flatten_cons, List.flatten_nil, List.append_nil] at hwhole
  rw [hcut, hall]
  exact hcuts.unique hwhole

/-- An environment that does nothing. -/
def idleEnv : Env := plainEnv (knownCipher []) fun n => UInt8.ofNat n

/-- A plain POLL for address 1. -/
def plainPoll : Bytes := writeBe 8 0x530108000460BA00

/-- A POLL whose header arrives in two parts. -/
theorem framing_of_chunks_header :
    ∃ s, osdpPdSetup idleEnv { address := 1 } = some s ∧ FreshRx 0 s ∧
      KeepsPlace idleEnv 0 [plainPoll.take 3, plainPoll.drop 3] s ∧
      phyHeardAll idleEnv 0 ([plainPoll.take 3, plainPoll.drop 3] ++
          List.replicate 9 []) s
        = phyHeardAll idleEnv 0 (plainPoll :: List.replicate 9 []) s := by
  have hfresh : FreshRx 0
      { numPd := 1, pd := fun _ => pdSetupDevice idleEnv { address := 1 } } :=
    by decide +kernel
  have hkeep : KeepsPlace idleEnv 0 [plainPoll.take 3, plainPoll.drop 3]
      { numPd := 1, pd := fun _ => pdSetupDevice idleEnv { address := 1 } } :=
    by decide +kernel
  exact ⟨_, rfl, hfresh, hkeep, framing_of_chunks idleEnv 0 _
    [plainPoll.take 3, plainPoll.drop 3] 9 9 hfresh (by decide) (by decide)
    (by decide) hkeep⟩

/-- A mark byte that arrives for one call and the POLL behind it for the
next: the frame is handed over without its mark. -/
theorem framing_mark_lost :
    ∃ s, osdpPdSetup idleEnv { address := 1 } = some s ∧ FreshRx 0 s ∧
      phyHeardAll idleEnv 0 ([[pktMark], plainPoll] ++
          List.replicate 10 []) s
        = [.frame false (plainPoll.take 5) (plainPoll.drop 5)] ∧
      phyHeardAll idleEnv 0 ((pktMark :: plainPoll) ::
          List.replicate 10 []) s
        = [.frame true (plainPoll.take 5) (plainPoll.drop 5)] ∧
      phyHeardAll idleEnv 0 ([[pktMark], plainPoll] ++
          List.replicate 10 []) s
        ≠ phyHeardAll idleEnv 0 ((pktMark :: plainPoll) ::
          List.replicate 10 []) s :=
  ⟨_, rfl, by decide +kernel, by decide +kernel, by decide +kernel,
    by decide +kernel⟩

end LibOsdp
