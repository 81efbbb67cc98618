/-
What a PD transmits in answer to a frame.

# The entries of a refresh

`added` is what one refresh wrote into the history.  `AnswersFrame` reads
the property off it: a reply built is a NAK unless a command was decoded,
a packet on the line is such a reply or the one in the retransmit cache,
and nothing that a reply's building or sending has for effect happens
without a command.

# What the code does not check

A frame whose length comes out as the code of a NAK is answered with the
reply left over from an earlier exchange.  `rebuildsLeftover` says when,
and `pd_answers_frame` that there is no other way.
-/
import LibOsdp.Pd.Proofs.KeyIntegrity

namespace LibOsdp

open Lib

-- ============================================================== the claim

/-- The entries made on the way from `s` to `t`. -/
def added (s t : Osdp) : List Obs :=
  t.log.take (t.log.length - s.log.length)

/-- A command was handed to the decoder. -/
def Decodes (i : Nat) (l : List Obs) : Prop :=
  ∃ payload up, .decoded i payload up ∈ l

/-- A NAK was built. -/
def BuildsNak (i : Nat) (l : List Obs) : Prop :=
  ∃ up, .build i replyNak up ∈ l

/-- What building or sending a reply has for effect: keys are drawn for,
derived or committed, the session comes up, a parked address takes
over. -/
@[grind] def Obs.isEffect : Obs → Bool
  | .scActivated _ | .sessionKeys .. | .random .. | .keyCommit .. => true
  | .command _ (.comsetDone ..) _ => true
  | _ => false

/-- The whole frame in the packet buffer, as the checks see it. -/
def Osdp.checkedFrame (u : Osdp) (i : Nat) : Bytes :=
  (u.frameBuf i).take ((u.pd i).packetLen - (u.pd i).markLen)

/-- The frame in the buffer repeats the last sequence number and command,
and these bytes are the cached reply to it. -/
structure Repeats (i : Nat) (u : Osdp) (bytes : Bytes) : Prop where
  notZero : ctrlSqn (pktControl (u.checkedFrame i)) ≠ 0
  sqn : (ctrlSqn (pktControl (u.checkedFrame i)) : Int)
    = (u.pd i).seqNumber
  cached : 0 < (u.pd i).lastTxLen
  cmd : (pktData (u.frameBuf i) (scbLen (u.checkedFrame i))).toNat
    = (u.pd i).lastCmdId
  bytes_eq : bytes = u.txBuf.take (u.pd i).lastTxLen

/-- The state in which a whole frame lies in the packet buffer, in a
refresh that starts from `s` and gets that far. -/
def assembledFrame (env : Env) (run : List ApiCall → OsdpM Unit) (i : Nat)
    (s : Osdp) : Option Osdp :=
  match (do pdExpireSession env run i; pdExpireLink env run i) s with
  | .error _ _ => none
  | .ok _ u =>
    match (do pdListen i; phyAssemble i) u with
    | .error _ _ => none
    | .ok err v => if err = errPktNone then some v else none

/-- A refresh transmits in answer to its frame the reply to a command
decoded from it, a NAK, or the cached reply to a repeat; and without a
command there is no effect of one. -/
structure AnswersFrame (env : Env) (run : List ApiCall → OsdpM Unit)
    (i : Nat) (s t : Osdp) : Prop where
  built : ∀ id up, .build i id up ∈ added s t →
    id = replyNak ∨ Decodes i (added s t)
  sent : ∀ bytes ret, .sent i bytes ret ∈ added s t →
    Decodes i (added s t) ∨ BuildsNak i (added s t) ∨
      ∃ u, assembledFrame env run i s = some u ∧ Repeats i u bytes
  effects : ∀ o ∈ added s t, o.isEffect → Decodes i (added s t)

/-- In the state in which a frame has passed its checks: the frame aliases
a NAK, and the reply left over is an earlier exchange's. -/
def rebuildsLeftover (env : Env) (i : Nat) (u : Osdp) : Bool :=
  aliasesNack env (u.pd i) (u.frameBuf i) (u.frameLen i) &&
    (u.pd i).replyId != replyNak &&
    decide (minimumPacketSize ≤ getTxBufSize (u.pd i))

-- ================================================================ entries

theorem added_eq {s t : Osdp} {l : List Obs} (h : t.log = l ++ s.log) :
    added s t = l := by
  unfold added
  rw [h, List.length_append, Nat.add_sub_cancel, List.take_left]

/-- Entries of a refresh before its reply. -/
@[grind] def Obs.isBefore : Obs → Bool
  | .receive _ => true
  | o => o.isApp || o.isRx

/-- Entries of answering with a NAK. -/
@[grind] def Obs.isNaking : Obs → Bool
  | .build _ id _ => id == replyNak
  | .sent .. => true
  | o => o.isApp

/-- Entries that decode nothing. -/
@[grind] def Obs.isNoDecode : Obs → Bool
  | .decoded .. => false
  | _ => true

theorem isBefore_of_isApp {o : Obs} (h : o.isApp) : o.isBefore := by
  unfold Obs.isBefore
  split <;> simp [h]

theorem isBefore_of_isRx {o : Obs} (h : o.isRx) : o.isBefore := by
  unfold Obs.isBefore
  split <;> simp [h]

theorem isNaking_of_isApp {o : Obs} (h : o.isApp) : o.isNaking := by
  unfold Obs.isNaking
  split
  · cases h
  · rfl
  · exact h

theorem isNoDecode_of_isApp {o : Obs} (h : o.isApp) : o.isNoDecode := by
  cases o <;> first | rfl | cases h

-- ============================================================= the resend

section Resend

variable {env : Env}

/-- Past the address check nothing is logged, but for a resend. -/
theorem checkPacketPd_sent {i : Nat} {frame rest : Bytes} {r : Int}
    {s t : Osdp} (h : phyCheckPacketPd env i frame rest s = .ok r t) :
    t.log = s.log ∨
      ctrlSqn (pktControl frame) ≠ 0 ∧
        (ctrlSqn (pktControl frame) : Int) = (s.pd i).seqNumber ∧
        0 < (s.pd i).lastTxLen ∧
        (pktData rest (scbLen frame)).toNat = (s.pd i).lastCmdId ∧
        ∃ ret, t.log =
          .sent i (s.txBuf.take (s.pd i).lastTxLen) ret ::
            .resent i (s.txBuf.take (s.pd i).lastTxLen) :: s.log := by
  have hacc : Keeps (Logs Obs.isNone) (phyAcceptPd i frame) := by
    have hs : Keeps (Logs Obs.isNone) (phyCheckSequence i frame) := by
      unfold phyCheckSequence
      grind
    unfold phyAcceptPd
    grind
  have hres : Keeps (Logs Obs.isNone) (phyRestart i) := by
    unfold phyRestart scDeactivate
    grind
  unfold phyCheckPacketPd at h
  obtain ⟨p, u, hg, h⟩ := bind_ok.mp h
  obtain ⟨rfl, rfl⟩ := getPd_ok.mp hg
  split at h
  · obtain ⟨_, u, hu, h⟩ := bind_ok.mp h
    exact .inl ((hacc.of h).log.eq.trans (hres.of hu).log.eq)
  · next hne =>
    split at h
    · next hsqn =>
      split at h
      · next hcache =>
        obtain ⟨again, u, hu, h⟩ := bind_ok.mp h
        unfold phyResend at hu
        obtain ⟨p, v, hg, hu⟩ := bind_ok.mp hu
        obtain ⟨rfl, rfl⟩ := getPd_ok.mp hg
        split at hu
        · exact absurd hu fun e => by
            obtain ⟨_, _, e, -⟩ := bind_ok.mp e
            exact throw_ok e
        · split at hu
          · next hcmd =>
            obtain ⟨buf, w, hb, hu⟩ := bind_ok.mp hu
            cases hb
            obtain ⟨_, w, hw, hu⟩ := bind_ok.mp hu
            obtain rfl := observe_ok.mp hw
            obtain ⟨ret, x, hx, hu⟩ := bind_ok.mp hu
            obtain ⟨rfl, rfl⟩ := pure_ok.mp hu
            obtain ⟨-, rfl⟩ := pure_ok.mp h
            cases hx
            exact .inr ⟨hne, hsqn, hcache, hcmd, _, rfl⟩
          · obtain ⟨_, w, hw, hu⟩ := bind_ok.mp hu
            obtain ⟨rfl, rfl⟩ := pure_ok.mp hu
            obtain rfl := updPd_ok.mp hw
            obtain ⟨_, x, hx, h⟩ := bind_ok.mp h
            obtain rfl := updPd_ok.mp hx
            exact .inl (hacc.of h).log.eq
      · obtain ⟨_, u, hu, h⟩ := bind_ok.mp h
        obtain rfl := updPd_ok.mp hu
        exact .inl (hacc.of h).log.eq
    · exact .inl (hacc.of h).log.eq

/-- A frame check puts nothing on the line but the cached reply to a
repeat. -/
theorem checkPacket_sent {i : Nat} {r : Int} {s t : Osdp}
    (h : osdpPhyCheckPacket env i s = .ok r t) :
    ∃ l, t.log = l ++ s.log ∧ (∀ o ∈ l, Obs.isRx o) ∧
      ∀ bytes ret, .sent i bytes ret ∈ l →
        ∃ u, phyAssemble i s = .ok errPktNone u ∧ Repeats i u bytes := by
  unfold osdpPhyCheckPacket at h
  obtain ⟨err, u, hu, h⟩ := bind_ok.mp h
  have hlog := ((collects_phyAssemble i).of hu).log.eq
  split at h
  · obtain ⟨-, rfl⟩ := pure_ok.mp h
    exact ⟨[], hlog, by simp, by simp⟩
  · next herr =>
    obtain rfl := not_not.mp herr
    obtain ⟨p, v, hg, h⟩ := bind_ok.mp h
    obtain ⟨rfl, rfl⟩ := getPd_ok.mp hg
    obtain ⟨buf, v, hb, h⟩ := bind_ok.mp h
    cases hb
    obtain ⟨_, v, hv, h⟩ := bind_ok.mp h
    obtain rfl := observe_ok.mp hv
    have hstill {b : Bytes} (hq : t.log = .frame i b :: u.log) :
        ∃ l, t.log = l ++ s.log ∧ (∀ o ∈ l, Obs.isRx o) ∧
          ∀ bytes ret, .sent i bytes ret ∈ l →
            ∃ u, phyAssemble i s = .ok errPktNone u ∧ Repeats i u bytes :=
      ⟨[_], by rw [hq, hlog]; rfl, by simp [Obs.isRx], by simp⟩
    unfold phyCheckPacket at h
    split at h
    · obtain ⟨-, rfl⟩ := pure_ok.mp h
      exact hstill rfl
    · obtain ⟨p, v, hg, h⟩ := bind_ok.mp h
      obtain ⟨rfl, rfl⟩ := getPd_ok.mp hg
      split at h
      · obtain ⟨-, rfl⟩ := pure_ok.mp h
        exact hstill rfl
      · split at h
        · rcases checkPacketPd_sent h with hq | ⟨hne, hsqn, hc, hcmd, n, hq⟩
          · exact hstill hq
          · refine ⟨[_, _, _], by rw [hq, hlog]; rfl, by simp [Obs.isRx], ?_⟩
            intro bytes ret hmem
            simp only [List.mem_cons, Obs.sent.injEq, true_and, reduceCtorEq,
              List.not_mem_nil, or_self, or_false] at hmem
            exact ⟨u, hu, hne, hsqn, hc, hcmd, hmem.1⟩
        · have hcp : Keeps (Logs Obs.isNone) (phyCheckPacketCp i
              (((u.buf (u.pd i).packetBuf).drop (u.pd i).markLen).take
                ((u.pd i).packetLen - (u.pd i).markLen))) := by
            unfold phyCheckPacketCp phyCheckSequence
            grind
          exact hstill (hcp.of h).log.eq

end Resend

-- ============================================================== the reply

section Reply

variable {env : Env} {run : List ApiCall → OsdpM Unit}
variable (hr : ∀ calls, Keeps Quiet (run calls))

omit hr in
/-- Starting a packet fails for want of room, and only then. -/
theorem packetInit_ok {i maxLen : Nat} {r : Int} {s t : Osdp}
    (h : osdpPhyPacketInit i maxLen s = .ok r t) :
    r < 0 ↔ maxLen < minimumPacketSize := by
  unfold osdpPhyPacketInit at h
  split at h
  · next hsmall =>
    obtain ⟨rfl, -⟩ := pure_ok.mp h
    simp [hsmall, errPktFmt]
  · next hfits =>
    have hn : Returns (fun r : Int => 0 ≤ r) (do
        let p ← getPd i
        if writesMark p then
          writeBuf .tx 0 [pktMark]
          phySetMark i true
        phyWriteHeader i p
        let q ← getPd i
        return ((q.markLen + pktHdrLen + initScbLen q (txId p) : Nat)
          : Int)) := by
      refine .bind fun p => ?_
      split
      · exact .bind fun _ => .bind fun _ => .bind fun _ => .bind fun q =>
          .pure (Int.natCast_nonneg _)
      · exact .bind fun _ => .bind fun q => .pure (Int.natCast_nonneg _)
    have := hn _ _ _ h
    omega

/-- No entry, and the reply id as it was. -/
abbrev KeepsReply : Osdp → Osdp → Prop :=
  Frame OsdpPd.replyId noContext Obs.isNone

instance : PacketMoves KeepsReply where
  packet _ _ _ h := Frame.updPd _ _ fun p => by
    have e := congrArg OsdpPd.replyId (h p)
    exact e
  txBuf _ _ _ := ⟨fun _ => rfl, rfl, refl_of (LogExt _) _⟩

include hr

/-- What is logged after a build was begun. -/
theorem logs_pdBuildBody (i size : Nat) (p : OsdpPd) :
    Keeps (Logs Obs.isBuilding) (pdBuildBody env run i size p) :=
  (builds_pdBuildBody hr i size p).mono fun _ _ h => h.logs fun _ => id

/-- An ordinary reply is built by the application and the engines. -/
theorem logs_pdBuildBody_ordinary (i size : Nat) (p : OsdpPd)
    (h : hsReply p.replyId = false) :
    Keeps (Logs Obs.isApp) (pdBuildBody env run i size p) := by
  have hc (ev : Option OsdpEvent) (smb : Option Nat) (maxLen : Int) :
      Keeps Packs (pdBuildCases env run i p.replyId ev smb maxLen) :=
    packs_pdBuildCases hr i ev smb maxLen h
  have hd (smb : Option Nat) (maxLen : Int) :
      Keeps Packs (pdBuildData env run i p smb maxLen) := by
    unfold pdBuildData
    grind
  have hb : Keeps Packs (pdBuildBody env run i size p) := by
    have hf (off : Nat) (smb : Option Nat) (maxLen : Int)
        (body : Option Bytes) :
        Keeps Packs (pdFinishReply env run i off smb maxLen body) :=
      packs_pdFinishReply hr i off smb maxLen body
    unfold pdBuildBody
    grind
  exact hb.mono fun _ _ h => h.logs fun _ => id

/-- A build says which reply it builds, given room for a header, and ends
well only if it did. -/
theorem packet_build {i : Nat} {ret : Int} {s t : Osdp}
    (h : pdBuildReplyPacket env run i s = .ok ret t) :
    if minimumPacketSize ≤ getTxBufSize (s.pd i) then
      ∃ up l, t.log = l ++ .build i (s.pd i).replyId up :: s.log ∧
        (∀ o ∈ l, Obs.isBuilding o) ∧
        (hsReply (s.pd i).replyId = false → ∀ o ∈ l, Obs.isApp o)
    else ret ≠ pdErrNone ∧ t.log = s.log := by
  unfold pdBuildReplyPacket at h
  obtain ⟨p, u, hg, h⟩ := bind_ok.mp h
  obtain ⟨rfl, rfl⟩ := getPd_ok.mp hg
  obtain ⟨_, u, hu, h⟩ := bind_ok.mp h
  have hsu : KeepsReply s u := frame_of_updPd hu fun _ => rfl
  obtain ⟨hdr, v, hv, h⟩ := bind_ok.mp h
  have hsv := trans_of KeepsReply hsu ((keeps_osdpPhyPacketInit i _).of hv)
  have hroom := packetInit_ok hv
  split at h
  · next hneg =>
    obtain ⟨rfl, rfl⟩ := pure_ok.mp h
    rw [if_neg (by have := hroom.mp hneg; omega)]
    exact ⟨by simp [pdErrNone, pdErrGeneric], hsv.log.eq⟩
  · next hpos =>
    rw [if_pos (by by_contra hn; exact hpos (hroom.mpr (by omega)))]
    obtain ⟨_, w, hw, h⟩ := bind_ok.mp h
    have hsw : KeepsReply s w := trans_of KeepsReply hsv
      (frame_of_updPd hw fun _ => rfl)
    obtain ⟨len, x, hx, h⟩ := bind_ok.mp h
    obtain ⟨p, y, hg, hx⟩ := bind_ok.mp hx
    obtain ⟨rfl, rfl⟩ := getPd_ok.mp hg
    obtain ⟨_, y, hy, hx⟩ := bind_ok.mp hx
    obtain rfl := observe_ok.mp hy
    have hrest : Keeps (Logs Obs.isNone) (do
        if len ≤ 0 then
          return pdErrGeneric
        let total := hdr.toNat + len.toNat
        pdStage i total
        let done ← osdpPhyFinalizePacket env i total (getTxBufSize (s.pd i))
        if done < 0 then
          return pdErrGeneric
        pdStaged i done.toNat
        return pdErrNone) := by
      have hfin (n m : Nat) :
          Keeps (Logs Obs.isNone) (osdpPhyFinalizePacket env i n m) :=
        (keeps_osdpPhyFinalizePacket (R := KeepsReply) i n m).mono
          fun _ _ h => h.logs fun _ => id
      unfold pdStage pdStaged
      grind
    have hlog := (hrest.of h).log.eq
    have hid : (w.pd i).replyId = (s.pd i).replyId := hsw.pd i
    obtain ⟨l, hl, hE⟩ := ((logs_pdBuildBody hr i _ _).of hx).log
    refine ⟨(w.pd i).flags.scActive, l, ?_, hE, fun hord => ?_⟩
    · rw [hlog, hl, hid, hsw.log.eq]
    · obtain ⟨m, hm, hF⟩ :=
        ((logs_pdBuildBody_ordinary hr i _ _ (hid ▸ hord)).of hx).log
      have : l = m := List.append_cancel_right (hl.symm.trans hm)
      exact this ▸ hF

-- ============================================================ the stages

omit hr in
theorem logs_osdpPhyStateReset (i : Nat) :
    Keeps (Logs Obs.isNone) (osdpPhyStateReset env i false) := by
  unfold osdpPhyStateReset
  grind

theorem logs_pdCompleteActive (i : Nat) (st : CompletionStatus) :
    Keeps (Logs Obs.isApp) (pdCompleteActive env run i st) :=
  (completes_pdCompleteActive hr i st).mono fun _ _ h => h.logs fun _ => id

theorem logs_pdErrorReset (i : Nat) :
    Keeps (Logs Obs.isApp) (pdErrorReset env run i) := by
  have hc : Keeps (Logs Obs.isApp) (pdCompleteActive env run i .failed) :=
    logs_pdCompleteActive hr i .failed
  have hd : Keeps (Logs Obs.isApp) (pdScDeactivate env run i) :=
    (ages_pdScDeactivate hr i).mono fun _ _ h => h.logs fun _ => id
  have hs : Keeps (Logs Obs.isApp) (osdpPhyStateReset env i false) :=
    (logs_osdpPhyStateReset i).mono fun _ _ h => h.logs fun _ e => by cases e
  unfold pdErrorReset
  grind

/-- Sending a NAK commits nothing. -/
theorem sendStage_nak {i : Nat} {s t : Osdp}
    (h : pdSendStage env run i s = .ok () t)
    (hid : (s.pd i).replyId = replyNak) : LogExt Obs.isNaking s t := by
  have hreset : Keeps (Logs Obs.isNaking) (osdpPhyStateReset env i false) :=
    (logs_osdpPhyStateReset i).mono fun _ _ h => h.logs fun _ e => by cases e
  have hdone (st : CompletionStatus) :
      Keeps (Logs Obs.isNaking) (pdCompleteActive env run i st) :=
    (logs_pdCompleteActive hr i st).mono
      fun _ _ h => h.logs fun _ => isNaking_of_isApp
  unfold pdSendStage at h
  obtain ⟨ret, u, hs, h⟩ := bind_ok.mp h
  have hsu := (sends_pdSendReply i).of hs
  have hlog : LogExt Obs.isNaking s u := hsu.log.mono fun o ho => by
    cases o <;> first | rfl | cases ho
  have hidu : (u.pd i).replyId = replyNak := by
    have e := congrArg OsdpPd.replyId (hsu.pd i)
    exact Eq.trans e hid
  split at h
  · obtain ⟨-, rfl⟩ := pure_ok.mp h
    exact hlog
  · split at h
    · obtain ⟨_, v, hv, h⟩ := bind_ok.mp h
      have huv := (completes_pdCompleteActive hr i .ok).of hv
      have hidv : (v.pd i).replyId = replyNak := by
        have e := congrArg OsdpPd.replyId (huv.pd i)
        exact Eq.trans e hidu
      obtain ⟨_, w, hw, h⟩ := bind_ok.mp h
      have hvw : w = v := by
        unfold pdCommit at hw
        obtain ⟨p, x, hg, hw⟩ := bind_ok.mp hw
        obtain ⟨rfl, rfl⟩ := getPd_ok.mp hg
        rw [hidv, if_neg fun e => absurd e.2 (by decide),
          if_neg fun e => absurd e.2 (by decide)] at hw
        exact (pure_ok.mp hw).2.symm
      rw [hvw] at h
      have hrest : Keeps (Logs Obs.isNaking) (do
          osdpPhyProgressSequence i
          osdpPhyStateReset env i false) := by
        unfold osdpPhyProgressSequence
        grind
      exact trans_of (LogExt _) hlog
        (trans_of (LogExt _) ((hdone .ok).of hv).log (hrest.of h).log)
    · obtain ⟨_, v, hv, h⟩ := bind_ok.mp h
      exact trans_of (LogExt _) hlog
        (trans_of (LogExt _) ((hdone .failed).of hv).log (hreset.of h).log)

/-- A NAK that is answered with was built, if anything went out; without
room for a header nothing is. -/
theorem replyStage_nak {i : Nat} {ret : Int} {s t : Osdp}
    (h : pdReplyStage env run i ret s = .ok () t)
    (hid : minimumPacketSize ≤ getTxBufSize (s.pd i) →
      (s.pd i).replyId = replyNak)
    (hf : (s.pd i).replyPrebuilt = false) :
    ∃ l, t.log = l ++ s.log ∧ (∀ o ∈ l, Obs.isNaking o) ∧
      ∀ bytes r, .sent i bytes r ∈ l → BuildsNak i l := by
  unfold pdReplyStage at h
  obtain ⟨_, u, hu, h⟩ := bind_ok.mp h
  obtain ⟨_, v, hv, h⟩ := bind_ok.mp h
  have hsv := trans_of Ages ((ages_pdMarkOnline hr i).of hu)
    ((ages_pdTouchSession i ret).of hv)
  have hidv : (v.pd i).replyId = (s.pd i).replyId := by
    have e := congrArg OsdpPd.replyId (hsv.pd i)
    exact e
  have hsize : getTxBufSize (v.pd i) = getTxBufSize (s.pd i) := by
    have e := congrArg getTxBufSize (hsv.pd i)
    exact e
  have hfv : (v.pd i).replyPrebuilt = false := by
    have e := congrArg OsdpPd.replyPrebuilt (hsv.pd i)
    exact Eq.trans e hf
  obtain ⟨k, hk, hE⟩ := hsv.log
  obtain ⟨p, w, hg, h⟩ := bind_ok.mp h
  obtain ⟨rfl, rfl⟩ := getPd_ok.mp hg
  rw [hfv] at h
  obtain ⟨built, w, hw, h⟩ := bind_ok.mp h
  have hb := packet_build hr hw
  rw [hidv, hsize] at hb
  split at hb
  · next hroom =>
    have hnak := hid hroom
    rw [hnak] at hb
    obtain ⟨up, l, hl, -, happ⟩ := hb
    have happ := happ rfl
    have hidw : (w.pd i).replyId = replyNak := by
      have e := congrArg OsdpPd.replyId
        (((builds_pdBuildReplyPacket hr i).of hw).pd i)
      exact Eq.trans e (hidv.trans hnak)
    have hlast : LogExt Obs.isNaking w t := by
      split at h
      · exact ((logs_pdErrorReset hr i).of h).log.mono
          fun _ => isNaking_of_isApp
      · exact sendStage_nak hr h hidw
    obtain ⟨m, hm, hF⟩ := hlast
    refine ⟨m ++ (l ++ .build i replyNak up :: k), ?_, fun o ho => ?_,
      fun _ _ _ => ⟨up, by simp⟩⟩
    · rw [hm, hl, hk]
      simp
    · simp only [List.mem_append, List.mem_cons] at ho
      rcases ho with ho | ho | rfl | ho
      · exact hF o ho
      · exact isNaking_of_isApp (happ o ho)
      · rfl
      · exact isNaking_of_isApp (hE o ho)
  · obtain ⟨hne, hl⟩ := hb
    rw [if_pos hne] at h
    obtain ⟨m, hm, hF⟩ := ((logs_pdErrorReset hr i).of h).log
    have happ : ∀ o ∈ m ++ k, Obs.isApp o := fun o ho =>
      (List.mem_append.mp ho).elim (hF o) (hE o)
    refine ⟨m ++ k, by rw [hm, hl, hk, List.append_assoc],
      fun o ho => isNaking_of_isApp (happ o ho), fun bytes r ho => ?_⟩
    cases happ _ ho

/-- Nothing is decoded while a reply is sent. -/
theorem noDecode_pdSendStage (i : Nat) :
    Keeps (Logs Obs.isNoDecode) (pdSendStage env run i) := by
  have happ {α : Type} {m : OsdpM α} (h : Keeps (Logs Obs.isApp) m) :
      Keeps (Logs Obs.isNoDecode) m :=
    h.mono fun _ _ q => q.logs fun _ => isNoDecode_of_isApp
  have hc (st : CompletionStatus) :
      Keeps (Logs Obs.isNoDecode) (pdCompleteActive env run i st) :=
    happ (logs_pdCompleteActive hr i st)
  have hd : Keeps (Logs Obs.isNoDecode) (pdScDeactivate env run i) :=
    happ ((ages_pdScDeactivate hr i).mono fun _ _ h => h.logs fun _ => id)
  have hcmd (cmd : OsdpCmd) :
      Keeps (Logs Obs.isNoDecode) (doCommandCallback env run i cmd) :=
    (handles_doCommandCallback hr i cmd).mono fun _ _ q =>
      ⟨fun _ => rfl, rfl, q.log.mono fun o ho => by
        cases o <;> first | rfl | cases ho⟩
  have hs : Keeps (Logs Obs.isNoDecode) (pdSendReply env i) :=
    (sends_pdSendReply i).mono fun _ _ q => q.logs fun o ho => by
      cases o <;> first | rfl | cases ho
  have hreset : Keeps (Logs Obs.isNoDecode) (osdpPhyStateReset env i false) :=
    (logs_osdpPhyStateReset i).mono fun _ _ h => h.logs fun _ e => by cases e
  have hcommit : Keeps (Logs Obs.isNoDecode) (pdCommit env run i) := by
    unfold pdCommit pdCommitKeyset pdCommitComset
    grind
  unfold pdSendStage osdpPhyProgressSequence
  grind

/-- Nothing is decoded between a frame and the end of the refresh. -/
theorem noDecode_pdReplyStage (i : Nat) (ret : Int) :
    Keeps (Logs Obs.isNoDecode) (pdReplyStage env run i ret) := by
  have happ {α : Type} {m : OsdpM α} (h : Keeps (Logs Obs.isApp) m) :
      Keeps (Logs Obs.isNoDecode) m :=
    h.mono fun _ _ q => q.logs fun _ => isNoDecode_of_isApp
  have he : Keeps (Logs Obs.isNoDecode) (pdErrorReset env run i) :=
    happ (logs_pdErrorReset hr i)
  have ho : Keeps (Logs Obs.isNoDecode) (pdMarkOnline env run i) :=
    happ ((ages_pdMarkOnline hr i).mono fun _ _ h => h.logs fun _ => id)
  have ht : Keeps (Logs Obs.isNoDecode) (pdTouchSession i ret) :=
    happ ((ages_pdTouchSession i ret).mono fun _ _ h => h.logs fun _ => id)
  have hb : Keeps (Logs Obs.isNoDecode) (pdBuildReplyPacket env run i) :=
    (builds_pdBuildReplyPacket hr i).mono fun _ _ q => q.logs fun o ho => by
      cases o <;> first | rfl | cases ho
  have hs : Keeps (Logs Obs.isNoDecode) (pdSendStage env run i) :=
    noDecode_pdSendStage hr i
  unfold pdReplyStage
  grind

end Reply

-- ============================================================ the refresh

section Refresh

variable {env : Env} {run : List ApiCall → OsdpM Unit}

/-- Entries before the reply, and then at most a NAK. -/
theorem answers_of_nak {i : Nat} {s u t : Osdp} {l m : List Obs}
    (hl : u.log = l ++ s.log) (hbefore : ∀ o ∈ l, Obs.isBefore o)
    (hsent : ∀ bytes ret, .sent i bytes ret ∈ l →
      ∃ v, assembledFrame env run i s = some v ∧ Repeats i v bytes)
    (hm : t.log = m ++ u.log) (hnak : ∀ o ∈ m, Obs.isNaking o)
    (hout : ∀ bytes ret, .sent i bytes ret ∈ m → BuildsNak i m) :
    AnswersFrame env run i s t := by
  have hadd : added s t = m ++ l := added_eq (by
    rw [hm, hl, List.append_assoc])
  constructor
  · intro id up hmem
    rw [hadd] at hmem
    left
    rcases List.mem_append.mp hmem with h | h
    · simpa [Obs.isNaking] using hnak _ h
    · cases hbefore _ h
  · intro bytes ret hmem
    rw [hadd] at hmem ⊢
    right
    rcases List.mem_append.mp hmem with h | h
    · obtain ⟨up, hup⟩ := hout bytes ret h
      exact .inl ⟨up, List.mem_append_left _ hup⟩
    · exact .inr (hsent bytes ret h)
  · intro o hmem heff
    rw [hadd] at hmem
    exfalso
    rcases List.mem_append.mp hmem with h | h
    · have := hnak o h
      cases o <;> simp_all [Obs.isNaking, Obs.isApp, Obs.isEffect]
      split at this <;> simp_all
    · have := hbefore o h
      cases o <;> simp_all [Obs.isBefore, Obs.isApp, Obs.isRx, Obs.isEffect]
      split at this <;> simp_all

/-- Where a command was decoded, anything may follow. -/
theorem answers_of_decodes {i : Nat} {s t : Osdp}
    (h : Decodes i (added s t)) : AnswersFrame env run i s t :=
  ⟨fun _ _ _ => .inr h, fun _ _ _ => .inl h, fun _ _ _ => h⟩

/-- The moment a refresh goes through, if its frame gets that far. -/
theorem assembledFrame_of {i : Nat} {s u v w : Osdp}
    (time : (do pdExpireSession env run i; pdExpireLink env run i) s
      = .ok () u)
    (listen : pdListen i u = .ok () v)
    (assemble : phyAssemble i v = .ok errPktNone w) :
    assembledFrame env run i s = some w := by
  have hc : (do pdListen i; phyAssemble i) u = .ok errPktNone w :=
    bind_ok.mpr ⟨(), v, listen, assemble⟩
  unfold assembledFrame
  rw [time]
  dsimp only
  rw [hc]
  rfl

variable (hr : ∀ calls, Keeps Quiet (run calls))
include hr

/-- Whatever a command does, the history only grows. -/
theorem grows_pdDecodeCommand (i : Nat) (payload : Bytes) :
    Keeps (Logs Obs.skipsKey) (pdDecodeCommand env run i payload) := by
  have hcases (id : Nat) (data : Bytes) :
      Keeps (Logs Obs.skipsKey) (pdDecodeCases env run i id data) :=
    (keepsCmd_pdDecodeCases hr i id data).mono fun _ _ h =>
      h.logs fun _ e => e
  unfold pdDecodeCommand replyWithNak setNakCode
  grind

/-- The entries up to the reply, in a refresh whose frame is refused. -/
theorem refused_before {i : Nat} {s u v w : Osdp} {err : Int}
    (time : (do pdExpireSession env run i; pdExpireLink env run i) s
      = .ok () u)
    (listen : pdListen i u = .ok () v)
    (check : osdpPhyCheckPacket env i v = .ok err w) :
    ∃ l, w.log = l ++ s.log ∧ (∀ o ∈ l, Obs.isBefore o) ∧
      ∀ bytes ret, .sent i bytes ret ∈ l →
        ∃ x, assembledFrame env run i s = some x ∧ Repeats i x bytes := by
  have hage : Keeps Ages (do
      pdExpireSession env run i
      pdExpireLink env run i) :=
    .bind (ages_pdExpireSession hr i) fun _ => ages_pdExpireLink hr i
  obtain ⟨k, hk, hE⟩ := (hage.of time).log
  have hv : v.log = .receive i :: u.log := by
    obtain ⟨_, x, hx, hl⟩ := bind_ok.mp listen
    obtain rfl := updPd_ok.mp hx
    obtain rfl := observe_ok.mp hl
    rfl
  obtain ⟨m, hm, hrx, hsent⟩ := checkPacket_sent check
  refine ⟨m ++ .receive i :: k, by rw [hm, hv, hk]; simp, fun o ho => ?_,
    fun bytes ret ho => ?_⟩
  · simp only [List.mem_append, List.mem_cons] at ho
    rcases ho with ho | rfl | ho
    · exact isBefore_of_isRx (hrx o ho)
    · rfl
    · exact isBefore_of_isApp (hE o ho)
  · simp only [List.mem_append, List.mem_cons, reduceCtorEq, false_or] at ho
    rcases ho with ho | ho
    · obtain ⟨x, hx, hrep⟩ := hsent bytes ret ho
      exact ⟨x, assembledFrame_of time listen hx, hrep⟩
    · cases hE _ ho

omit hr in
/-- Nothing is parked once the PD listens, nor when its frame is
refused. -/
theorem notParked {i : Nat} {u v w : Osdp}
    (listen : pdListen i u = .ok () v) (h : Receives v w) :
    (w.pd i).replyPrebuilt = false := by
  have e := congrArg OsdpPd.replyPrebuilt (h.pd i)
  have e : (w.pd i).replyPrebuilt = (v.pd i).replyPrebuilt := e
  obtain ⟨_, x, hx, hl⟩ := bind_ok.mp listen
  obtain rfl := updPd_ok.mp hx
  obtain rfl := observe_ok.mp hl
  rw [e]
  simp only [updPd_pd_same]

/-- From a refused frame that left a NAK, or none, to the end. -/
theorem answers_refused {i : Nat} {s w x t : Osdp} {ret : Int}
    {l : List Obs} (hl : w.log = l ++ s.log)
    (hbefore : ∀ o ∈ l, Obs.isBefore o)
    (hsent : ∀ bytes ret, .sent i bytes ret ∈ l →
      ∃ v, assembledFrame env run i s = some v ∧ Repeats i v bytes)
    (hx : x.log = w.log) (hf : (x.pd i).replyPrebuilt = false)
    (hnak : answered ret → minimumPacketSize ≤ getTxBufSize (x.pd i) →
      (x.pd i).replyId = replyNak)
    (rest : ¬ answered ret ∧ x = t ∨
      ¬ answered ret ∧ pdErrorReset env run i x = .ok () t ∨
      answered ret ∧ pdReplyStage env run i ret x = .ok () t) :
    AnswersFrame env run i s t := by
  have hl : x.log = l ++ s.log := hx.trans hl
  rcases rest with ⟨-, rfl⟩ | ⟨-, hreset⟩ | ⟨ha, hreply⟩
  · exact answers_of_nak (m := []) hl hbefore hsent rfl (by simp) (by simp)
  · obtain ⟨m, hm, hE⟩ := ((logs_pdErrorReset hr i).of hreset).log
    exact answers_of_nak hl hbefore hsent hm
      (fun o ho => isNaking_of_isApp (hE o ho)) fun _ _ ho => by
        cases hE _ ho
  · obtain ⟨m, hm, hE, hout⟩ := replyStage_nak hr hreply (hnak ha) hf
    exact answers_of_nak hl hbefore hsent hm hE hout

/-- A left-over reply that is answered with is built. -/
theorem replyStage_builds {i : Nat} {ret : Int} {s t : Osdp}
    (h : pdReplyStage env run i ret s = .ok () t)
    (hf : (s.pd i).replyPrebuilt = false)
    (hroom : minimumPacketSize ≤ getTxBufSize (s.pd i)) :
    ∃ up l, t.log = l ++ s.log ∧ .build i (s.pd i).replyId up ∈ l := by
  unfold pdReplyStage at h
  obtain ⟨_, u, hu, h⟩ := bind_ok.mp h
  obtain ⟨_, v, hv, h⟩ := bind_ok.mp h
  have hsv := trans_of Ages ((ages_pdMarkOnline hr i).of hu)
    ((ages_pdTouchSession i ret).of hv)
  have hid : (v.pd i).replyId = (s.pd i).replyId := by
    have e := congrArg OsdpPd.replyId (hsv.pd i)
    exact e
  have hfv : (v.pd i).replyPrebuilt = false := by
    have e := congrArg OsdpPd.replyPrebuilt (hsv.pd i)
    exact Eq.trans e hf
  have hsize : getTxBufSize (v.pd i) = getTxBufSize (s.pd i) := by
    have e := congrArg getTxBufSize (hsv.pd i)
    exact e
  obtain ⟨k, hk, -⟩ := hsv.log
  obtain ⟨p, w, hg, h⟩ := bind_ok.mp h
  obtain ⟨rfl, rfl⟩ := getPd_ok.mp hg
  rw [hfv] at h
  obtain ⟨built, w, hw, h⟩ := bind_ok.mp h
  have hb := packet_build hr hw
  rw [if_pos (hsize ▸ hroom), hid] at hb
  obtain ⟨up, l, hl, -⟩ := hb
  have hlast : LogExt Obs.isNoDecode w t := by
    split at h
    · exact ((logs_pdErrorReset hr i).of h).log.mono
        fun _ => isNoDecode_of_isApp
    · exact ((noDecode_pdSendStage hr i).of h).log
  obtain ⟨m, hm, -⟩ := hlast
  exact ⟨up, m ++ (l ++ .build i (s.pd i).replyId up :: k), by
    rw [hm, hl, hk]
    simp, by simp⟩

/-- Meeting no left-over reply, a refresh answers its frame. -/
theorem answersFrame_of {i : Nat} {s t : Osdp}
    (h : osdpPdUpdate env run i s = .ok () t)
    (hp : (s.pd i).replyPrebuilt = false)
    (hno : ∀ u, receivedFrame env run i s = some u →
      rebuildsLeftover env i u = false) : AnswersFrame env run i s t := by
  obtain ⟨u, time, hserved⟩ := refresh_cases h
  have hage : Keeps Ages (do
      pdExpireSession env run i
      pdExpireLink env run i) :=
    .bind (ages_pdExpireSession hr i) fun _ => ages_pdExpireLink hr i
  have hpu : (u.pd i).replyPrebuilt = false := by
    have e := congrArg OsdpPd.replyPrebuilt ((hage.of time).pd i)
    exact Eq.trans e hp
  cases hserved with
  | parked hpark send => exact absurd (hpark.symm.trans hpu) (by simp)
  | @received v t' ret _ listen got rest =>
    cases got with
    | @none err x _ hne check reset skip =>
      obtain ⟨l, hl, hbefore, hsent⟩ := refused_before hr time listen check
      have hR := (receives_osdpPhyCheckPacket i).of check
      have ht' : t'.log = x.log ∧ Receives v t' := by
        rcases reset with rfl | hreset
        · exact ⟨rfl, hR⟩
        · exact ⟨((logs_osdpPhyStateReset i).of hreset).log.eq,
            trans_of Receives hR ((receives_osdpPhyStateReset i).of hreset)⟩
      refine answers_refused hr hl hbefore hsent ht'.1
        (notParked listen ht'.2) (fun ha _ => ?_) rest
      have hnack := answered_pdErrorOfPhy ha hne
      have htx : t' = x := by
        by_contra hn
        rw [hnack] at skip
        exact absurd (skip hn) (by decide)
      subst htx hnack
      exact checkPacket_nack check
    | @refused len payload x _ check hlen decode =>
      obtain ⟨l, hl, hbefore, hsent⟩ := refused_before hr time listen check
      obtain ⟨r, hr', hrl, -, htp, hR, hlog⟩ := osdpPhyDecodePacket_ok decode
      refine answers_refused hr hl hbefore hsent hlog
        (notParked listen (trans_of Receives
          ((receives_osdpPhyCheckPacket i).of check) hR))
        (fun ha hroom => ?_) rest
      have hnack := decode_nack hr' (hrl.trans (answered_pdErrorOfDecode ha))
      have hsize : getTxBufSize (t'.pd i) = getTxBufSize (x.pd i) := by
        have e := congrArg getTxBufSize (hR.pd i)
        exact e
      rw [htp]
      split at hnack
      · next hal =>
        have hx := hno x (receivedFrame_of time hpu listen check)
        rw [hnack.1]
        simpa [rebuildsLeftover, hal, hsize ▸ hroom] using hx
      · exact hnack
    | @decoded len ret payload x y z check hlen decode command =>
      obtain ⟨l, hl, -, -⟩ := refused_before hr time listen check
      obtain ⟨r, -, -, -, -, -, hlog⟩ := osdpPhyDecodePacket_ok decode
      obtain ⟨m, hm, -⟩ := ((grows_pdDecodeCommand hr i payload).of command).log
      have hrest : ∃ n, t.log = n ++ .verdict i payload ret :: z.log := by
        rcases rest with ⟨-, rfl⟩ | ⟨-, hreset⟩ | ⟨-, hreply⟩
        · exact ⟨[], rfl⟩
        · obtain ⟨n, hn, -⟩ := ((logs_pdErrorReset hr i).of hreset).log
          exact ⟨n, hn⟩
        · obtain ⟨n, hn, -⟩ := ((noDecode_pdReplyStage hr i _).of hreply).log
          exact ⟨n, hn⟩
      obtain ⟨n, hn⟩ := hrest
      refine answers_of_decodes ⟨payload, (y.pd i).flags.scActive, ?_⟩
      have hadd : added s t = n ++ .verdict i payload ret ::
          (m ++ .decoded i payload (y.pd i).flags.scActive :: l) :=
        added_eq (by rw [hn, hm, hlog, hl]; simp)
      rw [hadd]
      simp

/-- Meeting one, it does not. -/
theorem not_answersFrame_of {i : Nat} {s t u : Osdp}
    (h : osdpPdUpdate env run i s = .ok () t)
    (hu : receivedFrame env run i s = some u)
    (hbad : rebuildsLeftover env i u = true) :
    ¬ AnswersFrame env run i s t := by
  obtain ⟨hal, hroom⟩ := Bool.and_eq_true_iff.mp hbad
  obtain ⟨hal, hid⟩ := Bool.and_eq_true_iff.mp hal
  have hroom : minimumPacketSize ≤ getTxBufSize (u.pd i) := by
    simpa using hroom
  have hid : (u.pd i).replyId ≠ replyNak := by simpa using hid
  obtain ⟨v, time, hserved⟩ := refresh_cases h
  cases hserved with
  | parked hpark send =>
    unfold receivedFrame at hu
    rw [time] at hu
    dsimp only at hu
    rw [if_pos hpark] at hu
    cases hu
  | @received w t' ret hp listen got rest =>
    cases got with
    | @none err x _ hne check reset skip =>
      rw [receivedFrame_eq time hp listen check, if_neg hne] at hu
      cases hu
    | @refused len payload x _ check hlen decode =>
      rw [receivedFrame_of time hp listen check] at hu
      obtain rfl := Option.some.inj hu
      obtain ⟨r, hr', hrl, -, htp, hR, hlog⟩ := osdpPhyDecodePacket_ok decode
      have hlen : len = errPktNack := hrl.symm.trans (decode_of_alias hr' hal)
      have ha : answered (pdErrorOfDecode len) := by
        rw [hlen]
        exact .inr rfl
      have hkeep := decode_nack hr' (hrl.trans hlen)
      rw [if_pos hal] at hkeep
      have hidt : (t'.pd i).replyId = (x.pd i).replyId := by
        rw [htp]
        exact hkeep.1
      have hsize : getTxBufSize (t'.pd i) = getTxBufSize (x.pd i) := by
        have e := congrArg getTxBufSize (hR.pd i)
        exact e
      rcases rest with ⟨hna, -⟩ | ⟨hna, -⟩ | ⟨-, hreply⟩
      · exact absurd ha hna
      · exact absurd ha hna
      · have hf := notParked listen (trans_of Receives
          ((receives_osdpPhyCheckPacket i).of check) hR)
        obtain ⟨up, m, hm, hbuild⟩ :=
          replyStage_builds hr hreply hf (hsize ▸ hroom)
        obtain ⟨n, hn, hnd⟩ := ((noDecode_pdReplyStage hr i _).of hreply).log
        obtain ⟨l, hl, hbefore, -⟩ := refused_before hr time listen check
        have hadd : added s t = m ++ l :=
          added_eq (by rw [hm, hlog, hl, List.append_assoc])
        have hmn : m = n := List.append_cancel_right (hm.symm.trans hn)
        intro hans
        have hmem : .build i (t'.pd i).replyId up ∈ added s t := by
          rw [hadd]
          exact List.mem_append_left l hbuild
        rcases hans.built _ up hmem with hnak | ⟨pl, up', hdec⟩
        · exact hid (hidt ▸ hnak)
        · rw [hadd, hmn] at hdec
          rcases List.mem_append.mp hdec with hd | hd
          · cases hnd _ hd
          · cases hbefore _ hd
    | @decoded len ret payload x y z check hlen decode command =>
      rw [receivedFrame_of time hp listen check] at hu
      obtain rfl := Option.some.inj hu
      obtain ⟨r, hr', hrl, -⟩ := osdpPhyDecodePacket_ok decode
      have := decode_of_alias hr' hal
      rw [hrl] at this
      simp only [errPktNack] at this
      omega

end Refresh

-- =============================================================== examples

/-- Nine bytes of which the security block is said to be eight. -/
def aliasFrame : Bytes := writeBe 9 0x530109000D0812303E

/-- No AES block is used. -/
def plainPollEnv : Env := plainEnv (knownCipher []) fun n => UInt8.ofNat n

/-- A plain POLL. -/
def pollFrame : Bytes := writeBe 8 0x530108000460BA00

end LibOsdp
