/-
A pass of the CP's state machine, as one move.

The footprints of the parts, put together: what an exchange touches
(`read_cpPhyStateUpdate`), and what a pass does (`read_stateUpdate`).  A
pass that does not find its PD waiting for a reply takes nothing off the
line (`pass_stateUpdate`).
-/
import LibOsdp.Cp.Proofs.Footprint
import LibOsdp.Phy.Proofs.Reception

namespace LibOsdp

open Lib

-- =============================================================== sending

section Send

variable {env : Env}

/-- What `osdp_phy_send_packet` makes of the channel's answer. -/
def sendCode (ret : Int) (len : Nat) : Int :=
  if ret = 0 then errPktWaitTx
  else if ret < 0 ∨ ret ≠ len then errPktBuild
  else len

/-- Sending is one call of the channel, with what the buffer holds. -/
theorem sendPacket_ok {i len : Nat} {s t : Osdp} {rc : Int}
    (h : osdpPhySendPacket env i len s = .ok rc t) :
    ∃ ret l, rc = sendCode ret len ∧
      t = { s with
            line := l
            log := .sent i ((s.buf (s.pd i).packetBuf).take len) ret
              :: s.log } := by
  obtain ⟨p, s', hp, h⟩ := bind_ok.mp h
  obtain ⟨rfl, rfl⟩ := getPd_ok.mp hp
  obtain ⟨buf, s', hb, h⟩ := bind_ok.mp h
  cases hb
  obtain ⟨ret, x, hx, h⟩ := bind_ok.mp h
  cases hx
  refine ⟨env.channelSend s.log ((s.buf (s.pd i).packetBuf).take len),
    if env.channelFlush then [] else s.line, ?_⟩
  unfold sendCode
  split at h
  · next h0 =>
    obtain ⟨rfl, rfl⟩ := pure_ok.mp h
    exact ⟨(if_pos h0).symm, rfl⟩
  · next h0 =>
    split at h
    · next h1 =>
      obtain ⟨rfl, rfl⟩ := pure_ok.mp h
      exact ⟨by rw [if_neg h0, if_pos h1], rfl⟩
    · next h1 =>
      obtain ⟨rfl, rfl⟩ := pure_ok.mp h
      exact ⟨by rw [if_neg h0, if_neg h1], rfl⟩

end Send

-- ============================================================== decoding

/-- The peer's choice of a key, as a step of reception. -/
theorem readStep_takeSelector (p : OsdpPd) (pkt : Bytes) :
    ReadStep p (takeSelector p pkt) := by
  unfold takeSelector
  split
  · next h =>
    refine ⟨rfl, rfl, id, fun _ => .inr ?_, fun _ => rfl⟩
    unfold selectsScbkd at h
    simp only [Bool.and_eq_true] at h
    exact h.2.1.2
  · exact ⟨rfl, rfl, id, .inl, id⟩

/-- What decoding a frame does to the PD. -/
theorem Decoded.readStep {env : Env} {p : OsdpPd} {pkt : Bytes} {n : Nat}
    {r : DecodeResult} (h : Decoded env p pkt n r) : ReadStep p r.pd := by
  have hsel := readStep_takeSelector p pkt
  have hmac : ReadStep p (afterMac env p pkt n) := by
    unfold afterMac phyComputeMac osdpComputeMac
    split
    · exact ⟨hsel.rest, hsel.flags, hsel.active, hsel.select, hsel.clear⟩
    · exact ⟨hsel.rest, hsel.flags, hsel.active, hsel.select, hsel.clear⟩
  cases h with
  | refused code href => exact ⟨rfl, rfl, id, .inl, id⟩
  | plain href hm => exact hsel
  | dropped pkt' href hm hbad =>
    exact ⟨hmac.rest, hmac.flags, nofun, hmac.select, hmac.clear⟩
  | maced href hm hok he => exact hmac
  | decrypted pkt' text href hm hok he => exact hmac

section Read

variable {env : Env} {run : List ApiCall → OsdpM Unit}
variable {i : Nat} {R : Osdp → Osdp → Prop}
variable [BusMoves R] [ReadMoves i R]

theorem read_osdpPhyDecodePacket :
    Keeps R (osdpPhyDecodePacket env i) := by
  intro s a t h
  unfold osdpPhyDecodePacket at h
  obtain ⟨p, u, hp, h⟩ := bind_ok.mp h
  obtain ⟨rfl, rfl⟩ := getPd_ok.mp hp
  obtain ⟨buf, u, hb, h⟩ := bind_ok.mp h
  cases hb
  cases hr : phyDecode env (s.pd i)
    ((s.buf (s.pd i).packetBuf).drop (s.pd i).markLen)
    ((s.pd i).packetBufLen - (s.pd i).markLen) with
  | error f =>
    rw [hr] at h
    exact absurd h throw_ok
  | ok r =>
    rw [hr] at h
    obtain ⟨_, u, hu, h⟩ := bind_ok.mp h
    obtain ⟨_, v, hv, h⟩ := bind_ok.mp h
    obtain ⟨-, rfl⟩ := pure_ok.mp h
    have hsu : R s u := (read_writeBuf i _ _ _).of hu
    have hpd : u.pd = s.pd := by
      unfold writeBuf at hu
      split at hu <;> (cases hu; rfl)
    rw [← updPd_ok.mp hv]
    refine trans_of R hsu (ReadMoves.read u _ ?_)
    rw [hpd]
    exact (decoded_of hr).readStep

/-- A frame the checks refused was out of sequence, and nothing else. -/
theorem check_nack {s t : Osdp}
    (h : osdpPhyCheckPacket env i s = .ok errPktNack t) :
    (t.pd i).nakCode ≠ nakScCond := by
  obtain ⟨u, -, hc⟩ := ends_osdpPhyCheckPacket i s _ t h
  rw [SequenceChecked, if_pos rfl] at hc
  rw [hc, updPd_pd_same]
  show ((u.pd i).pending.set 0 nakSeqNum).headD 0 ≠ nakScCond
  cases (u.pd i).pending with
  | nil => exact (by decide : (0 : UInt8) ≠ nakScCond)
  | cons b l => exact (by decide : nakSeqNum ≠ nakScCond)

end Read

section Exchange

variable {env : Env} {run : List ApiCall → OsdpM Unit}
variable {i : Nat} {R : Osdp → Osdp → Prop}
variable [BusMoves R] [ReadMoves i R] [MarkMoves i R] [CoreMoves i R]

omit [BusMoves R] [ReadMoves i R] [MarkMoves i R] in
/-- A refused frame asks for a link reset; the request for a handshake is
never reached. -/
theorem core_cpProcessNack [IsPreorder Osdp R] {s t : Osdp} {rc : Int}
    (hne : (s.pd i).nakCode ≠ nakScCond)
    (h : cpProcessNack i s = .ok rc t) : R s t := by
  obtain ⟨p, u, hp, h⟩ := bind_ok.mp h
  obtain ⟨rfl, rfl⟩ := getPd_ok.mp hp
  have hreset : Keeps R (makeRequest i .linkReset) := core_updPd (fun _ => rfl) fun _ => rfl
  split at h
  · exact (Keeps.bind hreset fun _ => .pure _).of h
  · exact (Keeps.pure (R := R) _).of h

variable (hr : ∀ calls, Keeps R (run calls))
include hr

/-- Working on a frame: its payload is unwrapped, marked and decoded. -/
theorem read_cpProcessFrame [CapMoves i R] :
    Keeps R (cpProcessFrame env run i) := by
  have hpkt : Keeps R (osdpPhyDecodePacket env i) :=
    read_osdpPhyDecodePacket
  have hdec (p : Bytes) : Keeps R (cpDecodeResponse env run i p) :=
    core_cpDecodeResponse hr p
  have hd (b : Bytes) (a : Bool) : Keeps R (observe (.decoded i b a)) :=
    mark_observe rfl
  have hv (b : Bytes) (r : Int) : Keeps R (observe (.verdict i b r)) :=
    mark_observe rfl
  unfold cpProcessFrame
  grind

omit hr [MarkMoves i R] in
theorem read_cpProcessReply (hf : Keeps R (cpProcessFrame env run i)) :
    Keeps R (cpProcessReply env run i) := by
  intro s rc t h
  obtain ⟨err, u, hu, h⟩ := bind_ok.mp h
  have hsu : R s u := read_osdpPhyCheckPacket.of hu
  refine trans_of R hsu ?_
  split at h
  · exact hf.of h
  · split at h
    · exact (Keeps.pure (R := R) _).of h
    · split at h
      · have hbusy : Keeps R (updPd i fun p =>
            { p with replyId := replyBusy }) := core_updPd (fun _ => rfl) fun _ => rfl
        exact (Keeps.bind hbusy fun _ => Keeps.pure (R := R) _).of h
      · split at h
        · next he =>
          subst he
          exact core_cpProcessNack (check_nack hu) h
        · exact (Keeps.pure (R := R) _).of h

omit hr [MarkMoves i R] in
theorem read_cpPhyReply (hf : Keeps R (cpProcessFrame env run i)) :
    Keeps R (cpPhyReply env run i) := by
  have hp : Keeps R (cpProcessReply env run i) := read_cpProcessReply hf
  have ha (rc : Int) : Keeps R (cpPhyAcknowledge i rc) :=
    core_cpPhyAcknowledge rc
  have hj (rc : Int) : Keeps R (cpPhyJudge i rc) := core_cpPhyJudge rc
  unfold cpPhyReply
  grind

omit [ReadMoves i R] in
/-- Building and sending, the mark included. -/
theorem keeps_cpPhyBuild : Keeps R (cpPhyBuild env run i) :=
  fun _ _ _ h => trans_of R (MarkMoves.mark _ _ rfl) (core_cpPhyBuild hr h)

omit [ReadMoves i R] in
/-- Every phase of an exchange but REPLY_WAIT. -/
theorem core_cpPhyStateUpdate {s t : Osdp} {err : Int}
    (hne : (s.pd i).phyState ≠ .replyWait)
    (h : cpPhyStateUpdate env run i s = .ok err t) : R s t := by
  obtain ⟨p, v, hp, h⟩ := bind_ok.mp h
  obtain ⟨rfl, rfl⟩ := getPd_ok.mp hp
  cases hph : (s.pd i).phyState with
  | replyWait => exact absurd hph hne
  | idle | done | err =>
    rw [hph] at h
    exact (Keeps.pure (R := R) _).of h
  | wait =>
    rw [hph] at h
    exact core_cpPhyPause.of h
  | retryCmd =>
    rw [hph] at h
    exact (Keeps.bind core_cpPhyRewind fun _ => keeps_cpPhyBuild hr).of h
  | sendCmd =>
    rw [hph] at h
    exact (keeps_cpPhyBuild hr).of h
  | sendCmdWait =>
    rw [hph] at h
    exact core_cpPhySend.of h

theorem read_cpPhyStateUpdate_of
    (hf : Keeps R (cpProcessFrame env run i)) :
    Keeps R (cpPhyStateUpdate env run i) := by
  intro s err t h
  by_cases hne : (s.pd i).phyState = .replyWait
  · obtain ⟨p, v, hp, h⟩ := bind_ok.mp h
    obtain ⟨rfl, rfl⟩ := getPd_ok.mp hp
    rw [hne] at h
    exact (read_cpPhyReply hf).of h
  · exact core_cpPhyStateUpdate hr hne h

theorem read_cpPhyStateUpdate [CapMoves i R] :
    Keeps R (cpPhyStateUpdate env run i) :=
  read_cpPhyStateUpdate_of hr (read_cpProcessFrame hr)

end Exchange

-- ============================================================== the pass

/-- A pass is an exchange that goes on, or one that is over and what
follows. -/
theorem stateUpdate_ok {env : Env} {run : List ApiCall → OsdpM Unit}
    {i : Nat} {s t : Osdp} (h : stateUpdate env run i s = .ok () t) :
    (∃ err, cpPhyRunning (s.pd i) = true ∧
      cpPhyStateUpdate env run i s = .ok err t ∧
      (err = cpErrInprog ∨ err = cpErrDefer)) ∨
    (∃ err u, cpPhyRunning (s.pd i) = true ∧
      cpPhyStateUpdate env run i s = .ok err u ∧
      ¬ (err = cpErrInprog ∨ err = cpErrDefer) ∧
      cpProceed env run i (s.pd i).state u = .ok () t) ∨
    (cpPhyRunning (s.pd i) = false ∧
      cpProceed env run i (s.pd i).state s = .ok () t) := by
  obtain ⟨p, v, hp, h⟩ := bind_ok.mp h
  obtain ⟨rfl, rfl⟩ := getPd_ok.mp hp
  split at h
  · next hrun =>
    obtain ⟨err, u, hu, h⟩ := bind_ok.mp h
    split at h
    · next he =>
      obtain ⟨-, rfl⟩ := pure_ok.mp h
      exact .inl ⟨err, hrun, hu, he⟩
    · next he => exact .inr (.inl ⟨err, u, hrun, hu, he, h⟩)
  · next hrun => exact .inr (.inr ⟨by simpa using hrun, h⟩)

section Pass

variable {env : Env} {run : List ApiCall → OsdpM Unit}
variable {i : Nat} {R : Osdp → Osdp → Prop}
variable [BusMoves R] [MarkMoves i R] [CoreMoves i R] [PassMoves i R]
variable (hr : ∀ calls, Keeps R (run calls))
include hr

/-- A pass on PD `i` stays within every relation closed under what such a
pass does and that working on a frame stays within. -/
theorem read_stateUpdate_of [ReadMoves i R]
    (hf : Keeps R (cpProcessFrame env run i)) :
    Keeps R (stateUpdate env run i) := by
  intro s a t h
  rcases stateUpdate_ok h with ⟨err, -, hu, -⟩ | ⟨err, u, -, hu, -, hp⟩ | ⟨-, hp⟩
  · exact (read_cpPhyStateUpdate_of hr hf).of hu
  · exact trans_of R ((read_cpPhyStateUpdate_of hr hf).of hu)
      ((pass_cpProceed hr _).of hp)
  · exact (pass_cpProceed hr _).of hp

theorem read_stateUpdate [ReadMoves i R] [CapMoves i R] :
    Keeps R (stateUpdate env run i) :=
  read_stateUpdate_of hr (read_cpProcessFrame hr)

/-- A pass that awaits no reply takes nothing off the line. -/
theorem pass_stateUpdate {s t : Osdp}
    (hne : (s.pd i).phyState ≠ .replyWait)
    (h : stateUpdate env run i s = .ok () t) : R s t := by
  rcases stateUpdate_ok h with ⟨err, -, hu, -⟩ | ⟨err, u, -, hu, -, hp⟩ | ⟨-, hp⟩
  · exact core_cpPhyStateUpdate hr hne hu
  · exact trans_of R (core_cpPhyStateUpdate hr hne hu)
      ((pass_cpProceed hr _).of hp)
  · exact (pass_cpProceed hr _).of hp

end Pass

end LibOsdp
