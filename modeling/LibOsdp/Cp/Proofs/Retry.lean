/-
How often the CP sends a command.

# Counting

`phy_retry_count` goes up by one with every pause before another attempt
and is cleared by `cp_phy_state_done` and by a full reset of the phy
layer.  `attempt_ok` says what one step of an exchange makes of it.

# What clears it

An exchange that fails leaves it as it is, and so does settling it.  What
comes next clears it only on the ways off the link: OFFLINE is left
through INIT, whose entry resets the phy layer.  A failure that the link
survives, from SC_CHLNG to SCBK-D or ONLINE, from SC_SCRYPT or SET_SCBK to
ONLINE, and in a card session, keeps it, and the next command starts with
what is left of the budget.  `takenOff` tells the two apart.
-/
import LibOsdp.Cp.Proofs.Restore
import LibOsdp.Cp.Proofs.Waiting

namespace LibOsdp

open Lib

-- ============================================================== attempts

/-- Where an exchange stands, and how often it was tried again. -/
def OsdpPd.attempt (p : OsdpPd) : CpPhyState × Nat :=
  (p.phyState, p.phyRetryCount)

/-- The exchange of PD `i` stands where it did. -/
def SameAttempt (i : Nat) (s t : Osdp) : Prop :=
  (t.pd i).attempt = (s.pd i).attempt

theorem sameAttempt_same {i : Nat} {s t : Osdp} (h : t.pd = s.pd) :
    SameAttempt i s t := by
  unfold SameAttempt
  rw [h]

/-- An update of PD `i`, or of another. -/
theorem sameAttempt_updPd {i j : Nat} {s : Osdp} {f : OsdpPd → OsdpPd}
    (h : (f (s.pd j)).attempt = (s.pd j).attempt) :
    SameAttempt i s (s.updPd j f) := by
  unfold SameAttempt
  by_cases e : i = j
  · subst e
    rw [updPd_pd_same]
    exact h
  · rw [updPd_pd_ne s f e]

instance (i : Nat) : BusMoves (SameAttempt i) where
  refl _ := rfl
  trans _ _ _ h k := Eq.trans k h
  call s j f h := sameAttempt_updPd (by
    have e := congrArg OsdpPd.attempt (h (s.pd j))
    exact e)
  enable _ _ _ := sameAttempt_updPd rfl
  disable _ _ := sameAttempt_updPd rfl
  note _ _ _ := sameAttempt_same rfl
  running _ _ := sameAttempt_same rfl
  entry _ _ _ := sameAttempt_same rfl
  txBuf _ _ _ := sameAttempt_same rfl
  flush _ := sameAttempt_same rfl
  drawn _ _ := sameAttempt_same rfl

instance (i : Nat) : MarkMoves i (SameAttempt i) where
  mark _ _ _ := sameAttempt_same rfl

instance (i : Nat) : PickMoves i (SameAttempt i) where
  pick s f h := sameAttempt_updPd (by
    have e := congrArg OsdpPd.attempt (h (s.pd i))
    exact e)

instance (i : Nat) : CapMoves i (SameAttempt i) where
  caps s f h := sameAttempt_updPd (by
    have e := congrArg OsdpPd.attempt (h (s.pd i))
    exact e)

instance (i : Nat) : ReadMoves i (SameAttempt i) where
  read s f h := sameAttempt_updPd (by
    have e := congrArg OsdpPd.attempt h.rest
    exact e)
  rxBuf _ _ := sameAttempt_same rfl
  line _ _ := sameAttempt_same rfl

section Attempt

variable {env : Env} {depth i : Nat} {s t : Osdp}

theorem keeps_attempt {f : OsdpPd → OsdpPd}
    (h : ∀ p : OsdpPd, (f p).attempt = p.attempt) :
    Keeps (SameAttempt i) (updPd i f) := by
  intro s a t e
  rw [← updPd_ok.mp e]
  exact sameAttempt_updPd (h _)

theorem sameAttempt_run (calls : List ApiCall) :
    Keeps (SameAttempt i) (cpRunCalls env depth calls) :=
  keeps_cpRunCalls depth calls

theorem SameAttempt.phyState (h : SameAttempt i s t) :
    (t.pd i).phyState = (s.pd i).phyState := congrArg Prod.fst h

theorem SameAttempt.count (h : SameAttempt i s t) :
    (t.pd i).phyRetryCount = (s.pd i).phyRetryCount := congrArg Prod.snd h

-- ================================================= a step of an exchange

/-- Listening for a reply. -/
theorem sameAttempt_cpProcessReply :
    Keeps (SameAttempt i) (cpProcessReply env (cpRunCalls env depth) i) := by
  have hdec (payload : Bytes) :
      Keeps (SameAttempt i) (cpDecodeResponse env (cpRunCalls env depth) i
        payload) := by
    unfold cpDecodeResponse
    exact .bind (keeps_attempt fun _ => rfl) fun _ =>
      frame_cpDecodeCases sameAttempt_run _ _ fun _ => caps_decodePdcap _
  have hframe :
      Keeps (SameAttempt i) (cpProcessFrame env (cpRunCalls env depth) i) := by
    unfold cpProcessFrame
    refine .bind read_osdpPhyDecodePacket fun r => ?_
    dsimp only
    split
    · exact .pure _
    · exact .bind (keeps_getPd i) fun _ => .bind (mark_observe rfl) fun _ =>
        .bind (hdec _) fun _ => .bind (mark_observe rfl) fun _ => .pure _
  have hnack : Keeps (SameAttempt i) (cpProcessNack i) := by
    have hreq (r : CpReq) : Keeps (SameAttempt i) (makeRequest i r) :=
      keeps_attempt fun _ => rfl
    unfold cpProcessNack
    refine .bind (keeps_getPd i) fun p => ?_
    split
    · exact .bind (hreq _) fun _ => .pure _
    · split
      · exact .bind (hreq _) fun _ => .pure _
      · exact .pure _
  unfold cpProcessReply
  refine .bind read_osdpPhyCheckPacket fun err => ?_
  split
  · exact hframe
  · split
    · exact .pure _
    · split
      · exact .bind (keeps_attempt fun _ => rfl) fun _ => .pure _
      · split
        · exact hnack
        · exact .pure _

/-- What a step of an exchange makes of the phy state and the count. -/
inductive Attempt (p q : OsdpPd) : Int → Prop where
  | rests {err : Int} (phy : phyRuns p.phyState = false)
      (same : q.attempt = p.attempt) : Attempt p q err
  | pauses (phy : p.phyState = .wait)
      (next : q.phyState = .wait ∨ q.phyState = .retryCmd)
      (count : q.phyRetryCount = p.phyRetryCount) : Attempt p q cpErrDefer
  | parked (phy : p.phyState = .sendCmd ∨ p.phyState = .retryCmd ∨
        p.phyState = .sendCmdWait) (next : q.phyState = .sendCmdWait)
      (count : q.phyRetryCount = p.phyRetryCount) : Attempt p q cpErrDefer
  | sent (phy : p.phyState = .sendCmd ∨ p.phyState = .retryCmd ∨
        p.phyState = .sendCmdWait) (next : q.phyState = .replyWait)
      (count : q.phyRetryCount = p.phyRetryCount) : Attempt p q cpErrInprog
  | waits (phy : p.phyState = .replyWait) (next : q.phyState = .replyWait)
      (count : q.phyRetryCount = p.phyRetryCount) : Attempt p q cpErrInprog
  | again (phy : p.phyState = .replyWait) (next : q.phyState = .wait)
      (room : p.phyRetryCount < cmdMaxRetries)
      (count : q.phyRetryCount = p.phyRetryCount + 1) :
      Attempt p q cpErrDefer
  | done (phy : p.phyState = .replyWait) (next : q.phyState = .done)
      (count : q.phyRetryCount = 0) : Attempt p q cpErrNone
  | failed (phy : phyRuns p.phyState = true) (next : q.phyState = .err)
      (count : q.phyRetryCount = p.phyRetryCount) : Attempt p q cpErrGeneric

/-- Where it stands is all that counts. -/
theorem Attempt.of_same {p p' q : OsdpPd} {err : Int}
    (h : Attempt p' q err) (e : p'.attempt = p.attempt) :
    Attempt p q err := by
  simp only [OsdpPd.attempt, Prod.mk.injEq] at e
  obtain ⟨hphy, hcount⟩ := e
  cases h with
  | rests phy same =>
    exact .rests (hphy ▸ phy) (same.trans (Prod.ext hphy hcount))
  | pauses phy next count =>
    exact .pauses (hphy ▸ phy) next (count.trans hcount)
  | parked phy next count =>
    exact .parked (hphy ▸ phy) next (count.trans hcount)
  | sent phy next count => exact .sent (hphy ▸ phy) next (count.trans hcount)
  | waits phy next count =>
    exact .waits (hphy ▸ phy) next (count.trans hcount)
  | again phy next room count =>
    exact .again (hphy ▸ phy) next (hcount ▸ room) (hcount ▸ count)
  | done phy next count => exact .done (hphy ▸ phy) next count
  | failed phy next count =>
    exact .failed (hphy ▸ phy) next (count.trans hcount)

theorem phyFail_attempt {err : Int} (h : cpPhyFail i s = .ok err t) :
    err = cpErrGeneric ∧ (t.pd i).phyState = .err ∧
      (t.pd i).phyRetryCount = (s.pd i).phyRetryCount := by
  obtain ⟨_, u, hu, h⟩ := bind_ok.mp h
  obtain ⟨rfl, rfl⟩ := pure_ok.mp h
  rw [← updPd_ok.mp hu, updPd_pd_same]
  exact ⟨rfl, rfl, rfl⟩

theorem phyDone_attempt {a : Unit} (h : cpPhyStateDone i s = .ok a t) :
    (t.pd i).phyState = .done ∧ (t.pd i).phyRetryCount = 0 := by
  obtain ⟨_, u, hu, h⟩ := bind_ok.mp h
  cases hu
  rw [← updPd_ok.mp h, updPd_pd_same]
  exact ⟨rfl, rfl⟩

theorem phyRetry_attempt {err : Int} (h : cpPhyRetry i s = .ok err t) :
    err = cpErrDefer ∧ (t.pd i).phyState = .wait ∧
      (t.pd i).phyRetryCount = (s.pd i).phyRetryCount + 1 := by
  obtain ⟨_, u, hu, h⟩ := bind_ok.mp h
  obtain ⟨_, v, hv, h⟩ := bind_ok.mp h
  obtain ⟨rfl, rfl⟩ := pure_ok.mp h
  obtain ⟨_, w, hw, hv⟩ := bind_ok.mp hv
  cases hw
  rw [← updPd_ok.mp hv, updPd_pd_same, ← updPd_ok.mp hu, updPd_pd_same]
  exact ⟨rfl, rfl, rfl⟩

/-- The verdict on what was heard. -/
theorem phyJudge_attempt {rc err : Int}
    (hwait : (s.pd i).phyState = .replyWait)
    (h : cpPhyJudge i rc s = .ok err t) :
    Attempt (s.pd i) (t.pd i) err := by
  have hruns : phyRuns (s.pd i).phyState = true := by
    rw [hwait]
    rfl
  have hdone {u : Osdp} (h : (do
        cpPhyStateDone i
        return cpErrNone) u = .ok err t) : Attempt (s.pd i) (t.pd i) err := by
    obtain ⟨_, v, hv, h⟩ := bind_ok.mp h
    obtain ⟨rfl, rfl⟩ := pure_ok.mp h
    obtain ⟨hphy, hcount⟩ := phyDone_attempt hv
    exact .done hwait hphy hcount
  obtain ⟨p, u, hp, h⟩ := bind_ok.mp h
  obtain ⟨rfl, rfl⟩ := getPd_ok.mp hp
  split at h
  · exact hdone h
  · split at h
    · obtain ⟨rfl, hphy, hcount⟩ := phyFail_attempt h
      exact .failed hruns hphy hcount
    · split at h
      · split at h
        · exact hdone h
        · next hroom =>
          obtain ⟨rfl, hphy, hcount⟩ := phyRetry_attempt h
          exact .again hwait hphy (Nat.not_le.mp hroom) hcount
      · obtain ⟨age, u, hu, h⟩ := bind_ok.mp h
        cases hu
        split at h
        · split at h
          · next hroom =>
            obtain ⟨rfl, hphy, hcount⟩ := phyRetry_attempt h
            exact .again hwait hphy hroom hcount
          · obtain ⟨rfl, hphy, hcount⟩ := phyFail_attempt h
            exact .failed hruns hphy hcount
        · obtain ⟨rfl, rfl⟩ := pure_ok.mp h
          exact .waits hwait hwait rfl

/-- A packet the channel took. -/
theorem awaitReply_attempt {a : Unit} (h : cpAwaitReply env i s = .ok a t) :
    (t.pd i).phyState = .replyWait ∧
      (t.pd i).phyRetryCount = (s.pd i).phyRetryCount := by
  obtain ⟨_, u, hu, h⟩ := bind_ok.mp h
  have hsu : (u.pd i).phyRetryCount = (s.pd i).phyRetryCount := by
    obtain ⟨_, v, hv, hu⟩ := bind_ok.mp hu
    obtain ⟨-, rfl⟩ := pure_ok.mp hu
    rw [← updPd_ok.mp hv, updPd_pd_same]
  obtain ⟨now, w, hw, h⟩ := bind_ok.mp h
  cases hw
  obtain ⟨p, w, hw, h⟩ := bind_ok.mp h
  obtain ⟨rfl, rfl⟩ := getPd_ok.mp hw
  split at h
  · exact absurd h throw_ok
  · rw [← updPd_ok.mp h, updPd_pd_same]
    exact ⟨rfl, hsu⟩

/-- An offer to the channel. -/
theorem phySend_attempt {err : Int} {p : OsdpPd}
    (hp : p.phyState = .sendCmd ∨ p.phyState = .retryCmd ∨
      p.phyState = .sendCmdWait)
    (hcount : (s.pd i).phyRetryCount = p.phyRetryCount)
    (hphy : (s.pd i).phyState = .sendCmdWait)
    (h : cpPhySend env i s = .ok err t) : Attempt p (t.pd i) err := by
  have hruns : phyRuns p.phyState = true := by
    rcases hp with e | e | e <;> rw [e] <;> rfl
  obtain ⟨q, u, hq, h⟩ := bind_ok.mp h
  obtain ⟨rfl, rfl⟩ := getPd_ok.mp hq
  obtain ⟨rc, u, hu, h⟩ := bind_ok.mp h
  have hsu : SameAttempt i s u := by
    obtain ⟨ret, l, -, rfl⟩ := sendPacket_ok hu
    exact sameAttempt_same rfl
  split at h
  · obtain ⟨rfl, rfl⟩ := pure_ok.mp h
    exact .parked hp (hsu.phyState.trans hphy) (hsu.count.trans hcount)
  · split at h
    · obtain ⟨rfl, herr, hc⟩ := phyFail_attempt h
      exact .failed hruns herr ((hc.trans hsu.count).trans hcount)
    · obtain ⟨_, v, hv, h⟩ := bind_ok.mp h
      obtain ⟨rfl, rfl⟩ := pure_ok.mp h
      obtain ⟨hw, hc⟩ := awaitReply_attempt hv
      exact .sent hp hw ((hc.trans hsu.count).trans hcount)

/-- Building a packet and offering it. -/
theorem phyBuild_attempt {err : Int} {p : OsdpPd}
    (hp : p.phyState = .sendCmd ∨ p.phyState = .retryCmd ∨
      p.phyState = .sendCmdWait)
    (hcount : (s.pd i).phyRetryCount = p.phyRetryCount)
    (h : cpPhyBuild env (cpRunCalls env depth) i s = .ok err t) :
    Attempt p (t.pd i) err := by
  have hruns : phyRuns p.phyState = true := by
    rcases hp with e | e | e <;> rw [e] <;> rfl
  obtain ⟨b, u, hu, h⟩ := bind_ok.mp h
  have hbuilt : SameAttempt i { s with
      log := .build i (s.pd i).cmdId (s.pd i).flags.scActive :: s.log } u :=
    frame_cpBuildPacket sameAttempt_run hu
  have hsu : (u.pd i).phyRetryCount = p.phyRetryCount :=
    hbuilt.count.trans hcount
  split at h
  · obtain ⟨_, v, hv, h⟩ := bind_ok.mp h
    have hv := updPd_ok.mp hv
    refine phySend_attempt hp ?_ ?_ h <;> rw [← hv, updPd_pd_same]
    exact hsu
  · obtain ⟨rfl, herr, hc⟩ := phyFail_attempt h
    exact .failed hruns herr (hc.trans hsu)

/-- One step of an exchange. -/
theorem attempt_ok {err : Int}
    (h : cpPhyStateUpdate env (cpRunCalls env depth) i s = .ok err t) :
    Attempt (s.pd i) (t.pd i) err := by
  obtain ⟨p, v, hp, h⟩ := bind_ok.mp h
  obtain ⟨rfl, rfl⟩ := getPd_ok.mp hp
  cases hph : (s.pd i).phyState with
  | idle | done | err =>
    rw [hph] at h
    obtain ⟨-, rfl⟩ := pure_ok.mp h
    exact .rests (by rw [hph]; rfl) rfl
  | wait =>
    rw [hph] at h
    obtain ⟨p, v, hp, h⟩ := bind_ok.mp h
    obtain ⟨rfl, rfl⟩ := getPd_ok.mp hp
    obtain ⟨age, v, hv, h⟩ := bind_ok.mp h
    cases hv
    split at h
    · obtain ⟨_, u, hu, h⟩ := bind_ok.mp h
      obtain ⟨rfl, rfl⟩ := pure_ok.mp h
      have hu := updPd_ok.mp hu
      refine .pauses hph (.inr ?_) ?_ <;> rw [← hu, updPd_pd_same]
    · obtain ⟨rfl, rfl⟩ := pure_ok.mp h
      exact .pauses hph (.inl hph) rfl
  | retryCmd =>
    rw [hph] at h
    obtain ⟨_, u, hu, h⟩ := bind_ok.mp h
    refine phyBuild_attempt (.inr (.inl hph)) ?_ h
    have hflush {v w : Osdp} (hv : v.pd = s.pd)
        (hw : updPd i (fun p => { p with
          seqNumber := (p.phyTxSeq : Int) - 1, phyState := .sendCmd }) v
            = .ok () w) :
        (w.pd i).phyRetryCount = (s.pd i).phyRetryCount := by
      rw [← updPd_ok.mp hw, updPd_pd_same, hv]
    unfold cpPhyRewind at hu
    split at hu
    · obtain ⟨_, v, hv, hu⟩ := bind_ok.mp hu
      exact hflush (by rw [← modify_ok.mp hv]) hu
    · exact hflush rfl hu
  | sendCmd =>
    rw [hph] at h
    exact phyBuild_attempt (.inl hph) rfl h
  | sendCmdWait =>
    rw [hph] at h
    exact phySend_attempt (.inr (.inr hph)) rfl hph h
  | replyWait =>
    rw [hph] at h
    obtain ⟨rc, u, hu, h⟩ := bind_ok.mp h
    obtain ⟨_, v, hv, h⟩ := bind_ok.mp h
    have hsu : SameAttempt i s u := sameAttempt_cpProcessReply.of hu
    have huv : SameAttempt i u v := by
      unfold cpPhyAcknowledge at hv
      split at hv
      · obtain ⟨now, w, hw, hv⟩ := bind_ok.mp hv
        cases hw
        obtain ⟨_, x, hx, hv⟩ := bind_ok.mp hv
        have hux : SameAttempt i u x := by
          rw [← updPd_ok.mp hx]
          exact sameAttempt_updPd rfl
        have hxv : SameAttempt i x v := by
          rw [← updPd_ok.mp hv]
          exact sameAttempt_updPd rfl
        exact Eq.trans hxv hux
      · obtain ⟨-, rfl⟩ := pure_ok.mp hv
        exact refl_of (SameAttempt i) _
    have hsv : SameAttempt i s v := Eq.trans huv hsu
    exact (phyJudge_attempt (hsv.phyState.trans hph) h).of_same hsv

-- ============================================================ the count

end Attempt

/-- The count stands, or is cleared. -/
def Recedes (i : Nat) (s t : Osdp) : Prop :=
  (t.pd i).phyRetryCount = (s.pd i).phyRetryCount ∨
    (t.pd i).phyRetryCount = 0

theorem recedes_same {i : Nat} {s t : Osdp} (h : t.pd = s.pd) :
    Recedes i s t := by
  unfold Recedes
  rw [h]
  exact .inl rfl

theorem recedes_updPd {i j : Nat} {s : Osdp} {f : OsdpPd → OsdpPd}
    (h : (f (s.pd j)).phyRetryCount = (s.pd j).phyRetryCount ∨
      (f (s.pd j)).phyRetryCount = 0) : Recedes i s (s.updPd j f) := by
  unfold Recedes
  by_cases e : i = j
  · subst e
    rw [updPd_pd_same]
    exact h
  · rw [updPd_pd_ne s f e]
    exact .inl rfl

theorem Recedes.trans {i : Nat} {s t u : Osdp} (h : Recedes i s t)
    (k : Recedes i t u) : Recedes i s u := by
  unfold Recedes at h k ⊢
  omega

instance (i : Nat) : BusMoves (Recedes i) where
  refl _ := .inl rfl
  trans _ _ _ h k := h.trans k
  call s j f h := recedes_updPd (by
    have e := congrArg OsdpPd.phyRetryCount (h (s.pd j))
    exact .inl e)
  enable _ _ _ := recedes_updPd (.inl rfl)
  disable _ _ := recedes_updPd (.inl rfl)
  note _ _ _ := recedes_same rfl
  running _ _ := recedes_same rfl
  entry _ _ _ := recedes_same rfl
  txBuf _ _ _ := recedes_same rfl
  flush _ := recedes_same rfl
  drawn _ _ := recedes_same rfl

instance (i : Nat) : MarkMoves i (Recedes i) where
  mark _ _ _ := recedes_same rfl

instance (i : Nat) : PickMoves i (Recedes i) where
  pick s f h := recedes_updPd (by
    have e := congrArg OsdpPd.phyRetryCount (h (s.pd i))
    exact .inl e)

instance (i : Nat) : PassMoves i (Recedes i) where
  pass s f h _ := recedes_updPd (by
    have e := congrArg PdExchange.retries (h (s.pd i))
    exact .inl e)
  letGo s f h _ := recedes_updPd (by
    rcases h (s.pd i) with k | k
    · have e := congrArg PdExchange.retries k
      exact .inl e
    · have e := congrArg PdExchange.retries k
      exact .inr e)

section Count

variable {env : Env} {depth i : Nat} {s t : Osdp}

theorem recedes_run (calls : List ApiCall) :
    Keeps (Recedes i) (cpRunCalls env depth calls) :=
  keeps_cpRunCalls depth calls

theorem Recedes.cleared (h : Recedes i s t)
    (hs : (s.pd i).phyRetryCount = 0) : (t.pd i).phyRetryCount = 0 := by
  unfold Recedes at h
  omega

/-- A full reset of the phy layer clears the count. -/
theorem phyStateReset_count {a : Unit}
    (h : osdpPhyStateReset env i true s = .ok a t) :
    (t.pd i).phyRetryCount = 0 := by
  obtain ⟨_, u, -, h⟩ := bind_ok.mp h
  rw [if_pos rfl] at h
  obtain ⟨_, v, hv, h⟩ := bind_ok.mp h
  have hzero : (v.pd i).phyRetryCount = 0 := by
    rw [← updPd_ok.mp hv, updPd_pd_same]
  split at h
  · rw [← modify_ok.mp h]
    exact hzero
  · obtain ⟨-, rfl⟩ := pure_ok.mp h
    exact hzero

/-- The states that are entered through a full reset. -/
def CpState.resets : CpState → Bool
  | .init | .scChlng | .disabled => true
  | _ => false

/-- Entering them clears the count. -/
theorem enter_count {a : Unit} {cur next : CpState}
    (hnext : next.resets = true)
    (h : cpEnter env (cpRunCalls env depth) i cur next s = .ok a t) :
    (t.pd i).phyRetryCount = 0 := by
  cases next with
  | init =>
    obtain ⟨_, u, hu, h⟩ := bind_ok.mp h
    have hut : Recedes i u t := by
      obtain ⟨now, v, hv, h⟩ := bind_ok.mp h
      cases hv
      rw [← updPd_ok.mp h]
      exact recedes_updPd (.inl rfl)
    exact hut.cleared (phyStateReset_count hu)
  | scChlng =>
    obtain ⟨_, u, hu, h⟩ := bind_ok.mp h
    obtain ⟨_, v, hv, h⟩ := bind_ok.mp h
    have huv : Recedes i u v := pass_osdpScSetup.of hv
    have hvt : Recedes i v t := by
      obtain ⟨p, w, hw, h⟩ := bind_ok.mp h
      obtain ⟨rfl, rfl⟩ := getPd_ok.mp hw
      rw [← observe_ok.mp h]
      exact recedes_same rfl
    exact (huv.trans hvt).cleared (phyStateReset_count hu)
  | disabled =>
    obtain ⟨_, u, hu, h⟩ := bind_ok.mp h
    obtain ⟨_, v, hv, h⟩ := bind_ok.mp h
    obtain ⟨_, w, hw, h⟩ := bind_ok.mp h
    obtain ⟨_, x, hx, h⟩ := bind_ok.mp h
    exact phyStateReset_count h
  | capdet | scScrypt | setScbk | online | offline | trsSetup | trsRun =>
    cases hnext

/-- So does changing to them. -/
theorem stateChange_count {a : Unit} {cur next : CpState}
    (hnext : next.resets = true)
    (h : cpStateChange env (cpRunCalls env depth) i cur next s = .ok a t) :
    (t.pd i).phyRetryCount = 0 := by
  obtain ⟨_, u, hu, h⟩ := bind_ok.mp h
  have hut : Recedes i u t := by
    obtain ⟨_, v, hv, h⟩ := bind_ok.mp h
    have huv : Recedes i u v := by
      rw [← updPd_ok.mp hv]
      exact recedes_updPd (.inl rfl)
    refine huv.trans ?_
    split at h
    · exact (keeps_cpNotifyPdStatus recedes_run i _).of h
    · exact (Keeps.pure (R := Recedes i) ()).of h
  exact hut.cleared (enter_count hnext hu)

/-- What is over is settled, and the machine moved, without another
attempt. -/
theorem recedes_settle (err : Int) :
    Keeps (Recedes i) (cpSettle env (cpRunCalls env depth) i err) :=
  pass_cpSettle recedes_run err

theorem recedes_advance (cur : CpState) (err : Int) :
    Keeps (Recedes i) (cpAdvance env (cpRunCalls env depth) i cur err) :=
  pass_cpAdvance recedes_run cur err

end Count

-- ======================================================= the way off the link

/-- A request to disable PD `i` is pending still. -/
def StillAsked (i : Nat) (s t : Osdp) : Prop :=
  (s.pd i).request.disable = true → (t.pd i).request.disable = true

theorem stillAsked_same {i : Nat} {s t : Osdp} (h : t.pd = s.pd) :
    StillAsked i s t := by
  unfold StillAsked
  rw [h]
  exact id

theorem stillAsked_updPd {i j : Nat} {s : Osdp} {f : OsdpPd → OsdpPd}
    (h : (s.pd j).request.disable = true →
      (f (s.pd j)).request.disable = true) :
    StillAsked i s (s.updPd j f) := by
  unfold StillAsked
  by_cases e : i = j
  · subst e
    rw [updPd_pd_same]
    exact h
  · rw [updPd_pd_ne s f e]
    exact id

instance (i : Nat) : BusMoves (StillAsked i) where
  refl _ := id
  trans _ _ _ h k := k ∘ h
  call s j f h := stillAsked_updPd fun hs => by
    have e := congrArg (fun p : OsdpPd => p.request.disable) (h (s.pd j))
    exact Eq.trans e hs
  enable _ _ _ := stillAsked_updPd id
  disable _ _ := stillAsked_updPd fun _ => rfl
  note _ _ _ := stillAsked_same rfl
  running _ _ := stillAsked_same rfl
  entry _ _ _ := stillAsked_same rfl
  txBuf _ _ _ := stillAsked_same rfl
  flush _ := stillAsked_same rfl
  drawn _ _ := stillAsked_same rfl

instance (i : Nat) : MarkMoves i (StillAsked i) where
  mark _ _ _ := stillAsked_same rfl

instance (i : Nat) : FrameMoves i (StillAsked i) where
  frame s f h := stillAsked_updPd fun hs => by
    have e := congrArg (fun p : OsdpPd => p.request.disable) (h (s.pd i))
    exact Eq.trans e hs

section Off

variable {env : Env} {depth i : Nat} {s t : Osdp}

theorem stillAsked_run (calls : List ApiCall) :
    Keeps (StillAsked i) (cpRunCalls env depth calls) :=
  keeps_cpRunCalls depth calls

theorem keeps_stillAsked {f : OsdpPd → OsdpPd}
    (h : ∀ p : OsdpPd, (f p).request.disable = p.request.disable) :
    Keeps (StillAsked i) (updPd i f) := by
  intro s a t e
  rw [← updPd_ok.mp e]
  exact stillAsked_updPd fun hs => (h _).trans hs

theorem stillAsked_makeRequest (r : CpReq) :
    Keeps (StillAsked i) (makeRequest i r) := by
  intro s a t e
  rw [← updPd_ok.mp e]
  refine stillAsked_updPd fun hs => ?_
  cases r <;> first | exact hs | rfl

theorem stillAsked_checkRequest {r : CpReq} (hr : r ≠ .disable) :
    Keeps (StillAsked i) (checkRequest i r) := by
  have hput : Keeps (StillAsked i)
      (updPd i fun p => { p with request := p.request.put r false }) :=
    keeps_stillAsked fun p => by cases r <;> first | rfl | exact absurd rfl hr
  unfold checkRequest
  refine .bind (keeps_getPd i) fun p => ?_
  split
  · exact .bind hput fun _ => .pure _
  · exact .pure _

theorem stillAsked_phyStateReset (e : Bool) :
    Keeps (StillAsked i) (osdpPhyStateReset env i e) := by
  unfold osdpPhyStateReset
  refine .bind (keeps_stillAsked fun _ => rfl) fun _ => ?_
  split
  · refine .bind (keeps_stillAsked fun _ => rfl) fun _ => ?_
    split
    · exact pass_flush
    · exact .pure _
  · exact .pure _

/-- The effects of a transition leave the request to disable the PD
alone. -/
theorem stillAsked_effects (cur next : CpState) (err : Int) :
    Keeps (StillAsked i)
      (cpTransitionEffects env (cpRunCalls env depth) i cur next err) := by
  have hset (b : Bool) : Keeps (StillAsked i) (setUseScbkd i b) :=
    keeps_stillAsked fun _ => rfl
  have hdown : Keeps (StillAsked i) (scDeactivate i) :=
    keeps_stillAsked fun _ => rfl
  have htell : Keeps (StillAsked i)
      (cpNotifyScStatus env (cpRunCalls env depth) i) :=
    keeps_cpNotifyScStatus stillAsked_run i
  have hkey : Keeps (StillAsked i)
      (cpKeysetComplete env (cpRunCalls env depth) i) := by
    have htake : Keeps (StillAsked i) (cpTakeKey i) := by
      unfold cpTakeKey
      refine .bind (keeps_getPd i) fun p => ?_
      split
      · exact keeps_stillAsked fun _ => rfl
      · split
        · exact .pure _
        · exact .bind (mark_observe (i := i) rfl) fun _ =>
            keeps_stillAsked fun _ => rfl
    unfold cpKeysetComplete
    refine .bind htake fun _ => .bind hdown fun _ => .bind htell fun _ =>
      .bind (keeps_getPd i) fun p => ?_
    split
    · exact stillAsked_makeRequest _
    · exact .pure _
  have hok : Keeps (StillAsked i)
      (cpOkEffects env (cpRunCalls env depth) i cur next) := by
    have hup : Keeps (StillAsked i) (scActivate i) :=
      .bind (keeps_stillAsked fun _ => rfl) fun _ =>
        mark_observe (i := i) rfl
    cases cur with
    | capdet =>
      unfold cpOkEffects
      dsimp only
      split
      · exact hset _
      · exact .pure _
    | scScrypt =>
      refine .bind hup fun _ => .bind htell fun _ => ?_
      split
      · exact keeps_stillAsked fun _ => rfl
      · exact .pure _
    | setScbk => exact hkey
    | init | scChlng | online | offline | disabled | trsSetup | trsRun =>
      exact .pure _
  have herr : Keeps (StillAsked i)
      (cpErrEffects env (cpRunCalls env depth) i cur next) := by
    cases cur with
    | scChlng =>
      unfold cpErrEffects
      dsimp only
      split
      · exact .pure _
      · split
        · exact hset _
        · refine .bind (hset _) fun _ => .bind keeps_osdpMillisNow fun _ => ?_
          exact keeps_stillAsked fun _ => rfl
    | setScbk => exact .bind hdown fun _ => htell
    | init | capdet | scScrypt | online | offline | disabled | trsSetup
    | trsRun => exact .pure _
  unfold cpTransitionEffects
  split
  · exact hok
  · exact herr

/-- So does the choice of the next state. -/
theorem stillAsked_protocolNext (cur : CpState) (err : Int) :
    Keeps (StillAsked i)
      (cpProtocolNext env (cpRunCalls env depth) i cur err) := by
  have hcheck {r : CpReq} (hr : r ≠ .disable) :
      Keeps (StillAsked i) (checkRequest i r) := stillAsked_checkRequest hr
  have hscan (next : CpState) : Keeps (StillAsked i) (do
      if ← checkRequest i .trsScan then
        return (CpState.trsSetup, true)
      return (next, false)) := by
    refine .bind (hcheck nofun) fun b => ?_
    split <;> exact .pure _
  have hopen (next : CpState) : Keeps (StillAsked i) (do
      let mut next := next
      if ← checkRequest i .trsOpen then
        next := .trsSetup
      if ← checkRequest i .trsScan then
        return (CpState.trsSetup, true)
      return (next, false)) := by
    refine .bind (hcheck nofun) fun b => ?_
    split <;> exact hscan _
  have hlater (next : CpState) : Keeps (StillAsked i) (do
      let mut next := next
      if ← checkRequest i .offline then
        next := .offline
      if ← checkRequest i .trsOpen then
        next := .trsSetup
      if ← checkRequest i .trsScan then
        return (CpState.trsSetup, true)
      return (next, false)) := by
    refine .bind (hcheck nofun) fun b => ?_
    split <;> exact hopen _
  have hreq (next : CpState) :
      Keeps (StillAsked i) (cpOnlineRequests env i next) := by
    unfold cpOnlineRequests
    refine .bind (hcheck nofun) fun b => ?_
    split
    · exact .bind (stillAsked_phyStateReset true) fun _ => hlater _
    · exact hlater _
  have hnext : Keeps (StillAsked i) (getNextState i err) := by
    intro s a t h
    obtain ⟨rfl, -⟩ := getNextState_ok h
    exact id
  unfold cpProtocolNext
  refine .bind (hcheck nofun) fun b => ?_
  split
  · exact .pure _
  · split
    · exact .bind (frame_cpTrsNext stillAsked_run err) fun _ => .pure _
    · refine .bind hnext fun row => ?_
      refine .bind (stillAsked_effects cur row err) fun _ => ?_
      refine .bind (keeps_getPd i) fun p => ?_
      split
      · exact hreq _
      · exact .pure _

/-- The states a PD is taken off the link in, and the one it comes back
through. -/
def CpState.offLink : CpState → Bool
  | .init | .offline | .disabled => true
  | _ => false

/-- The link outlives the end of an exchange, and nothing on the way
resets the phy layer: by the table of transitions, and by what is
requested. -/
def survives (err now : Int) (p : OsdpPd) : Bool :=
  !p.request.linkReset && !p.request.disable &&
    match nextState err now p with
    | none => true
    | some row =>
      if p.state = .online ∨ row = .online then
        !p.request.restartSc &&
          (p.request.trsOpen || p.request.trsScan || row != .offline)
      else !row.offLink

/-- A card session is not in the table. -/
theorem nextState_inTrs {err now : Int} {p : OsdpPd}
    (h : p.state = .trsSetup ∨ p.state = .trsRun) :
    nextState err now p = none := by
  unfold nextState getNextOkState getNextErrState
  rcases h with e | e <;> rw [e] <;> simp

/-- A request for a new handshake resets the phy layer. -/
theorem onlineRequests_count {row : CpState} {r : CpState × Bool}
    (hreq : (s.pd i).request.restartSc = true)
    (h : cpOnlineRequests env i row s = .ok r t) :
    (t.pd i).phyRetryCount = 0 := by
  have hcheck (r : CpReq) : Keeps (Recedes i) (checkRequest i r) :=
    pass_checkRequest r
  have hscan (next : CpState) : Keeps (Recedes i) (do
      if ← checkRequest i .trsScan then
        return (CpState.trsSetup, true)
      return (next, false)) := by
    refine .bind (hcheck _) fun b => ?_
    split <;> exact .pure _
  have hopen (next : CpState) : Keeps (Recedes i) (do
      let mut next := next
      if ← checkRequest i .trsOpen then
        next := .trsSetup
      if ← checkRequest i .trsScan then
        return (CpState.trsSetup, true)
      return (next, false)) := by
    refine .bind (hcheck _) fun b => ?_
    split <;> exact hscan _
  obtain ⟨b, u, hu, h⟩ := bind_ok.mp h
  obtain ⟨hb, -, -⟩ := checkRequest_ok (by decide) hu
  have hb : b = true := hb.trans hreq
  subst hb
  rw [if_pos rfl] at h
  obtain ⟨_, v, hv, h⟩ := bind_ok.mp h
  have hvt : Recedes i v t := by
    obtain ⟨c, w, hw, h⟩ := bind_ok.mp h
    have hvw : Recedes i v w := (hcheck _).of hw
    refine hvw.trans ?_
    split at h
    · exact (hopen _).of h
    · exact (hopen _).of h
  exact hvt.cleared (phyStateReset_count hv)

/-- A request is served, or there is none and nothing changes. -/
theorem checkRequest_cases {r : CpReq} {b : Bool}
    (h : checkRequest i r s = .ok b t) :
    (s.pd i).request.has r = true ∧ b = true ∧
        t = s.updPd i (fun p => { p with request := p.request.put r false }) ∨
      (s.pd i).request.has r = false ∧ b = false ∧ t = s := by
  obtain ⟨p, v, hp, h⟩ := bind_ok.mp h
  obtain ⟨rfl, rfl⟩ := getPd_ok.mp hp
  split at h
  · next hhas =>
    obtain ⟨_, u, hu, h⟩ := bind_ok.mp h
    obtain ⟨rfl, rfl⟩ := pure_ok.mp h
    exact .inl ⟨hhas, rfl, (updPd_ok.mp hu).symm⟩
  · next hhas =>
    obtain ⟨rfl, rfl⟩ := pure_ok.mp h
    exact .inr ⟨by simpa using hhas, rfl, rfl⟩

/-- A request that is not pending is not served. -/
theorem checkRequest_none {r : CpReq} {b : Bool}
    (hno : (s.pd i).request.has r = false)
    (h : checkRequest i r s = .ok b t) : b = false ∧ t = s := by
  rcases checkRequest_cases h with ⟨hhas, -, -⟩ | ⟨-, hb, ht⟩
  · rw [hno] at hhas
    cases hhas
  · exact ⟨hb, ht⟩

/-- Without a request for a card session OFFLINE stays OFFLINE. -/
theorem onlineRequests_offline {next : CpState} {b : Bool}
    (hre : (s.pd i).request.restartSc = false)
    (hopen : (s.pd i).request.trsOpen = false)
    (hscan : (s.pd i).request.trsScan = false)
    (h : cpOnlineRequests env i .offline s = .ok (next, b) t) :
    next = .offline := by
  have htail {u : Osdp} (ho : (u.pd i).request.trsOpen = false)
      (hs : (u.pd i).request.trsScan = false)
      (h : (do
        let mut next := CpState.offline
        if ← checkRequest i .trsOpen then
          next := .trsSetup
        if ← checkRequest i .trsScan then
          return (CpState.trsSetup, true)
        return (next, false)) u = .ok (next, b) t) : next = .offline := by
    obtain ⟨c, v, hv, h⟩ := bind_ok.mp h
    obtain ⟨hc, hv⟩ := checkRequest_none (r := .trsOpen) ho hv
    rw [hc, hv, if_neg (by decide)] at h
    obtain ⟨c, w, hw, h⟩ := bind_ok.mp h
    obtain ⟨hc, hw⟩ := checkRequest_none (r := .trsScan) hs hw
    rw [hc, hw, if_neg (by decide)] at h
    obtain ⟨e, -⟩ := pure_ok.mp h
    exact (congrArg Prod.fst e).symm
  obtain ⟨c, u, hu, h⟩ := bind_ok.mp h
  obtain ⟨hc, hu⟩ := checkRequest_none (r := .restartSc) hre hu
  rw [hc, hu, if_neg (by decide)] at h
  obtain ⟨c, v, hv, h⟩ := bind_ok.mp h
  have hsame : (v.pd i).request.trsOpen = false ∧
      (v.pd i).request.trsScan = false := by
    rcases checkRequest_cases hv with ⟨-, -, rfl⟩ | ⟨-, -, rfl⟩
    · rw [updPd_pd_same]
      exact ⟨hopen, hscan⟩
    · exact ⟨hopen, hscan⟩
  split at h
  · exact htail hsame.1 hsame.2 h
  · exact htail hsame.1 hsame.2 h

/-- The effects of a transition after a failure, or on a PD that is off
the link, leave the requests of the state machine alone. -/
theorem effects_request {c : PdCtl} {cur next : CpState} {err : Int}
    {key : Bytes} (h : err = cpErrNone → cur.offLink = true) :
    (c.effects cur next err key).request = c.request := by
  unfold PdCtl.effects
  split
  · next he =>
    have hoff := h he
    cases cur <;> first | rfl | cases hoff
  · unfold PdCtl.errEffects
    cases cur <;> try rfl
    dsimp only
    split <;> rfl

/-- Where the link does not outlive the exchange, the next state is one
off the link, the count is cleared, or the PD is still to be disabled. -/
theorem protocolNext_off {err : Int} {next : CpState} {b : Bool}
    (hok : err = cpErrNone → (s.pd i).state.offLink = true)
    (hno : survives err s.now (s.pd i) = false)
    (h : cpProtocolNext env (cpRunCalls env depth) i (s.pd i).state err s
      = .ok (next, b) t) :
    next.offLink = true ∨ (t.pd i).phyRetryCount = 0 ∨
      (t.pd i).request.disable = true := by
  have hkeep : StillAsked i s t := (stillAsked_protocolNext _ err).of h
  by_cases hdis : (s.pd i).request.disable = true
  · exact .inr (.inr (hkeep hdis))
  have hdis : (s.pd i).request.disable = false := by simpa using hdis
  obtain ⟨c, u, hu, h⟩ := bind_ok.mp h
  rcases checkRequest_cases hu with ⟨-, rfl, -⟩ | ⟨hlink, rfl, rfl⟩
  · rw [if_pos rfl] at h
    obtain ⟨e, -⟩ := pure_ok.mp h
    cases e
    exact .inl rfl
  rw [if_neg (by decide)] at h
  have hlink : (u.pd i).request.linkReset = false := hlink
  unfold survives at hno
  rw [hlink, hdis] at hno
  simp only [Bool.not_false, Bool.true_and] at hno
  split at h
  · next hcur =>
    rw [nextState_inTrs hcur] at hno
    cases hno
  · obtain ⟨row, v, hv, h⟩ := bind_ok.mp h
    obtain ⟨rfl, hrow⟩ := getNextState_ok hv
    rw [hrow] at hno
    dsimp only at hno
    obtain ⟨_, w, hw, h⟩ := bind_ok.mp h
    obtain ⟨key, heff, -⟩ := transitionEffects_ok hw
    obtain ⟨p, w', hp, h⟩ := bind_ok.mp h
    obtain ⟨rfl, rfl⟩ := getPd_ok.mp hp
    have hreq : (w.pd i).ctl.request = (v.pd i).ctl.request := by
      rw [heff.ctl]
      exact effects_request hok
    rw [heff.state] at h
    split at h
    · next hon =>
      rw [if_pos hon] at hno
      cases hre : (v.pd i).request.restartSc with
      | true =>
        refine .inr (.inl (onlineRequests_count (Eq.trans ?_ hre) h))
        have e := congrArg CpRequest.restartSc hreq
        exact e
      | false =>
        rw [hre] at hno
        simp only [Bool.not_false, Bool.true_and, Bool.or_eq_false_iff,
          bne_eq_false_iff_eq] at hno
        obtain ⟨⟨hopen, hscan⟩, rfl⟩ := hno
        have e₁ := congrArg CpRequest.restartSc hreq
        have e₂ := congrArg CpRequest.trsOpen hreq
        have e₃ := congrArg CpRequest.trsScan hreq
        rw [onlineRequests_offline (Eq.trans e₁ hre) (Eq.trans e₂ hopen)
          (Eq.trans e₃ hscan) h]
        exact .inl rfl
    · next hoff =>
      rw [if_neg hoff] at hno
      obtain ⟨e, -⟩ := pure_ok.mp h
      cases e
      exact .inl (by simpa using hno)

/-- The application's verdict takes a PD off the link that is to be
disabled, and leaves one there that is off it. -/
theorem lifecycle_off {next next' : CpState}
    (hoff : next.offLink = true ∨ (s.pd i).request.disable = true)
    (h : cpLifecycle i next s = .ok next' t) : next'.offLink = true := by
  have htail {n : CpState} {u : Osdp} (hn : n.offLink = true)
      (h : (do
        let mut next := n
        if ← checkRequest i .enable then
          next := .init
        return next) u = .ok next' t) : next'.offLink = true := by
    obtain ⟨c, v, -, h⟩ := bind_ok.mp h
    split at h <;> (obtain ⟨rfl, -⟩ := pure_ok.mp h)
    · rfl
    · exact hn
  obtain ⟨c, u, hu, h⟩ := bind_ok.mp h
  rcases checkRequest_cases hu with ⟨-, hc, -⟩ | ⟨hno, hc, -⟩
  · rw [hc, if_pos rfl] at h
    exact htail rfl h
  · rw [hc, if_neg (by decide)] at h
    refine htail (hoff.resolve_right ?_) h
    have hno : (s.pd i).request.disable = false := hno
    rw [hno]
    nofun

/-- A PD that is off the link, or whose next command has the full
budget. -/
def Refilled (p : OsdpPd) : Prop :=
  p.phyRetryCount = 0 ∨ p.state = .offline ∨ p.state = .disabled

/-- INIT does not follow itself. -/
theorem Chosen.ne_init {next : CpState} {err : Int}
    (h : Chosen i err s t next) (hst : (s.pd i).state = .init) :
    next ≠ .init := by
  cases h with
  | reset steers log => nofun
  | trs cur dest steers log =>
    rcases cur with e | e <;> cases hst.symm.trans e
  | table key off row steers log =>
    have hrow := nextState_cases row
    rw [hst] at hrow
    rcases hrow with rfl | rfl <;> nofun
  | online row key on row_ok steers log dest =>
    have hrow := nextState_cases row_ok
    rw [hst] at hrow
    rcases dest with rfl | rfl | ⟨-, rfl⟩ | ⟨-, rfl⟩
    · nofun
    · nofun
    · nofun
    · rcases hrow with rfl | rfl <;> nofun

/-- Where the link does not outlive the exchange, what comes next has the
full budget. -/
theorem advance_off {a : Unit} {err : Int}
    (hmode : (s.pd i).flags.pdMode = false) (hen : EnableOk (s.pd i))
    (hok : err = cpErrNone →
      (s.pd i).state = .offline ∨ (s.pd i).state = .disabled)
    (hno : survives err s.now (s.pd i) = false)
    (h : cpAdvance env (cpRunCalls env depth) i (s.pd i).state err s
      = .ok a t) : Refilled (t.pd i) := by
  have hok' (he : err = cpErrNone) : (s.pd i).state.offLink = true := by
    rcases hok he with e | e <;> rw [e] <;> rfl
  obtain ⟨⟨next, probe⟩, u, hu, h⟩ := bind_ok.mp h
  have hchosen := protocolNext_ok hu
  simp only at h
  obtain ⟨next', v, hv, h⟩ := bind_ok.mp h
  have hlives := lifecycle_ok hv
  have hcheck (r : CpReq) : Keeps (Recedes i) (checkRequest i r) :=
    pass_checkRequest r
  have huv : Recedes i u v := by
    have hlast (n : CpState) : Keeps (Recedes i) (do
        let mut next := n
        if ← checkRequest i .enable then
          next := .init
        return next) := by
      refine .bind (hcheck _) fun b => ?_
      split <;> exact .pure _
    have hl : Keeps (Recedes i) (cpLifecycle i next) := by
      unfold cpLifecycle
      refine .bind (hcheck _) fun b => ?_
      split <;> exact hlast _
    exact hl.of hv
  have hlast {w : Osdp} (h : (if (probe && next' == .trsSetup) = true
      then updTrs i osdpTrsProbeNoteOpen else pure ()) w = .ok a t) :
      Recedes i w t ∧ SameCtl i w t := by
    split at h
    · exact ⟨(frame_updTrs (R := Recedes i) (i := i) _).of h,
        (frame_updTrs (R := SameCtl i) (i := i) _).of h⟩
    · obtain ⟨-, rfl⟩ := pure_ok.mp h
      exact ⟨refl_of (Recedes i) _, refl_of (SameCtl i) _⟩
  -- the state the PD is in at the end of the pass is the one chosen
  have hstate : (s.pd i).state = next' → (v.pd i).state = next' := by
    intro e
    obtain ⟨c, hc⟩ := hchosen.steers
    have e' : (v.pd i).state = (u.pd i).state :=
      congrArg PdCtl.state hlives.ctl
    rw [e', hc.state, e]
  have hvmode : (v.pd i).flags.pdMode = false := by
    have e : (v.pd i).flags.pdMode = (u.pd i).flags.pdMode :=
      congrArg PdCtl.pdMode hlives.ctl
    rw [e, hchosen.pdMode, hmode]
  have hzero (hu0 : (u.pd i).phyRetryCount = 0) : Refilled (t.pd i) := by
    refine .inl ?_
    have hvt : Recedes i v t := by
      split at h
      · obtain ⟨_, w, hw, h⟩ := bind_ok.mp h
        have hvw : Recedes i v w := (pass_cpStateChange recedes_run _ _).of hw
        exact hvw.trans (hlast h).1
      · exact (hlast h).1
    exact (huv.trans hvt).cleared hu0
  have hnext : next'.offLink = true → Refilled (t.pd i) := by
    intro hoff
    split at h
    · next hne =>
      obtain ⟨_, w, hw, h⟩ := bind_ok.mp h
      obtain ⟨hwt, hctl⟩ := hlast h
      obtain ⟨r, hch⟩ := stateChange_ok hvmode hw
      have hts : (t.pd i).state = next' :=
        hctl.steers.state.trans (congrArg PdCtl.state hch.ctl)
      cases hn : next' with
      | offline => exact .inr (.inl (hts.trans hn))
      | disabled => exact .inr (.inr (hts.trans hn))
      | init =>
        rw [hn] at hw
        exact .inl (hwt.cleared (stateChange_count rfl hw))
      | capdet | scChlng | scScrypt | setScbk | online | trsSetup | trsRun =>
        rw [hn] at hoff
        cases hoff
    · next heq =>
      simp only [ne_eq, Decidable.not_not] at heq
      have hts : (t.pd i).state = next' :=
        ((hlast h).2.steers.state).trans (hstate heq)
      cases hn : next' with
      | offline => exact .inr (.inl (hts.trans hn))
      | disabled => exact .inr (.inr (hts.trans hn))
      | init =>
        have hinit : (s.pd i).state = .init := heq.trans hn
        rcases hlives.dest with ⟨hask, -⟩ | ⟨-, e | e⟩
        · obtain ⟨c, hc⟩ := hchosen.steers
          rcases hc.enable hask with k | k
          · rcases hen k with k | k <;> cases hinit.symm.trans k
          · cases hinit.symm.trans k
        · exact absurd (e.symm.trans hn) (hchosen.ne_init hinit)
        · cases hn.symm.trans e
      | capdet | scChlng | scScrypt | setScbk | online | trsSetup | trsRun =>
        rw [hn] at hoff
        cases hoff
  rcases protocolNext_off hok' hno hu with e | e | e
  · exact hnext (lifecycle_off (.inl e) hv)
  · exact hzero e
  · exact hnext (lifecycle_off (.inr e) hv)

end Off

-- ======================================================== the transmissions

/-- The pass chose a command. -/
def Pass.kicks (i : Nat) (x : Pass) : Prop :=
  (x.after.pd i).phyState = .sendCmd

instance (i : Nat) (x : Pass) : Decidable (x.kicks i) :=
  inferInstanceAs (Decidable (_ = _))

/-- The pass sent the packet of the command, for the first time or once
more. -/
def Pass.transmits (i : Nat) (x : Pass) : Prop :=
  (x.before.pd i).phyState ≠ .replyWait ∧
    (x.after.pd i).phyState = .replyWait

instance (i : Nat) (x : Pass) : Decidable (x.transmits i) :=
  inferInstanceAs (Decidable (_ ∧ _))

/-- How often the command was sent that was chosen last. -/
def sentSince (i : Nat) : List Pass → Nat
  | [] => 0
  | x :: past =>
    if x.kicks i then 0
    else sentSince i past + if x.transmits i then 1 else 0

/-- What `phy_retry_count` was when that command was chosen. -/
def countAtKick (i : Nat) : List Pass → Nat
  | [] => 0
  | x :: past =>
    if x.kicks i then (x.after.pd i).phyRetryCount else countAtKick i past

/-- The attempts the count stands for: the one that awaits its reply has
not failed yet. -/
def OsdpPd.attempts (p : OsdpPd) : Nat :=
  p.phyRetryCount + if p.phyState = .replyWait then 1 else 0

/-- A command is chosen with the count at 0, the count says how often it
was sent, and it is sent no more often than the budget allows. -/
structure FullBudget (i : Nat) (x : Pass) (past : List Pass) : Prop where
  fresh : x.kicks i → (x.after.pd i).phyRetryCount = 0
  spent : phyRuns (x.after.pd i).phyState = true →
    sentSince i (x :: past) = (x.after.pd i).attempts
  limit : sentSince i (x :: past) ≤ 1 + cmdMaxRetries

/-- An exchange that had to be retried fails in this pass: what is left of
it once it is settled, and the error that amounts to. -/
def spentFailure (env : Env) (run : List ApiCall → OsdpM Unit) (i : Nat)
    (s : Osdp) : Option (Int × Osdp) :=
  match cpPhyStateUpdate env run i s with
  | .ok _ u =>
    if (u.pd i).phyState = .err ∧ (u.pd i).phyRetryCount ≠ 0 then
      match cpSettle env run i cpErrGeneric u with
      | .ok err v => some (err, v)
      | .error _ _ => none
    else none
  | .error _ _ => none

/-- Such an exchange fails, and the link outlives it. -/
def staysSpent (env : Env) (depth i : Nat) (s : Osdp) : Bool :=
  (spentFailure env (cpRunCalls env depth) i s).any fun (err, v) =>
    survives err v.now (v.pd i)

/-- What holds between the passes: `c` stands for the condition on the
passes so far. -/
structure RetryInv (i : Nat) (c : Prop) (h : List Pass) (p : OsdpPd) :
    Prop where
  fresh : c → countAtKick i h = 0
  limit : p.phyRetryCount ≤ cmdMaxRetries
  spent : phyRuns p.phyState = true →
    countAtKick i h + sentSince i h = p.attempts
  sends : sentSince i h ≤ 1 + cmdMaxRetries
  idle : c → phyRuns p.phyState = false → Refilled p

section Watch

variable {env : Env} {depth i : Nat} {s t : Osdp} {c : Prop}
variable {h : List Pass}

/-- A pass that chooses nothing adds the packet it sends, if any. -/
theorem sentSince_cons {x : Pass} (hno : ¬ x.kicks i) :
    sentSince i (x :: h)
        = sentSince i h + (if x.transmits i then 1 else 0) ∧
      countAtKick i (x :: h) = countAtKick i h := by
  simp only [sentSince, countAtKick, if_neg hno]
  exact ⟨trivial, trivial⟩

/-- A step of an exchange that goes on. -/
theorem RetryInv.going {err : Int} (hinv : RetryInv i c h (s.pd i))
    (hstep : Attempt (s.pd i) (t.pd i) err)
    (hruns : phyRuns (s.pd i).phyState = true)
    (hgoes : err = cpErrInprog ∨ err = cpErrDefer) :
    RetryInv i c (⟨s, t⟩ :: h) (t.pd i) ∧
      ¬ (⟨s, t⟩ : Pass).kicks i := by
  have hspent := hinv.spent hruns
  have hlimit := hinv.limit
  have hsends := hinv.sends
  unfold OsdpPd.attempts at hspent
  have hof (hno : ¬ (⟨s, t⟩ : Pass).kicks i)
      (hlive : phyRuns (t.pd i).phyState = true)
      (hcount : (t.pd i).phyRetryCount ≤ cmdMaxRetries)
      (hsum : countAtKick i h + sentSince i h
          + (if (⟨s, t⟩ : Pass).transmits i then 1 else 0)
        = (t.pd i).attempts) :
      RetryInv i c (⟨s, t⟩ :: h) (t.pd i) ∧
        ¬ (⟨s, t⟩ : Pass).kicks i := by
    obtain ⟨hsent, hstart⟩ := sentSince_cons (h := h) hno
    refine ⟨⟨fun hc => ?_, hcount, fun _ => ?_, ?_, fun _ hidle => ?_⟩, hno⟩
    · rw [hstart]
      exact hinv.fresh hc
    · rw [hstart, hsent, ← Nat.add_assoc]
      exact hsum
    · have hle : (t.pd i).attempts ≤ 1 + cmdMaxRetries := by
        unfold OsdpPd.attempts
        split <;> omega
      rw [hsent]
      omega
    · rw [hlive] at hidle
      cases hidle
  have hkeep (hbefore : (s.pd i).phyState ≠ .replyWait)
      (hno : ¬ (⟨s, t⟩ : Pass).kicks i)
      (hafter : (t.pd i).phyState ≠ .replyWait)
      (hlive : phyRuns (t.pd i).phyState = true)
      (count : (t.pd i).phyRetryCount = (s.pd i).phyRetryCount) :
      RetryInv i c (⟨s, t⟩ :: h) (t.pd i) ∧
        ¬ (⟨s, t⟩ : Pass).kicks i := by
    refine hof hno hlive (count ▸ hlimit) ?_
    rw [if_neg hbefore] at hspent
    unfold OsdpPd.attempts
    rw [if_neg fun k => hafter k.2, if_neg hafter]
    omega
  have hsend (hp : (s.pd i).phyState = .sendCmd ∨
      (s.pd i).phyState = .retryCmd ∨ (s.pd i).phyState = .sendCmdWait) :
      (s.pd i).phyState ≠ .replyWait := by
    rcases hp with e | e | e <;> rw [e] <;> nofun
  have hno {st : CpPhyState} (e : (t.pd i).phyState = st)
      (hst : st ≠ .sendCmd) : ¬ (⟨s, t⟩ : Pass).kicks i :=
    fun k => hst (e.symm.trans k)
  cases hstep with
  | rests phy same =>
    rw [hruns] at phy
    cases phy
  | pauses phy next count =>
    have hbefore : (s.pd i).phyState ≠ .replyWait := by
      rw [phy]
      nofun
    rcases next with e | e
    · exact hkeep hbefore (hno e nofun) (by rw [e]; nofun) (by rw [e]; rfl)
        count
    · exact hkeep hbefore (hno e nofun) (by rw [e]; nofun) (by rw [e]; rfl)
        count
  | parked phy next count =>
    exact hkeep (hsend phy) (hno next nofun) (by rw [next]; nofun)
      (by rw [next]; rfl) count
  | sent phy next count =>
    refine hof (hno next nofun) (by rw [next]; rfl) (count ▸ hlimit) ?_
    rw [if_neg (hsend phy)] at hspent
    unfold OsdpPd.attempts
    rw [if_pos ⟨hsend phy, next⟩, if_pos next]
    omega
  | waits phy next count =>
    refine hof (hno next nofun) (by rw [next]; rfl) (count ▸ hlimit) ?_
    rw [if_pos phy] at hspent
    unfold OsdpPd.attempts
    rw [if_neg fun k => k.1 phy, if_pos next]
    omega
  | again phy next room count =>
    have hafter : (t.pd i).phyState ≠ .replyWait := by
      rw [next]
      nofun
    refine hof (hno next nofun) (by rw [next]; rfl) (by omega) ?_
    rw [if_pos phy] at hspent
    unfold OsdpPd.attempts
    rw [if_neg fun k => hafter k.2, if_neg hafter]
    omega
  | done phy next count => rcases hgoes with e | e <;> cases e
  | failed phy next count => rcases hgoes with e | e <;> cases e

/-- A pass that leaves the PD without an exchange. -/
theorem RetryInv.ended (hinv : RetryInv i c h (s.pd i))
    (hidle : (t.pd i).phyState = .idle)
    (hlimit : (t.pd i).phyRetryCount ≤ cmdMaxRetries)
    (hend : c → Refilled (t.pd i)) :
    RetryInv i c (⟨s, t⟩ :: h) (t.pd i) ∧
      ¬ (⟨s, t⟩ : Pass).kicks i := by
  have hno : ¬ (⟨s, t⟩ : Pass).kicks i := fun k => by
    cases hidle.symm.trans k
  have hquiet : ¬ (⟨s, t⟩ : Pass).transmits i := fun k => by
    cases hidle.symm.trans k.2
  obtain ⟨hsent, hstart⟩ := sentSince_cons (h := h) hno
  rw [if_neg hquiet, Nat.add_zero] at hsent
  refine ⟨⟨fun hc => ?_, hlimit, fun hruns => ?_, ?_, fun hc _ => hend hc⟩,
    hno⟩
  · rw [hstart]
    exact hinv.fresh hc
  · rw [hidle] at hruns
    cases hruns
  · rw [hsent]
    exact hinv.sends

/-- A pass that chooses a command. -/
theorem RetryInv.kicked (hinv : RetryInv i c h (s.pd i))
    (hphy : (t.pd i).phyState = .sendCmd) (hcount : Recedes i s t)
    (hfull : c → (s.pd i).phyRetryCount = 0) :
    RetryInv i c (⟨s, t⟩ :: h) (t.pd i) ∧
      (c → (t.pd i).phyRetryCount = 0) := by
  have hkick : (⟨s, t⟩ : Pass).kicks i := hphy
  have hsent : sentSince i (⟨s, t⟩ :: h) = 0 := if_pos hkick
  have hstart : countAtKick i (⟨s, t⟩ :: h) = (t.pd i).phyRetryCount :=
    if_pos hkick
  have hfresh (hc : c) : (t.pd i).phyRetryCount = 0 :=
    hcount.cleared (hfull hc)
  have hlimit := hinv.limit
  have hle : (t.pd i).phyRetryCount ≤ cmdMaxRetries := by
    unfold Recedes at hcount
    omega
  refine ⟨⟨fun hc => hstart.trans (hfresh hc), hle, fun _ => ?_, ?_,
    fun _ hidle => ?_⟩, hfresh⟩
  · unfold OsdpPd.attempts
    rw [hstart, hsent, hphy, if_neg nofun]
  · rw [hsent]
    exact Nat.zero_le _
  · rw [hphy] at hidle
    cases hidle

/-- A failed exchange is settled as a failure. -/
theorem settle_error {err : Int} (hphy : (s.pd i).phyState = .err)
    (h : cpSettle env (cpRunCalls env depth) i cpErrGeneric s = .ok err t) :
    err = cpErrGeneric := by
  obtain ⟨b, u, hu, h⟩ := bind_ok.mp h
  obtain ⟨⟨d, hd, hj⟩, -, -⟩ := stateCheckReply_ok hu
  obtain ⟨_, v, hv, h⟩ := bind_ok.mp h
  have hcmd : SameCtl i u v := (sameCtl_cpSettleCommand b).of hv
  have hvphy : (v.pd i).phyState = .err := by
    have e₁ : (v.pd i).phyState = (u.pd i).phyState :=
      congrArg PdCtl.phyState hcmd.steers.ctl
    have e₂ : (u.pd i).phyState = d.phyState := congrArg PdCtl.phyState hd.ctl
    rw [e₁, e₂]
    rcases hj with hj | ⟨-, -, -, key, hj⟩
    · rw [hj]
      exact hphy
    · rw [hj]
      exact hphy
  split at h
  · obtain ⟨e, w, hw, h⟩ := bind_ok.mp h
    obtain ⟨rfl, rfl⟩ := pure_ok.mp hw
    obtain ⟨_, x, hx, h⟩ := bind_ok.mp h
    exact (pure_ok.mp h).1.symm
  · obtain ⟨e, w, hw, h⟩ := bind_ok.mp h
    obtain ⟨_, x, hx, h⟩ := bind_ok.mp h
    obtain ⟨rfl, -⟩ := pure_ok.mp h
    rcases (settleFailure_ok hw).2 with ⟨-, hsoft⟩ | he
    · simp [cpCmdFailureIsSoft, hvphy] at hsoft
    · exact he

/-- A PD that is off the link stays off it, or comes back through INIT. -/
theorem survives_off {err now : Int} {p : OsdpPd}
    (h : p.state = .offline ∨ p.state = .disabled) :
    survives err now p = false := by
  have hrow : ∃ row, nextState err now p = some row ∧ row.offLink = true ∧
      row ≠ .online := by
    unfold nextState getNextOkState getNextErrState
    rcases h with e | e <;> rw [e] <;> dsimp only
    · by_cases herr : err = cpErrNone
      · rw [if_pos herr]
        split
        · exact ⟨_, rfl, rfl, nofun⟩
        · exact ⟨_, rfl, rfl, nofun⟩
      · rw [if_neg herr]
        exact ⟨_, rfl, rfl, nofun⟩
    · rw [ite_self]
      exact ⟨_, rfl, rfl, nofun⟩
  obtain ⟨row, hrow, hoff, hne⟩ := hrow
  have hnot : ¬ (p.state = .online ∨ row = .online) := by
    rintro (k | k)
    · rcases h with e | e <;> cases e.symm.trans k
    · exact hne k
  unfold survives
  rw [hrow]
  dsimp only
  rw [if_neg hnot, hoff]
  simp

/-- Choosing a command takes nothing from the budget. -/
theorem recedes_kick {b : Bool}
    (h : cpKick env (cpRunCalls env depth) i s = .ok b t) :
    Recedes i s t := by
  obtain ⟨id, u, hu, h⟩ := bind_ok.mp h
  have hsu : Recedes i s u := (pick_stateGetCmd recedes_run).of hu
  obtain ⟨_, v, hv, h⟩ := bind_ok.mp h
  have huv : Recedes i u v := by
    rw [← updPd_ok.mp hv]
    exact recedes_updPd (.inl rfl)
  obtain ⟨p, w, hp, h⟩ := bind_ok.mp h
  obtain ⟨rfl, rfl⟩ := getPd_ok.mp hp
  refine (hsu.trans huv).trans ?_
  split at h
  · obtain ⟨_, w, hw, h⟩ := bind_ok.mp h
    obtain ⟨-, rfl⟩ := pure_ok.mp h
    rw [← updPd_ok.mp hw]
    exact recedes_updPd (.inl rfl)
  · obtain ⟨-, rfl⟩ := pure_ok.mp h
    exact .inl rfl

/-- A PD that is off the link is sent nothing. -/
theorem kick_off {b : Bool}
    (hoff : (s.pd i).state = .offline ∨ (s.pd i).state = .disabled)
    (h : cpKick env (cpRunCalls env depth) i s = .ok b t) : b = false := by
  obtain ⟨id, u, hu, h⟩ := bind_ok.mp h
  have hid : id = cmdInvalid := by
    obtain ⟨p, v, hp, hu⟩ := bind_ok.mp hu
    obtain ⟨rfl, rfl⟩ := getPd_ok.mp hp
    rcases hoff with e | e <;>
      (rw [e] at hu; exact (pure_ok.mp hu).1.symm)
  obtain ⟨_, v, hv, h⟩ := bind_ok.mp h
  obtain ⟨p, w, hp, h⟩ := bind_ok.mp h
  rw [if_neg fun k => k.1 hid] at h
  exact (pure_ok.mp h).1.symm

/-- An exchange that is over, and what follows. -/
theorem refilled_of_over {err : Int} {u : Osdp} (hm : HsMid env i u)
    (hover : (u.pd i).phyState = .done ∧ (u.pd i).phyRetryCount = 0 ∨
      (u.pd i).phyState = .err)
    (hu : cpPhyStateUpdate env (cpRunCalls env depth) i s = .ok err u)
    (hno : staysSpent env depth i s = false)
    (h : cpProceed env (cpRunCalls env depth) i (u.pd i).state u
      = .ok () t) : Refilled (t.pd i) := by
  obtain ⟨p, v, hp, h⟩ := bind_ok.mp h
  obtain ⟨rfl, rfl⟩ := getPd_ok.mp hp
  have hclear {e : Int} (hzero : (u.pd i).phyRetryCount = 0)
      (h : (do
        let e ← cpSettle env (cpRunCalls env depth) i e
        cpAdvance env (cpRunCalls env depth) i (u.pd i).state e) u
          = .ok () t) : Refilled (t.pd i) := by
    obtain ⟨e', v, hv, h⟩ := bind_ok.mp h
    have huv : Recedes i u v := (recedes_settle e).of hv
    have hvt : Recedes i v t := (recedes_advance _ e').of h
    exact .inl ((huv.trans hvt).cleared hzero)
  rcases hover with ⟨hphy, hzero⟩ | hphy
  · rw [hphy] at h
    exact hclear hzero h
  · rw [hphy] at h
    by_cases hzero : (u.pd i).phyRetryCount = 0
    · exact hclear hzero h
    obtain ⟨e', v, hv, h⟩ := bind_ok.mp h
    have herr := settle_error hphy hv
    obtain ⟨d, hd, hj⟩ := (settle_ok hv).ctl
    have hsurv : survives e' v.now (v.pd i) = false := by
      unfold staysSpent spentFailure at hno
      rw [hu] at hno
      dsimp only at hno
      rw [if_pos ⟨hphy, hzero⟩, hv] at hno
      exact hno
    have hmode : (v.pd i).flags.pdMode = false := by
      have e : (v.pd i).flags.pdMode = d.pdMode :=
        congrArg PdCtl.pdMode hd.ctl
      rw [e]
      rcases hj with hj | ⟨-, -, -, key, hj⟩
      · rw [hj]
        exact hm.ctl.cp
      · rw [hj]
        exact hm.ctl.cp
    have hen : EnableOk (v.pd i) := by
      intro k
      rw [hd.state]
      rcases hd.enable k with k | k
      · exact hm.enable k
      · exact .inl k
    rw [← hd.state] at h
    refine advance_off hmode hen (fun he => ?_) hsurv h
    rw [herr] at he
    cases he

/-- A pass without an exchange: a command is chosen, or the machine
moved. -/
theorem retryInv_of_idle (hm : HsMid env i s)
    (hinv : RetryInv i c h (s.pd i)) (hphy : (s.pd i).phyState = .idle)
    (e : cpProceed env (cpRunCalls env depth) i (s.pd i).state s
      = .ok () t) :
    RetryInv i c (⟨s, t⟩ :: h) (t.pd i) ∧
      (c → (⟨s, t⟩ : Pass).kicks i → (t.pd i).phyRetryCount = 0) := by
  have hfull (hc : c) : Refilled (s.pd i) :=
    hinv.idle hc (by rw [hphy]; rfl)
  obtain ⟨p, v, hp, e⟩ := bind_ok.mp e
  obtain ⟨rfl, rfl⟩ := getPd_ok.mp hp
  rw [hphy] at e
  obtain ⟨b, u, hu, e⟩ := bind_ok.mp e
  have hsu := recedes_kick hu
  obtain ⟨id, w, hpick, -, -, hb⟩ := (kick_ok hu).pick
  rcases hb with ⟨rfl, -, hsteer⟩ | ⟨rfl, -, hsteer⟩
  · obtain ⟨-, rfl⟩ := pure_ok.mp e
    have hsend : (u.pd i).phyState = .sendCmd :=
      congrArg PdCtl.phyState hsteer.ctl
    obtain ⟨hnext, hzero⟩ := hinv.kicked hsend hsu fun hc =>
      (hfull hc).resolve_right fun hoff => by cases kick_off hoff hu
    exact ⟨hnext, fun hc _ => hzero hc⟩
  · rw [if_neg (by decide)] at e
    have hstate : (u.pd i).state = (s.pd i).state :=
      hsteer.state.trans hpick.state
    have hmode : (u.pd i).flags.pdMode = false := by
      have e₁ : (u.pd i).flags.pdMode = (w.pd i).flags.pdMode :=
        congrArg PdCtl.pdMode hsteer.ctl
      have e₂ := congrArg PdCtl.pdMode hpick.ctl
      have e₂ : (w.pd i).flags.pdMode = (s.pd i).flags.pdMode := e₂
      rw [e₁, e₂]
      exact hm.ctl.cp
    have huidle : (u.pd i).phyState = .idle := by
      have e₁ : (u.pd i).phyState = (w.pd i).phyState :=
        congrArg PdCtl.phyState hsteer.ctl
      rw [e₁, hpick.phyState, hphy]
    have hen : EnableOk (u.pd i) := by
      intro k
      rw [hstate]
      rcases hsteer.enable k with k | k
      · rcases hpick.enable k with k | k
        · exact hm.enable k
        · exact .inl k
      · exact .inl (hpick.state ▸ k)
    rw [← hstate] at e
    have hut : Recedes i u t := (recedes_advance _ _).of e
    have hst := hsu.trans hut
    have hlimit := hinv.limit
    have hend (hc : c) : Refilled (t.pd i) := by
      rcases hfull hc with hzero | hoff
      · exact .inl (hst.cleared hzero)
      · have hoff : (u.pd i).state = .offline ∨ (u.pd i).state = .disabled :=
          hstate ▸ hoff
        exact advance_off hmode hen (fun _ => hoff) (survives_off hoff) e
    obtain ⟨hnext, hno⟩ := hinv.ended (advance_idle hmode huidle e)
      (by unfold Recedes at hst; omega) hend
    exact ⟨hnext, fun _ k => absurd k hno⟩

/-- A pass on the PD keeps the invariant, and what it chooses starts with
the full budget. -/
theorem retryInv_of_pass (hs : CpHsInv env i (s.pd i) s.log)
    (hinv : RetryInv i c h (s.pd i))
    (hno : c → staysSpent env depth i s = false)
    (e : stateUpdate env (cpRunCalls env depth) i s = .ok () t) :
    RetryInv i c (⟨s, t⟩ :: h) (t.pd i) ∧
      (c → (⟨s, t⟩ : Pass).kicks i → (t.pd i).phyRetryCount = 0) := by
  have hm : HsMid env i s := ⟨hs.ctl, hs.enable, hs.sound⟩
  rcases stateUpdate_ok e with ⟨err, hrun, hu, he⟩ |
    ⟨err, u, hrun, hu, he, hp⟩ | ⟨hrun, hp⟩
  · rw [cpPhyRunning_eq] at hrun
    obtain ⟨hnext, hkick⟩ := hinv.going (attempt_ok hu) hrun he
    exact ⟨hnext, fun _ k => absurd k hkick⟩
  · have hmu := hsMid_of_exchange hm hrun hu
    have hcore : CoreStep (s.pd i) (u.pd i) :=
      (read_cpPhyStateUpdate (R := CoreDown i)
        (keeps_cpRunCalls depth)).of hu
    rw [← hcore.state] at hp
    rw [cpPhyRunning_eq] at hrun
    have hlimit := hinv.limit
    have hover : ((u.pd i).phyState = .done ∧ (u.pd i).phyRetryCount = 0 ∨
        (u.pd i).phyState = .err) ∧
        (u.pd i).phyRetryCount ≤ cmdMaxRetries := by
      cases attempt_ok hu with
      | rests phy same =>
        rw [hrun] at phy
        cases phy
      | pauses | parked | again => exact absurd (.inr rfl) he
      | sent | waits => exact absurd (.inl rfl) he
      | done phy next count =>
        exact ⟨.inl ⟨next, count⟩, by rw [count]; exact Nat.zero_le _⟩
      | failed phy next count => exact ⟨.inr next, count ▸ hlimit⟩
    have hset : ∃ e₀, (do
        let e ← cpSettle env (cpRunCalls env depth) i e₀
        cpAdvance env (cpRunCalls env depth) i (u.pd i).state e) u
          = .ok () t := by
      obtain ⟨p, v, hq, hp'⟩ := bind_ok.mp hp
      obtain ⟨rfl, rfl⟩ := getPd_ok.mp hq
      rcases hover.1 with ⟨hphy, -⟩ | hphy <;> rw [hphy] at hp'
      · exact ⟨cpErrNone, hp'⟩
      · exact ⟨cpErrGeneric, hp'⟩
    obtain ⟨e₀, hset⟩ := hset
    have hut : Recedes i u t := by
      obtain ⟨e', v, hv, hset⟩ := bind_ok.mp hset
      have huv : Recedes i u v := (recedes_settle e₀).of hv
      exact huv.trans ((recedes_advance _ e').of hset)
    obtain ⟨hnext, hkick⟩ := hinv.ended (settle_advance_idle hmu.ctl.cp hset)
      (by have := hover.2; unfold Recedes at hut; omega)
      fun hc => refilled_of_over hmu hover.1 hu (hno hc) hp
    exact ⟨hnext, fun _ k => absurd k hkick⟩
  · have hphy : (s.pd i).phyState = .idle := by
      rw [cpPhyRunning_eq] at hrun
      have hd := hs.phy
      cases hph : (s.pd i).phyState with
      | idle => rfl
      | done => exact absurd hph hd.1
      | err => exact absurd hph hd.2
      | sendCmd | sendCmdWait | replyWait | wait | retryCmd =>
        rw [hph] at hrun
        cases hrun
    exact retryInv_of_idle hm hinv hphy hp

end Watch

-- ================================================================= results

/-- What the passes so far come to, and what the next one needs. -/
structure RetryWatch (env : Env) (i : Nat) (c : Prop) (h : List Pass)
    (s : Osdp) : Prop where
  device : DeviceInv i (CpHsInv env i) (ScInv env i) s
  limit : Always (fun x past => sentSince i (x :: past) ≤ 1 + cmdMaxRetries)
    h
  budget : c → Always (FullBudget i) h
  alive : s.tearingDown = false → RetryInv i c h (s.pd i)

theorem retryInv_aside {i : Nat} {c : Prop} {h : List Pass} {p q : OsdpPd}
    (hinv : RetryInv i c h p) (hc : CallStep p q) : RetryInv i c h q := by
  have e := congrArg OsdpPd.attempt hc.aside
  have e : q.attempt = p.attempt := e
  have hphy : q.phyState = p.phyState := hc.phyState
  have hcount : q.phyRetryCount = p.phyRetryCount := congrArg Prod.snd e
  refine ⟨hinv.fresh, hcount ▸ hinv.limit, fun k => ?_, hinv.sends,
    fun hk k => ?_⟩
  · rw [hphy] at k
    unfold OsdpPd.attempts
    rw [hphy, hcount]
    exact hinv.spent k
  · rw [hphy] at k
    unfold Refilled
    rw [hcount, hc.state]
    exact hinv.idle hk k

theorem retryInv_fresh (env : Env) {i : Nat} {c : Prop} {h : List Pass}
    {p q : OsdpPd} (hold : RetryInv i c h q)
    (hp : ∃ info, p = cpSetupDevice env info) : RetryInv i c h p := by
  obtain ⟨info, rfl⟩ := hp
  exact ⟨hold.fresh, Nat.zero_le _, nofun, hold.sends, fun _ _ => .inl rfl⟩

theorem retry_watch (env : Env) (depth i : Nat) (c : Prop) :
    WatchInvariant env depth i (RetryWatch env i c)
      fun s => c → staysSpent env depth i s = false where
  call h a s t hs _ e := by
    have hc := (calls_cpApiCall a).of e
    have htear : t.tearingDown = s.tearingDown := by
      have e := congrArg Osdp.tearingDown hc.rest
      exact e
    exact ⟨hs.device.calls (hsInv_invariant env depth i) hc, hs.limit,
      hs.budget, fun ha =>
        retryInv_aside (hs.alive (htear ▸ ha)) (hc.pd i)⟩
  addPd h infos s t a hs e := by
    have hd := (hsInv_invariant env depth i).invariant.addPd infos s t a
      hs.device e
    rcases osdpCpAddPd_ok e with rfl | ⟨-, hadd⟩
    · exact hs
    · obtain ⟨-, -, htear, hpd⟩ := cpAddPd_pd hadd
      refine ⟨hd, hs.limit, hs.budget, fun ha => ?_⟩
      have hold := hs.alive (htear ▸ ha)
      rcases hpd i with k | k
      · rw [k]
        exact hold
      · exact retryInv_fresh env hold k
  teardown h s t hs e := by
    have hkeeps : TeardownKeeps i fun _ _ => True :=
      ⟨fun _ _ _ _ _ _ _ => trivial, fun _ _ _ => trivial⟩
    have hd := hs.device.teardown (hsInv_invariant env depth i) e
    rcases teardown_ok hkeeps e with rfl | ⟨-, -, htear, -⟩
    · exact hs
    · refine ⟨hd, hs.limit, hs.budget, fun ha => ?_⟩
      rw [htear] at ha
      cases ha
  other h s t j hs hlive hne e := by
    have ho := (others_stateUpdate j).of e
    exact ⟨hs.device.other (hsInv_invariant env depth i) hlive
        (Ne.symm hne) e, hs.limit, hs.budget, fun _ =>
      retryInv_aside (hs.alive hlive.2) (ho.pd i (Ne.symm hne))⟩
  pass h s t hs hlive hi hg e := by
    obtain ⟨hinv, hkick⟩ :=
      retryInv_of_pass (hs.device.alive hlive.2) (hs.alive hlive.2) hg e
    have hd : DeviceInv i (CpHsInv env i) (ScInv env i) t :=
      hs.device.pass (hsInv_invariant env depth i) hlive (fun _ => trivial)
        (by rw [hi]; exact e)
    refine ⟨hd, ⟨hinv.sends, hs.limit⟩, fun hc => ⟨⟨hkick hc, fun k => ?_,
      hinv.sends⟩, hs.budget hc⟩, fun _ => hinv⟩
    have hspent := hinv.spent k
    rw [hinv.fresh hc, Nat.zero_add] at hspent
    exact hspent
  same h s t hs hpd hlog htear hseal := by
    refine ⟨⟨fun ha => ?_, ?_, fun hno => ?_⟩, hs.limit, hs.budget,
      fun ha => ?_⟩
    · rw [hpd, hlog]
      exact hs.device.alive (htear ▸ ha)
    · rw [hpd, hlog]
      exact hs.device.always
    · rw [hlog]
      refine hs.device.unmarked ?_
      cases hs' : s.isSealed with
      | false => rfl
      | true =>
        rw [hseal hs'] at hno
        cases hno
    · rw [hpd]
      exact hs.alive (htear ▸ ha)

/-- No command is ever sent more often than the budget allows.  Where no
exchange that had to be retried fails on a link that outlives it, every
command is chosen with the full budget, and `phy_retry_count` says how much
of it is spent. -/
theorem cp_retry_budget (env : Env) (depth : Nat)
    (ok : Osdp → CpInput → Bool) (infos : List CpPdInfo) (s t : Osdp)
    (l : List CpInput) (i : Nat) (hs : osdpCpSetup env infos = some s)
    (hrun : CpRun env depth ok s l t) :
    Always (fun x past => sentSince i (x :: past) ≤ 1 + cmdMaxRetries)
        (passesOn i (runPasses env depth l s)) ∧
      ((∀ v x, ok v x = true →
          passesOk env depth i (fun u => !staysSpent env depth i u) v x
            = true) →
        Always (FullBudget i) (passesOn i (runPasses env depth l s))) := by
  have hd := hsInv_invariant env depth i
  have hstart (c : Prop) : RetryWatch env i c [] s := by
    refine ⟨hd.start hs, trivial, fun _ => trivial, fun _ => ?_⟩
    have hempty : RetryInv i c [] ({} : OsdpPd) :=
      ⟨fun _ => rfl, Nat.zero_le _, nofun, Nat.zero_le _,
        fun _ _ => .inl rfl⟩
    rcases osdpCpSetup_pd hs i with k | k
    · rw [k]
      exact hempty
    · exact retryInv_fresh env hempty k
  have hof (c : Prop) (hok : c → ∀ v x, ok v x = true →
      passesOk env depth i (fun u => !staysSpent env depth i u) v x = true) :
      RetryWatch env i c (passesOn i (runPasses env depth l s)) t := by
    refine (retry_watch env depth i c).run_of hrun (fun v x h => ?_)
      (hstart c)
    by_cases hc : c
    · exact passesMeet_of_passesOk (fun u k _ => by simpa using k)
        (hok hc v x h)
    · exact passesMeet_of_passesOk (g := fun _ => true)
        (fun u _ k => absurd k hc) (by simp [passesOk])
  exact ⟨(hof False nofun).limit, fun hok => (hof True fun _ => hok).budget
    trivial⟩

-- =================================================================== runs

/-- The mode-set(01) of a card session draws no answer and is sent once
more. -/
def sentOnceMore : List CpInput :=
  cardOpening ++ [.refresh 300 [], .refresh 1200 [], .refresh 1201 []]

/-- A session whose mode-set(01) is answered at the second attempt. -/
theorem cp_retry_budget_session :
    ∃ s t, osdpCpSetup cardEnv [cardPd] = some s ∧
      CpRun cardEnv 1
        (passesOk cardEnv 1 0 fun u => !staysSpent cardEnv 1 0 u) s
        (sentOnceMore ++
          [.refresh 1210 (writeBe 9 0xFF5381080006406A60),
           .refresh 1211 []]) t ∧
      ((t.pd 0).state = .trsRun ∧ (t.pd 0).phyState = .sendCmd) ∧
      Always (FullBudget 0) (passesOn 0
        (runPasses cardEnv 1 (sentOnceMore ++
          [.refresh 1210 (writeBe 9 0xFF5381080006406A60),
           .refresh 1211 []]) s)) := by
  obtain ⟨s, t, hs, hrun, hend⟩ :=
    run_of_setup (cpStep cardEnv 1)
      (passesOk cardEnv 1 0 fun u => !staysSpent cardEnv 1 0 u)
      (osdpCpSetup cardEnv [cardPd]) (sentOnceMore ++
        [.refresh 1210 (writeBe 9 0xFF5381080006406A60),
         .refresh 1211 []])
      (fun t => (t.pd 0).state = .trsRun ∧ (t.pd 0).phyState = .sendCmd)
      (by decide +kernel)
  exact ⟨s, t, hs, hrun, hend,
    (cp_retry_budget cardEnv 1 _ _ s t _ 0 hs hrun).2 fun _ _ h => h⟩

/-- A reply of another PD ends that second attempt: the session goes on to
mode-set(00), which starts with one attempt counted already. -/
theorem cp_retry_budget_overheard :
    ∃ s t, osdpCpSetup cardEnv [cardPd] = some s ∧
      CpRun cardEnv 1 anyCpInput s (sentOnceMore ++
        [.refresh 1210 (writeBe 9 0xFF538208000640B88E),
         .refresh 1211 []]) t ∧
      ¬ Always (FullBudget 0) (passesOn 0
        (runPasses cardEnv 1 (sentOnceMore ++
          [.refresh 1210 (writeBe 9 0xFF538208000640B88E),
           .refresh 1211 []]) s)) := by
  obtain ⟨s, t, hs, hrun, -⟩ :=
    run_of_setup (cpStep cardEnv 1) anyCpInput
      (osdpCpSetup cardEnv [cardPd]) (sentOnceMore ++
        [.refresh 1210 (writeBe 9 0xFF538208000640B88E),
         .refresh 1211 []])
      (fun _ => True) (by decide +kernel)
  have hsome : (osdpCpSetup cardEnv [cardPd]).any (fun s =>
      (passesOn 0 (runPasses cardEnv 1 (sentOnceMore ++
        [.refresh 1210 (writeBe 9 0xFF538208000640B88E),
         .refresh 1211 []]) s)).head?.any fun x =>
        decide (x.kicks 0) && (x.after.pd 0).phyRetryCount != 0) = true := by
    decide +kernel
  refine ⟨s, t, hs, hrun, fun hall => ?_⟩
  rw [hs, Option.any_some] at hsome
  revert hall hsome
  generalize passesOn 0 (runPasses cardEnv 1 (sentOnceMore ++
    [.refresh 1210 (writeBe 9 0xFF538208000640B88E),
     .refresh 1211 []]) s) = h
  intro hsome hall
  cases h with
  | nil => simp at hsome
  | cons x past =>
    simp only [List.head?_cons, Option.any_some, Bool.and_eq_true,
      decide_eq_true_eq, bne_iff_ne] at hsome
    exact hsome.2 (hall.1.fresh hsome.1)

end LibOsdp
