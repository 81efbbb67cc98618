/-
The control of a CP's PD: what each part of a pass makes of it.

`OsdpPd.ctl` is the part of a PD the state machine steers by: its state
and phy state, the ids of the exchange, the flags of the secure channel,
the requests the library itself makes.  Nothing else decides where a pass
goes, the clock and the application's own requests apart.

# Spec lemmas

For each function of a pass one lemma says what becomes of the control,
as an equation between controls (`Steers`).  Functions that only call the
application, or build and decode frames, keep it as it is (`SameCtl`).
This module has the small moves, the settling of an exchange and the
choice of a command; where a pass goes from there is the next one's.
-/
import LibOsdp.Cp.Proofs.Exchange

namespace LibOsdp

open Lib

-- ============================================================ the control

/-- The requests without those the application may raise. -/
def CpRequest.own (q : CpRequest) : CpRequest :=
  { q with offline := false, disable := false, enable := false }

/-- What the state machine steers a PD by. -/
structure PdCtl where
  state : CpState
  phyState : CpPhyState
  cmdId : Nat
  replyId : Nat
  scActive : Bool
  scUseScbkd : Bool
  scEstablished : Bool
  scDisabled : Bool
  installMode : Bool
  pdMode : Bool
  scbk : Bytes
  cpRandom : Bytes
  request : CpRequest

/-- That part of a PD. -/
def OsdpPd.ctl (p : OsdpPd) : PdCtl where
  state := p.state
  phyState := p.phyState
  cmdId := p.cmdId
  replyId := p.replyId
  scActive := p.flags.scActive
  scUseScbkd := p.flags.scUseScbkd
  scEstablished := p.flags.scEstablished
  scDisabled := p.flags.scDisabled
  installMode := p.flags.installMode
  pdMode := p.flags.pdMode
  scbk := p.sc.scbk
  cpRandom := p.sc.cpRandom
  request := p.request.own

/-- Frames and calls leave the control alone. -/
theorem FrameStep.ctl {p q : OsdpPd} (h : FrameStep p q) :
    q.ctl = p.ctl := by
  have e := congrArg OsdpPd.ctl h.framed
  exact e

/-- The control of PD `i` is now `c`, in the state it was in, and a
request to enable it was made only where it is disabled. -/
structure Steers (i : Nat) (s : Osdp) (c : PdCtl) (t : Osdp) : Prop where
  ctl : (t.pd i).ctl = c
  state : (t.pd i).state = (s.pd i).state
  enable : (t.pd i).request.enable = true →
    (s.pd i).request.enable = true ∨ (s.pd i).state = .disabled

section Steers

variable {i : Nat} {s t u : Osdp} {c d : PdCtl}

theorem Steers.refl (s : Osdp) : Steers i s (s.pd i).ctl s :=
  ⟨rfl, rfl, .inl⟩

theorem Steers.trans (h : Steers i s c t) (k : Steers i t d u) :
    Steers i s d u := by
  refine ⟨k.ctl, k.state.trans h.state, fun e => ?_⟩
  rcases k.enable e with e | e
  · exact h.enable e
  · exact .inr (h.state ▸ e)

/-- The control is all that matters of where a move starts. -/
theorem Steers.cast (h : Steers i s c t) (e : c = d) : Steers i s d t :=
  e ▸ h

/-- One update of the PD. -/
theorem steers_updPd {f : OsdpPd → OsdpPd} (hc : (f (s.pd i)).ctl = c)
    (hs : (f (s.pd i)).state = (s.pd i).state)
    (he : (f (s.pd i)).request.enable = (s.pd i).request.enable) :
    Steers i s c (s.updPd i f) := by
  refine ⟨?_, ?_, fun e => ?_⟩
  · rw [updPd_pd_same, hc]
  · rw [updPd_pd_same, hs]
  · rw [updPd_pd_same, he] at e
    exact .inl e

end Steers

-- ============================================================== neutrality

/-- The entries that have no part in a handshake. -/
@[grind] def Obs.noHs : Obs → Bool
  | .verdict .. | .build .. | .sessionKeys .. | .challenged ..
  | .scActivated _ => false
  | _ => true

theorem noHs_of_none {o : Obs} (h : o.markOf = none) : o.noHs = true := by
  cases o <;> first | rfl | cases h

theorem noHs_of_noMark {o : Obs} (h : o.noMark = true) : o.noHs = true := by
  cases o <;> first | rfl | cases h

/-- The control stays as it is, and so does every handshake. -/
structure SameCtl (i : Nat) (s t : Osdp) : Prop where
  steers : Steers i s (s.pd i).ctl t
  log : LogExt Obs.noHs s t

section SameCtl

variable {i : Nat} {s t u : Osdp}

theorem SameCtl.same (hp : t.pd = s.pd) (hl : t.log = s.log) :
    SameCtl i s t :=
  ⟨⟨by rw [hp], by rw [hp], fun e => .inl (by rw [← hp]; exact e)⟩, LogExt.of_eq hl⟩

theorem SameCtl.entry {o : Obs} (h : o.noHs = true) :
    SameCtl i s { s with log := o :: s.log } :=
  ⟨⟨rfl, rfl, .inl⟩, LogExt.cons h⟩

/-- A frame step of PD `i` keeps its control. -/
theorem steers_of_frameStep (h : FrameStep (s.pd i) (t.pd i)) :
    Steers i s (s.pd i).ctl t :=
  ⟨h.ctl, congrArg PdCtl.state h.ctl, h.enable⟩

end SameCtl

instance (i : Nat) : BusMoves (SameCtl i) where
  refl _ := .same rfl rfl
  trans _ _ _ h k :=
    ⟨h.steers.trans (k.steers.cast h.steers.ctl), trans_of _ h.log k.log⟩
  call s j _ h :=
    ⟨steers_of_frameStep
      (callStep_updPd s j i (.of_sansCalls (h _))).frameStep,
      refl_of (LogExt _) s⟩
  enable s j h :=
    ⟨steers_of_frameStep
      (callStep_updPd s j i ⟨rfl, fun _ => .inr h⟩).frameStep,
      refl_of (LogExt _) s⟩
  disable s j :=
    ⟨steers_of_frameStep (callStep_updPd s j i ⟨rfl, .inl⟩).frameStep,
      refl_of (LogExt _) s⟩
  note _ _ h := .entry (noHs_of_none (markOf_isCall h))
  running _ _ := .same rfl rfl
  entry _ _ h := .entry (noHs_of_none h)
  txBuf _ _ _ := .same rfl rfl
  flush _ := .same rfl rfl
  drawn _ _ := .same rfl rfl

instance (i : Nat) : FrameMoves i (SameCtl i) where
  frame s f h := by
    refine ⟨steers_of_frameStep ?_, refl_of (LogExt _) s⟩
    rw [updPd_pd_same]
    exact .of_sansFrames (h _)

instance (i : Nat) : CapMoves i (SameCtl i) where
  caps s f h := by
    refine ⟨steers_of_frameStep ?_, refl_of (LogExt _) s⟩
    rw [updPd_pd_same]
    exact .of_sansRecord (h _)

section Specs

variable {env : Env} {i depth : Nat} {s t : Osdp}

/-- An update that spares the control. -/
theorem sameCtl_updPd {f : OsdpPd → OsdpPd}
    (h : ∀ p : OsdpPd, (f p).ctl = p.ctl ∧
      (f p).request.enable = p.request.enable) :
    Keeps (SameCtl i) (updPd i f) := by
  intro s a t e
  rw [← updPd_ok.mp e]
  exact ⟨steers_updPd (h _).1 (congrArg PdCtl.state (h _).1) (h _).2,
    refl_of (LogExt _) s⟩

theorem sameCtl_of_updPd {f : OsdpPd → OsdpPd} {a : Unit}
    (e : updPd i f s = .ok a t) (hc : (f (s.pd i)).ctl = (s.pd i).ctl)
    (he : (f (s.pd i)).request.enable = (s.pd i).request.enable) :
    SameCtl i s t := by
  rw [← updPd_ok.mp e]
  exact ⟨steers_updPd hc (congrArg PdCtl.state hc) he, refl_of (LogExt _) s⟩

theorem sameCtl_observe {o : Obs} (h : o.noHs = true) :
    Keeps (SameCtl i) (observe o) := by
  intro s a t e
  rw [← observe_ok.mp e]
  exact .entry h

/-- Whatever callbacks do keeps the control. -/
theorem sameCtl_run (calls : List ApiCall) :
    Keeps (SameCtl i) (cpRunCalls env depth calls) :=
  keeps_cpRunCalls depth calls

-- ============================================================ small moves

theorem scDeactivate_ok {a : Unit} (h : scDeactivate i s = .ok a t) :
    Steers i s { (s.pd i).ctl with scActive := false } t ∧
      t.log = s.log := by
  rw [← updPd_ok.mp h]
  exact ⟨steers_updPd rfl rfl rfl, rfl⟩

theorem setUseScbkd_ok {a : Unit} {b : Bool}
    (h : setUseScbkd i b s = .ok a t) :
    Steers i s { (s.pd i).ctl with scUseScbkd := b } t ∧
      t.log = s.log := by
  rw [← updPd_ok.mp h]
  exact ⟨steers_updPd rfl rfl rfl, rfl⟩

/-- The library's own requests are part of the control. -/
def CpReq.own : CpReq → Bool
  | .restartSc | .linkReset | .trsOpen | .trsScan => true
  | _ => false

theorem makeRequest_ok {a : Unit} {r : CpReq} (hr : r.own = true)
    (h : makeRequest i r s = .ok a t) :
    Steers i s { (s.pd i).ctl with
      request := (s.pd i).ctl.request.put r true } t ∧ t.log = s.log := by
  rw [← updPd_ok.mp h]
  cases r <;>
    first | exact ⟨steers_updPd rfl rfl rfl, rfl⟩ | cases hr

/-- A request that was pending is not any more. -/
theorem checkRequest_ok {b : Bool} {r : CpReq} (hr : r ≠ .enable)
    (h : checkRequest i r s = .ok b t) :
    b = (s.pd i).request.has r ∧
      Steers i s { (s.pd i).ctl with
        request := (s.pd i).ctl.request.put r false } t ∧
      t.log = s.log := by
  obtain ⟨p, v, hp, h⟩ := bind_ok.mp h
  obtain ⟨rfl, rfl⟩ := getPd_ok.mp hp
  split at h
  · next hhas =>
    obtain ⟨_, u, hu, h⟩ := bind_ok.mp h
    obtain ⟨rfl, rfl⟩ := pure_ok.mp h
    rw [← updPd_ok.mp hu]
    refine ⟨hhas.symm, ?_, rfl⟩
    cases r <;>
      first | exact absurd rfl hr | exact steers_updPd rfl rfl rfl
  · next hhas =>
    obtain ⟨rfl, rfl⟩ := pure_ok.mp h
    refine ⟨by simpa using hhas, (Steers.refl s).cast ?_, rfl⟩
    have hhas : (s.pd i).request.has r = false := by simpa using hhas
    cases hq : (s.pd i).request with
    | mk a b c d e f g =>
      rw [hq] at hhas
      simp only [OsdpPd.ctl, CpRequest.own, hq]
      cases r <;> simp_all [CpRequest.has, CpRequest.put]

/-- Letting go of the exchange. -/
theorem phyStateReset_ok {a : Unit} {e : Bool}
    (h : osdpPhyStateReset env i e s = .ok a t) :
    Steers i s { (s.pd i).ctl with phyState := .idle } t ∧
      t.log = s.log := by
  obtain ⟨_, u, hu, h⟩ := bind_ok.mp h
  have hu := updPd_ok.mp hu
  have hfirst : Steers i s { (s.pd i).ctl with phyState := .idle } u := by
    rw [← hu]
    exact steers_updPd rfl rfl rfl
  have hlog : u.log = s.log := by rw [← hu]; rfl
  split at h
  · obtain ⟨_, v, hv, h⟩ := bind_ok.mp h
    have hv := updPd_ok.mp hv
    have hsecond : Steers i u (u.pd i).ctl v := by
      rw [← hv]
      exact steers_updPd rfl rfl rfl
    have hvlog : v.log = s.log := by rw [← hv]; exact hlog
    have hboth := hfirst.trans (hsecond.cast hfirst.ctl)
    split at h
    · rw [← modify_ok.mp h]
      exact ⟨⟨hboth.ctl, hboth.state, hboth.enable⟩, hvlog⟩
    · obtain ⟨-, rfl⟩ := pure_ok.mp h
      exact ⟨hboth, hvlog⟩
  · obtain ⟨-, rfl⟩ := pure_ok.mp h
    exact ⟨hfirst, hlog⟩

-- ================================================================ keyset

/-- The control once a key set has gone through. -/
def PdCtl.keyset (c : PdCtl) (key : Bytes) : PdCtl :=
  { c with
    scActive := false
    scUseScbkd := false
    scbk := key
    request :=
      if cpStateIsOnline c.state then c.request.put .restartSc true
      else c.request }

/-- The key is taken, or the default key is done with. -/
theorem takeKey_ok {a : Unit} (h : cpTakeKey i s = .ok a t) :
    ∃ key, Steers i s { (s.pd i).ctl with scUseScbkd := false, scbk := key } t
      ∧ LogExt Obs.noHs s t := by
  obtain ⟨p, v, hp, h⟩ := bind_ok.mp h
  obtain ⟨rfl, rfl⟩ := getPd_ok.mp hp
  split at h
  · rw [← updPd_ok.mp h]
    exact ⟨(s.pd i).sc.scbk, steers_updPd rfl rfl rfl, refl_of (LogExt _) s⟩
  · next hno =>
    have hno : (s.pd i).flags.scUseScbkd = false := by simpa using hno
    have hsame : Steers i s
        { (s.pd i).ctl with scUseScbkd := false, scbk := (s.pd i).sc.scbk }
        s := (Steers.refl s).cast (by simp only [OsdpPd.ctl, hno])
    cases hkey : activeKey (s.pd i) with
    | none =>
      rw [hkey] at h
      obtain ⟨-, rfl⟩ := pure_ok.mp h
      exact ⟨_, hsame, refl_of (LogExt _) _⟩
    | some key =>
      rw [hkey] at h
      obtain ⟨_, u, hu, h⟩ := bind_ok.mp h
      have hsu : SameCtl i s u := (sameCtl_observe rfl).of hu
      have hpd : u.pd = s.pd := by rw [← observe_ok.mp hu]
      rw [← updPd_ok.mp h]
      refine ⟨key, hsu.steers.trans (steers_updPd ?_ rfl rfl), hsu.log⟩
      simp only [OsdpPd.ctl, hpd, hno]

/-- `cp_keyset_complete`, as the control sees it. -/
theorem keysetComplete_ok {a : Unit}
    (h : cpKeysetComplete env (cpRunCalls env depth) i s = .ok a t) :
    ∃ key, Steers i s ((s.pd i).ctl.keyset key) t ∧
      LogExt Obs.noHs s t := by
  obtain ⟨_, u, hu, h⟩ := bind_ok.mp h
  obtain ⟨key, hkey, hul⟩ := takeKey_ok hu
  obtain ⟨_, v, hv, h⟩ := bind_ok.mp h
  obtain ⟨hdown, hvl⟩ := scDeactivate_ok hv
  obtain ⟨_, w, hw, h⟩ := bind_ok.mp h
  have hn : SameCtl i v w := (keeps_cpNotifyScStatus sameCtl_run i).of hw
  obtain ⟨p, w', hp, h⟩ := bind_ok.mp h
  obtain ⟨rfl, rfl⟩ := getPd_ok.mp hp
  have hlog : LogExt Obs.noHs s w :=
    trans_of _ hul (trans_of _ (LogExt.of_eq hvl) hn.log)
  have hw := hkey.trans (hdown.trans hn.steers)
  have hctl : (w.pd i).ctl
      = { (s.pd i).ctl with
          scActive := false, scUseScbkd := false, scbk := key } := by
    rw [hw.ctl, hdown.ctl, hkey.ctl]
  have hstate : (w.pd i).state = (s.pd i).ctl.state := hw.state
  unfold cpIsOnline at h
  rw [hstate] at h
  refine ⟨key, ?_⟩
  unfold PdCtl.keyset
  split at h
  · next hon =>
    obtain ⟨hreq, htl⟩ := makeRequest_ok rfl h
    rw [if_pos hon]
    refine ⟨(hw.trans hreq).cast ?_, trans_of _ hlog (LogExt.of_eq htl)⟩
    rw [hctl]
  · next hon =>
    obtain ⟨-, rfl⟩ := pure_ok.mp h
    rw [if_neg hon]
    exact ⟨hw.cast (by rw [← hw.ctl, hctl]), hlog⟩

-- ================================================================ settle

/-- The reply each state of the link's setup waits for. -/
def awaitedReply (st : CpState) (id : Nat) : Bool :=
  match st with
  | .init => id == replyPdid
  | .capdet => id == replyPdcap
  | .scChlng => id == replyCcrypt
  | .scScrypt => id == replyRmacI
  | .setScbk => id == replyAck
  | _ => false

/-- What the judgement of a reply does: nothing, unless the reply
completes a key set. -/
def Judgement (p : OsdpPd) (c : PdCtl) : Prop :=
  c = p.ctl ∨ cpIsOnline p = true ∧ p.replyId = replyAck ∧
    p.cmdId = cmdKeyset ∧ ∃ key, c = p.ctl.keyset key

theorem stateCheckReply_ok {b : Bool}
    (h : stateCheckReply env (cpRunCalls env depth) i s = .ok b t) :
    (∃ c, Steers i s c t ∧ Judgement (s.pd i) c) ∧ LogExt Obs.noHs s t ∧
      (cpIsOnline (s.pd i) = false →
        b = awaitedReply (s.pd i).state (s.pd i).replyId) := by
  obtain ⟨p, v, hp, h⟩ := bind_ok.mp h
  obtain ⟨rfl, rfl⟩ := getPd_ok.mp hp
  have honline (hon : cpIsOnline (s.pd i) = true)
      (h : cpCheckOnlineResponse env (cpRunCalls env depth) i s = .ok b t) :
      (∃ c, Steers i s c t ∧ Judgement (s.pd i) c) ∧ LogExt Obs.noHs s t ∧
        (cpIsOnline (s.pd i) = false →
          b = awaitedReply (s.pd i).state (s.pd i).replyId) := by
    obtain ⟨p, v, hp, h⟩ := bind_ok.mp h
    obtain ⟨rfl, rfl⟩ := getPd_ok.mp hp
    split at h
    · next hks =>
      obtain ⟨_, u, hu, h⟩ := bind_ok.mp h
      obtain ⟨-, rfl⟩ := pure_ok.mp h
      obtain ⟨key, hkey, hlog⟩ := keysetComplete_ok hu
      exact ⟨⟨_, hkey, .inr ⟨hon, hks.1, hks.2, key, rfl⟩⟩, hlog, fun hoff =>
        absurd hon (by simp [hoff])⟩
    · obtain ⟨-, rfl⟩ := pure_ok.mp h
      exact ⟨⟨_, .refl s, .inl rfl⟩, refl_of (LogExt _) s, fun hoff =>
        absurd hon (by simp [hoff])⟩
  cases hst : (s.pd i).state with
  | init | capdet | scChlng | scScrypt | setScbk | offline | disabled =>
    rw [hst] at h
    obtain ⟨rfl, rfl⟩ := pure_ok.mp h
    exact ⟨⟨_, .refl s, .inl rfl⟩, refl_of (LogExt _) s, fun _ => rfl⟩
  | online | trsSetup | trsRun =>
    rw [hst] at h
    rw [← hst]
    exact honline (by simp [cpIsOnline, hst, cpStateIsOnline]) h

theorem sameCtl_cpSettleCommand (b : Bool) :
    Keeps (SameCtl i) (cpSettleCommand env (cpRunCalls env depth) i b) := by
  have hkeep : Keeps (SameCtl i) (updPd i fun p =>
      { p with engineCmd := p.activeCmd, engineCmdMpType := .bioread }) :=
    sameCtl_updPd fun _ => ⟨rfl, rfl⟩
  have hset (c : Option SubmittedCmd) :
      Keeps (SameCtl i) (setActiveCmd i c) :=
    sameCtl_updPd fun _ => ⟨rfl, rfl⟩
  have hdone (c : Option SubmittedCmd) (st : CompletionStatus) :
      Keeps (SameCtl i) (cpCompleteCmd env (cpRunCalls env depth) i c st) :=
    keeps_cpCompleteCmd sameCtl_run i c st
  unfold cpSettleCommand
  refine .bind (keeps_getPd i) fun p => ?_
  split
  · exact .bind hkeep fun _ => hset _
  · exact .bind (hdone _ _) fun _ => hset _

theorem settleFailure_ok {err : Int}
    (h : cpSettleFailure env (cpRunCalls env depth) i s = .ok err t) :
    SameCtl i s t ∧
      (err = cpErrNone ∧ cpCmdFailureIsSoft (s.pd i) = true ∨
        err = cpErrGeneric) := by
  have hkeep : SameCtl i s t := (pick_cpSettleFailure sameCtl_run).of h
  refine ⟨hkeep, ?_⟩
  obtain ⟨p, v, hp, h⟩ := bind_ok.mp h
  obtain ⟨rfl, rfl⟩ := getPd_ok.mp hp
  split at h
  · next hsoft =>
    obtain ⟨_, u, hu, h⟩ := bind_ok.mp h
    obtain ⟨rfl, -⟩ := pure_ok.mp h
    exact .inl ⟨rfl, hsoft⟩
  · obtain ⟨rfl, -⟩ := pure_ok.mp h
    exact .inr rfl

/-- An exchange that is over, settled. -/
structure Settled (i : Nat) (err err' : Int) (s t : Osdp) : Prop where
  ctl : ∃ c, Steers i s { c with phyState := .idle } t ∧
    Judgement (s.pd i) c
  log : LogExt Obs.noHs s t
  atEnd : cpIsOnline (s.pd i) = false →
    err' = if awaitedReply (s.pd i).state (s.pd i).replyId then err
      else cpErrGeneric

theorem settle_ok {err err' : Int}
    (h : cpSettle env (cpRunCalls env depth) i err s = .ok err' t) :
    Settled i err err' s t := by
  obtain ⟨b, u, hu, h⟩ := bind_ok.mp h
  obtain ⟨⟨c, hc, hj⟩, hul, hb⟩ := stateCheckReply_ok hu
  obtain ⟨_, v, hv, h⟩ := bind_ok.mp h
  have hcmd : SameCtl i u v := (sameCtl_cpSettleCommand b).of hv
  have hcv := hc.trans hcmd.steers
  have hvl := trans_of (LogExt _) hul hcmd.log
  have hend {w : Osdp} (hw : SameCtl i v w)
      (h : osdpPhyStateReset env i false w = .ok () t) :
      (∃ c, Steers i s { c with phyState := .idle } t ∧
        Judgement (s.pd i) c) ∧ LogExt Obs.noHs s t := by
    obtain ⟨hreset, htl⟩ := phyStateReset_ok h
    refine ⟨⟨c, ((hcv.trans hw.steers).trans hreset).cast ?_, hj⟩,
      trans_of (LogExt _) hvl (trans_of (LogExt _) hw.log (LogExt.of_eq htl))⟩
    rw [hw.steers.ctl, hcmd.steers.ctl, hc.ctl]
  split at h
  · next hb' =>
    obtain ⟨e, w, hw, h⟩ := bind_ok.mp h
    obtain ⟨rfl, rfl⟩ := pure_ok.mp hw
    obtain ⟨_, x, hx, h⟩ := bind_ok.mp h
    obtain ⟨rfl, rfl⟩ := pure_ok.mp h
    obtain ⟨hctl, hlog⟩ := hend (refl_of (SameCtl i) _) hx
    exact ⟨hctl, hlog, fun hoff => by rw [if_pos (by rw [← hb hoff, hb'])]⟩
  · next hb' =>
    obtain ⟨e, w, hw, h⟩ := bind_ok.mp h
    obtain ⟨hsame, hcase⟩ := settleFailure_ok hw
    obtain ⟨_, x, hx, h⟩ := bind_ok.mp h
    obtain ⟨rfl, rfl⟩ := pure_ok.mp h
    obtain ⟨hctl, hlog⟩ := hend hsame hx
    refine ⟨hctl, hlog, fun hoff => ?_⟩
    rw [if_neg (by rw [← hb hoff]; exact hb')]
    rcases hcase with ⟨-, hsoft⟩ | rfl
    · have hon : cpIsOnline (v.pd i) = cpIsOnline (s.pd i) := by
        unfold cpIsOnline
        rw [hcv.state]
      simp [cpCmdFailureIsSoft, hon, hoff] at hsoft
    · rfl

end Specs

-- ============================================================== selection

/-- The control without the requests for a card session. -/
def PdCtl.sansTrs (c : PdCtl) : PdCtl :=
  { c with
    request := { c.request with trsOpen := false, trsScan := false } }

/-- Choosing a command leaves the control alone, the requests for a card
session apart. -/
structure Picks (i : Nat) (s t : Osdp) : Prop where
  ctl : (t.pd i).ctl.sansTrs = (s.pd i).ctl.sansTrs
  enable : (t.pd i).request.enable = true →
    (s.pd i).request.enable = true ∨ (s.pd i).state = .disabled
  log : LogExt Obs.noHs s t

theorem Picks.state {i : Nat} {s t : Osdp} (h : Picks i s t) :
    (t.pd i).state = (s.pd i).state := by
  have e := congrArg PdCtl.state h.ctl
  exact e

theorem Picks.phyState {i : Nat} {s t : Osdp} (h : Picks i s t) :
    (t.pd i).phyState = (s.pd i).phyState := by
  have e := congrArg PdCtl.phyState h.ctl
  exact e

theorem SameCtl.picks {i : Nat} {s t : Osdp} (h : SameCtl i s t) :
    Picks i s t :=
  ⟨congrArg PdCtl.sansTrs h.steers.ctl, h.steers.enable, h.log⟩

instance (i : Nat) : BusMoves (Picks i) where
  refl s := (refl_of (SameCtl i) s).picks
  trans _ _ _ h k := by
    refine ⟨k.ctl.trans h.ctl, fun e => ?_, trans_of _ h.log k.log⟩
    rcases k.enable e with e | e
    · exact h.enable e
    · exact .inr (h.state ▸ e)
  call s j f h := (CallMoves.call (R := SameCtl i) s j f h).picks
  enable s j h := (CallMoves.enable (R := SameCtl i) s j h).picks
  disable s j := (CallMoves.disable (R := SameCtl i) s j).picks
  note s o h := (CallMoves.note (R := SameCtl i) s o h).picks
  running s b := (CallMoves.running (R := SameCtl i) s b).picks
  entry s o h := (BusMoves.entry (R := SameCtl i) s o h).picks
  txBuf s off d := (BusMoves.txBuf (R := SameCtl i) s off d).picks
  flush s := (BusMoves.flush (R := SameCtl i) s).picks
  drawn s n := (BusMoves.drawn (R := SameCtl i) s n).picks

instance (i : Nat) : PickMoves i (Picks i) where
  pick s f h := by
    have hp := h (s.pd i)
    have e₁ := congrArg (fun p : OsdpPd => p.ctl.sansTrs) hp
    have e₂ := congrArg (fun p : OsdpPd => p.request.enable) hp
    refine ⟨?_, fun e => .inl ?_, refl_of (LogExt _) s⟩
    · rw [updPd_pd_same]
      exact e₁
    · rw [updPd_pd_same] at e
      exact e₂.symm.trans e

section Select

variable {env : Env} {i depth : Nat} {s t : Osdp}

/-- The command of each state of the link's setup. -/
def setupCommand : CpState → Option Nat
  | .init => some cmdIdent
  | .capdet => some cmdCap
  | .scChlng => some cmdChlng
  | .scScrypt => some cmdScrypt
  | .setScbk => some cmdKeyset
  | .online | .trsSetup | .trsRun | .offline | .disabled => none

/-- The id is one an application's command, an engine or the POLL asks
for. -/
@[grind] def NotSetup (id : Nat) : Prop :=
  id ≠ cmdIdent ∧ id ≠ cmdCap ∧ id ≠ cmdChlng ∧ id ≠ cmdScrypt

instance : DecidablePred NotSetup := fun _ =>
  inferInstanceAs (Decidable (_ ∧ _))

theorem notSetup_wireCmdOf {c : OsdpCmd} {id : Nat}
    (h : wireCmdOf c = some id) : NotSetup id := by
  unfold wireCmdOf at h
  unfold NotSetup
  split at h
  case h_12 r =>
    cases hr : r.type with
    | input | output | «local» | reader =>
      simp only [hr, Option.some.injEq] at h
      subst h
      decide
    | unlisted code =>
      rw [hr] at h
      cases h
  all_goals first
    | (cases h; decide)
    | cases h

theorem returns_cpTranslateCmd (p : OsdpPd) (c : OsdpCmd) :
    Returns NotSetup (cpTranslateCmd p c) := by
  unfold cpTranslateCmd
  split
  · exact .pure (by decide)
  · cases h : wireCmdOf c with
    | none => exact .throw _
    | some id => exact .pure (notSetup_wireCmdOf h)

variable {run : List ApiCall → OsdpM Unit}

theorem returns_cpSetupActiveCmd (c : SubmittedCmd) :
    Returns NotSetup (cpSetupActiveCmd env run i c) := by
  unfold cpSetupActiveCmd
  refine .bind fun p => .bind_of (returns_cpTranslateCmd p c.cmd)
    fun id hid => ?_
  grind

theorem returns_cpGetPollCommand : Returns NotSetup (cpGetPollCommand i) := by
  unfold cpGetPollCommand
  refine .bind fun p => .bind fun now => ?_
  split
  · exact .bind fun _ => .pure (by decide)
  · exact .pure (by decide)

theorem notSetup_pivWireCmd (p : OsdpPd) : NotSetup (pivWireCmd p) := by
  unfold pivWireCmd
  cases p.pivD.family with
  | none => exact (by decide : NotSetup 0)
  | some f => cases f <;> exact (by decide)

theorem returns_cpGetStagedCommand :
    Returns NotSetup (cpGetStagedCommand env run i) := by
  have hpiv : Returns NotSetup (osdpPivCpGetCommand env run i) := by
    have hwire := notSetup_pivWireCmd
    have h₀ : NotSetup 0 := by decide
    have ha : NotSetup cmdAbort := by decide
    have hp : NotSetup cmdPoll := by decide
    unfold osdpPivCpGetCommand
    grind
  have hbio : Returns NotSetup (osdpBioCpGetCommand env run i) := by
    have h₀ : NotSetup 0 := by decide
    have ha : NotSetup cmdAbort := by decide
    have hp : NotSetup cmdPoll := by decide
    unfold osdpBioCpGetCommand
    grind
  have hidle : Returns NotSetup (cpGetIdleCommand i) := by
    have hpoll : Returns NotSetup (cpGetPollCommand i) :=
      returns_cpGetPollCommand
    have h₀ : NotSetup cmdInvalid := by decide
    unfold cpGetIdleCommand
    grind
  unfold cpGetStagedCommand
  refine .bind_of hpiv fun id hid => ?_
  split
  · exact .pure hid
  · refine .bind_of hbio fun id hid => ?_
    split
    · exact .pure hid
    · exact hidle

/-- The file engine asks for a transfer, a POLL or an abort. -/
theorem returns_osdpFileTxGetCommand :
    Returns (fun c => ∀ id, c = EngineCmd.send id → NotSetup id)
      (osdpFileTxGetCommand env run i) := by
  have ha : NotSetup cmdAbort := by decide
  have hp : NotSetup cmdPoll := by decide
  have hf : NotSetup cmdFiletransfer := by decide
  unfold osdpFileTxGetCommand
  grind

theorem returns_cpGetOnlineCommand :
    Returns NotSetup (cpGetOnlineCommand env run i) := by
  have h₀ : NotSetup cmdInvalid := by decide
  have hengine : Returns NotSetup (cpGetEngineCommand env run i) := by
    unfold cpGetEngineCommand
    refine .bind_of returns_osdpFileTxGetCommand fun c hc => ?_
    cases c with
    | send id => exact .pure (hc id rfl)
    | hold => exact .pure h₀
    | nothing => exact returns_cpGetStagedCommand
  have hsetup (c : SubmittedCmd) :
      Returns NotSetup (cpSetupActiveCmd env run i c) :=
    returns_cpSetupActiveCmd c
  unfold cpGetOnlineCommand
  grind

theorem returns_cpGetTrsCommand (rounds : Nat) :
    Returns NotSetup (cpGetTrsCommand env run i rounds) := by
  have hx : NotSetup cmdXwr := by decide
  have hpoll : Returns NotSetup (cpGetPollCommand i) :=
    returns_cpGetPollCommand
  have hsetup (c : SubmittedCmd) :
      Returns NotSetup (cpSetupActiveCmd env run i c) :=
    returns_cpSetupActiveCmd c
  have hidle : Returns NotSetup (cpGetTrsIdleCommand i) := by
    unfold cpGetTrsIdleCommand
    grind
  have hband (c : SubmittedCmd) :
      Returns NotSetup (cpGetBandCommand env run i c) := by
    unfold cpGetBandCommand
    grind
  induction rounds with
  | zero => exact .throw _
  | succ n ih =>
    unfold cpGetTrsCommand
    grind

/-- The command of a setup state is its own; no other state asks for one
of these. -/
theorem stateGetCmd_ok {id : Nat}
    (h : stateGetCmd env run i s = .ok id t) :
    match setupCommand (s.pd i).state with
    | some c => id = c
    | none => NotSetup id := by
  obtain ⟨p, v, hp, h⟩ := bind_ok.mp h
  obtain ⟨rfl, rfl⟩ := getPd_ok.mp hp
  cases hst : (s.pd i).state with
  | init | capdet | scChlng | scScrypt | setScbk =>
    rw [hst] at h
    exact (pure_ok.mp h).1.symm
  | online =>
    rw [hst] at h
    exact returns_cpGetOnlineCommand _ _ _ h
  | trsSetup | trsRun =>
    rw [hst] at h
    exact returns_cpGetTrsCommand _ _ _ _ h
  | offline | disabled =>
    rw [hst] at h
    obtain ⟨rfl, -⟩ := pure_ok.mp h
    exact (by decide : NotSetup cmdInvalid)

/-- What the choice of a command comes to: one to send, or none. -/
structure Kicked (i : Nat) (b : Bool) (s t : Osdp) : Prop where
  pick : ∃ id u, Picks i s u ∧ t.log = u.log ∧
    (match setupCommand (s.pd i).state with
    | some c => id = c
    | none => NotSetup id) ∧
    (b = true ∧ id ≠ cmdInvalid ∧
        Steers i u { (u.pd i).ctl with phyState := .sendCmd, cmdId := id } t ∨
      b = false ∧ (id = cmdInvalid ∨ (s.pd i).phyState ≠ .idle) ∧
        Steers i u { (u.pd i).ctl with cmdId := id } t)

theorem kick_ok {b : Bool}
    (h : cpKick env (cpRunCalls env depth) i s = .ok b t) :
    Kicked i b s t := by
  obtain ⟨id, u, hu, h⟩ := bind_ok.mp h
  have hid := stateGetCmd_ok hu
  have hpick : Picks i s u :=
    (pick_stateGetCmd (R := Picks i) (keeps_cpRunCalls depth)).of hu
  obtain ⟨_, v, hv, h⟩ := bind_ok.mp h
  have huv : Steers i u { (u.pd i).ctl with cmdId := id } v := by
    rw [← updPd_ok.mp hv]
    exact steers_updPd rfl rfl rfl
  have hvl : v.log = u.log := by rw [← updPd_ok.mp hv]; rfl
  have hphy : (v.pd i).phyState = (s.pd i).phyState :=
    (congrArg PdCtl.phyState huv.ctl).trans hpick.phyState
  obtain ⟨p, v', hp, h⟩ := bind_ok.mp h
  obtain ⟨rfl, rfl⟩ := getPd_ok.mp hp
  split at h
  · next hgo =>
    obtain ⟨_, w, hw, h⟩ := bind_ok.mp h
    obtain ⟨rfl, rfl⟩ := pure_ok.mp h
    have hvw : Steers i v { (v.pd i).ctl with phyState := .sendCmd } w := by
      rw [← updPd_ok.mp hw]
      exact steers_updPd rfl rfl rfl
    have hwl : w.log = v.log := by rw [← updPd_ok.mp hw]; rfl
    refine ⟨id, u, hpick, hwl.trans hvl, hid, .inl ⟨rfl, hgo.1, ?_⟩⟩
    exact (huv.trans hvw).cast (by rw [huv.ctl])
  · next hno =>
    obtain ⟨rfl, rfl⟩ := pure_ok.mp h
    refine ⟨id, u, hpick, hvl, hid, .inr ⟨rfl, ?_, huv⟩⟩
    rw [hphy] at hno
    by_cases hz : id = cmdInvalid
    · exact .inl hz
    · exact .inr fun e => hno ⟨hz, e⟩

end Select

end LibOsdp
