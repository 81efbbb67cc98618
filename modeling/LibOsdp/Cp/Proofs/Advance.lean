/-
Where a pass goes once the exchange is settled.

Choosing the next state is inverted once (`protocolNext_ok`): the link is
reset, a card session decides for itself, or the table of transitions
does, with its effects and the requests that apply online.  Entering it
is inverted once as well (`stateChange_ok`), and `advance_ok` puts the
two together.  The invariants of the secure channel are read off these
and never unfold the state machine.
-/
import LibOsdp.Cp.Proofs.Control

namespace LibOsdp

open Lib

section Specs

variable {env : Env} {i depth : Nat} {s t : Osdp}

-- =========================================================== transitions

/-- The table of transitions, after a success or a failure. -/
def nextState (err now : Int) (p : OsdpPd) : Option CpState :=
  if err = cpErrNone then getNextOkState now p else getNextErrState p

theorem getNextState_ok {err : Int} {next : CpState}
    (h : getNextState i err s = .ok next t) :
    t = s ∧ nextState err s.now (s.pd i) = some next := by
  obtain ⟨p, v, hp, h⟩ := bind_ok.mp h
  obtain ⟨rfl, rfl⟩ := getPd_ok.mp hp
  obtain ⟨now, v, hv, h⟩ := bind_ok.mp h
  cases hv
  unfold nextState
  cases hn : if err = cpErrNone then getNextOkState s.now (s.pd i)
      else getNextErrState (s.pd i) with
  | none =>
    rw [hn] at h
    exact absurd h throw_ok
  | some n =>
    rw [hn] at h
    obtain ⟨rfl, rfl⟩ := pure_ok.mp h
    exact ⟨rfl, rfl⟩

/-- The rows of the table. -/
theorem nextState_cases {err now : Int} {p : OsdpPd} {row : CpState}
    (h : nextState err now p = some row) :
    match p.state with
    | .init => row = .capdet ∨ row = .offline
    | .capdet => row = .scChlng ∨ row = .offline ∨ row = .online
    | .scChlng =>
      err = cpErrNone ∧ row = .scScrypt ∨
        err ≠ cpErrNone ∧ (row = .offline ∨ row = .scChlng ∨ row = .online)
    | .scScrypt =>
      err = cpErrNone ∧ (row = .setScbk ∨ row = .online) ∨
        err ≠ cpErrNone ∧ (row = .offline ∨ row = .online)
    | .setScbk =>
      err = cpErrNone ∧ row = .scChlng ∨
        err ≠ cpErrNone ∧ (row = .offline ∨ row = .online)
    | .online =>
      row = .online ∨ row = .offline ∨
        row = .scChlng ∧ p.flags.scActive = false
    | .offline => row = .init ∨ row = .offline
    | .disabled => row = .disabled
    | .trsSetup | .trsRun => False := by
  unfold nextState at h
  split at h
  · next he =>
    unfold getNextOkState at h
    cases hst : p.state <;> rw [hst] at h <;> simp only at h ⊢
    case capdet => (repeat' split at h) <;> cases h <;> simp
    case scScrypt => split at h <;> cases h <;> simp [he]
    case online =>
      split at h
      · next hsc =>
        cases h
        simp only [cpScShouldRetry, Bool.and_eq_true,
          Bool.not_eq_true'] at hsc
        exact .inr (.inr ⟨rfl, hsc.1.2⟩)
      · cases h
        exact .inl rfl
    case offline => split at h <;> cases h <;> simp
    all_goals first
      | (cases h; simp [he])
      | cases h
  · next he =>
    unfold getNextErrState at h
    cases hst : p.state <;> rw [hst] at h <;> simp only at h ⊢
    case scChlng => (repeat' split at h) <;> cases h <;> simp [he]
    case scScrypt => split at h <;> cases h <;> simp [he]
    case setScbk => split at h <;> cases h <;> simp [he]
    all_goals first
      | (cases h; simp)
      | cases h

/-- The effects of a success, as the control sees them. -/
def PdCtl.okEffects (cur next : CpState) (key : Bytes) (c : PdCtl) : PdCtl :=
  match cur with
  | .capdet => if next = .scChlng then { c with scUseScbkd := false } else c
  | .scScrypt =>
    { c with
      scActive := true
      scEstablished := c.scEstablished || decide (next ≠ .setScbk) }
  | .setScbk => c.keyset key
  | _ => c

/-- The effects of a failure, as the control sees them. -/
def PdCtl.errEffects (cur next : CpState) (c : PdCtl) : PdCtl :=
  match cur with
  | .scChlng =>
    if next = .offline then c
    else { c with scUseScbkd := decide (next = .scChlng) }
  | .setScbk => { c with scActive := false }
  | _ => c

/-- The effects of a transition. -/
def PdCtl.effects (cur next : CpState) (err : Int) (key : Bytes)
    (c : PdCtl) : PdCtl :=
  if err = cpErrNone then c.okEffects cur next key
  else c.errEffects cur next

section Effects

variable (c : PdCtl) (cur next : CpState) (err : Int) (key : Bytes)

/-- Setting up the link asks for no new handshake: only a key set does,
and only online. -/
theorem effects_restartSc (hcur : c.state = cur) :
    (c.effects cur next err key).request.restartSc
      = c.request.restartSc := by
  unfold PdCtl.effects PdCtl.okEffects PdCtl.errEffects PdCtl.keyset
  cases cur <;> simp only [hcur, cpStateIsOnline] <;>
    (repeat' split) <;> first | rfl | simp_all

/-- The channel comes up with the end of a handshake only, and a key set
brings it down. -/
theorem effects_scActive
    (h : (c.effects cur next err key).scActive = true) :
    cur = .scScrypt ∧ err = cpErrNone ∨
      c.scActive = true ∧ cur ≠ .setScbk := by
  unfold PdCtl.effects PdCtl.okEffects PdCtl.errEffects PdCtl.keyset at h
  cases cur <;> simp only at h <;> (repeat' split at h) <;> simp_all

theorem effects_pdMode : (c.effects cur next err key).pdMode = c.pdMode := by
  unfold PdCtl.effects PdCtl.okEffects PdCtl.errEffects PdCtl.keyset
  cases cur <;> simp only <;> (repeat' split) <;> rfl

theorem effects_phyState :
    (c.effects cur next err key).phyState = c.phyState := by
  unfold PdCtl.effects PdCtl.okEffects PdCtl.errEffects PdCtl.keyset
  cases cur <;> simp only <;> (repeat' split) <;> rfl

theorem effects_cpRandom :
    (c.effects cur next err key).cpRandom = c.cpRandom := by
  unfold PdCtl.effects PdCtl.okEffects PdCtl.errEffects PdCtl.keyset
  cases cur <;> simp only <;> (repeat' split) <;> rfl

end Effects

/-- The channel came up, with nothing of a handshake before or after. -/
structure Opens (i : Nat) (s t : Osdp) : Prop where
  log : ∃ u v, LogExt Obs.noHs s u ∧ v.log = .scActivated i :: u.log ∧
    LogExt Obs.noHs v t

/-- What a transition's effects leave in the history. -/
def EffectLog (i : Nat) (cur : CpState) (err : Int) (s t : Osdp) : Prop :=
  if cur = .scScrypt ∧ err = cpErrNone then Opens i s t
  else LogExt Obs.noHs s t

theorem EffectLog.quiet {cur : CpState} {err : Int}
    (h : LogExt Obs.noHs s t) (hno : ¬ (cur = .scScrypt ∧ err = cpErrNone)) :
    EffectLog i cur err s t := by
  rw [EffectLog, if_neg hno]
  exact h

theorem scActivate_ok {a : Unit} (h : scActivate i s = .ok a t) :
    Steers i s { (s.pd i).ctl with scActive := true } t ∧
      t.log = .scActivated i :: s.log := by
  obtain ⟨_, u, hu, h⟩ := bind_ok.mp h
  have hsu : Steers i s { (s.pd i).ctl with scActive := true } u := by
    rw [← updPd_ok.mp hu]
    exact steers_updPd rfl rfl rfl
  have hlog : u.log = s.log := by rw [← updPd_ok.mp hu]; rfl
  rw [← observe_ok.mp h]
  exact ⟨⟨hsu.ctl, hsu.state, hsu.enable⟩, by rw [← hlog]⟩

/-- The effects of a success. -/
theorem okEffects_ok {a : Unit} {cur next : CpState}
    (h : cpOkEffects env (cpRunCalls env depth) i cur next s = .ok a t) :
    ∃ key, Steers i s ((s.pd i).ctl.okEffects cur next key) t ∧
      EffectLog i cur cpErrNone s t := by
  cases cur with
  | capdet =>
    refine ⟨[], ?_⟩
    have h : (if next = .scChlng then setUseScbkd i false else pure ()) s
        = .ok a t := h
    simp only [PdCtl.okEffects]
    split at h
    · next hn =>
      obtain ⟨hs, hl⟩ := setUseScbkd_ok h
      rw [if_pos hn]
      exact ⟨hs, .quiet (LogExt.of_eq hl) nofun⟩
    · next hn =>
      obtain ⟨-, rfl⟩ := pure_ok.mp h
      rw [if_neg hn]
      exact ⟨.refl _, .quiet (refl_of (LogExt _) _) nofun⟩
  | scScrypt =>
    refine ⟨[], ?_⟩
    obtain ⟨_, u, hu, h⟩ := bind_ok.mp h
    obtain ⟨hup, hul⟩ := scActivate_ok hu
    obtain ⟨_, v, hv, h⟩ := bind_ok.mp h
    have hn : SameCtl i u v := (keeps_cpNotifyScStatus sameCtl_run i).of hv
    have hsv := hup.trans hn.steers
    have hlog {w : Osdp} (hw : w.log = v.log) :
        EffectLog i .scScrypt cpErrNone s w := by
      rw [EffectLog, if_pos ⟨rfl, rfl⟩]
      refine ⟨s, u, refl_of (LogExt _) s, hul, ?_⟩
      exact trans_of _ hn.log (LogExt.of_eq hw)
    simp only [PdCtl.okEffects]
    by_cases hne : next ≠ .setScbk
    · rw [if_pos hne] at h
      rw [← updPd_ok.mp h]
      refine ⟨(hsv.trans (steers_updPd (c :=
        { (v.pd i).ctl with scEstablished := true }) rfl rfl rfl)).cast ?_,
        hlog rfl⟩
      rw [hn.steers.ctl, hup.ctl]
      simp [hne]
    · rw [if_neg hne] at h
      obtain ⟨-, rfl⟩ := pure_ok.mp h
      refine ⟨hsv.cast ?_, hlog rfl⟩
      rw [hup.ctl]
      simp [hne]
  | setScbk =>
    obtain ⟨key, hs, hl⟩ := keysetComplete_ok h
    exact ⟨key, hs, .quiet hl nofun⟩
  | init | scChlng | online | offline | disabled | trsSetup | trsRun =>
    obtain ⟨-, rfl⟩ := pure_ok.mp h
    exact ⟨[], .refl _, .quiet (refl_of (LogExt _) _) nofun⟩

/-- The effects of a failure. -/
theorem errEffects_ok {a : Unit} {cur next : CpState}
    (h : cpErrEffects env (cpRunCalls env depth) i cur next s = .ok a t) :
    Steers i s ((s.pd i).ctl.errEffects cur next) t ∧
      LogExt Obs.noHs s t := by
  unfold PdCtl.errEffects
  cases cur with
  | scChlng =>
    unfold cpErrEffects at h
    simp only at h
    split at h
    · next hoff =>
      obtain ⟨-, rfl⟩ := pure_ok.mp h
      simp only [hoff, if_true]
      exact ⟨.refl _, refl_of (LogExt _) _⟩
    · next hoff =>
      split at h
      · next hn =>
        obtain ⟨hs, hl⟩ := setUseScbkd_ok h
        refine ⟨hs.cast ?_, LogExt.of_eq hl⟩
        simp [hn]
      · next hn =>
        obtain ⟨_, u, hu, h⟩ := bind_ok.mp h
        obtain ⟨hs, hl⟩ := setUseScbkd_ok hu
        obtain ⟨now, v, hv, h⟩ := bind_ok.mp h
        cases hv
        rw [← updPd_ok.mp h]
        refine ⟨(hs.trans (steers_updPd rfl rfl rfl)).cast ?_, LogExt.of_eq hl⟩
        show (u.pd i).ctl = _
        rw [hs.ctl, if_neg hoff]
        simp [hn]
  | setScbk =>
    obtain ⟨_, u, hu, h⟩ := bind_ok.mp h
    obtain ⟨hs, hl⟩ := scDeactivate_ok hu
    have hn : SameCtl i u t := (keeps_cpNotifyScStatus sameCtl_run i).of h
    exact ⟨(hs.trans hn.steers).cast hs.ctl,
      trans_of _ (LogExt.of_eq hl) hn.log⟩
  | init | capdet | scScrypt | online | offline | disabled | trsSetup
  | trsRun =>
    obtain ⟨-, rfl⟩ := pure_ok.mp h
    exact ⟨.refl _, refl_of (LogExt _) _⟩

theorem transitionEffects_ok {a : Unit} {cur next : CpState} {err : Int}
    (h : cpTransitionEffects env (cpRunCalls env depth) i cur next err s
      = .ok a t) :
    ∃ key, Steers i s ((s.pd i).ctl.effects cur next err key) t ∧
      EffectLog i cur err s t := by
  unfold cpTransitionEffects at h
  unfold PdCtl.effects
  split at h
  · next he =>
    subst he
    exact okEffects_ok h
  · next he =>
    obtain ⟨hs, hl⟩ := errEffects_ok h
    simp only [if_neg he]
    exact ⟨[], hs, .quiet hl fun hc => he hc.2⟩

-- ============================================================== requests

/-- The control once the requests that apply online were served. -/
def PdCtl.served (c : PdCtl) : PdCtl :=
  { c with
    phyState := if c.request.restartSc then .idle else c.phyState
    request :=
      { c.request with
        restartSc := false
        trsOpen := false
        trsScan := false } }

/-- The last request served: a scan's probe goes first. -/
theorem serveScan_ok {next next' : CpState} {probe : Bool}
    (h : (do
      if ← checkRequest i .trsScan then
        return (CpState.trsSetup, true)
      return (next, false)) s = .ok (next', probe) t) :
    Steers i s { (s.pd i).ctl with
        request := (s.pd i).ctl.request.put .trsScan false } t ∧
      t.log = s.log ∧ (next' = .trsSetup ∨ next' = next) := by
  obtain ⟨b, u, hu, h⟩ := bind_ok.mp h
  obtain ⟨-, hsu, hul⟩ := checkRequest_ok (by decide) hu
  split at h
  · obtain ⟨e, rfl⟩ := pure_ok.mp h
    cases e
    exact ⟨hsu, hul, .inl rfl⟩
  · obtain ⟨e, rfl⟩ := pure_ok.mp h
    cases e
    exact ⟨hsu, hul, .inr rfl⟩

/-- The requests for a session. -/
theorem serveTrs_ok {next next' : CpState} {probe : Bool}
    (h : (do
      let mut next := next
      if ← checkRequest i .trsOpen then
        next := .trsSetup
      if ← checkRequest i .trsScan then
        return (CpState.trsSetup, true)
      return (next, false)) s = .ok (next', probe) t) :
    Steers i s { (s.pd i).ctl with
        request :=
          ((s.pd i).ctl.request.put .trsOpen false).put .trsScan false } t ∧
      t.log = s.log ∧ (next' = .trsSetup ∨ next' = next) := by
  obtain ⟨b, u, hu, h⟩ := bind_ok.mp h
  obtain ⟨-, hsu, hul⟩ := checkRequest_ok (by decide) hu
  split at h
  · obtain ⟨hst, htl, hn⟩ := serveScan_ok h
    refine ⟨(hsu.trans hst).cast (by rw [hsu.ctl]), htl.trans hul, ?_⟩
    exact .inl (hn.elim id id)
  · obtain ⟨hst, htl, hn⟩ := serveScan_ok h
    exact ⟨(hsu.trans hst).cast (by rw [hsu.ctl]), htl.trans hul, hn⟩

/-- The requests but the one for a new handshake. -/
theorem serveLater_ok {next next' : CpState} {probe : Bool}
    (h : (do
      let mut next := next
      if ← checkRequest i .offline then
        next := .offline
      if ← checkRequest i .trsOpen then
        next := .trsSetup
      if ← checkRequest i .trsScan then
        return (CpState.trsSetup, true)
      return (next, false)) s = .ok (next', probe) t) :
    Steers i s { (s.pd i).ctl with
        request :=
          ((s.pd i).ctl.request.put .trsOpen false).put .trsScan false } t ∧
      t.log = s.log ∧
      (next' = .trsSetup ∨ next' = .offline ∨ next' = next) := by
  obtain ⟨b, u, hu, h⟩ := bind_ok.mp h
  obtain ⟨-, hsu, hul⟩ := checkRequest_ok (by decide) hu
  have hsame : (u.pd i).ctl = (s.pd i).ctl := by
    rw [hsu.ctl]
    simp only [OsdpPd.ctl, CpRequest.own, CpRequest.put]
  split at h
  · obtain ⟨hst, htl, hn⟩ := serveTrs_ok h
    refine ⟨(hsu.trans hst).cast (by rw [hsame]), htl.trans hul, ?_⟩
    exact hn.imp_right .inl
  · obtain ⟨hst, htl, hn⟩ := serveTrs_ok h
    refine ⟨(hsu.trans hst).cast (by rw [hsame]), htl.trans hul, ?_⟩
    exact hn.imp_right .inr

/-- The requests that apply online, all of them. -/
theorem onlineRequests_ok {next next' : CpState} {probe : Bool}
    (h : cpOnlineRequests env i next s = .ok (next', probe) t) :
    Steers i s (s.pd i).ctl.served t ∧ t.log = s.log ∧
      (next' = .trsSetup ∨ next' = .offline ∨
        (s.pd i).request.restartSc = true ∧ next' = .scChlng ∨
        (s.pd i).request.restartSc = false ∧ next' = next) := by
  obtain ⟨b, u, hu, h⟩ := bind_ok.mp h
  obtain ⟨hb, hsu, hul⟩ := checkRequest_ok (by decide) hu
  have hb : b = (s.pd i).ctl.request.restartSc := hb
  have hreq : (s.pd i).request.restartSc = (s.pd i).ctl.request.restartSc :=
    rfl
  split at h
  · next hyes =>
    obtain ⟨_, v, hv, h⟩ := bind_ok.mp h
    obtain ⟨hreset, hvl⟩ := phyStateReset_ok hv
    obtain ⟨hst, htl, hn⟩ := serveLater_ok h
    refine ⟨((hsu.trans hreset).trans hst).cast ?_,
      htl.trans (hvl.trans hul), ?_⟩
    · rw [hreset.ctl, hsu.ctl]
      simp [PdCtl.served, CpRequest.put, ← hb, hyes]
    · rw [hreq, ← hb, hyes]
      rcases hn with hn | hn | hn
      · exact .inl hn
      · exact .inr (.inl hn)
      · exact .inr (.inr (.inl ⟨rfl, hn⟩))
  · next hno =>
    have hno : b = false := by simpa using hno
    obtain ⟨hst, htl, hn⟩ := serveLater_ok h
    refine ⟨(hsu.trans hst).cast ?_, htl.trans hul, ?_⟩
    · rw [hsu.ctl]
      simp [PdCtl.served, CpRequest.put, ← hb, hno]
    · rw [hreq, ← hb, hno]
      rcases hn with hn | hn | hn
      · exact .inl hn
      · exact .inr (.inl hn)
      · exact .inr (.inr (.inr ⟨rfl, hn⟩))

-- ============================================================ the choice

theorem osdpTrsStateUpdate_next (id : Nat) (t : OsdpTrs) :
    (osdpTrsStateUpdate id t).2 = .online ∨
      (osdpTrsStateUpdate id t).2 = .trsRun := by
  unfold osdpTrsStateUpdate
  cases t.state with
  | setMode =>
    simp only
    generalize (if id = replyAck then trsMode01 else t.mode) = mode
    split
    · exact .inl rfl
    · exact .inr rfl
  | xmit | disconnectCard => exact .inr rfl
  | teardown | done => exact .inl rfl

theorem osdpTrsStateUpdateErr_next (id : Nat) (t : OsdpTrs) :
    (osdpTrsStateUpdateErr id t).2 = .online ∨
      (osdpTrsStateUpdateErr id t).2 = .trsRun := by
  unfold osdpTrsStateUpdateErr
  generalize trsScanNoteRefused id t = r
  obtain ⟨u, refused⟩ := r
  cases refused with
  | true => exact .inr rfl
  | false =>
    simp only [Bool.false_eq_true, if_false]
    cases u.state with
    | setMode | xmit | disconnectCard => exact .inr rfl
    | teardown | done => exact .inl rfl

/-- A card session goes on, or is over. -/
theorem trsNext_ok {err : Int} {next : CpState}
    (h : cpTrsNext env (cpRunCalls env depth) i err s = .ok next t) :
    SameCtl i s t ∧ (next = .online ∨ next = .trsRun) := by
  refine ⟨(frame_cpTrsNext sameCtl_run err).of h, ?_⟩
  obtain ⟨p, v, hp, h⟩ := bind_ok.mp h
  obtain ⟨rfl, rfl⟩ := getPd_ok.mp hp
  simp only at h
  obtain ⟨_, u, hu, h⟩ := bind_ok.mp h
  have hnext {t' : OsdpTrs} {n : CpState}
      (h : (do
        if t'.scan.declined then
          cpNotifyTrsStatus env (cpRunCalls env depth) i .scanNoDeparture
        return n) u = .ok next t) : next = n := by
    split at h
    · obtain ⟨_, v, hv, h⟩ := bind_ok.mp h
      exact (pure_ok.mp h).1.symm
    · exact (pure_ok.mp h).1.symm
  by_cases he : err = cpErrNone
  · simp only [he, if_true] at h
    rw [hnext h]
    exact osdpTrsStateUpdate_next _ _
  · simp only [he, if_false] at h
    rw [hnext h]
    exact osdpTrsStateUpdateErr_next _ _

/-- How the next state is chosen, and what that does on the way. -/
inductive Chosen (i : Nat) (err : Int) (s t : Osdp) : CpState → Prop where
  /-- the link is to be reset -/
  | reset
      (steers : Steers i s { (s.pd i).ctl with
        request := (s.pd i).ctl.request.put .linkReset false } t)
      (log : LogExt Obs.noHs s t) : Chosen i err s t .offline
  /-- a card session decides for itself -/
  | trs {next : CpState}
      (cur : (s.pd i).state = .trsSetup ∨ (s.pd i).state = .trsRun)
      (dest : next = .online ∨ next = .trsRun)
      (steers : Steers i s (s.pd i).ctl t) (log : LogExt Obs.noHs s t) :
      Chosen i err s t next
  /-- by the table -/
  | table {next : CpState} (key : Bytes)
      (off : (s.pd i).state ≠ .online ∧ next ≠ .online)
      (row : nextState err s.now (s.pd i) = some next)
      (steers : Steers i s
        ((s.pd i).ctl.effects (s.pd i).state next err key) t)
      (log : EffectLog i (s.pd i).state err s t) : Chosen i err s t next
  /-- by the table, and by what was requested -/
  | online {next : CpState} (row : CpState) (key : Bytes)
      (on : (s.pd i).state = .online ∨ row = .online)
      (row_ok : nextState err s.now (s.pd i) = some row)
      (steers : Steers i s
        ((s.pd i).ctl.effects (s.pd i).state row err key).served t)
      (log : EffectLog i (s.pd i).state err s t)
      (dest : next = .trsSetup ∨ next = .offline ∨
        (s.pd i).request.restartSc = true ∧ next = .scChlng ∨
        (s.pd i).request.restartSc = false ∧ next = row) :
      Chosen i err s t next

theorem EffectLog.append {cur : CpState} {err : Int} {u : Osdp}
    (h : EffectLog i cur err s t) (k : u.log = t.log) :
    EffectLog i cur err s u := by
  unfold EffectLog at h ⊢
  split at h
  · next hc =>
    rw [if_pos hc]
    obtain ⟨v, w, hv, hw, ht⟩ := h.log
    exact ⟨v, w, hv, hw, trans_of _ ht (LogExt.of_eq k)⟩
  · next hc =>
    rw [if_neg hc]
    exact trans_of _ h (LogExt.of_eq k)

theorem protocolNext_ok {err : Int} {next : CpState} {probe : Bool}
    (h : cpProtocolNext env (cpRunCalls env depth) i (s.pd i).state err s
      = .ok (next, probe) t) : Chosen i err s t next := by
  obtain ⟨b, u, hu, h⟩ := bind_ok.mp h
  obtain ⟨hb, hsu, hul⟩ := checkRequest_ok (by decide) hu
  split at h
  · obtain ⟨e, rfl⟩ := pure_ok.mp h
    cases e
    exact .reset hsu (LogExt.of_eq hul)
  · next hno =>
    have hno : b = false := by simpa using hno
    have hus : u = s := by
      obtain ⟨p, v, hp, hu⟩ := bind_ok.mp hu
      obtain ⟨rfl, rfl⟩ := getPd_ok.mp hp
      rw [if_neg (by rw [← hb, hno]; decide)] at hu
      exact (pure_ok.mp hu).2.symm
    subst hus
    split at h
    · next hcur =>
      obtain ⟨n, v, hv, h⟩ := bind_ok.mp h
      obtain ⟨e, rfl⟩ := pure_ok.mp h
      cases e
      obtain ⟨hsame, hdest⟩ := trsNext_ok hv
      exact .trs hcur hdest hsame.steers hsame.log
    · obtain ⟨row, v, hv, h⟩ := bind_ok.mp h
      obtain ⟨rfl, hrow⟩ := getNextState_ok hv
      obtain ⟨_, w, hw, h⟩ := bind_ok.mp h
      obtain ⟨key, heff, hlog⟩ := transitionEffects_ok hw
      obtain ⟨p, w', hp, h⟩ := bind_ok.mp h
      obtain ⟨rfl, rfl⟩ := getPd_ok.mp hp
      split at h
      · next hon =>
        rw [heff.state] at hon
        obtain ⟨hserve, htl, hdest⟩ := onlineRequests_ok h
        refine .online row key hon hrow
          ((heff.trans hserve).cast (by rw [heff.ctl])) (hlog.append htl) ?_
        have hreq : (w.pd i).request.restartSc
            = (v.pd i).request.restartSc := by
          have e := congrArg (fun c : PdCtl => c.request.restartSc) heff.ctl
          exact e.trans (effects_restartSc _ _ _ _ _ rfl)
        rw [hreq] at hdest
        exact hdest
      · next hoff =>
        obtain ⟨e, rfl⟩ := pure_ok.mp h
        cases e
        rw [heff.state] at hoff
        exact .table key (not_or.mp hoff) hrow heff hlog

-- ============================================================== lifecycle

/-- The application's verdict on the state that was chosen. -/
structure Lives (i : Nat) (next next' : CpState) (s t : Osdp) : Prop where
  ctl : (t.pd i).ctl = (s.pd i).ctl
  enable : (t.pd i).request.enable = false
  log : t.log = s.log
  dest : (s.pd i).request.enable = true ∧ next' = .init ∨
    (s.pd i).request.enable = false ∧ (next' = next ∨ next' = .disabled)

/-- A request to enable the PD is served. -/
theorem checkEnable_ok {b : Bool}
    (h : checkRequest i .enable s = .ok b t) :
    b = (s.pd i).request.enable ∧ (t.pd i).ctl = (s.pd i).ctl ∧
      (t.pd i).request.enable = false ∧ t.log = s.log := by
  obtain ⟨p, v, hp, h⟩ := bind_ok.mp h
  obtain ⟨rfl, rfl⟩ := getPd_ok.mp hp
  split at h
  · next hhas =>
    obtain ⟨_, u, hu, h⟩ := bind_ok.mp h
    obtain ⟨rfl, rfl⟩ := pure_ok.mp h
    rw [← updPd_ok.mp hu, updPd_pd_same]
    exact ⟨hhas.symm, rfl, rfl, rfl⟩
  · next hhas =>
    obtain ⟨rfl, rfl⟩ := pure_ok.mp h
    have hhas : (s.pd i).request.has .enable = false := by simpa using hhas
    have hhas : (s.pd i).request.enable = false := hhas
    exact ⟨hhas.symm, rfl, hhas, rfl⟩

theorem lifecycle_ok {next next' : CpState}
    (h : cpLifecycle i next s = .ok next' t) : Lives i next next' s t := by
  obtain ⟨b, u, hu, h⟩ := bind_ok.mp h
  obtain ⟨-, hsu, hul⟩ := checkRequest_ok (by decide) hu
  have hctl : (u.pd i).ctl = (s.pd i).ctl := by
    rw [hsu.ctl]
    simp only [OsdpPd.ctl, CpRequest.own, CpRequest.put]
  have hen : (u.pd i).request.enable = (s.pd i).request.enable := by
    obtain ⟨p, v, hp, hu⟩ := bind_ok.mp hu
    obtain ⟨rfl, rfl⟩ := getPd_ok.mp hp
    split at hu
    · obtain ⟨_, w, hw, hu⟩ := bind_ok.mp hu
      obtain ⟨-, rfl⟩ := pure_ok.mp hu
      rw [← updPd_ok.mp hw, updPd_pd_same]
      rfl
    · obtain ⟨-, rfl⟩ := pure_ok.mp hu
      rfl
  have htail {n : CpState}
      (h : (do
        let mut next := n
        if ← checkRequest i .enable then
          next := .init
        return next) u = .ok next' t) :
      (t.pd i).ctl = (s.pd i).ctl ∧ (t.pd i).request.enable = false ∧
        t.log = s.log ∧ ((s.pd i).request.enable = true ∧ next' = .init ∨
          (s.pd i).request.enable = false ∧ next' = n) := by
    obtain ⟨c, v, hv, h⟩ := bind_ok.mp h
    obtain ⟨hc, hvc, hve, hvl⟩ := checkEnable_ok hv
    rw [hen] at hc
    split at h
    · next hyes =>
      obtain ⟨rfl, rfl⟩ := pure_ok.mp h
      exact ⟨hvc.trans hctl, hve, hvl.trans hul,
        .inl ⟨by rw [← hc, hyes], rfl⟩⟩
    · next hno =>
      obtain ⟨rfl, rfl⟩ := pure_ok.mp h
      exact ⟨hvc.trans hctl, hve, hvl.trans hul,
        .inr ⟨by rw [← hc]; simpa using hno, rfl⟩⟩
  split at h
  · obtain ⟨h₁, h₂, h₃, h₄⟩ := htail h
    exact ⟨h₁, h₂, h₃, h₄.imp_right fun k => ⟨k.1, .inr k.2⟩⟩
  · obtain ⟨h₁, h₂, h₃, h₄⟩ := htail h
    exact ⟨h₁, h₂, h₃, h₄.imp_right fun k => ⟨k.1, .inl k.2⟩⟩

-- ================================================================== entry

/-- What entering a state makes of the control; `r` is the challenge drawn
on the way into SC_CHLNG. -/
def PdCtl.enter (next : CpState) (r : Bytes) (c : PdCtl) : PdCtl :=
  match next with
  | .init => { c with phyState := .idle }
  | .offline =>
    { c with
      scActive := false
      request := { c.request with restartSc := false } }
  | .scChlng => { c with phyState := .idle, cpRandom := r }
  | .disabled =>
    { c with
      phyState := .idle
      scActive := false
      request := { c.request with restartSc := false } }
  | _ => c

section Enter

variable (c : PdCtl) (next : CpState) (r : Bytes)

/-- OFFLINE and DISABLED have no channel. -/
theorem enter_scActive (h : (c.enter next r).scActive = true) :
    c.scActive = true ∧ next ≠ .offline ∧ next ≠ .disabled := by
  cases next <;> simp_all [PdCtl.enter]

/-- Nor do they keep a request for a handshake. -/
theorem enter_restartSc (h : (c.enter next r).request.restartSc = true) :
    c.request.restartSc = true ∧ next ≠ .offline ∧ next ≠ .disabled := by
  cases next <;> simp_all [PdCtl.enter]

theorem enter_phyState (h : c.phyState = .idle) :
    (c.enter next r).phyState = .idle := by
  cases next <;> simp_all [PdCtl.enter]

theorem enter_pdMode : (c.enter next r).pdMode = c.pdMode := by
  cases next <;> rfl

end Enter

/-- What entering a state leaves in the history. -/
def EnterLog (i : Nat) (next : CpState) (r : Bytes) (s t : Osdp) : Prop :=
  if next = .scChlng then
    ∃ n l, t.log = l ++ .challenged i r :: .random n r :: s.log ∧
      ∀ o ∈ l, Obs.noHs o
  else LogExt Obs.noHs s t

/-- A PD that is asked to be enabled while it is taken somewhere. -/
structure Enters (i : Nat) (next : CpState) (r : Bytes) (s t : Osdp) :
    Prop where
  steers : Steers i s ((s.pd i).ctl.enter next r) t
  log : EnterLog i next r s t
  enable : next = .init →
    (t.pd i).request.enable = (s.pd i).request.enable

theorem phyStateReset_enable {a : Unit} {e : Bool}
    (h : osdpPhyStateReset env i e s = .ok a t) :
    (t.pd i).request.enable = (s.pd i).request.enable := by
  obtain ⟨_, u, hu, h⟩ := bind_ok.mp h
  have hsu : (u.pd i).request.enable = (s.pd i).request.enable := by
    rw [← updPd_ok.mp hu, updPd_pd_same]
  split at h
  · obtain ⟨_, v, hv, h⟩ := bind_ok.mp h
    have huv : (v.pd i).request.enable = (s.pd i).request.enable := by
      rw [← updPd_ok.mp hv, updPd_pd_same]
      exact hsu
    split at h
    · rw [← modify_ok.mp h]
      exact huv
    · obtain ⟨-, rfl⟩ := pure_ok.mp h
      exact huv
  · obtain ⟨-, rfl⟩ := pure_ok.mp h
    exact hsu

theorem dropSessionRequests_ok {a : Unit}
    (h : cpDropSessionRequests i s = .ok a t) :
    Steers i s { (s.pd i).ctl with
        request := { (s.pd i).ctl.request with restartSc := false } } t ∧
      t.log = s.log := by
  rw [← updPd_ok.mp h]
  exact ⟨steers_updPd rfl rfl rfl, rfl⟩

/-- The session goes, and the application is told. -/
theorem dropSession_ok {a : Unit}
    (h : (do
      cpDropSessionRequests i
      scDeactivate i
      cpNotifyScStatus env (cpRunCalls env depth) i
      osdpEnginesAbort env (cpRunCalls env depth) i) s = .ok a t) :
    Steers i s { (s.pd i).ctl with
        scActive := false
        request := { (s.pd i).ctl.request with restartSc := false } } t ∧
      LogExt Obs.noHs s t := by
  obtain ⟨_, u, hu, h⟩ := bind_ok.mp h
  obtain ⟨hsu, hul⟩ := dropSessionRequests_ok hu
  obtain ⟨_, v, hv, h⟩ := bind_ok.mp h
  obtain ⟨huv, hvl⟩ := scDeactivate_ok hv
  obtain ⟨_, w, hw, h⟩ := bind_ok.mp h
  have hn : SameCtl i v w := (keeps_cpNotifyScStatus sameCtl_run i).of hw
  have ha : SameCtl i w t := (keeps_engines sameCtl_run i).of h
  refine ⟨(((hsu.trans huv).trans hn.steers).trans ha.steers).cast ?_,
    trans_of _ (LogExt.of_eq (hvl.trans hul)) (trans_of _ hn.log ha.log)⟩
  rw [hn.steers.ctl, huv.ctl, hsu.ctl]

theorem enterOffline_ok {a : Unit}
    (h : cpEnterOffline env (cpRunCalls env depth) i s = .ok a t) :
    Steers i s ((s.pd i).ctl.enter .offline []) t ∧
      LogExt Obs.noHs s t := by
  obtain ⟨now, u, hu, h⟩ := bind_ok.mp h
  cases hu
  obtain ⟨_, v, hv, h⟩ := bind_ok.mp h
  have hsv : SameCtl i s v := sameCtl_of_updPd hv rfl rfl
  obtain ⟨hvt, hlog⟩ := dropSession_ok h
  refine ⟨(hsv.steers.trans hvt).cast ?_, trans_of _ hsv.log hlog⟩
  rw [hsv.steers.ctl]
  rfl

theorem enterDisabled_ok {a : Unit}
    (h : cpEnterDisabled env (cpRunCalls env depth) i s = .ok a t) :
    Steers i s ((s.pd i).ctl.enter .disabled []) t ∧
      LogExt Obs.noHs s t := by
  have hsplit : ∃ u, (do
      cpDropSessionRequests i
      scDeactivate i
      cpNotifyScStatus env (cpRunCalls env depth) i
      osdpEnginesAbort env (cpRunCalls env depth) i) s = .ok () u ∧
      osdpPhyStateReset env i true u = .ok a t := by
    obtain ⟨_, u, hu, h⟩ := bind_ok.mp h
    obtain ⟨_, v, hv, h⟩ := bind_ok.mp h
    obtain ⟨_, w, hw, h⟩ := bind_ok.mp h
    obtain ⟨_, x, hx, h⟩ := bind_ok.mp h
    exact ⟨x, bind_ok.mpr ⟨_, u, hu, bind_ok.mpr ⟨_, v, hv,
      bind_ok.mpr ⟨_, w, hw, hx⟩⟩⟩, h⟩
  obtain ⟨u, hu, h⟩ := hsplit
  obtain ⟨hsu, hul⟩ := dropSession_ok hu
  obtain ⟨hut, htl⟩ := phyStateReset_ok h
  refine ⟨(hsu.trans hut).cast ?_, trans_of _ hul (LogExt.of_eq htl)⟩
  rw [hsu.ctl]
  rfl

/-- A fresh challenge, drawn from the source. -/
theorem enterScChlng_ok {a : Unit} (hmode : (s.pd i).flags.pdMode = false)
    (h : cpEnterScChlng env i s = .ok a t) :
    ∃ r n, Steers i s ((s.pd i).ctl.enter .scChlng r) t ∧
      t.log = .challenged i r :: .random n r :: s.log := by
  obtain ⟨_, u, hu, h⟩ := bind_ok.mp h
  obtain ⟨hsu, hul⟩ := phyStateReset_ok hu
  have hmode' : (u.pd i).flags.pdMode = false := by
    have e := congrArg PdCtl.pdMode hsu.ctl
    exact e.trans hmode
  obtain ⟨_, v, hv, h⟩ := bind_ok.mp h
  obtain ⟨p, u', hp, hv⟩ := bind_ok.mp hv
  obtain ⟨rfl, rfl⟩ := getPd_ok.mp hp
  rw [if_neg (by rw [hmode']; decide)] at hv
  obtain ⟨r, w, hw, hv⟩ := bind_ok.mp hv
  have hrand : w.pd = u.pd ∧ ∃ n, w.log = .random n r :: u.log := by
    cases hw
    exact ⟨rfl, u.drawn, rfl⟩
  obtain ⟨hpd, n, hwl⟩ := hrand
  have hwv : Steers i w { (w.pd i).ctl with cpRandom := r } v := by
    rw [← updPd_ok.mp hv]
    exact steers_updPd rfl rfl rfl
  have hvl : v.log = w.log := by rw [← updPd_ok.mp hv]; rfl
  obtain ⟨p, v', hp, h⟩ := bind_ok.mp h
  obtain ⟨rfl, rfl⟩ := getPd_ok.mp hp
  have hr : (v.pd i).sc.cpRandom = r := by
    have e := congrArg PdCtl.cpRandom hwv.ctl
    exact e
  have huw : Steers i u (u.pd i).ctl w :=
    ⟨by rw [hpd], by rw [hpd], fun e => .inl (by rw [← hpd]; exact e)⟩
  have hchain := (hsu.trans huw).trans hwv
  rw [← observe_ok.mp h, hr]
  refine ⟨r, n, ⟨?_, hchain.state, hchain.enable⟩, ?_⟩
  · show (v.pd i).ctl = _
    rw [hchain.ctl, huw.ctl, hsu.ctl]
    rfl
  · show Obs.challenged i r :: v.log = _
    rw [hvl, hwl, hul]

theorem SameCtl.enters {next : CpState} {r : Bytes} (h : SameCtl i s t)
    (hc : (s.pd i).ctl.enter next r = (s.pd i).ctl) (hne : next ≠ .init)
    (hne' : next ≠ .scChlng) : Enters i next r s t := by
  refine ⟨h.steers.cast hc.symm, ?_, fun e => absurd e hne⟩
  rw [EnterLog, if_neg hne']
  exact h.log

theorem enters_of {next : CpState} {r : Bytes}
    (h : Steers i s ((s.pd i).ctl.enter next r) t ∧ LogExt Obs.noHs s t)
    (hne : next ≠ .init) (hne' : next ≠ .scChlng) : Enters i next r s t := by
  refine ⟨h.1, ?_, fun e => absurd e hne⟩
  rw [EnterLog, if_neg hne']
  exact h.2

/-- Entering a state. -/
theorem enter_ok {a : Unit} {cur next : CpState}
    (hmode : (s.pd i).flags.pdMode = false)
    (h : cpEnter env (cpRunCalls env depth) i cur next s = .ok a t) :
    ∃ r, Enters i next r s t := by
  have hupd (f : OsdpTrs → OsdpTrs) : Keeps (SameCtl i) (updTrs i f) :=
    frame_updTrs f
  cases next with
  | init =>
    obtain ⟨_, u, hu, h⟩ := bind_ok.mp h
    obtain ⟨hsu, hul⟩ := phyStateReset_ok hu
    obtain ⟨now, v, hv, h⟩ := bind_ok.mp h
    cases hv
    have hut : SameCtl i u t := (hupd _).of h
    refine ⟨[], (hsu.trans hut.steers).cast ?_, ?_, fun _ => ?_⟩
    · rw [hsu.ctl]
      rfl
    · rw [EnterLog, if_neg nofun]
      exact trans_of _ (LogExt.of_eq hul) hut.log
    · rw [← updPd_ok.mp h, updPd_pd_same]
      exact phyStateReset_enable hu
  | online =>
    have hleave : Keeps (SameCtl i) (cpLeaveTrs env (cpRunCalls env depth) i) :=
      frame_cpLeaveTrs sameCtl_run
    obtain ⟨_, u, hu, h⟩ := bind_ok.mp h
    have hsu : SameCtl i s u := sameCtl_of_updPd hu rfl rfl
    split at h
    · exact ⟨[], (trans_of (SameCtl i) hsu (hleave.of h)).enters rfl nofun
        nofun⟩
    · obtain ⟨-, rfl⟩ := pure_ok.mp h
      exact ⟨[], hsu.enters rfl nofun nofun⟩
  | offline => exact ⟨[], enters_of (enterOffline_ok h) nofun nofun⟩
  | disabled => exact ⟨[], enters_of (enterDisabled_ok h) nofun nofun⟩
  | scChlng =>
    obtain ⟨r, n, hst, hl⟩ := enterScChlng_ok hmode h
    refine ⟨r, hst, ?_, nofun⟩
    rw [EnterLog, if_pos rfl]
    exact ⟨n, [], hl, fun _ ho => absurd ho List.not_mem_nil⟩
  | trsSetup =>
    have hsetup : Keeps (SameCtl i) (cpEnterTrsSetup i) :=
      sameCtl_updPd fun _ => ⟨rfl, rfl⟩
    exact ⟨[], (hsetup.of h).enters rfl nofun nofun⟩
  | trsRun =>
    have hrun : Keeps (SameCtl i)
        (cpEnterTrsRun env (cpRunCalls env depth) i) :=
      frame_cpEnterTrsRun sameCtl_run
    unfold cpEnter at h
    simp only at h
    split at h
    · exact ⟨[], (hrun.of h).enters rfl nofun nofun⟩
    · obtain ⟨-, rfl⟩ := pure_ok.mp h
      exact ⟨[], (refl_of (SameCtl i) _).enters rfl nofun nofun⟩
  | capdet | scScrypt | setScbk =>
    obtain ⟨-, rfl⟩ := pure_ok.mp h
    exact ⟨[], (refl_of (SameCtl i) _).enters rfl nofun nofun⟩

/-- What entering a state and having entered it makes of the PD. -/
structure Changed (i : Nat) (next : CpState) (r : Bytes) (s t : Osdp) :
    Prop where
  ctl : (t.pd i).ctl
    = { (s.pd i).ctl.enter next r with state := next }
  log : EnterLog i next r s t
  enable : (t.pd i).request.enable = true →
    next = .disabled ∨ (s.pd i).request.enable = true ∨
      next ≠ .init ∧ (s.pd i).state = .disabled

theorem EnterLog.append {next : CpState} {r : Bytes} {u : Osdp}
    (h : EnterLog i next r s t) (k : LogExt Obs.noHs t u) :
    EnterLog i next r s u := by
  unfold EnterLog at h ⊢
  split at h
  · next hc =>
    rw [if_pos hc]
    obtain ⟨n, l, hl, hE⟩ := h
    obtain ⟨m, hm, hF⟩ := k
    refine ⟨n, m ++ l, by rw [hm, hl, List.append_assoc], fun o ho => ?_⟩
    rcases List.mem_append.mp ho with h' | h'
    · exact hF o h'
    · exact hE o h'
  · next hc =>
    rw [if_neg hc]
    exact trans_of _ h k

/-- `cp_state_change`. -/
theorem stateChange_ok {a : Unit} {cur next : CpState}
    (hmode : (s.pd i).flags.pdMode = false)
    (h : cpStateChange env (cpRunCalls env depth) i cur next s = .ok a t) :
    ∃ r, Changed i next r s t := by
  obtain ⟨_, u, hu, h⟩ := bind_ok.mp h
  obtain ⟨r, hen⟩ := enter_ok hmode hu
  obtain ⟨_, v, hv, h⟩ := bind_ok.mp h
  have hvt : SameCtl i v t := by
    split at h
    · exact (keeps_cpNotifyPdStatus sameCtl_run i _).of h
    · exact (Keeps.pure (R := SameCtl i) ()).of h
  have hv := updPd_ok.mp hv
  have hctl : (v.pd i).ctl
      = { (s.pd i).ctl.enter next r with state := next } := by
    rw [← hen.steers.ctl, ← hv, updPd_pd_same]
    rfl
  have hvstate : (v.pd i).state = next := congrArg PdCtl.state hctl
  have hvenable : (v.pd i).request.enable = (u.pd i).request.enable := by
    rw [← hv, updPd_pd_same]
  refine ⟨r, hvt.steers.ctl.trans hctl, ?_, fun e => ?_⟩
  · have hlog : LogExt Obs.noHs u t :=
      trans_of _ (LogExt.of_eq (by rw [← hv]; rfl)) hvt.log
    exact hen.log.append hlog
  · rcases hvt.steers.enable e with e | e
    · rw [hvenable] at e
      by_cases hn : next = .init
      · exact .inr (.inl (hen.enable hn ▸ e))
      · rcases hen.steers.enable e with e | e
        · exact .inr (.inl e)
        · exact .inr (.inr ⟨hn, e⟩)
    · exact .inl (hvstate ▸ e)

-- =============================================================== advance

/-- The end of a pass: a state is chosen, the application has its say,
and the state is entered unless it is the one the PD is in. -/
structure Advances (i : Nat) (err : Int) (s t : Osdp) : Prop where
  run : ∃ next next' u v, Chosen i err s u next ∧ Lives i next next' u v ∧
    ((s.pd i).state = next' ∧ SameCtl i v t ∨
      (s.pd i).state ≠ next' ∧ ∃ r, Changed i next' r v t)

theorem Chosen.steers {next : CpState} {err : Int}
    (h : Chosen i err s t next) : ∃ c, Steers i s c t := by
  cases h with
  | reset steers log => exact ⟨_, steers⟩
  | trs cur dest steers log => exact ⟨_, steers⟩
  | table key off row steers log => exact ⟨_, steers⟩
  | online row key on row_ok steers log dest => exact ⟨_, steers⟩

theorem Chosen.pdMode {next : CpState} {err : Int}
    (h : Chosen i err s t next) :
    (t.pd i).flags.pdMode = (s.pd i).flags.pdMode := by
  have hof {c : PdCtl} (k : Steers i s c t)
      (e : c.pdMode = (s.pd i).flags.pdMode) :
      (t.pd i).flags.pdMode = (s.pd i).flags.pdMode :=
    (congrArg PdCtl.pdMode k.ctl).trans e
  cases h with
  | reset steers log => exact hof steers rfl
  | trs cur dest steers log => exact hof steers rfl
  | table key off row steers log => exact hof steers (effects_pdMode _ _ _ _ _)
  | online row key on row_ok steers log dest =>
    exact hof steers (effects_pdMode _ _ _ _ _)

theorem advance_ok {a : Unit} {err : Int}
    (hmode : (s.pd i).flags.pdMode = false)
    (h : cpAdvance env (cpRunCalls env depth) i (s.pd i).state err s
      = .ok a t) : Advances i err s t := by
  obtain ⟨⟨next, probe⟩, u, hu, h⟩ := bind_ok.mp h
  have hchosen := protocolNext_ok hu
  simp only at h
  obtain ⟨next', v, hv, h⟩ := bind_ok.mp h
  have hlives := lifecycle_ok hv
  have hvmode : (v.pd i).flags.pdMode = false := by
    have e : (v.pd i).flags.pdMode = (u.pd i).flags.pdMode :=
      congrArg PdCtl.pdMode hlives.ctl
    rw [e, hchosen.pdMode, hmode]
  have htail {w : Osdp} (h : (if (probe && next' == .trsSetup) = true
      then updTrs i osdpTrsProbeNoteOpen else pure ()) w = .ok a t) :
      SameCtl i w t := by
    split at h
    · exact (frame_updTrs (R := SameCtl i) (i := i) osdpTrsProbeNoteOpen).of h
    · obtain ⟨-, rfl⟩ := pure_ok.mp h
      exact refl_of (SameCtl i) _
  refine ⟨next, next', u, v, hchosen, hlives, ?_⟩
  split at h
  · next hne =>
    obtain ⟨_, w, hw, h⟩ := bind_ok.mp h
    obtain ⟨r, hch⟩ := stateChange_ok hvmode hw
    have hwt := htail h
    refine .inr ⟨hne, r, hwt.steers.ctl.trans hch.ctl, hch.log.append hwt.log,
      fun e => ?_⟩
    rcases hwt.steers.enable e with e | e
    · exact hch.enable e
    · exact .inl ((congrArg PdCtl.state hch.ctl).symm.trans e)
  · next heq =>
    simp only [ne_eq, Decidable.not_not] at heq
    exact .inl ⟨heq, htail h⟩

end Specs

end LibOsdp
