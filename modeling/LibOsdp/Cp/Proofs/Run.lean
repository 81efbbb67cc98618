/-
Runs of a CP, taken apart into the steps an invariant has to survive.

A refresh is a loop of passes, each on the PD whose turn it is, with the
turn handed on after a pass that leaves the bus free.  `LoopPass` names
the passes of one refresh, with the states before and after each;
`CpInvariant` collects what has to be shown of every kind of step, and
`CpRun.keeps` is the one induction behind all invariants of a run.
-/
import LibOsdp.Cp.Proofs.Pass

namespace LibOsdp

open Lib

-- ============================================================= refreshes

/-- The turn goes to the PD after `i`. -/
def Osdp.passTurn (s : Osdp) (i : Nat) : Osdp :=
  { s with currentPd := if i + 1 ≥ s.numPd then 0 else i + 1 }

/-- The context as the loop of a refresh finds it. -/
def Osdp.beginRefresh (s : Osdp) (now : Int) (rx : Bytes) : Osdp :=
  { s.arriveCp now rx with isSealed := true, running := true }

section Loop

variable (env : Env) (run : List ApiCall → OsdpM Unit)

/-- `LoopPass n s u v`: the loop of `n` rounds that starts in `s` makes a
pass from `u` to `v`. -/
inductive LoopPass : Nat → Osdp → Osdp → Osdp → Prop where
  | here {n : Nat} {s v : Osdp}
      (pass : stateUpdate env run s.currentPd s = .ok () v) :
      LoopPass (n + 1) s s v
  | later {n : Nat} {s t u v : Osdp}
      (pass : stateUpdate env run s.currentPd s = .ok () t)
      (free : cpPhyBusIsBusy (t.pd s.currentPd) = false)
      (rest : LoopPass n (t.passTurn s.currentPd) u v) :
      LoopPass (n + 1) s u v

/-- One more round: a pass, and then the loop is over or the turn goes
on. -/
theorem refreshLoop_succ {n : Nat} {s t : Osdp}
    (h : cpRefreshLoop env run (n + 1) s = .ok () t) :
    ∃ u, stateUpdate env run s.currentPd s = .ok () u ∧
      (cpPhyBusIsBusy (u.pd s.currentPd) = true ∧ t = u ∨
        cpPhyBusIsBusy (u.pd s.currentPd) = false ∧
          cpRefreshLoop env run n (u.passTurn s.currentPd) = .ok () t) := by
  obtain ⟨s', v, hg, h⟩ := bind_ok.mp h
  obtain ⟨rfl, rfl⟩ := get_ok.mp hg
  obtain ⟨_, u, hu, h⟩ := bind_ok.mp h
  obtain ⟨p, v, hp, h⟩ := bind_ok.mp h
  obtain ⟨rfl, rfl⟩ := getPd_ok.mp hp
  refine ⟨u, hu, ?_⟩
  split at h
  · next hb =>
    obtain ⟨-, rfl⟩ := pure_ok.mp h
    exact .inl ⟨hb, rfl⟩
  · next hb =>
    obtain ⟨_, w, hw, h⟩ := bind_ok.mp h
    rw [← modify_ok.mp hw] at h
    exact .inr ⟨by simpa using hb, h⟩

/-- What passes that start where `G` holds, and turns, preserve, a loop of
such passes preserves. -/
theorem refreshLoop_invariant {I G : Osdp → Prop}
    (hpass : ∀ s t, I s → G s →
      stateUpdate env run s.currentPd s = .ok () t → I t)
    (hturn : ∀ s i, I s → cpPhyBusIsBusy (s.pd i) = false →
      i = s.currentPd → I (s.passTurn i))
    (hcur : ∀ s t, stateUpdate env run s.currentPd s = .ok () t →
      t.currentPd = s.currentPd) (n : Nat) {s t : Osdp} (hs : I s)
    (hG : ∀ u v, LoopPass env run n s u v → G u)
    (h : cpRefreshLoop env run n s = .ok () t) : I t := by
  induction n generalizing s with
  | zero =>
    obtain ⟨-, rfl⟩ := pure_ok.mp h
    exact hs
  | succ n ih =>
    obtain ⟨u, hu, hcase⟩ := refreshLoop_succ env run h
    have hIu := hpass s u hs (hG s u (.here hu)) hu
    rcases hcase with ⟨-, rfl⟩ | ⟨hfree, hrest⟩
    · exact hIu
    · exact ih (hturn u _ hIu hfree (hcur s u hu).symm)
        (fun _ _ hp => hG _ _ (.later hu hfree hp)) hrest

/-- What they preserve holds before and after every pass of the loop. -/
theorem LoopPass.invariant {I G : Osdp → Prop}
    (hpass : ∀ s t, I s → G s →
      stateUpdate env run s.currentPd s = .ok () t → I t)
    (hturn : ∀ s i, I s → cpPhyBusIsBusy (s.pd i) = false →
      i = s.currentPd → I (s.passTurn i))
    (hcur : ∀ s t, stateUpdate env run s.currentPd s = .ok () t →
      t.currentPd = s.currentPd) {n : Nat} {s u v : Osdp} (hs : I s)
    (hG : ∀ u v, LoopPass env run n s u v → G u)
    (h : LoopPass env run n s u v) :
    I u ∧ stateUpdate env run u.currentPd u = .ok () v ∧ I v := by
  induction h with
  | here pass => exact ⟨hs, pass, hpass _ _ hs (hG _ _ (.here pass)) pass⟩
  | later pass free rest ih =>
    exact ih (hturn _ _ (hpass _ _ hs (hG _ _ (.here pass)) pass) free
      (hcur _ _ pass).symm) fun _ _ hp => hG _ _ (.later pass free hp)

end Loop

-- ================================================================ others

/-- A PD without what calls may change, the requests to disable and to
enable it included. -/
def OsdpPd.aside (p : OsdpPd) : OsdpPd :=
  { p.sansCalls with
    request :=
      { p.sansCalls.request with disable := false, enable := false } }

/-- What calls may do to a PD: one that is not disabled is not asked to be
enabled. -/
structure CallStep (p q : OsdpPd) : Prop where
  aside : q.aside = p.aside
  enable : q.request.enable = true →
    p.request.enable = true ∨ p.state = .disabled

theorem CallStep.refl (p : OsdpPd) : CallStep p p := ⟨rfl, .inl⟩

theorem CallStep.state {p q : OsdpPd} (h : CallStep p q) :
    q.state = p.state := by
  have e := congrArg OsdpPd.state h.aside
  exact e

theorem CallStep.phyState {p q : OsdpPd} (h : CallStep p q) :
    q.phyState = p.phyState := by
  have e := congrArg OsdpPd.phyState h.aside
  exact e

theorem CallStep.trans {p q r : OsdpPd} (h : CallStep p q)
    (k : CallStep q r) : CallStep p r := by
  refine ⟨k.aside.trans h.aside, fun hr => ?_⟩
  rcases k.enable hr with hq | hq
  · exact h.enable hq
  · exact .inr (by rw [← h.state]; exact hq)

theorem CallStep.of_sansCalls {p q : OsdpPd}
    (h : q.sansCalls = p.sansCalls) : CallStep p q := by
  have e := congrArg (fun p : OsdpPd => p.request.enable) h
  have e : q.request.enable = p.request.enable := e
  have a := congrArg OsdpPd.aside h
  exact ⟨a, fun hq => .inl (e ▸ hq)⟩

/-- What calls do to the PDs, of an update of one of them. -/
theorem callStep_updPd (s : Osdp) (j k : Nat) {f : OsdpPd → OsdpPd}
    (h : CallStep (s.pd j) (f (s.pd j))) :
    CallStep (s.pd k) ((s.updPd j f).pd k) := by
  by_cases e : k = j
  · subst e
    rw [updPd_pd_same]
    exact h
  · rw [updPd_pd_ne s f e]
    exact .refl _

/-- The strongest relation the application's calls stay within. -/
structure Calls (s t : Osdp) : Prop where
  pd : ∀ j, CallStep (s.pd j) (t.pd j)
  rest : t.rest = s.rest
  log : LogExt Obs.isCall s t

instance : CallMoves Calls where
  refl s := ⟨fun _ => .refl _, rfl, refl_of _ s⟩
  trans _ _ _ h k :=
    ⟨fun j => (h.pd j).trans (k.pd j), k.rest.trans h.rest,
      trans_of _ h.log k.log⟩
  call s j _ h :=
    ⟨fun k => callStep_updPd s j k (.of_sansCalls (h _)), rfl,
      refl_of (LogExt _) s⟩
  enable s j h :=
    ⟨fun k => callStep_updPd s j k ⟨rfl, fun _ => .inr h⟩, rfl,
      refl_of (LogExt _) s⟩
  disable s j :=
    ⟨fun k => callStep_updPd s j k ⟨rfl, .inl⟩, rfl, refl_of (LogExt _) s⟩
  note _ _ h := ⟨fun _ => .refl _, rfl, LogExt.cons h⟩
  running s _ := ⟨fun _ => .refl _, rfl, refl_of (LogExt Obs.isCall) s⟩

/-- The context without what a pass may change of it. -/
def Osdp.sansPass (s : Osdp) : Osdp :=
  { s with
    pd := fun _ => {}, txBuf := [], rxBuf := [], line := [], drawn := 0
    log := [], running := false }

/-- No mark, or one of PD `i`. -/
def Obs.marksOnly (i : Nat) (o : Obs) : Bool :=
  o.markOf == none || o.markOf == some i

/-- What a pass on PD `i` leaves alone: the other PDs, up to calls, and
the context's own bookkeeping. -/
structure Others (i : Nat) (s t : Osdp) : Prop where
  pd : ∀ j, j ≠ i → CallStep (s.pd j) (t.pd j)
  ctx : t.sansPass = s.sansPass
  log : LogExt (Obs.marksOnly i) s t

/-- A change outside the PDs and the history. -/
theorem Others.same {i : Nat} {s t : Osdp} (hp : t.pd = s.pd)
    (hc : t.sansPass = s.sansPass) (hl : t.log = s.log) : Others i s t :=
  ⟨fun _ _ => hp ▸ .refl _, hc, LogExt.of_eq hl⟩

/-- An entry that is no mark, or one of PD `i`. -/
theorem Others.entry {i : Nat} {s : Osdp} {o : Obs}
    (h : o.marksOnly i = true) : Others i s { s with log := o :: s.log } :=
  ⟨fun _ _ => .refl _, rfl, LogExt.cons h⟩

theorem marksOnly_none {i : Nat} {o : Obs} (h : o.markOf = none) :
    o.marksOnly i = true := by
  simp [Obs.marksOnly, h]

theorem markOf_isCall {o : Obs} (h : o.isCall) : o.markOf = none := by
  cases o <;> first | rfl | cases h

instance (i : Nat) : BusMoves (Others i) where
  refl _ := .same rfl rfl rfl
  trans _ _ _ h k :=
    ⟨fun j hj => (h.pd j hj).trans (k.pd j hj), k.ctx.trans h.ctx,
      trans_of _ h.log k.log⟩
  call s j _ h :=
    ⟨fun k _ => callStep_updPd s j k (.of_sansCalls (h _)), rfl,
      refl_of (LogExt _) s⟩
  enable s j h :=
    ⟨fun k _ => callStep_updPd s j k ⟨rfl, fun _ => .inr h⟩, rfl,
      refl_of (LogExt _) s⟩
  disable s j :=
    ⟨fun k _ => callStep_updPd s j k ⟨rfl, .inl⟩, rfl, refl_of (LogExt _) s⟩
  note _ _ h := .entry (marksOnly_none (markOf_isCall h))
  running _ _ := .same rfl rfl rfl
  entry _ _ h := .entry (marksOnly_none h)
  txBuf _ _ _ := .same rfl rfl rfl
  flush _ := .same rfl rfl rfl
  drawn _ _ := .same rfl rfl rfl

/-- Any change of PD `i` itself leaves the others alone. -/
theorem others_updPd (i : Nat) (s : Osdp) (f : OsdpPd → OsdpPd) :
    Others i s (s.updPd i f) :=
  ⟨fun j hj => by rw [updPd_pd_ne s f hj]; exact .refl _, rfl,
    refl_of (LogExt _) s⟩

instance (i : Nat) : MarkMoves i (Others i) where
  mark _ o h := .entry (by simp [Obs.marksOnly, h])

instance (i : Nat) : CoreMoves i (Others i) where
  core s f _ _ := others_updPd i s f

instance (i : Nat) : CapMoves i (Others i) where
  caps s f _ := others_updPd i s f

instance (i : Nat) : PassMoves i (Others i) where
  pass s f _ _ := others_updPd i s f
  letGo s f _ _ := others_updPd i s f

instance (i : Nat) : ReadMoves i (Others i) where
  read s f _ := others_updPd i s f
  rxBuf _ _ := .same rfl rfl rfl
  line _ _ := .same rfl rfl rfl

section

variable {env : Env} {depth : Nat}

/-- A pass on PD `i` touches the others only as a call can. -/
theorem others_stateUpdate (i : Nat) :
    Keeps (Others i) (stateUpdate env (cpRunCalls env depth) i) :=
  read_stateUpdate (keeps_cpRunCalls depth)

/-- A pass does not move the turn. -/
theorem currentPd_stateUpdate {i : Nat} {s t : Osdp}
    (h : stateUpdate env (cpRunCalls env depth) i s = .ok () t) :
    t.currentPd = s.currentPd := by
  have e := congrArg Osdp.currentPd ((others_stateUpdate i).of h).ctx
  exact e

theorem isSealed_stateUpdate {i : Nat} {s t : Osdp}
    (h : stateUpdate env (cpRunCalls env depth) i s = .ok () t) :
    t.isSealed = s.isSealed := by
  have e := congrArg Osdp.isSealed ((others_stateUpdate i).of h).ctx
  exact e

theorem tearingDown_stateUpdate {i : Nat} {s t : Osdp}
    (h : stateUpdate env (cpRunCalls env depth) i s = .ok () t) :
    t.tearingDown = s.tearingDown := by
  have e := congrArg Osdp.tearingDown ((others_stateUpdate i).of h).ctx
  exact e

-- ================================================================== runs

/-- What a call between refreshes does. -/
theorem calls_cpApiCall (c : ApiCall) :
    Keeps Calls (cpApiCall env (cpRunCalls env depth) c) :=
  keeps_cpApiCall (keeps_cpRunCalls depth) c

/-- A registration that went through found nothing begun. -/
theorem osdpCpAddPd_ok {s t : Osdp} {infos : List CpPdInfo} {a : Bool}
    (h : osdpCpAddPd env infos s = .ok a t) :
    t = s ∨ s.isSealed = false ∧ cpAddPd env s infos = some t := by
  obtain ⟨s', v, hg, h⟩ := bind_ok.mp h
  obtain ⟨rfl, rfl⟩ := get_ok.mp hg
  split at h
  · exact .inl (pure_ok.mp h).2.symm
  · next hopen =>
    simp only [not_or, Bool.not_eq_true] at hopen
    cases hadd : cpAddPd env s infos with
    | none =>
      rw [hadd] at h
      exact .inl (pure_ok.mp h).2.symm
    | some t' =>
      rw [hadd] at h
      obtain ⟨_, w, hw, h⟩ := bind_ok.mp h
      cases hw
      obtain ⟨-, rfl⟩ := pure_ok.mp h
      exact .inr ⟨hopen.2.2.1, rfl⟩

/-- What every step of a run has to preserve for `I` to hold along it, as
long as the passes start where `G` holds. -/
structure CpInvariant (env : Env) (depth : Nat) (I : Osdp → Prop)
    (G : Osdp → Prop := fun _ => True) : Prop where
  call : ∀ c s t, I s → cpApiCall env (cpRunCalls env depth) c s = .ok () t →
    I t
  addPd : ∀ infos s t a, I s → osdpCpAddPd env infos s = .ok a t → I t
  teardown : ∀ s t, I s →
    osdpCpTeardown env (cpRunCalls env depth) s = .ok () t → I t
  arrive : ∀ s now rx, I s → I (s.arriveCp now rx)
  begin : ∀ s now rx, I s → I (s.beginRefresh now rx)
  pass : ∀ s t, I s → s.isSealed = true → s.tearingDown = false → G s →
    stateUpdate env (cpRunCalls env depth) s.currentPd s = .ok () t → I t
  turn : ∀ s i, I s → cpPhyBusIsBusy (s.pd i) = false → i = s.currentPd →
    I (s.passTurn i)
  finish : ∀ s : Osdp, I s → I { s with running := false }
  sealed : ∀ s : Osdp, I s → I { s with isSealed := true }

/-- In the loop of a refresh the set of PDs is sealed and the context
alive. -/
def Osdp.live (s : Osdp) : Prop := s.isSealed = true ∧ s.tearingDown = false

section Invariant

variable {I G : Osdp → Prop}

theorem CpInvariant.passLive (h : CpInvariant env depth I G) (s t : Osdp)
    (hs : I s ∧ s.live) (hg : G s)
    (e : stateUpdate env (cpRunCalls env depth) s.currentPd s = .ok () t) :
    I t ∧ t.live :=
  ⟨h.pass s t hs.1 hs.2.1 hs.2.2 hg e, (isSealed_stateUpdate e).trans hs.2.1,
    (tearingDown_stateUpdate e).trans hs.2.2⟩

theorem CpInvariant.turnLive (h : CpInvariant env depth I G) (s : Osdp)
    (i : Nat) (hs : I s ∧ s.live)
    (hfree : cpPhyBusIsBusy (s.pd i) = false) (hi : i = s.currentPd) :
    I (s.passTurn i) ∧ (s.passTurn i).live :=
  ⟨h.turn s i hs.1 hfree hi, hs.2⟩

/-- The passes of a refresh that starts in `s` with these bytes. -/
def RefreshPass (env : Env) (depth : Nat) (s : Osdp) (now : Int)
    (rx : Bytes) (u v : Osdp) : Prop :=
  ¬ (s.tearingDown ∨ s.running) ∧ s.numPd ≠ 0 ∧
    LoopPass env (cpRunCalls env depth) s.numPd (s.beginRefresh now rx) u v

/-- Every pass of the input starts where `G` holds. -/
def PassesMeet (env : Env) (depth : Nat) (G : Osdp → Prop) (s : Osdp) :
    CpInput → Prop
  | .refresh now rx => ∀ u v, RefreshPass env depth s now rx u v → G u
  | _ => True

/-- An invariant survives a refresh. -/
theorem CpInvariant.refresh (h : CpInvariant env depth I G)
    {s t : Osdp} {now : Int} {rx : Bytes} (hs : I s)
    (hG : PassesMeet env depth G s (.refresh now rx))
    (e : osdpCpRefresh env (cpRunCalls env depth) (s.arriveCp now rx)
      = .ok () t) : I t := by
  obtain ⟨s', v, hg, e⟩ := bind_ok.mp e
  obtain ⟨rfl, rfl⟩ := get_ok.mp hg
  split at e
  · obtain ⟨-, rfl⟩ := pure_ok.mp e
    exact h.arrive s now rx hs
  · next hstart =>
    have hgo : ¬ (s.tearingDown ∨ s.running) := hstart
    simp only [not_or, Bool.not_eq_true] at hstart
    obtain ⟨_, u, hu, e⟩ := bind_ok.mp e
    have hu := modify_ok.mp hu
    split at e
    · obtain ⟨-, rfl⟩ := pure_ok.mp e
      rw [← hu]
      exact h.sealed _ (h.arrive s now rx hs)
    · next hnum =>
      obtain ⟨_, w, hw, e⟩ := bind_ok.mp e
      have hw := modify_ok.mp hw
      obtain ⟨_, x, hx, e⟩ := bind_ok.mp e
      have hbegin : w = s.beginRefresh now rx := by rw [← hw, ← hu]; rfl
      rw [hbegin] at hx
      rw [← modify_ok.mp e]
      exact h.finish _
        (refreshLoop_invariant env _ h.passLive h.turnLive
          (fun _ _ => currentPd_stateUpdate) _
          ⟨h.begin s now rx hs, rfl, hstart.1⟩
          (fun _ _ hp => hG _ _ ⟨hgo, hnum, hp⟩) hx).1

/-- An invariant survives every input whose passes meet its condition. -/
theorem CpInvariant.step_of (h : CpInvariant env depth I G)
    {s t : Osdp} (x : CpInput) (hs : I s) (hG : PassesMeet env depth G s x)
    (e : cpStep env depth x s = .ok () t) : I t := by
  cases x with
  | refresh now rx =>
    obtain ⟨_, u, hu, e⟩ := bind_ok.mp e
    rw [← modify_ok.mp hu] at e
    exact h.refresh hs hG e
  | call c => exact h.call c s t hs e
  | addPd infos =>
    obtain ⟨a, u, hu, e⟩ := bind_ok.mp e
    obtain ⟨-, rfl⟩ := pure_ok.mp e
    exact h.addPd infos s u a hs hu
  | teardown => exact h.teardown s t hs e

/-- An invariant that holds at the start of a run holds at its end, where
only such inputs are accepted. -/
theorem CpInvariant.run_of (h : CpInvariant env depth I G)
    {ok : Osdp → CpInput → Bool} {s t : Osdp} {l : List CpInput}
    (hrun : CpRun env depth ok s l t)
    (hok : ∀ v x, ok v x = true → PassesMeet env depth G v x) (hs : I s) :
    I t :=
  hrun.invariant hs fun x v _ hx hv e => h.step_of x hv (hok v x hx) e

/-- It holds before and after every pass of a refresh. -/
theorem CpInvariant.refreshPass_of (h : CpInvariant env depth I G)
    {s u v : Osdp} {now : Int} {rx : Bytes} (hs : I s)
    (hG : PassesMeet env depth G s (.refresh now rx))
    (hp : RefreshPass env depth s now rx u v) :
    (I u ∧ u.live) ∧
      stateUpdate env (cpRunCalls env depth) u.currentPd u = .ok () v ∧
      I v := by
  obtain ⟨hgo, hnum, hloop⟩ := hp
  have hstart := hgo
  simp only [not_or, Bool.not_eq_true] at hstart
  obtain ⟨hu, e, hv⟩ := hloop.invariant env _ h.passLive h.turnLive
    (fun _ _ => currentPd_stateUpdate) ⟨h.begin s now rx hs, rfl, hstart.1⟩
    (fun _ _ hp => hG _ _ ⟨hgo, hnum, hp⟩)
  exact ⟨hu, e, hv.1⟩

end Invariant

section Always

variable {I : Osdp → Prop}

/-- Without a condition, every input has passes that meet it. -/
theorem passesMeet_true (s : Osdp) (x : CpInput) :
    PassesMeet env depth (fun _ => True) s x := by
  cases x <;> first | trivial | exact fun _ _ _ => trivial

theorem CpInvariant.step (h : CpInvariant env depth I)
    {s t : Osdp} (x : CpInput) (hs : I s)
    (e : cpStep env depth x s = .ok () t) : I t :=
  h.step_of x hs (passesMeet_true s x) e

theorem CpInvariant.run (h : CpInvariant env depth I)
    {ok : Osdp → CpInput → Bool} {s t : Osdp} {l : List CpInput}
    (hrun : CpRun env depth ok s l t) (hs : I s) : I t :=
  h.run_of hrun (fun v x _ => passesMeet_true v x) hs

theorem CpInvariant.refreshPass (h : CpInvariant env depth I)
    {s u v : Osdp} {now : Int} {rx : Bytes} (hs : I s)
    (hp : RefreshPass env depth s now rx u v) :
    I u ∧ stateUpdate env (cpRunCalls env depth) u.currentPd u = .ok () v ∧
      I v := by
  obtain ⟨hu, e, hv⟩ := h.refreshPass_of hs (passesMeet_true s _) hp
  exact ⟨hu.1, e, hv⟩

/-- No pass starts in a context that is gone. -/
theorem CpInvariant.refreshPass_live (h : CpInvariant env depth I)
    {s u v : Osdp} {now : Int} {rx : Bytes} (hs : I s)
    (hp : RefreshPass env depth s now rx u v) : u.live :=
  (h.refreshPass_of hs (passesMeet_true s _) hp).1.2

end Always

end

end LibOsdp
