/-
The refreshes of a run, and invariants that speak of them.

What a frame carried beside its payload leaves no entry in the history of
the context, nor does what lies in the transmit buffer.  `runRefreshes`
lists the refreshes of a run, the last one first, each with the state
before and after it.  `PdWatch` is what a property of the refreshes so far
and of the present state has to survive; `PdWatch.run` carries it through
a run.
-/
import LibOsdp.Pd.Proofs.Run
import LibOsdp.Lib.History

namespace LibOsdp

open Lib

-- ============================================================= refreshes

/-- One call of `osdp_pd_update`. -/
structure Refresh where
  before : Osdp
  after : Osdp

section Refreshes

variable (env : Env) (depth : Nat)

/-- The refresh an input brings about, if any. -/
def inputRefreshes (s : Osdp) : PdInput → List Refresh
  | .refresh now rx =>
    if s.tearingDown || s.running then []
    else
      match osdpPdUpdate env (pdRunCalls env depth) 0 (s.begin now rx) with
      | .error _ _ => []
      | .ok _ t => [⟨s.begin now rx, t⟩]
  | _ => []

/-- The refreshes of a run over these inputs. -/
def runRefreshes : List PdInput → Osdp → List Refresh
  | [], _ => []
  | x :: rest, s =>
    match pdStep env depth x s with
    | .error _ _ => []
    | .ok _ t => runRefreshes rest t ++ inputRefreshes env depth s x

end Refreshes

variable {env : Env} {depth : Nat} {ok : Osdp → PdInput → Bool}

/-- The run over a list of inputs and then over another. -/
theorem pdTake_append {any : Osdp → PdInput → Bool} {s : Osdp}
    (l m : List PdInput) :
    pdTake env depth any (l ++ m) s
      = (pdTake env depth any l s).bind (pdTake env depth any m) := by
  induction l generalizing s with
  | nil => rfl
  | cons x l ih =>
    simp only [List.cons_append, pdTake]
    split
    · cases pdStep env depth x s with
      | error e v => rfl
      | ok a v => exact ih
    · rfl

/-- The last input of a run has its refresh last. -/
theorem runRefreshes_snoc {s t u : Osdp} {l : List PdInput}
    (h : PdRun env depth ok s l t) (x : PdInput)
    (e : pdStep env depth x t = .ok () u) :
    runRefreshes env depth (l ++ [x]) s
      = inputRefreshes env depth t x ++ runRefreshes env depth l s := by
  have htake : pdTake env depth anyInput l s = some t := by
    induction h generalizing x u with
    | nil => rfl
    | @snoc v w l y run _ taken ih =>
      rw [pdTake_append, ih y taken]
      simp only [Option.bind_some, pdTake, anyInput, if_true, taken]
  clear h
  induction l generalizing s with
  | nil =>
    cases htake
    simp only [List.nil_append, runRefreshes, e, List.append_nil]
  | cons y l ih =>
    simp only [pdTake, anyInput, if_true] at htake
    cases hy : pdStep env depth y s with
    | error f v =>
      rw [hy] at htake
      cases htake
    | ok a v =>
      rw [hy] at htake
      simp only [List.cons_append, runRefreshes, hy]
      rw [ih htake, List.append_assoc]

-- ============================================================ invariants

/-- What a property of the refreshes so far and of the present state has to
survive, as long as the inputs are acceptable to `ok`. -/
structure PdWatch (env : Env) (depth : Nat) (ok : Osdp → PdInput → Bool)
    (J : List Refresh → Osdp → Prop) : Prop where
  congr : ∀ h s t, t.pd = s.pd → t.log = s.log → t.txBuf = s.txBuf →
    J h s → J h t
  quiet : ∀ h s t, Quiet s t → J h s → J h t
  configures : ∀ h s t, Configures s t → J h s → J h t
  refresh : ∀ h s t now rx, s.tearingDown = false → s.running = false →
    ok s (.refresh now rx) = true →
    osdpPdUpdate env (pdRunCalls env depth) 0 (s.begin now rx) = .ok () t →
    J h (s.begin now rx) → J (⟨s.begin now rx, t⟩ :: h) t

/-- The property of a run that has come this far: after teardown there are
no more refreshes. -/
structure Watched (J : List Refresh → Osdp → Prop)
    (P : List Refresh → Prop) (h : List Refresh) (s : Osdp) : Prop where
  past : P h
  live : s.tearingDown = false → J h s

section Watch

variable {J : List Refresh → Osdp → Prop} {P : List Refresh → Prop}
variable {h : List Refresh}

theorem PdWatch.watched_quiet (hw : PdWatch env depth ok J) {s t : Osdp}
    (hq : Quiet s t) (hs : Watched J P h s) : Watched J P h t :=
  ⟨hs.past, fun e => hw.quiet h s t hq (hs.live (hq.tearingDown ▸ e))⟩

theorem PdWatch.watched_refresh (hw : PdWatch env depth ok J)
    (hP : ∀ h s, J h s → P h) {s t : Osdp} {now : Int} {rx : Bytes}
    (hok : ok s (.refresh now rx) = true)
    (hstep : pdStep env depth (.refresh now rx) s = .ok () t)
    (hs : Watched J P h s) :
    Watched J P (inputRefreshes env depth s (.refresh now rx) ++ h) t := by
  obtain ⟨_, u, hu, hstep⟩ := bind_ok.mp hstep
  obtain rfl := modify_ok.mp hu
  unfold osdpPdRefresh at hstep
  obtain ⟨v, w, hg, hstep⟩ := bind_ok.mp hstep
  obtain ⟨rfl, rfl⟩ := get_ok.mp hg
  split at hstep
  · next hno =>
    obtain ⟨-, rfl⟩ := pure_ok.mp hstep
    have hno : (s.tearingDown || s.running) = true := by
      rw [Bool.or_eq_true]
      exact hno
    have hnone : inputRefreshes env depth s (.refresh now rx) = [] :=
      if_pos hno
    rw [hnone, List.nil_append]
    exact ⟨hs.past, fun e => hw.congr h s _ rfl rfl rfl (hs.live e)⟩
  · next hgo =>
    have hgo : ¬ (s.tearingDown = true ∨ s.running = true) := hgo
    simp only [not_or, Bool.not_eq_true] at hgo
    obtain ⟨htd, hrun⟩ := hgo
    obtain ⟨_, v, hv, hstep⟩ := bind_ok.mp hstep
    obtain rfl := modify_ok.mp hv
    obtain ⟨_, w, hu, hstep⟩ := bind_ok.mp hstep
    obtain rfl := modify_ok.mp hstep
    have hone : inputRefreshes env depth s (.refresh now rx)
        = [⟨s.begin now rx, w⟩] := by
      have hu : osdpPdUpdate env (pdRunCalls env depth) 0 (s.begin now rx)
        = .ok () w := hu
      unfold inputRefreshes
      dsimp only
      rw [htd, hrun, hu]
      rfl
    have hJ := hw.refresh h s w now rx htd hrun hok hu
      (hw.congr h s _ rfl rfl rfl (hs.live htd))
    rw [hone]
    exact ⟨hP _ w hJ, fun _ => hw.congr _ w _ rfl rfl rfl hJ⟩

theorem Watched.teardown {s t : Osdp}
    (hstep : pdStep env depth .teardown s = .ok () t)
    (hs : Watched J P h s) : Watched J P h t := by
  have hr := quiet_pdRunCalls env depth
  unfold pdStep osdpPdTeardown at hstep
  obtain ⟨u, v, hg, hstep⟩ := bind_ok.mp hstep
  obtain ⟨rfl, rfl⟩ := get_ok.mp hg
  split at hstep
  · obtain ⟨-, rfl⟩ := pure_ok.mp hstep
    exact hs
  · obtain ⟨_, u, hu, hstep⟩ := bind_ok.mp hstep
    obtain rfl := modify_ok.mp hu
    obtain ⟨_, v, hv, hstep⟩ := bind_ok.mp hstep
    obtain ⟨p, w, hg, hstep⟩ := bind_ok.mp hstep
    obtain ⟨rfl, rfl⟩ := getPd_ok.mp hg
    obtain ⟨_, w, hdone, hstep⟩ := bind_ok.mp hstep
    have hq := trans_of Quiet ((keeps_pdDrainQueue hr 0 .aborted).of hv)
      ((keeps_pdCompleteEvent hr _ .aborted).of hdone)
    obtain rfl := updPd_ok.mp hstep
    refine ⟨hs.past, fun e => ?_⟩
    have htd : w.tearingDown = true := hq.tearingDown
    have e : w.tearingDown = false := e
    rw [htd] at e
    cases e

/-- Every input keeps what is watched. -/
theorem PdWatch.step (hw : PdWatch env depth ok J)
    (hP : ∀ h s, J h s → P h) {s t : Osdp} {x : PdInput}
    (hok : ok s x = true) (hstep : pdStep env depth x s = .ok () t)
    (hs : Watched J P h s) :
    Watched J P (inputRefreshes env depth s x ++ h) t := by
  have hr := quiet_pdRunCalls env depth
  cases x with
  | refresh now rx => exact hw.watched_refresh hP hok hstep hs
  | submitEvent ev =>
    obtain ⟨r, u, hu, hstep⟩ := bind_ok.mp hstep
    obtain ⟨-, rfl⟩ := pure_ok.mp hstep
    exact hw.watched_quiet ((keeps_osdpPdSubmitEvent 0 ev).of hu) hs
  | flushEvents =>
    exact hw.watched_quiet ((keeps_osdpPdFlushEvents hr 0).of hstep) hs
  | setCapabilities cap =>
    obtain ⟨r, u, hu, hstep⟩ := bind_ok.mp hstep
    obtain ⟨-, hut⟩ := pure_ok.mp hstep
    subst hut
    have hc := (configures_osdpPdSetCapabilities 0 cap).of hu
    have htd := congrArg Osdp.tearingDown hc.rest
    have htd : u.tearingDown = s.tearingDown := htd
    exact ⟨hs.past, fun e => hw.configures h s _ hc (hs.live (htd ▸ e))⟩
  | teardown => exact hs.teardown hstep

/-- A property of the refreshes and the state that holds at the start of a
run holds at its end, of all its refreshes: by induction on the run. -/
theorem PdWatch.run (hw : PdWatch env depth ok J) (hP : ∀ h s, J h s → P h)
    {s t : Osdp} {l : List PdInput} (hrun : PdRun env depth ok s l t)
    (hs : J [] s) : Watched J P (runRefreshes env depth l s) t := by
  induction hrun with
  | nil => exact ⟨hP [] _ hs, fun _ => hs⟩
  | @snoc v w l x run accept taken ih =>
    rw [runRefreshes_snoc run x taken]
    exact hw.step hP accept taken ih

end Watch

end LibOsdp
