/-
The passes of a run, and invariants that speak of them.

What a run leaves in the history of the context is not enough for a
property like "since the session began": the choice of a command and a
change of state leave no entry there.  `runPasses` lists the passes of a
run, the last one first, each with the state before and after it.
`WatchInvariant` is what a property of the passes so far and of the
present state has to survive; `WatchInvariant.run_of` carries it through
a run.
-/
import LibOsdp.Cp.Proofs.Run

namespace LibOsdp

open Lib

-- ================================================================ passes

/-- One call of `state_update`. -/
structure Pass where
  before : Osdp
  after : Osdp

/-- The PD it was made on. -/
def Pass.pd (x : Pass) : Nat := x.before.currentPd

section Passes

variable (env : Env) (run : List ApiCall → OsdpM Unit)

/-- The passes of the loop of a refresh, the last one first. -/
def loopPasses : Nat → Osdp → List Pass
  | 0, _ => []
  | rounds + 1, s =>
    match stateUpdate env run s.currentPd s with
    | .error _ _ => []
    | .ok _ u =>
      (if cpPhyBusIsBusy (u.pd s.currentPd) then []
        else loopPasses rounds (u.passTurn s.currentPd)) ++ [⟨s, u⟩]

variable (depth : Nat)

/-- The passes an input brings about. -/
def inputPasses (s : Osdp) : CpInput → List Pass
  | .refresh now rx =>
    if s.tearingDown || s.running || s.numPd == 0 then []
    else loopPasses env (cpRunCalls env depth) s.numPd (s.beginRefresh now rx)
  | _ => []

/-- The passes of a run over these inputs. -/
def runPasses : List CpInput → Osdp → List Pass
  | [], _ => []
  | x :: rest, s =>
    match cpStep env depth x s with
    | .error _ _ => []
    | .ok _ t => runPasses rest t ++ inputPasses env depth s x

end Passes

variable {env : Env} {depth : Nat}

/-- The last input of a run has its passes last. -/
theorem runPasses_snoc {ok : Osdp → CpInput → Bool} {s t : Osdp}
    {l : List CpInput} (h : CpRun env depth ok s l t) (x : CpInput)
    {u : Osdp} (e : cpStep env depth x t = .ok () u) :
    runPasses env depth (l ++ [x]) s
      = inputPasses env depth t x ++ runPasses env depth l s := by
  have htake : take (cpStep env depth) (fun _ _ => true) l s = some t := by
    induction h generalizing x u with
    | nil => rfl
    | @snoc v w l y run _ taken ih =>
      rw [take_append, ih y taken]
      simp only [Option.bind_some, take, if_true, taken]
  clear h
  induction l generalizing s with
  | nil =>
    cases htake
    simp only [List.nil_append, runPasses, e, List.append_nil]
  | cons y l ih =>
    simp only [take, if_true] at htake
    cases hy : cpStep env depth y s with
    | error f v =>
      rw [hy] at htake
      cases htake
    | ok a v =>
      rw [hy] at htake
      simp only [List.cons_append, runPasses, hy]
      rw [ih htake, List.append_assoc]

/-- Every pass of a loop is among its passes. -/
theorem LoopPass.mem {run : List ApiCall → OsdpM Unit} {n : Nat}
    {s u v : Osdp} (h : LoopPass env run n s u v) :
    ⟨u, v⟩ ∈ loopPasses env run n s := by
  induction h with
  | here pass => simp [loopPasses, pass]
  | later pass free rest ih => simp [loopPasses, pass, free, ih]

/-- Every pass of a refresh is among those of the input. -/
theorem RefreshPass.mem {s u v : Osdp} {now : Int} {rx : Bytes}
    (h : RefreshPass env depth s now rx u v) :
    ⟨u, v⟩ ∈ inputPasses env depth s (.refresh now rx) := by
  obtain ⟨hgo, hnum, hp⟩ := h
  simp only [not_or, Bool.not_eq_true] at hgo
  simpa [inputPasses, hgo, hnum] using hp.mem

-- ============================================================ invariants

/-- What a property of the passes on PD `i` so far and of the present state
has to survive, as long as the passes on the PD start where `G` holds and
the application makes no calls but those of `C`. -/
structure WatchInvariant (env : Env) (depth i : Nat)
    (J : List Pass → Osdp → Prop) (G : Osdp → Prop := fun _ => True)
    (C : ApiCall → Prop := fun _ => True) : Prop where
  call : ∀ h c s t, J h s → C c →
    cpApiCall env (cpRunCalls env depth) c s = .ok () t → J h t
  addPd : ∀ h infos s t a, J h s → osdpCpAddPd env infos s = .ok a t → J h t
  teardown : ∀ h s t, J h s →
    osdpCpTeardown env (cpRunCalls env depth) s = .ok () t → J h t
  other : ∀ h s t j, J h s → s.live → j ≠ i →
    stateUpdate env (cpRunCalls env depth) j s = .ok () t → J h t
  pass : ∀ h s t, J h s → s.live → s.currentPd = i → G s →
    stateUpdate env (cpRunCalls env depth) i s = .ok () t →
    J (⟨s, t⟩ :: h) t
  same : ∀ h s t, J h s → t.pd = s.pd → t.log = s.log →
    t.tearingDown = s.tearingDown → (s.isSealed = true → t.isSealed = true) →
    J h t

/-- The passes on PD `i` among these. -/
def passesOn (i : Nat) (l : List Pass) : List Pass :=
  l.filter fun x => x.pd == i

/-- Every pass on PD `i` the input brings about starts where `g` holds. -/
def passesOk (env : Env) (depth i : Nat) (g : Osdp → Bool) (s : Osdp)
    (x : CpInput) : Bool :=
  (passesOn i (inputPasses env depth s x)).all fun p => g p.before

theorem passesMeet_of_passesOk {i : Nat} {g : Osdp → Bool}
    {G : Osdp → Prop} (hg : ∀ s, g s = true → G s) {s : Osdp} {x : CpInput}
    (h : passesOk env depth i g s x = true) :
    PassesMeet env depth (fun w => w.currentPd = i → G w) s x := by
  cases x with
  | refresh now rx =>
    intro u v hp hi
    have hmem : (⟨u, v⟩ : Pass) ∈ passesOn i
        (inputPasses env depth s (.refresh now rx)) :=
      List.mem_filter.mpr ⟨hp.mem, by simp [Pass.pd, hi]⟩
    exact hg u (List.all_eq_true.mp h _ hmem)
  | _ => trivial

section Watch

variable {i : Nat} {J : List Pass → Osdp → Prop} {G : Osdp → Prop}
variable {C : ApiCall → Prop}

/-- A pass of the loop, on the PD or on another. -/
theorem WatchInvariant.step (hw : WatchInvariant env depth i J G C)
    {h : List Pass} {s t : Osdp} (hs : J h s) (hlive : s.live)
    (hg : s.currentPd = i → G s)
    (e : stateUpdate env (cpRunCalls env depth) s.currentPd s = .ok () t) :
    J (passesOn i [⟨s, t⟩] ++ h) t := by
  by_cases hi : s.currentPd = i
  · have hon : passesOn i [⟨s, t⟩] = [⟨s, t⟩] := by
      simp [passesOn, Pass.pd, hi]
    have hgo := hg hi
    rw [hi] at e
    rw [hon]
    exact hw.pass h s t hs hlive hi hgo e
  · have hoff : passesOn i [⟨s, t⟩] = [] := by
      simp [passesOn, Pass.pd, hi]
    rw [hoff]
    exact hw.other h s t _ hs hlive hi e

/-- The loop of a refresh. -/
theorem WatchInvariant.loop (hw : WatchInvariant env depth i J G C) (n : Nat)
    {h : List Pass} {s t : Osdp} (hs : J h s) (hlive : s.live)
    (hG : ∀ u v, LoopPass env (cpRunCalls env depth) n s u v →
      u.currentPd = i → G u)
    (e : cpRefreshLoop env (cpRunCalls env depth) n s = .ok () t) :
    J (passesOn i (loopPasses env (cpRunCalls env depth) n s) ++ h) t := by
  induction n generalizing s h with
  | zero =>
    obtain ⟨-, rfl⟩ := pure_ok.mp e
    exact hs
  | succ n ih =>
    obtain ⟨u, hu, hcase⟩ := refreshLoop_succ env _ e
    have hJu := hw.step hs hlive (hG s u (.here hu)) hu
    have hul : u.live := ⟨(isSealed_stateUpdate hu).trans hlive.1,
      (tearingDown_stateUpdate hu).trans hlive.2⟩
    simp only [loopPasses, hu]
    rcases hcase with ⟨hbusy, rfl⟩ | ⟨hfree, hrest⟩
    · rw [if_pos hbusy, List.nil_append]
      exact hJu
    · rw [if_neg (by rw [hfree]; decide)]
      have hturn : J (passesOn i [⟨s, u⟩] ++ h) (u.passTurn s.currentPd) :=
        hw.same _ u _ hJu rfl rfl rfl id
      have hrec := ih hturn hul
        (fun _ _ hp => hG _ _ (.later hu hfree hp)) hrest
      rw [passesOn, List.filter_append, List.append_assoc]
      exact hrec

/-- A whole refresh. -/
theorem WatchInvariant.refresh (hw : WatchInvariant env depth i J G C)
    {h : List Pass} {s t : Osdp} {now : Int} {rx : Bytes} (hs : J h s)
    (hG : PassesMeet env depth (fun u => u.currentPd = i → G u) s
      (.refresh now rx))
    (e : osdpCpRefresh env (cpRunCalls env depth) (s.arriveCp now rx)
      = .ok () t) :
    J (passesOn i (inputPasses env depth s (.refresh now rx)) ++ h) t := by
  have harrive : J h (s.arriveCp now rx) := hw.same h s _ hs rfl rfl rfl id
  obtain ⟨s', v, hg, e⟩ := bind_ok.mp e
  obtain ⟨rfl, rfl⟩ := get_ok.mp hg
  by_cases hstop : (s.arriveCp now rx).tearingDown = true ∨
      (s.arriveCp now rx).running = true
  · rw [if_pos hstop] at e
    obtain ⟨-, rfl⟩ := pure_ok.mp e
    have hnone : inputPasses env depth s (.refresh now rx) = [] := by
      have hstop' : s.tearingDown = true ∨ s.running = true := hstop
      rcases hstop' with h₁ | h₁ <;> simp [inputPasses, h₁]
    rw [hnone]
    exact harrive
  · rw [if_neg hstop] at e
    have hgo : ¬ (s.tearingDown ∨ s.running) := hstop
    have hstart := hgo
    simp only [not_or, Bool.not_eq_true] at hstart
    obtain ⟨_, u, hu, e⟩ := bind_ok.mp e
    have hu := modify_ok.mp hu
    by_cases hnum : s.numPd = 0
    · have hnum' : (s.arriveCp now rx).numPd = 0 := hnum
      rw [if_pos hnum'] at e
      obtain ⟨-, rfl⟩ := pure_ok.mp e
      have hnone : inputPasses env depth s (.refresh now rx) = [] := by
        simp [inputPasses, hnum]
      rw [hnone, ← hu]
      exact hw.same h _ _ harrive rfl rfl rfl fun _ => rfl
    · have hnum' : ¬ (s.arriveCp now rx).numPd = 0 := hnum
      rw [if_neg hnum'] at e
      obtain ⟨_, w, hw', e⟩ := bind_ok.mp e
      have hw' := modify_ok.mp hw'
      obtain ⟨_, x, hx, e⟩ := bind_ok.mp e
      have hbegin : w = s.beginRefresh now rx := by rw [← hw', ← hu]; rfl
      rw [hbegin] at hx
      have hsome : inputPasses env depth s (.refresh now rx)
          = loopPasses env (cpRunCalls env depth) s.numPd
            (s.beginRefresh now rx) := by
        simp [inputPasses, hstart, hnum]
      have hbeginJ : J h (s.beginRefresh now rx) :=
        hw.same h _ _ harrive rfl rfl rfl fun _ => rfl
      rw [hsome, ← modify_ok.mp e]
      refine hw.same _ x _ (hw.loop _ hbeginJ ⟨rfl, hstart.1⟩
        (fun _ _ hp => hG _ _ ⟨hgo, hnum, hp⟩) hx) rfl rfl rfl id

/-- The input is no call but one of `C`. -/
def CpInput.callMeets (C : ApiCall → Prop) : CpInput → Prop
  | .call c => C c
  | _ => True

/-- Any input. -/
theorem WatchInvariant.input (hw : WatchInvariant env depth i J G C)
    {h : List Pass} {s t : Osdp} (x : CpInput) (hs : J h s)
    (hC : x.callMeets C)
    (hG : PassesMeet env depth (fun u => u.currentPd = i → G u) s x)
    (e : cpStep env depth x s = .ok () t) :
    J (passesOn i (inputPasses env depth s x) ++ h) t := by
  cases x with
  | refresh now rx =>
    obtain ⟨_, u, hu, e⟩ := bind_ok.mp e
    rw [← modify_ok.mp hu] at e
    exact hw.refresh hs hG e
  | call c => exact hw.call h c s t hs hC e
  | addPd infos =>
    obtain ⟨a, u, hu, e⟩ := bind_ok.mp e
    obtain ⟨-, rfl⟩ := pure_ok.mp e
    exact hw.addPd h infos s u a hs hu
  | teardown => exact hw.teardown h s t hs e

/-- A property of the passes and the state that holds at the start of a run
holds at its end, of all its passes on the PD. -/
theorem WatchInvariant.run_within (hw : WatchInvariant env depth i J G C)
    {ok : Osdp → CpInput → Bool} {s t : Osdp} {l : List CpInput}
    (hrun : CpRun env depth ok s l t)
    (hok : ∀ v x, ok v x = true → x.callMeets C ∧
      PassesMeet env depth (fun u => u.currentPd = i → G u) v x)
    (hs : J [] s) :
    J (passesOn i (runPasses env depth l s)) t := by
  induction hrun with
  | nil => exact hs
  | @snoc v w l x run accept taken ih =>
    rw [runPasses_snoc run x taken, passesOn, List.filter_append]
    exact hw.input x ih (hok v x accept).1 (hok v x accept).2 taken

/-- The same, where any call may be made. -/
theorem WatchInvariant.run_of (hw : WatchInvariant env depth i J G)
    {ok : Osdp → CpInput → Bool} {s t : Osdp} {l : List CpInput}
    (hrun : CpRun env depth ok s l t)
    (hok : ∀ v x, ok v x = true →
      PassesMeet env depth (fun u => u.currentPd = i → G u) v x)
    (hs : J [] s) :
    J (passesOn i (runPasses env depth l s)) t := by
  refine hw.run_within hrun (fun v x h => ⟨?_, hok v x h⟩) hs
  cases x <;> trivial

end Watch

end LibOsdp
