/-
Runs of a system that takes one input after another.

`Run step ok s l t` says that the inputs `l` take the system from `s` to
`t`, each of them acceptable to `ok` in the state it arrives in.  An input
whose step ends in an error has no successor state: a run ends there.

`take` computes a run, so that one over given inputs can be exhibited by
evaluation.
-/
import LibOsdp.Lib.Keeps

namespace LibOsdp.Lib

variable {ε σ ι : Type}

/-- The inputs take the system from one state to the other. -/
inductive Run (step : ι → EStateM ε σ Unit) (ok : σ → ι → Bool) :
    σ → List ι → σ → Prop where
  | nil (s : σ) : Run step ok s [] s
  | snoc {s t u : σ} {l : List ι} {x : ι} (run : Run step ok s l t)
      (accept : ok t x = true) (taken : step x t = .ok () u) :
      Run step ok s (l ++ [x]) u

section

variable {step : ι → EStateM ε σ Unit} {ok : σ → ι → Bool}

/-- What every step preserves holds along a run. -/
theorem Run.invariant {I : σ → Prop} {s t : σ} {l : List ι}
    (h : Run step ok s l t) (hs : I s)
    (hstep : ∀ x v u, ok v x = true → I v → step x v = .ok () u → I u) :
    I t := by
  induction h with
  | nil => exact hs
  | snoc run accept taken ih => exact hstep _ _ _ accept ih taken

/-- A preorder every step stays within relates the ends of a run. -/
theorem Run.keeps {R : σ → σ → Prop} [IsPreorder σ R] {s t : σ}
    {l : List ι} (h : Run step ok s l t) (hstep : ∀ x, Keeps R (step x)) :
    R s t :=
  h.invariant (refl_of R s) fun x _ _ _ hv e =>
    trans_of R hv ((hstep x).of e)

/-- The state the inputs lead to, if each is acceptable and none ends the
run. -/
def take (step : ι → EStateM ε σ Unit) (ok : σ → ι → Bool) :
    List ι → σ → Option σ
  | [], s => some s
  | x :: rest, s =>
    if ok s x then
      match step x s with
      | .ok _ t => take step ok rest t
      | .error _ _ => none
    else none

/-- Inputs that were taken extend a run. -/
theorem Run.append_take {s t u : σ} {l m : List ι}
    (h : Run step ok s l t) (hm : take step ok m t = some u) :
    Run step ok s (l ++ m) u := by
  induction m generalizing l t with
  | nil =>
    cases hm
    rw [List.append_nil]
    exact h
  | cons x m ih =>
    unfold take at hm
    split at hm
    · next hx =>
      cases e : step x t with
      | error e' v =>
        rw [e] at hm
        cases hm
      | ok a v =>
        rw [e] at hm
        have hrun := ih (h.snoc hx e) hm
        rwa [List.append_assoc] at hrun
    · cases hm

end

/-- Inputs that were taken from a state some setup yields. -/
theorem run_of_setup (step : ι → EStateM ε σ Unit) (ok : σ → ι → Bool)
    (start : Option σ) (l : List ι) (P : σ → Prop) [DecidablePred P]
    (h : (start.bind (take step ok l)).any (fun t => decide (P t)) = true) :
    ∃ s t, start = some s ∧ Run step ok s l t ∧ P t := by
  cases start with
  | none => cases h
  | some s =>
    cases ht : take step ok l s with
    | none =>
      rw [Option.bind_some, ht] at h
      cases h
    | some t =>
      rw [Option.bind_some, ht] at h
      exact ⟨s, t, rfl, (Run.nil s).append_take ht, by simpa using h⟩

/-- Inputs in two parts are taken one part after the other. -/
theorem take_append (step : ι → EStateM ε σ Unit) (ok : σ → ι → Bool)
    (l m : List ι) (s : σ) :
    take step ok (l ++ m) s = (take step ok l s).bind (take step ok m) := by
  induction l generalizing s with
  | nil => rfl
  | cons x l ih =>
    simp only [List.cons_append, take]
    split
    · cases step x s with
      | ok a t => exact ih t
      | error e t => rfl
    · rfl

/-- The same with the state between two parts of the inputs, each taken as
its own part accepts. -/
theorem runs_of_setup (step : ι → EStateM ε σ Unit) (ok ok' : σ → ι → Bool)
    (start : Option σ) (l m : List ι) (P : σ → σ → σ → Prop)
    [∀ s t u, Decidable (P s t u)]
    (h : (start.bind fun s => (take step ok l s).bind fun t =>
      (take step ok' m t).map fun u => decide (P s t u)) = some true) :
    ∃ s t u, start = some s ∧ Run step ok s l t ∧ Run step ok' t m u ∧
      P s t u := by
  obtain ⟨s, hs, h⟩ := Option.bind_eq_some_iff.mp h
  obtain ⟨t, ht, h⟩ := Option.bind_eq_some_iff.mp h
  obtain ⟨u, hu, hP⟩ := Option.map_eq_some_iff.mp h
  exact ⟨s, t, u, hs, (Run.nil s).append_take ht,
    (Run.nil t).append_take hu, of_decide_eq_true hP⟩

end LibOsdp.Lib
