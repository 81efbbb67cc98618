/-
Programs that do not end in a given error.

`Avoids e m` says so of every start.  It composes along the program as
`Keeps` does, and an error other than `e` satisfies it.
-/
import LibOsdp.Lib.Keeps

namespace LibOsdp.Lib

variable {ε σ α β : Type}

/-- No run of `m` ends in the error `e`. -/
def Avoids (e : ε) (m : EStateM ε σ α) : Prop :=
  ∀ s t, m s ≠ .error e t

variable {e : ε}

@[grind ←]
theorem Avoids.pure (a : α) : Avoids e (pure a : EStateM ε σ α) := by
  intro s t h
  cases h

@[grind ←]
theorem Avoids.get : Avoids e (get : EStateM ε σ σ) := by
  intro s t h
  cases h

@[grind ←]
theorem Avoids.modify (f : σ → σ) :
    Avoids e (modify f : EStateM ε σ PUnit) := by
  intro s t h
  cases h

/-- Another error is none of ours. -/
@[grind ←]
theorem Avoids.throw {e' : ε} (h : e' ≠ e) :
    Avoids e (throw e' : EStateM ε σ α) := by
  intro s t ht
  cases ht
  exact h rfl

@[grind ←]
theorem Avoids.bind {m : EStateM ε σ α} {k : α → EStateM ε σ β}
    (hm : Avoids e m) (hk : ∀ a, Avoids e (k a)) : Avoids e (m >>= k) := by
  intro s t h
  simp only [Bind.bind, EStateM.bind] at h
  cases hms : m s with
  | ok a u =>
    rw [hms] at h
    exact hk a u t h
  | error x u =>
    rw [hms] at h
    cases h
    exact hm s t hms

/-- The value of the first half matters to the second. -/
theorem Avoids.bind_of {Q : α → Prop} {m : EStateM ε σ α}
    {k : α → EStateM ε σ β} (hm : Avoids e m) (hQ : Returns Q m)
    (hk : ∀ a, Q a → Avoids e (k a)) : Avoids e (m >>= k) := by
  intro s t h
  simp only [Bind.bind, EStateM.bind] at h
  cases hms : m s with
  | ok a u =>
    rw [hms] at h
    exact hk a (hQ s a u hms) u t h
  | error x u =>
    rw [hms] at h
    cases h
    exact hm s t hms

/-- The run ended in the error. -/
def endsIn [DecidableEq ε] (e : ε) : EStateM.Result ε σ α → Bool
  | .ok _ _ => false
  | .error x _ => x == e

theorem endsIn_iff [DecidableEq ε] {r : EStateM.Result ε σ α} :
    endsIn e r = true ↔ ∃ t, r = .error e t := by
  cases r with
  | ok a t =>
    constructor
    · intro h
      cases h
    · rintro ⟨u, h⟩
      cases h
  | error x t =>
    constructor
    · intro h
      rw [beq_iff_eq.mp h]
      exact ⟨t, rfl⟩
    · rintro ⟨u, h⟩
      cases h
      exact beq_self_eq_true e

end LibOsdp.Lib
