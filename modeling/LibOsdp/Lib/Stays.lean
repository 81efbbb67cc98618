/-
Programs that stay within a relation, however they end.

`Keeps R` says nothing of a run that ends in an error.  Where the state
such a run leaves matters too, `Stays R Q` says that both ways out stay
within `R`, and that a value that is returned satisfies `Q`.
-/
import LibOsdp.Lib.Keeps

namespace LibOsdp.Lib

variable {ε σ α β : Type}

/-- From start to end within `R`; a value returned satisfies `Q`. -/
structure Stays (R : σ → σ → Prop) (Q : α → Prop) (m : EStateM ε σ α) :
    Prop where
  ok : ∀ s a t, m s = .ok a t → R s t ∧ Q a
  error : ∀ s e t, m s = .error e t → R s t

variable {R : σ → σ → Prop} [IsPreorder σ R] {Q : α → Prop}

theorem Stays.pure {a : α} (h : Q a) :
    Stays R Q (Pure.pure a : EStateM ε σ α) := by
  constructor
  · intro s b t e
    obtain ⟨rfl, rfl⟩ := pure_ok.mp e
    exact ⟨refl_of R s, h⟩
  · intro s e t h
    cases h

theorem Stays.throw (e : ε) :
    Stays R Q (MonadExcept.throw e : EStateM ε σ α) := by
  constructor
  · intro s a t h
    cases h
  · intro s e' t h
    cases h
    exact refl_of R s

omit [IsPreorder σ R] in
/-- A program that never errs. -/
theorem Stays.of_total {m : EStateM ε σ α}
    (h : ∀ s, ∃ a t, m s = .ok a t ∧ R s t ∧ Q a) : Stays R Q m := by
  constructor
  · intro s a t e
    obtain ⟨a', t', e', hR, hQ⟩ := h s
    rw [e] at e'
    cases e'
    exact ⟨hR, hQ⟩
  · intro s x t e
    obtain ⟨a', t', e', -, -⟩ := h s
    rw [e] at e'
    cases e'

theorem Stays.bind {P : β → Prop} {m : EStateM ε σ α}
    {k : α → EStateM ε σ β} (hm : Stays R Q m)
    (hk : ∀ a, Q a → Stays R P (k a)) : Stays R P (m >>= k) := by
  constructor
  · intro s b u h
    obtain ⟨a, t, h₁, h₂⟩ := bind_ok.mp h
    obtain ⟨hst, ha⟩ := hm.ok s a t h₁
    obtain ⟨htu, hb⟩ := (hk a ha).ok t b u h₂
    exact ⟨trans_of R hst htu, hb⟩
  · intro s e u h
    simp only [Bind.bind, EStateM.bind] at h
    cases hms : m s with
    | ok a t =>
      rw [hms] at h
      obtain ⟨hst, ha⟩ := hm.ok s a t hms
      exact trans_of R hst ((hk a ha).error t e u h)
    | error x t =>
      rw [hms] at h
      cases h
      exact hm.error s e u hms

end LibOsdp.Lib
