/-
Reasoning about programs in the state and exception monad: what a run
that returns says about the state it started from.

# Two ways to look at a run

`Keeps R m` relates the state before `m` to the state after it, whatever
`m` returns.  For a preorder `R` this composes along the program: each
rule below is one construct of the language, and `@[grind ←]` lets a
proof follow the program's own structure.

Where the value returned matters, a run is taken apart instead:
`bind_ok` turns a run of a sequence into a run of each half with the state
in between.

`Ends R P m` mixes the two: `m` stays within `R` up to a last act, and
`P` says what that act did and returned.  `Returns` is about the value
alone.

A run that ends in an error satisfies every one of these.
-/
import Mathlib.Order.Defs.Unbundled

namespace LibOsdp.Lib

section Rules

variable {ε σ α β : Type}

-- ============================================================ inversion

/-- A sequence returned: so did both halves. -/
theorem bind_ok {m : EStateM ε σ α} {k : α → EStateM ε σ β} {s u : σ}
    {b : β} :
    (m >>= k) s = .ok b u ↔ ∃ a t, m s = .ok a t ∧ k a t = .ok b u := by
  constructor
  · intro h
    simp only [Bind.bind, EStateM.bind] at h
    cases e : m s with
    | ok a t =>
      rw [e] at h
      exact ⟨a, t, rfl, h⟩
    | error x t =>
      rw [e] at h
      cases h
  · rintro ⟨a, t, hm, hk⟩
    simp only [Bind.bind, EStateM.bind, hm]
    exact hk

/-- What a program comes to once its first half has returned. -/
theorem bind_eq {m : EStateM ε σ α} {k : α → EStateM ε σ β} {s t : σ}
    {a : α} (h : m s = .ok a t) : (m >>= k) s = k a t := by
  simp only [Bind.bind, EStateM.bind, h]

/-- Returning a value changes nothing. -/
theorem pure_ok {a b : α} {s t : σ} :
    (pure a : EStateM ε σ α) s = .ok b t ↔ a = b ∧ s = t := by
  constructor
  · intro h
    cases h
    exact ⟨rfl, rfl⟩
  · rintro ⟨rfl, rfl⟩
    rfl

/-- An error is not a return. -/
theorem throw_ok {e : ε} {b : α} {s t : σ} :
    ¬ (throw e : EStateM ε σ α) s = .ok b t := by
  intro h
  cases h

/-- Reading the state returns it. -/
theorem get_ok {s t u : σ} :
    (get : EStateM ε σ σ) s = .ok t u ↔ s = t ∧ s = u := by
  constructor
  · intro h
    cases h
    exact ⟨rfl, rfl⟩
  · rintro ⟨rfl, rfl⟩
    rfl

/-- Changing the state. -/
theorem modify_ok {f : σ → σ} {s t : σ} {a : PUnit} :
    (modify f : EStateM ε σ PUnit) s = .ok a t ↔ f s = t := by
  constructor
  · intro h
    cases h
    rfl
  · rintro rfl
    rfl

/-- A run returned, and its end is as `P` says. -/
def Reaches (P : σ → Prop) : EStateM.Result ε σ Unit → Prop
  | .ok _ t => P t
  | .error _ _ => False

instance {P : σ → Prop} [DecidablePred P] (r : EStateM.Result ε σ Unit) :
    Decidable (Reaches P r) :=
  match r with
  | .ok _ t => inferInstanceAs (Decidable (P t))
  | .error _ _ => inferInstanceAs (Decidable False)

theorem Reaches.ok {P : σ → Prop} {r : EStateM.Result ε σ Unit}
    (h : Reaches P r) : ∃ t, r = .ok () t ∧ P t := by
  cases r with
  | ok a t => exact ⟨t, rfl, h⟩
  | error e t => cases h

-- ================================================================ keeps

/-- Every run of `m` that returns ends in a state related to the one it
started from. -/
def Keeps (R : σ → σ → Prop) (m : EStateM ε σ α) : Prop :=
  ∀ s a t, m s = .ok a t → R s t

/-- A weaker relation is kept as well. -/
theorem Keeps.mono {R S : σ → σ → Prop} {m : EStateM ε σ α}
    (h : Keeps R m) (hRS : ∀ s t, R s t → S s t) : Keeps S m :=
  fun s a t e => hRS s t (h s a t e)

/-- What `m` keeps, of a run of `m`. -/
theorem Keeps.of {R : σ → σ → Prop} {m : EStateM ε σ α} {s t : σ} {a : α}
    (h : Keeps R m) (e : m s = .ok a t) : R s t := h s a t e

/-- Both branches of a test. -/
theorem Keeps.ite {R : σ → σ → Prop} {c : Prop} [Decidable c]
    {m m' : EStateM ε σ α} (h : Keeps R m) (h' : Keeps R m') :
    Keeps R (if c then m else m') := by
  by_cases hc : c
  · rw [if_pos hc]
    exact h
  · rw [if_neg hc]
    exact h'

variable {R : σ → σ → Prop}

@[grind ←]
theorem Keeps.throw (e : ε) : Keeps R (throw e : EStateM ε σ α) := by
  intro s b t h
  exact absurd h throw_ok

@[grind ←]
theorem Keeps.modify {f : σ → σ} (h : ∀ s, R s (f s)) :
    Keeps R (modify f : EStateM ε σ PUnit) := by
  intro s a t e
  rw [← modify_ok.mp e]
  exact h s

variable [IsPreorder σ R]

@[grind ←]
theorem Keeps.pure (a : α) : Keeps R (pure a : EStateM ε σ α) := by
  intro s b t h
  obtain ⟨-, rfl⟩ := pure_ok.mp h
  exact refl_of R s

@[grind ←]
theorem Keeps.get : Keeps R (get : EStateM ε σ σ) := by
  intro s a t h
  obtain ⟨-, rfl⟩ := get_ok.mp h
  exact refl_of R s

@[grind ←]
theorem Keeps.bind {m : EStateM ε σ α} {k : α → EStateM ε σ β}
    (hm : Keeps R m) (hk : ∀ a, Keeps R (k a)) : Keeps R (m >>= k) := by
  intro s b u h
  obtain ⟨a, t, h₁, h₂⟩ := bind_ok.mp h
  exact trans_of R (hm s a t h₁) (hk a t b u h₂)

-- ================================================================ values

/-- Every value `m` returns satisfies `Q`. -/
def Returns (Q : α → Prop) (m : EStateM ε σ α) : Prop :=
  ∀ s a t, m s = .ok a t → Q a

@[grind ←]
theorem Returns.pure {Q : α → Prop} {a : α} (h : Q a) :
    Returns Q (pure a : EStateM ε σ α) := by
  intro s b t e
  obtain ⟨rfl, -⟩ := pure_ok.mp e
  exact h

@[grind ←]
theorem Returns.throw {Q : α → Prop} (e : ε) :
    Returns Q (throw e : EStateM ε σ α) := by
  intro s b t h
  exact absurd h throw_ok

@[grind ←]
theorem Returns.bind {Q : β → Prop} {m : EStateM ε σ α}
    {k : α → EStateM ε σ β} (hk : ∀ a, Returns Q (k a)) :
    Returns Q (m >>= k) := by
  intro s b u h
  obtain ⟨a, t, -, h₂⟩ := bind_ok.mp h
  exact hk a t b u h₂

/-- The value of the first half matters to the second. -/
theorem Returns.bind_of {Q : α → Prop} {Q' : β → Prop} {m : EStateM ε σ α}
    {k : α → EStateM ε σ β} (hm : Returns Q m)
    (hk : ∀ a, Q a → Returns Q' (k a)) : Returns Q' (m >>= k) := by
  intro s b u h
  obtain ⟨a, t, h₁, h₂⟩ := bind_ok.mp h
  exact hk a (hm s a t h₁) t b u h₂

-- ============================================================= last act

/-- Every run of `m` that returns stays within `R` up to a last act, which
`P` describes. -/
def Ends (R : σ → σ → Prop) (P : σ → α → σ → Prop)
    (m : EStateM ε σ α) : Prop :=
  ∀ s a u, m s = .ok a u → ∃ t, R s t ∧ P t a u

section Ends

variable {P : σ → β → σ → Prop}

/-- All of `m` is the last act. -/
theorem Ends.last {m : EStateM ε σ β}
    (h : ∀ s a t, m s = .ok a t → P s a t) : Ends R P m :=
  fun s a t e => ⟨s, refl_of R s, h s a t e⟩

@[grind ←]
theorem Ends.pure {b : β} (h : ∀ s, P s b s) :
    Ends R P (pure b : EStateM ε σ β) := by
  refine .last fun s a t e => ?_
  obtain ⟨rfl, rfl⟩ := pure_ok.mp e
  exact h s

omit [IsPreorder σ R] in
@[grind ←]
theorem Ends.throw (e : ε) : Ends R P (throw e : EStateM ε σ β) := by
  intro s b t h
  exact absurd h throw_ok

@[grind ←]
theorem Ends.bind {m : EStateM ε σ α} {k : α → EStateM ε σ β}
    (hm : Keeps R m) (hk : ∀ a, Ends R P (k a)) : Ends R P (m >>= k) := by
  intro s b u h
  obtain ⟨a, t, h₁, h₂⟩ := bind_ok.mp h
  obtain ⟨w, hw, hP⟩ := hk a t b u h₂
  exact ⟨w, trans_of R (hm s a t h₁) hw, hP⟩

/-- There is nothing to the last act but staying within `R`. -/
theorem Ends.of_keeps {m : EStateM ε σ β} (h : Keeps R m)
    (hP : ∀ s a t, R s t → P s a t) : Ends R P m :=
  .last fun s a t e => hP s a t (h s a t e)

omit [IsPreorder σ R] in
/-- The value is passed on in another form. -/
theorem Ends.map {m : EStateM ε σ α} {Q : σ → α → σ → Prop} {g : α → β}
    (h : Ends R Q m) (hP : ∀ s a t, Q s a t → P s (g a) t) :
    Ends R P (m >>= fun a => Pure.pure (g a)) := by
  intro s b u e
  obtain ⟨a, t, h₁, h₂⟩ := bind_ok.mp e
  obtain ⟨rfl, rfl⟩ := pure_ok.mp h₂
  obtain ⟨w, hw, hQ⟩ := h s a t h₁
  exact ⟨w, hw, hP w a t hQ⟩

/-- The value of the first half matters to the second. -/
theorem Ends.bind_of {m : EStateM ε σ α} {k : α → EStateM ε σ β}
    {Q : α → Prop} (hm : Keeps R m) (hQ : Returns Q m)
    (hk : ∀ a, Q a → Ends R P (k a)) : Ends R P (m >>= k) := by
  intro s b u h
  obtain ⟨a, t, h₁, h₂⟩ := bind_ok.mp h
  obtain ⟨w, hw, hP⟩ := hk a (hQ s a t h₁) t b u h₂
  exact ⟨w, trans_of R (hm s a t h₁) hw, hP⟩

end Ends

end Rules

end LibOsdp.Lib
