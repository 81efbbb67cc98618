/-
Programs whatever comes of them: the state a run leaves behind, be it by
returning or in an error.

`Abides R m` relates that state to the one `m` started from, so it says
more than `Keeps R m`, which is silent about a run that fails.  It
composes along the program in the same way.  `settles_bind` is the rule
for a sequence whose second half adds nothing: what the first half left
stands, whichever way the whole ended.
-/
import LibOsdp.Lib.Keeps

namespace LibOsdp.Lib

variable {ε σ α β : Type}

/-- The state a run leaves, however it ends. -/
def leaves (m : EStateM ε σ α) (s : σ) : σ :=
  match m s with
  | .ok _ t => t
  | .error _ t => t

theorem leaves_ok {m : EStateM ε σ α} {s t : σ} {a : α}
    (h : m s = .ok a t) : leaves m s = t := by
  unfold leaves
  rw [h]

theorem leaves_error {m : EStateM ε σ α} {s t : σ} {e : ε}
    (h : m s = .error e t) : leaves m s = t := by
  unfold leaves
  rw [h]

/-- Once its first half has returned, a program leaves what the second
half leaves. -/
theorem leaves_bind {m : EStateM ε σ α} {k : α → EStateM ε σ β} {s t : σ}
    {a : α} (h : m s = .ok a t) : leaves (m >>= k) s = leaves (k a) t := by
  unfold leaves
  rw [bind_eq h]

/-- However a run of `m` ends, it ends in a state related to the one it
started from. -/
def Abides (R : σ → σ → Prop) (m : EStateM ε σ α) : Prop :=
  ∀ s, R s (leaves m s)

/-- In particular where it returns. -/
theorem Abides.keeps {R : σ → σ → Prop} {m : EStateM ε σ α}
    (h : Abides R m) : Keeps R m := by
  intro s a t e
  have hs := h s
  rw [leaves_ok e] at hs
  exact hs

variable {R : σ → σ → Prop}

@[grind ←]
theorem Abides.modify {f : σ → σ} (h : ∀ s, R s (f s)) :
    Abides R (modify f : EStateM ε σ PUnit) := h

variable [IsPreorder σ R]

@[grind ←]
theorem Abides.pure (a : α) : Abides R (pure a : EStateM ε σ α) :=
  fun s => refl_of R s

@[grind ←]
theorem Abides.throw (e : ε) : Abides R (throw e : EStateM ε σ α) :=
  fun s => refl_of R s

@[grind ←]
theorem Abides.get : Abides R (get : EStateM ε σ σ) :=
  fun s => refl_of R s

/-- A second half that stays within `R` leaves what the first half left,
up to `R`. -/
theorem settles_bind {m : EStateM ε σ α} {k : α → EStateM ε σ β}
    (hk : ∀ a, Abides R (k a)) (s : σ) :
    R (leaves m s) (leaves (m >>= k) s) := by
  cases e : m s with
  | ok a t =>
    rw [leaves_ok e, leaves_bind e]
    exact hk a t
  | error x t =>
    have hbind : (m >>= k) s = .error x t := by
      simp only [Bind.bind, EStateM.bind, e]
    rw [leaves_error e, leaves_error hbind]
    exact refl_of R t

@[grind ←]
theorem Abides.bind {m : EStateM ε σ α} {k : α → EStateM ε σ β}
    (hm : Abides R m) (hk : ∀ a, Abides R (k a)) : Abides R (m >>= k) :=
  fun s => trans_of R (hm s) (settles_bind hk s)

end LibOsdp.Lib
