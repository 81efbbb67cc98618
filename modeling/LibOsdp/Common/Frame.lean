/-
Frames: what a part of the library leaves alone.

`Frame v w E s t` says that going from `s` to `t` no PD changed under the
view `v`, nothing else of the context changed under the view `w`, and the
history grew by entries of kind `E` only.  A view is what is looked at:
the PD with what may change blanked, or the few fields that matter, so
two frames compare by composing views.

The re-entrancy flag is never part of a view: every call that sets it
puts it back.
-/
import LibOsdp.Common.State
import LibOsdp.Lib.Keeps

namespace LibOsdp

open Lib

-- ================================================================ history

/-- No entry at all. -/
@[grind] def Obs.isNone (_ : Obs) : Bool := false

/-- Any entry. -/
@[grind] def Obs.isAny (_ : Obs) : Bool := true

/-- The history grew by entries of the given kind only. -/
def LogExt (E : Obs → Bool) (s t : Osdp) : Prop :=
  ∃ l, t.log = l ++ s.log ∧ ∀ o ∈ l, E o

instance (E : Obs → Bool) : IsPreorder Osdp (LogExt E) where
  refl s := ⟨[], rfl, fun _ h => absurd h List.not_mem_nil⟩
  trans := by
    rintro s t u ⟨l, hl, hE⟩ ⟨m, hm, hF⟩
    refine ⟨m ++ l, ?_, ?_⟩
    · rw [hm, hl, List.append_assoc]
    · intro o ho
      rcases List.mem_append.mp ho with h | h
      · exact hF o h
      · exact hE o h

/-- One more entry. -/
theorem LogExt.cons {E : Obs → Bool} {s : Osdp} {o : Obs} (h : E o) :
    LogExt E s { s with log := o :: s.log } :=
  ⟨[o], rfl, fun x hx => by rw [List.mem_singleton.mp hx]; exact h⟩

/-- A history that grew by nothing. -/
theorem LogExt.eq {s t : Osdp} (h : LogExt Obs.isNone s t) :
    t.log = s.log := by
  obtain ⟨l, hl, hE⟩ := h
  cases l with
  | nil => exact hl
  | cons o l => exact absurd (hE o List.mem_cons_self) (by simp [Obs.isNone])

/-- A history that did not grow. -/
theorem LogExt.of_eq {E : Obs → Bool} {s t : Osdp} (h : t.log = s.log) :
    LogExt E s t :=
  ⟨[], h, fun _ ho => absurd ho List.not_mem_nil⟩

/-- A larger kind. -/
theorem LogExt.mono {E F : Obs → Bool} {s t : Osdp} (h : LogExt E s t)
    (hEF : ∀ o, E o → F o) : LogExt F s t := by
  obtain ⟨l, hl, hE⟩ := h
  exact ⟨l, hl, fun o ho => hEF o (hE o ho)⟩

-- ================================================================= frames

/-- The context without its PDs, its history and the re-entrancy flag. -/
def Osdp.rest (s : Osdp) : Osdp :=
  { s with pd := fun _ => {}, log := [], running := false }

/-- Nothing of the context is looked at. -/
def noContext (_ : Osdp) : Unit := ()

/-- Nothing of a PD is looked at. -/
@[grind] def noPd (_ : OsdpPd) : Unit := ()

/-- Nothing changed outside the views' blanks. -/
structure Frame {V W : Type} (v : OsdpPd → V) (w : Osdp → W)
    (E : Obs → Bool) (s t : Osdp) : Prop where
  pd : ∀ j, v (t.pd j) = v (s.pd j)
  rest : w t.rest = w s.rest
  log : LogExt E s t

/-- Only the history is looked at. -/
abbrev Logs (E : Obs → Bool) : Osdp → Osdp → Prop := Frame noPd noContext E

section

variable {V V' W W' : Type} {v : OsdpPd → V} {v' : OsdpPd → V'}
variable {w : Osdp → W} {w' : Osdp → W'} {E E' : Obs → Bool}

instance : IsPreorder Osdp (Frame v w E) where
  refl s := ⟨fun _ => rfl, rfl, refl_of _ s⟩
  trans := by
    intro s t u h k
    exact ⟨fun j => (k.pd j).trans (h.pd j), k.rest.trans h.rest,
      trans_of _ h.log k.log⟩

/-- Views that blank more, and a larger kind of entry. -/
theorem Frame.mono {s t : Osdp} (h : Frame v w E s t)
    (hv : ∀ p q, v p = v q → v' p = v' q)
    (hw : ∀ a b, w a = w b → w' a = w' b) (hE : ∀ o, E o → E' o) :
    Frame v' w' E' s t :=
  ⟨fun j => hv _ _ (h.pd j), hw _ _ h.rest, h.log.mono hE⟩

/-- A view that looks at less of each PD and at nothing else. -/
theorem Frame.view {s t : Osdp} (h : Frame v w E s t) (f : V → V')
    (hf : ∀ p, f (v p) = v' p) (hE : ∀ o, E o → E' o) :
    Frame v' noContext E' s t := by
  refine ⟨fun j => ?_, rfl, h.log.mono hE⟩
  rw [← hf, ← hf, h.pd j]

theorem Frame.logs {s t : Osdp} (h : Frame v w E s t)
    (hE : ∀ o, E o → E' o) : Logs E' s t :=
  h.view (fun _ => ()) (fun _ => rfl) hE

/-- One PD changed, where the view is blank. -/
theorem Frame.updPd (s : Osdp) (i : Nat) {f : OsdpPd → OsdpPd}
    (h : ∀ p, v (f p) = v p) : Frame v w E s (s.updPd i f) := by
  refine ⟨fun j => ?_, rfl, refl_of (LogExt E) s⟩
  by_cases e : j = i
  · subst e
    rw [updPd_pd_same]
    exact h _
  · rw [updPd_pd_ne s f e]

@[grind ←]
theorem keeps_updPd {i : Nat} {f : OsdpPd → OsdpPd}
    (h : ∀ p, v (f p) = v p) : Keeps (Frame v w E) (updPd i f) := by
  intro s a t e
  cases e
  exact Frame.updPd s i h

/-- Whatever is done to a PD, the history stays. -/
@[grind ←]
theorem logs_updPd (i : Nat) (f : OsdpPd → OsdpPd) :
    Keeps (Logs E) (updPd i f) :=
  keeps_updPd fun _ => rfl

/-- What `keeps_updPd` says of a run. -/
theorem frame_of_updPd {i : Nat} {f : OsdpPd → OsdpPd} {s t : Osdp}
    {a : Unit} (e : updPd i f s = .ok a t) (h : ∀ p, v (f p) = v p) :
    Frame v w E s t :=
  (keeps_updPd h).of e

@[grind ←]
theorem keeps_observe {o : Obs} (h : E o) :
    Keeps (Frame v w E) (observe o) := by
  intro s a t e
  cases e
  exact ⟨fun _ => rfl, rfl, LogExt.cons h⟩

theorem keeps_running (b : Osdp → Bool) :
    Keeps (Frame v w E)
      (modify fun s => { s with running := b s } : OsdpM Unit) :=
  .modify fun s => ⟨fun _ => rfl, rfl, refl_of (LogExt E) s⟩

end

-- ============================================================ primitives

theorem getPd_ok {i : Nat} {s t : Osdp} {p : OsdpPd} :
    getPd i s = .ok p t ↔ s.pd i = p ∧ s = t := by
  constructor
  · intro h
    cases h
    exact ⟨rfl, rfl⟩
  · rintro ⟨rfl, rfl⟩
    rfl

theorem updPd_ok {i : Nat} {f : OsdpPd → OsdpPd} {s t : Osdp} {a : Unit} :
    updPd i f s = .ok a t ↔ s.updPd i f = t := by
  constructor
  · intro h
    cases h
    rfl
  · rintro rfl
    rfl

theorem observe_ok {o : Obs} {s t : Osdp} {a : Unit} :
    observe o s = .ok a t ↔ { s with log := o :: s.log } = t := by
  constructor
  · intro h
    cases h
    rfl
  · rintro rfl
    rfl

section Primitive

variable {R : Osdp → Osdp → Prop} [IsPreorder Osdp R]

@[grind ←]
theorem keeps_getPd (i : Nat) : Keeps R (getPd i) := by
  intro s a t h
  cases h
  exact refl_of R s

@[grind ←]
theorem keeps_osdpMillisNow : Keeps R osdpMillisNow := by
  intro s a t h
  cases h
  exact refl_of R s

@[grind ←]
theorem keeps_osdpMillisSince (last : Int) :
    Keeps R (osdpMillisSince last) := by
  intro s a t h
  cases h
  exact refl_of R s

@[grind ←]
theorem keeps_assertC (c : Bool) : Keeps R (assertC c) := by
  cases c
  · exact Keeps.throw _
  · exact Keeps.pure _

end Primitive

end LibOsdp
