/-
Properties of a history that grows at the front.

A history is a list, newest entry first.  `Always P` says that every entry
satisfied `P` together with what came before it: the form in which a
safety property of a run is stated when the run leaves a trace.

Entries a property does not look at are neutral: appending them keeps it,
which is what turns "this part of the program leaves only such entries"
into "this part of the program preserves the property".
-/
import Mathlib.Data.List.Basic

namespace LibOsdp.Lib

variable {α β : Type}

/-- Every entry satisfies `P` together with the entries before it. -/
def Always (P : α → List α → Prop) : List α → Prop
  | [] => True
  | o :: past => P o past ∧ Always P past

instance decidableAlways {P : α → List α → Prop}
    [∀ o past, Decidable (P o past)] : (h : List α) → Decidable (Always P h)
  | [] => .isTrue trivial
  | o :: past =>
    have : Decidable (Always P past) := decidableAlways past
    inferInstanceAs (Decidable (P o past ∧ Always P past))

/-- The same, read off a split of the history. -/
theorem always_iff {P : α → List α → Prop} {h : List α} :
    Always P h ↔
      ∀ later o past, h = later ++ o :: past → P o past := by
  induction h with
  | nil =>
    refine ⟨fun _ later o past e => ?_, fun _ => trivial⟩
    cases later <;> cases e
  | cons a h ih =>
    constructor
    · rintro ⟨ha, hp⟩ later o past e
      cases later with
      | nil =>
        cases e
        exact ha
      | cons b later =>
        injection e with _ e
        exact ih.mp hp later o past e
    · intro hall
      exact ⟨hall [] a h rfl, ih.mpr fun later o past e =>
        hall (a :: later) o past (by rw [e]; rfl)⟩

/-- The same, of the entry at a position. -/
theorem Always.at {P : α → List α → Prop} {h : List α} (hp : Always P h)
    {n : Nat} {o : α} (ho : h[n]? = some o) : P o (h.drop (n + 1)) := by
  induction n generalizing h with
  | zero =>
    cases h with
    | nil => cases ho
    | cons a h =>
      cases ho
      exact hp.1
  | succ n ih =>
    cases h with
    | nil => cases ho
    | cons a h => exact ih hp.2 ho

/-- Entries `P` holds of whatever came before keep the property. -/
theorem Always.append {P : α → List α → Prop} {h : List α}
    (hp : Always P h) {l : List α} (hl : ∀ o ∈ l, ∀ past, P o past) :
    Always P (l ++ h) := by
  induction l with
  | nil => exact hp
  | cons a l ih =>
    refine ⟨hl a List.mem_cons_self _, ih fun o ho => ?_⟩
    exact hl o (List.mem_cons_of_mem a ho)

/-- A stronger property. -/
theorem Always.mono {P Q : α → List α → Prop} {h : List α}
    (hp : Always P h) (hPQ : ∀ o past, P o past → Q o past) :
    Always Q h := by
  induction h with
  | nil => trivial
  | cons a h ih => exact ⟨hPQ _ _ hp.1, ih hp.2⟩

/-- An entry met `Q`, together with what came before it, and every entry
since was one of `hold`. -/
def Since (hold : α → Prop) (Q : α → List α → Prop) : List α → Prop
  | [] => False
  | o :: past => Q o past ∨ hold o ∧ Since hold Q past

instance decidableSince {hold : α → Prop} {Q : α → List α → Prop}
    [DecidablePred hold] [∀ o past, Decidable (Q o past)] :
    (h : List α) → Decidable (Since hold Q h)
  | [] => .isFalse id
  | o :: past =>
    have : Decidable (Since hold Q past) := decidableSince past
    inferInstanceAs (Decidable (Q o past ∨ hold o ∧ Since hold Q past))

/-- What was the case is, after an entry that lets it stand. -/
theorem Since.hold {hold : α → Prop} {Q : α → List α → Prop} {o : α}
    {h : List α} (hs : Since hold Q h) (ho : hold o) :
    Since hold Q (o :: h) :=
  .inr ⟨ho, hs⟩

/-- The same, read off a split of the history. -/
theorem since_iff {hold : α → Prop} {Q : α → List α → Prop} {h : List α} :
    Since hold Q h ↔
      ∃ later o past, h = later ++ o :: past ∧ Q o past ∧
        ∀ x ∈ later, hold x := by
  induction h with
  | nil =>
    refine ⟨False.elim, ?_⟩
    rintro ⟨later, o, past, e, -⟩
    cases later <;> cases e
  | cons a h ih =>
    constructor
    · rintro (hq | ⟨ha, hs⟩)
      · exact ⟨[], a, h, rfl, hq, nofun⟩
      · obtain ⟨later, o, past, rfl, hq, hl⟩ := ih.mp hs
        refine ⟨a :: later, o, past, rfl, hq, fun x hx => ?_⟩
        rcases List.mem_cons.mp hx with rfl | hx
        · exact ha
        · exact hl x hx
    · rintro ⟨later, o, past, e, hq, hl⟩
      cases later with
      | nil =>
        cases e
        exact .inl hq
      | cons b later =>
        injection e with e₁ e₂
        subst e₁
        exact .inr ⟨hl _ List.mem_cons_self,
          ih.mpr ⟨later, o, past, e₂, hq,
            fun x hx => hl x (List.mem_cons_of_mem _ hx)⟩⟩

/-- Entries a monitor ignores do not move it. -/
theorem foldr_neutral {f : α → β → β} {b : β} {h l : List α}
    (hl : ∀ o ∈ l, ∀ x, f o x = x) :
    (l ++ h).foldr f b = h.foldr f b := by
  rw [List.foldr_append]
  induction l with
  | nil => rfl
  | cons a l ih =>
    rw [List.foldr_cons, hl a List.mem_cons_self]
    exact ih fun o ho => hl o (List.mem_cons_of_mem a ho)

end LibOsdp.Lib
