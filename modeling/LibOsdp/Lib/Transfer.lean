/-
Moving a sequence from a sender to a receiver in slices, over a channel
that may lose, repeat and reorder them.

Each side keeps the offset up to which it has committed, and one slice it
has not: the sender the one it offered last, the receiver the one it took
last.  The sender commits a slice the receiver has committed before, and
the receiver takes a slice only where it leaves no gap.  Slices may be
offered anew with another length as long as they are not committed.

# What holds

The receiver's cells up to its offset are the sequence's, whatever they
held before (`Transfer.Inv`), its offset never goes back, and the sender's
never passes it.
-/
import Mathlib.Data.List.Basic
import Mathlib.Logic.Relation

namespace LibOsdp.Lib

variable {α : Type}

-- =================================================================== cells

/-- The receiver's cells. -/
abbrev Cells (α : Type) := Nat → α

/-- The `n` cells from `off` on hold what the sequence has there. -/
def Filled (payload : List α) (mem : Cells α) (off n : Nat) : Prop :=
  ∀ k, off ≤ k → k < off + n → payload[k]? = some (mem k)

/-- Cells were given what the sequence has there, or left alone. -/
def Fills (payload : List α) (mem mem' : Cells α) : Prop :=
  ∀ k, mem' k = mem k ∨ payload[k]? = some (mem' k)

variable {payload : List α} {mem mem' : Cells α} {off n : Nat}

theorem Fills.refl (payload : List α) (mem : Cells α) :
    Fills payload mem mem := fun _ => .inl rfl

/-- Filled cells stay filled. -/
theorem Filled.fills (h : Filled payload mem off n)
    (hf : Fills payload mem mem') : Filled payload mem' off n := by
  intro k hlo hhi
  rcases hf k with e | e
  · rw [e]
    exact h k hlo hhi
  · exact e

theorem Filled.nil (payload : List α) (mem : Cells α) (off : Nat) :
    Filled payload mem off 0 := by
  intro k hlo hhi
  omega

/-- Cells that are filled up to `m`, and from `off` on with no gap
between, are filled up to the end of both. -/
theorem Filled.join {m : Nat} (h : Filled payload mem 0 m)
    (hs : Filled payload mem off n) (hgap : off ≤ m) :
    Filled payload mem 0 (max m (off + n)) := by
  intro k _ hk
  by_cases hm : k < m
  · exact h k (Nat.zero_le k) (by omega)
  · exact hs k (by omega) (by omega)

-- ============================================================ the transfer

/-- A slice, by its offset and length. -/
structure Slice where
  off : Nat
  len : Nat
  deriving DecidableEq

/-- Where the slice ends. -/
def Slice.stop (x : Slice) : Nat := x.off + x.len

/-- Both sides of a transfer, and the slices between them. -/
structure Transfer (α : Type) where
  /-- up to where the sender has committed -/
  sent : Nat
  /-- the length of the slice it offered last -/
  last : Nat
  /-- every slice it has offered -/
  offered : Slice → Prop
  /-- up to where the receiver has committed -/
  got : Nat
  /-- the slice it took last -/
  held : Slice
  /-- every slice it has committed -/
  acked : Slice → Prop
  mem : Cells α

/-- A step of either side.  A slice that was offered once may be taken any
number of times, or never. -/
inductive Transfer.Step (payload : List α) :
    Transfer α → Transfer α → Prop where
  | offer (s : Transfer α) (n : Nat) (fits : s.sent + n ≤ payload.length) :
      Step payload s
        { s with
          last := n
          offered := fun x => x = ⟨s.sent, n⟩ ∨ s.offered x }
  | commit (s : Transfer α) (ack : s.last = 0 ∨ s.acked ⟨s.sent, s.last⟩) :
      Step payload s { s with sent := s.sent + s.last, last := 0 }
  | take (s : Transfer α) (x : Slice) (mem : Cells α)
      (flight : s.offered x) (gapless : x.off ≤ s.got)
      (fills : Fills payload s.mem mem)
      (written : Filled payload mem x.off x.len) :
      Step payload s { s with held := x, mem := mem }
  | refuse (s : Transfer α) (mem : Cells α)
      (fills : Fills payload s.mem mem) :
      Step payload s { s with mem := mem }
  | ack (s : Transfer α) :
      Step payload s
        { s with
          got := max s.got s.held.stop
          held := ⟨s.held.off, 0⟩
          acked := fun x => x = s.held ∨ s.acked x }

/-- Nothing has been sent yet. -/
structure Transfer.Fresh (s : Transfer α) : Prop where
  sent : s.sent = 0
  last : s.last = 0
  got : s.got = 0
  held : s.held = ⟨0, 0⟩
  offered : ∀ x, ¬ s.offered x
  acked : ∀ x, ¬ s.acked x

/-- What holds throughout a transfer. -/
structure Transfer.Inv (payload : List α) (s : Transfer α) : Prop where
  behind : s.sent ≤ s.got
  bounded : s.got ≤ payload.length
  offered : ∀ x, s.offered x → x.stop ≤ payload.length
  gapless : s.held.off ≤ s.got
  inside : s.held.stop ≤ payload.length
  written : Filled payload s.mem s.held.off s.held.len
  committed : Filled payload s.mem 0 s.got
  acked : ∀ x, s.acked x → x.stop ≤ s.got

variable {s t : Transfer α}

theorem Transfer.Fresh.inv (h : s.Fresh) : s.Inv payload where
  behind := Nat.le_of_eq (h.sent.trans h.got.symm)
  bounded := by rw [h.got]; exact Nat.zero_le _
  offered x hx := (h.offered x hx).elim
  gapless := by rw [h.held]; exact Nat.zero_le _
  inside := by rw [h.held]; exact Nat.zero_le _
  written := by rw [h.held]; exact .nil _ _ _
  committed := by rw [h.got]; exact .nil _ _ _
  acked x hx := (h.acked x hx).elim

/-- Every step keeps it. -/
theorem Transfer.Inv.step (h : s.Inv payload)
    (hst : Transfer.Step payload s t) : t.Inv payload := by
  cases hst with
  | offer n fits =>
    refine { h with offered := fun x hx => ?_ }
    rcases hx with rfl | hx
    · exact fits
    · exact h.offered x hx
  | commit ack =>
    refine { h with behind := ?_ }
    rcases ack with hz | hack
    · show s.sent + s.last ≤ s.got
      rw [hz]
      exact h.behind
    · exact h.acked _ hack
  | take x mem flight gapless fills written =>
    exact
      { h with
        gapless := gapless
        inside := h.offered x flight
        written := written
        committed := h.committed.fills fills }
  | refuse mem fills =>
    exact
      { h with
        written := h.written.fills fills
        committed := h.committed.fills fills }
  | ack =>
    have hgot : s.got ≤ max s.got s.held.stop := Nat.le_max_left _ _
    have hheld : s.held.stop ≤ max s.got s.held.stop :=
      Nat.le_max_right _ _
    exact
      { behind := Nat.le_trans h.behind hgot
        bounded := Nat.max_le.mpr ⟨h.bounded, h.inside⟩
        offered := h.offered
        gapless := Nat.le_trans h.gapless hgot
        inside := Nat.le_trans (Nat.le_add_right _ _) h.inside
        written := .nil _ _ _
        committed := h.committed.join h.written h.gapless
        acked := fun x hx => by
          rcases hx with rfl | hx
          · exact hheld
          · exact Nat.le_trans (h.acked x hx) hgot }

/-- Neither side goes back. -/
theorem Transfer.Step.forward (hst : Transfer.Step payload s t) :
    s.sent ≤ t.sent ∧ s.got ≤ t.got := by
  cases hst with
  | commit ack => exact ⟨Nat.le_add_right _ _, Nat.le_refl _⟩
  | ack => exact ⟨Nat.le_refl _, Nat.le_max_left _ _⟩
  | _ => exact ⟨Nat.le_refl _, Nat.le_refl _⟩

/-- A slice taken that reaches the end leaves the whole sequence with the
receiver. -/
theorem Transfer.Inv.whole (h : s.Inv payload)
    (hend : payload.length ≤ s.held.stop) :
    Filled payload s.mem 0 payload.length := by
  have hjoin := h.committed.join h.written h.gapless
  have hreach : payload.length ≤ max s.got s.held.stop :=
    Nat.le_trans hend (Nat.le_max_right _ _)
  intro k hlo hhi
  rw [Nat.zero_add] at hhi
  exact hjoin k hlo (by rw [Nat.zero_add]; exact Nat.lt_of_lt_of_le hhi hreach)

end LibOsdp.Lib
