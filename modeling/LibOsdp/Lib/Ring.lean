/-
Windows on a ring of cells.

`ringWindow cells size t n` reads `n` cells from `t` on, starting over at
zero behind the last.  A queue kept in a ring is such a window: from its
tail up to its head, `ringGap` cells long.  One cell is never used, so
that a full ring and an empty one differ.

# Use

Filling the cell at the head makes the window one longer (`window_push`),
moving the tail on takes the first cell off (`window_pop`); everything
else is the arithmetic of the two indices.
-/
import Mathlib.Data.List.Basic

namespace LibOsdp.Lib

variable {α : Type} {size : Nat}

-- ================================================================= indices

/-- The index behind `i`. -/
def ringNext (size i : Nat) : Nat := if size ≤ i + 1 then 0 else i + 1

/-- How many steps lead from `t` to `h`. -/
def ringGap (size t h : Nat) : Nat := if t ≤ h then h - t else h + size - t

/-- The index `k` steps behind `t`. -/
def ringAt (size t k : Nat) : Nat :=
  if t + k < size then t + k else t + k - size

variable {t h : Nat}

theorem ringNext_lt (hs : 0 < size) (i : Nat) : ringNext size i < size := by
  unfold ringNext
  split <;> omega

/-- The two indices are never a whole round apart. -/
theorem ringGap_lt (ht : t < size) (hh : h < size) :
    ringGap size t h < size := by
  unfold ringGap
  split <;> omega

theorem ringGap_eq_zero_iff (ht : t < size) :
    ringGap size t h = 0 ↔ h = t := by
  unfold ringGap
  split <;> omega

/-- The ring is full when one more step would close it. -/
theorem ringNext_eq_iff (ht : t < size) (hh : h < size) :
    ringNext size h = t ↔ ringGap size t h + 1 = size := by
  unfold ringNext ringGap
  split <;> split <;> omega

/-- Moving the head on makes the window longer, unless the ring is full. -/
theorem ringGap_next_head (ht : t < size) (hh : h < size)
    (hroom : ringNext size h ≠ t) :
    ringGap size t (ringNext size h) = ringGap size t h + 1 := by
  have hgap := mt (ringNext_eq_iff ht hh).mpr hroom
  unfold ringNext
  unfold ringGap at hgap ⊢
  split at hgap <;> split <;> split <;> omega

/-- Moving the tail on makes it shorter, unless the ring is empty. -/
theorem ringGap_next_tail (ht : t < size) (hh : h < size) (hne : h ≠ t) :
    ringGap size t h = ringGap size (ringNext size t) h + 1 := by
  unfold ringNext ringGap
  split <;> split <;> split <;> omega

/-- The head is the cell behind the window. -/
theorem ringAt_ringGap (ht : t < size) (hh : h < size) :
    ringAt size t (ringGap size t h) = h := by
  unfold ringAt ringGap
  split <;> split <;> omega

theorem ringAt_ringNext {k : Nat} (ht : t < size) (hk : k + 1 < size) :
    ringAt size (ringNext size t) k = ringAt size t (k + 1) := by
  unfold ringAt ringNext
  split <;> split <;> split <;> omega

/-- Less than a round, and no index comes twice. -/
theorem ringAt_ne {j k : Nat} (hj : j < k) (hk : k < size) :
    ringAt size t j ≠ ringAt size t k := by
  unfold ringAt
  split <;> split <;> omega

-- ================================================================= windows

/-- The `n` cells from `t` on. -/
def ringWindow (cells : Nat → α) (size : Nat) : Nat → Nat → List α
  | _, 0 => []
  | t, n + 1 => cells t :: ringWindow cells size (ringNext size t) n

variable {cells other : Nat → α}

theorem length_ringWindow (cells : Nat → α) (t n : Nat) :
    (ringWindow cells size t n).length = n := by
  induction n generalizing t with
  | zero => rfl
  | succ n ih =>
    unfold ringWindow
    rw [List.length_cons, ih]

/-- The last cell of a window. -/
theorem ringWindow_succ {n : Nat} (ht : t < size) (hn : n < size) :
    ringWindow cells size t (n + 1)
      = ringWindow cells size t n ++ [cells (ringAt size t n)] := by
  induction n generalizing t with
  | zero =>
    have hat : ringAt size t 0 = t := if_pos ht
    rw [hat]
    rfl
  | succ n ih =>
    have hnext := ringNext_lt (show 0 < size by omega) t
    rw [ringWindow, ih hnext (by omega), ringAt_ringNext ht hn]
    rfl

/-- Only the cells of the window matter. -/
theorem ringWindow_congr {n : Nat} (ht : t < size) (hn : n < size)
    (hc : ∀ k < n, cells (ringAt size t k) = other (ringAt size t k)) :
    ringWindow cells size t n = ringWindow other size t n := by
  induction n with
  | zero => rfl
  | succ n ih =>
    have hlast := hc n (Nat.lt_succ_self n)
    have hrest := ih (by omega) fun k hk => hc k (by omega)
    rw [ringWindow_succ ht (by omega), ringWindow_succ ht (by omega), hlast,
      hrest]

/-- The cell at the head was filled and the head moved on. -/
theorem window_push {x : α} (ht : t < size) (hh : h < size)
    (hroom : ringNext size h ≠ t) (hx : other h = x)
    (hsame : ∀ k, k ≠ h → other k = cells k) :
    ringWindow other size t (ringGap size t (ringNext size h))
      = ringWindow cells size t (ringGap size t h) ++ [x] := by
  have hgap := ringGap_lt ht hh
  have hhead := ringAt_ringGap ht hh
  have hkeep : ringWindow other size t (ringGap size t h)
      = ringWindow cells size t (ringGap size t h) := by
    refine ringWindow_congr ht hgap fun k hk => hsame _ ?_
    rw [← hhead]
    exact ringAt_ne hk hgap
  rw [ringGap_next_head ht hh hroom, ringWindow_succ ht hgap, hhead, hx,
    hkeep]

/-- The tail moved on. -/
theorem window_pop (ht : t < size) (hh : h < size) (hne : h ≠ t) :
    ringWindow cells size t (ringGap size t h)
      = cells t :: ringWindow cells size (ringNext size t)
        (ringGap size (ringNext size t) h) := by
  rw [ringGap_next_tail ht hh hne]
  rfl

end LibOsdp.Lib
