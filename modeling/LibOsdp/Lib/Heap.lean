/-
A heap of blocks.

A block is named by when it was asked for, so that no name is used twice:
`next` is the first name not given out yet, and nothing lives from there
on (`beyond`).  Asking costs a name whether or not it succeeds.

# Accounting

`Acquired base acq h` compares two heaps: `h` holds the blocks `acq` that
`base` does not, under their names, and is `base` everywhere else.  Asking
for a block adds an entry, giving one back takes it away, and a heap with
no entry left is the one it started from (`Acquired.done`).
-/
import Mathlib.Data.List.Perm.Basic
import Mathlib.Data.List.Nodup

namespace LibOsdp.Lib

/-- Blocks by name, and the first name that is free. -/
structure Heap (β : Type) where
  cell : Nat → Option β
  next : Nat
  beyond : ∀ a, next ≤ a → cell a = none

namespace Heap

variable {β : Type} {h base : Heap β} {a x : Nat} {b c : β}

/-- No block at all. -/
def empty : Heap β := ⟨fun _ => none, 0, fun _ _ => rfl⟩

/-- A block was asked for and there was none. -/
def skip (h : Heap β) : Heap β :=
  ⟨h.cell, h.next + 1, fun a ha => h.beyond a (by omega)⟩

/-- A new block that holds `b`; its name is `h.next`. -/
def alloc (h : Heap β) (b : β) : Heap β where
  cell := fun x => if x = h.next then some b else h.cell x
  next := h.next + 1
  beyond := by
    intro x hx
    rw [if_neg (by omega)]
    exact h.beyond x (by omega)

/-- The block `a`, if it lives, holds `b` from now on. -/
def store (h : Heap β) (a : Nat) (b : β) : Heap β where
  cell := fun x => if x = a then (h.cell a).map fun _ => b else h.cell x
  next := h.next
  beyond := by
    intro x hx
    split
    · next e => rw [← e, h.beyond x hx]; rfl
    · exact h.beyond x hx

/-- The block `a` is given back. -/
def free (h : Heap β) (a : Nat) : Heap β where
  cell := fun x => if x = a then none else h.cell x
  next := h.next
  beyond := by
    intro x hx
    split
    · rfl
    · exact h.beyond x hx

@[simp] theorem cell_skip : h.skip.cell = h.cell := rfl

@[simp] theorem cell_alloc_same : (h.alloc b).cell h.next = some b :=
  if_pos rfl

theorem cell_alloc_ne (hx : x ≠ h.next) : (h.alloc b).cell x = h.cell x :=
  if_neg hx

theorem cell_store_same (hc : h.cell a = some c) :
    (h.store a b).cell a = some b := by
  show (if a = a then _ else _) = _
  rw [if_pos rfl, hc]
  rfl

theorem cell_store_ne (hx : x ≠ a) : (h.store a b).cell x = h.cell x :=
  if_neg hx

@[simp] theorem cell_free_same : (h.free a).cell a = none := if_pos rfl

theorem cell_free_ne (hx : x ≠ a) : (h.free a).cell x = h.cell x :=
  if_neg hx

/-- What lives has been given a name. -/
theorem lt_next (hc : h.cell a = some b) : a < h.next := by
  by_contra hge
  rw [h.beyond a (Nat.not_lt.mp hge)] at hc
  cases hc

end Heap

-- ============================================================= accounting

/-- `h` is `base` with the blocks `acq` besides. -/
structure Acquired {β : Type} (base : Heap β) (acq : List (Nat × β))
    (h : Heap β) : Prop where
  distinct : (acq.map Prod.fst).Nodup
  fresh : ∀ p ∈ acq, base.next ≤ p.1
  held : ∀ p ∈ acq, h.cell p.1 = some p.2
  others : ∀ a, a ∉ acq.map Prod.fst → h.cell a = base.cell a
  frontier : base.next ≤ h.next

namespace Acquired

variable {β : Type} {base h : Heap β} {acq acq' : List (Nat × β)}
variable {a : Nat} {b c : β}

theorem mem_names {p : Nat × β} (hp : p ∈ acq) :
    p.1 ∈ acq.map Prod.fst :=
  List.mem_map.mpr ⟨p, hp, rfl⟩

/-- Nothing was asked for. -/
theorem refl (h : Heap β) : Acquired h [] h :=
  ⟨List.nodup_nil, fun _ hp => absurd hp List.not_mem_nil,
    fun _ hp => absurd hp List.not_mem_nil, fun _ _ => rfl, Nat.le_refl _⟩

/-- Everything was given back. -/
theorem done (hq : Acquired base [] h) : h.cell = base.cell :=
  funext fun a => hq.others a List.not_mem_nil

/-- The order of the entries does not matter. -/
theorem perm (hq : Acquired base acq h) (hp : acq.Perm acq') :
    Acquired base acq' h := by
  have hmap : (acq.map Prod.fst).Perm (acq'.map Prod.fst) := hp.map _
  exact ⟨hmap.nodup_iff.mp hq.distinct,
    fun p h => hq.fresh p (hp.mem_iff.mpr h),
    fun p h => hq.held p (hp.mem_iff.mpr h),
    fun a h => hq.others a fun hm => h (hmap.mem_iff.mp hm), hq.frontier⟩

/-- An attempt that failed. -/
theorem skip (hq : Acquired base acq h) : Acquired base acq h.skip :=
  ⟨hq.distinct, hq.fresh, hq.held, hq.others,
    Nat.le_succ_of_le hq.frontier⟩

/-- The names given out are below the next one. -/
theorem lt_next (hq : Acquired base acq h) {p : Nat × β} (hp : p ∈ acq) :
    p.1 < h.next :=
  Heap.lt_next (hq.held p hp)

/-- A new block. -/
theorem alloc (hq : Acquired base acq h) (b : β) :
    Acquired base ((h.next, b) :: acq) (h.alloc b) := by
  have hnew : h.next ∉ acq.map Prod.fst := by
    intro hm
    obtain ⟨p, hp, he⟩ := List.mem_map.mp hm
    have hlt := hq.lt_next hp
    omega
  refine ⟨?_, ?_, ?_, ?_, Nat.le_succ_of_le hq.frontier⟩
  · exact List.nodup_cons.mpr ⟨hnew, hq.distinct⟩
  · intro p hp
    rcases List.mem_cons.mp hp with rfl | hp
    · exact hq.frontier
    · exact hq.fresh p hp
  · intro p hp
    rcases List.mem_cons.mp hp with rfl | hp
    · exact Heap.cell_alloc_same
    · rw [Heap.cell_alloc_ne (Nat.ne_of_lt (hq.lt_next hp))]
      exact hq.held p hp
  · intro x hx
    obtain ⟨hne, hx⟩ := not_or.mp (mt List.mem_cons.mpr hx)
    rw [Heap.cell_alloc_ne hne]
    exact hq.others x hx

/-- A block that was asked for is written. -/
theorem store (hq : Acquired base ((a, b) :: acq) h) (c : β) :
    Acquired base ((a, c) :: acq) (h.store a c) := by
  have hnew : a ∉ acq.map Prod.fst := (List.nodup_cons.mp hq.distinct).1
  have hheld := hq.held (a, b) List.mem_cons_self
  refine ⟨hq.distinct, ?_, ?_, ?_, hq.frontier⟩
  · intro p hp
    rcases List.mem_cons.mp hp with rfl | hp
    · exact hq.fresh (a, b) List.mem_cons_self
    · exact hq.fresh p (List.mem_cons_of_mem _ hp)
  · intro p hp
    rcases List.mem_cons.mp hp with rfl | hp
    · exact Heap.cell_store_same hheld
    · have hne : p.1 ≠ a := fun e => hnew (e ▸ mem_names hp)
      rw [Heap.cell_store_ne hne]
      exact hq.held p (List.mem_cons_of_mem _ hp)
  · intro x hx
    have hne : x ≠ a := fun e => hx (List.mem_cons.mpr (.inl e))
    rw [Heap.cell_store_ne hne]
    exact hq.others x hx

/-- A block that was asked for is given back. -/
theorem free (hq : Acquired base ((a, b) :: acq) h) :
    Acquired base acq (h.free a) := by
  have hnew : a ∉ acq.map Prod.fst := (List.nodup_cons.mp hq.distinct).1
  have hrest := (List.nodup_cons.mp hq.distinct).2
  have hfresh : base.next ≤ a := hq.fresh (a, b) List.mem_cons_self
  refine ⟨hrest, fun p hp => hq.fresh p (List.mem_cons_of_mem _ hp), ?_, ?_,
    hq.frontier⟩
  · intro p hp
    have hne : p.1 ≠ a := fun e => hnew (e ▸ mem_names hp)
    rw [Heap.cell_free_ne hne]
    exact hq.held p (List.mem_cons_of_mem _ hp)
  · intro x hx
    by_cases hxa : x = a
    · rw [hxa, Heap.cell_free_same, base.beyond a hfresh]
    · rw [Heap.cell_free_ne hxa]
      exact hq.others x fun hm =>
        (List.mem_cons.mp hm).elim hxa hx

/-- The names of the heap one started from are none of the new ones. -/
theorem old_not_mem (hq : Acquired base acq h) (hc : base.cell a = some c) :
    a ∉ acq.map Prod.fst := by
  intro hm
  obtain ⟨p, hp, rfl⟩ := List.mem_map.mp hm
  have hlt := Heap.lt_next hc
  have hge := hq.fresh p hp
  omega

/-- What lives in the heap one started from lives on. -/
theorem old (hq : Acquired base acq h) (hc : base.cell a = some c) :
    h.cell a = some c :=
  (hq.others a (hq.old_not_mem hc)).trans hc

/-- A block of the heap one started from is written. -/
theorem storeOld (hq : Acquired base acq h) (hc : base.cell a = some c)
    (b : β) : Acquired (base.store a b) acq (h.store a b) := by
  have hnot := hq.old_not_mem hc
  refine ⟨hq.distinct, hq.fresh, fun p hp => ?_, fun x hx => ?_,
    hq.frontier⟩
  · have hne : p.1 ≠ a := fun e => hnot (e ▸ mem_names hp)
    rw [Heap.cell_store_ne hne]
    exact hq.held p hp
  · by_cases hxa : x = a
    · rw [hxa, Heap.cell_store_same hc, Heap.cell_store_same (hq.old hc)]
    · rw [Heap.cell_store_ne hxa, Heap.cell_store_ne hxa]
      exact hq.others x hx

/-- One of them is given back. -/
theorem freeOld (hq : Acquired base acq h) (hc : base.cell a = some c) :
    Acquired (base.free a) acq (h.free a) := by
  have hnot := hq.old_not_mem hc
  refine ⟨hq.distinct, hq.fresh, fun p hp => ?_, fun x hx => ?_,
    hq.frontier⟩
  · have hne : p.1 ≠ a := fun e => hnot (e ▸ mem_names hp)
    rw [Heap.cell_free_ne hne]
    exact hq.held p hp
  · by_cases hxa : x = a
    · rw [hxa, Heap.cell_free_same, Heap.cell_free_same]
    · rw [Heap.cell_free_ne hxa, Heap.cell_free_ne hxa]
      exact hq.others x hx

end Acquired

end LibOsdp.Lib
