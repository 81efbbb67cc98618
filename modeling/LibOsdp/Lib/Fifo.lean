/-
Accounting for a first-in first-out queue over a stretch of a run.

`Fifo q new k r` says that a queue that held `q` was given `new`, in that
order, gave `k` entries away from its head, and holds `r` now.  Which
entries went is then a matter of counting: the first `q.length` of them
are those that had been there, every later one came in meanwhile.

`Drains q own new k r done` adds the entries that were given away: `done`
lists them in the order they went, and they are those that left the queue
and, besides them, the entries `own`, these in their own order.

# Use

Stretches compose (`Fifo.trans`, `Drains.trans`), pushing and emptying are
stretches (`push`, `emptied`), and what the head is now, or whether any of
the old entries are left, is read off the count (`head_of_lt`,
`prefix_of_zero`, `late_of_le`).
-/
import Mathlib.Data.List.Basic
import Mathlib.Data.List.Perm.Basic

namespace LibOsdp.Lib

variable {α : Type}

/-- `q`, given `new` and relieved of `k` entries, is `r`. -/
structure Fifo (q new : List α) (k : Nat) (r : List α) : Prop where
  enough : k ≤ (q ++ new).length
  left : r = (q ++ new).drop k

variable {q r u new more : List α} {k n : Nat} {x : α}

/-- Nothing happened. -/
theorem Fifo.refl (q : List α) : Fifo q [] 0 q :=
  ⟨Nat.zero_le _, by rw [List.append_nil, List.drop_zero]⟩

/-- One stretch after the other. -/
theorem Fifo.trans (h : Fifo q new k r) (g : Fifo r more n u) :
    Fifo q (new ++ more) (k + n) u := by
  have hlen : r.length = (q ++ new).length - k := by
    rw [h.left, List.length_drop]
  have hk := h.enough
  have hn := g.enough
  have hlong : (q ++ (new ++ more)).length
      = (q ++ new).length + more.length := by
    rw [← List.append_assoc, List.length_append]
  rw [List.length_append, hlen] at hn
  constructor
  · omega
  · calc u = (r ++ more).drop n := g.left
      _ = (((q ++ new).drop k) ++ more).drop n := by rw [h.left]
      _ = ((q ++ new ++ more).drop k).drop n := by
          rw [List.drop_append_of_le_length hk]
      _ = (q ++ (new ++ more)).drop (k + n) := by
          rw [List.drop_drop, List.append_assoc]

/-- One entry came in. -/
theorem Fifo.push (q : List α) (x : α) : Fifo q [x] 0 (q ++ [x]) :=
  ⟨Nat.zero_le _, List.drop_zero.symm⟩

/-- All of them went. -/
theorem Fifo.emptied (q : List α) : Fifo q [] q.length [] :=
  ⟨Nat.le_of_eq (by rw [List.append_nil]),
    by rw [List.append_nil, List.drop_length]⟩

/-- The head is the entry next in line. -/
theorem Fifo.head (h : Fifo q new k (x :: r)) :
    (q ++ new)[k]? = some x := by
  have e : ((q ++ new).drop k)[0]? = some x := by
    rw [← h.left]
    rfl
  rw [List.getElem?_drop] at e
  exact e

/-- While entries that had been there are left, the first of them is the
head. -/
theorem Fifo.head_of_lt (h : Fifo q new k (x :: r)) (hk : k < q.length) :
    q[k]? = some x := by
  have e := h.head
  rwa [List.getElem?_append_left hk] at e

/-- As long as none went, those that had been there are in front. -/
theorem Fifo.prefix_of_zero (h : Fifo q new 0 r) : q <+: r := by
  rw [h.left, List.drop_zero]
  exact List.prefix_append q new

/-- Once they have all gone, the head came in meanwhile. -/
theorem Fifo.late_of_le (h : Fifo q new k (x :: r)) (hk : q.length ≤ k) :
    x ∈ new := by
  have e := h.head
  rw [List.getElem?_append_right hk] at e
  exact List.mem_of_getElem? e

-- ====================================================== what was given away

/-- What two stretches took off the queue is what both took together. -/
theorem Fifo.taken (h : Fifo q new k r) :
    (q ++ (new ++ more)).take (k + n)
      = (q ++ new).take k ++ (r ++ more).take n := by
  have hk := h.enough
  rw [h.left, ← List.append_assoc, List.take_add,
    List.take_append_of_le_length hk, List.drop_append_of_le_length hk]

/-- `Fifo`, with the entries that went: `own` in order, and besides them
those that left the queue. -/
structure Drains (q own new : List α) (k : Nat) (r done : List α) : Prop
    extends Fifo q new k r where
  all : done.Perm (own ++ (q ++ new).take k)
  order : own.Sublist done

variable {own own' done done' : List α}

/-- Nothing happened. -/
theorem Drains.refl (q : List α) : Drains q [] [] 0 q [] :=
  ⟨.refl q, .of_eq (by rw [List.take_zero, List.append_nil]), .refl _⟩

/-- One stretch after the other. -/
theorem Drains.trans (h : Drains q own new k r done)
    (g : Drains r own' more n u done') :
    Drains q (own ++ own') (new ++ more) (k + n) u (done ++ done') := by
  refine ⟨h.toFifo.trans g.toFifo, ?_, h.order.append g.order⟩
  rw [h.toFifo.taken]
  calc (done ++ done').Perm
        ((own ++ (q ++ new).take k) ++ (own' ++ (r ++ more).take n)) :=
        h.all.append g.all
    _ = own ++ ((q ++ new).take k ++ (own' ++ (r ++ more).take n)) :=
        List.append_assoc ..
    List.Perm _ (own ++ (own' ++ ((q ++ new).take k ++ (r ++ more).take n))) :=
        (List.perm_append_comm_assoc ..).append_left own
    _ = own ++ own' ++ ((q ++ new).take k ++ (r ++ more).take n) :=
        (List.append_assoc ..).symm

/-- One entry came in. -/
theorem Drains.push (q : List α) (x : α) :
    Drains q [] [x] 0 (q ++ [x]) [] :=
  ⟨.push q x, .of_eq (by rw [List.take_zero, List.append_nil]), .refl _⟩

/-- One entry went that was not in the queue. -/
theorem Drains.give (q : List α) (x : α) : Drains q [x] [] 0 q [x] :=
  ⟨.refl q, .of_eq (by rw [List.take_zero, List.append_nil]), .refl _⟩

/-- A queue taken aside and given away entry by entry: its entries left
it. -/
theorem Drains.of_aside (h : Drains [] q new k r done) :
    Drains q [] new (q.length + k) r done := by
  refine ⟨(Fifo.emptied q).trans h.toFifo, ?_, List.nil_sublist done⟩
  rw [List.nil_append, List.take_length_add_append]
  exact h.all

/-- Nothing left the queue: what went is `own`, in order. -/
theorem Drains.eq_own (h : Drains q own new 0 r done) : done = own := by
  have hp : done.Perm own := by
    have e := h.all
    rwa [List.take_zero, List.append_nil] at e
  exact (h.order.eq_of_length hp.length_eq.symm).symm

end LibOsdp.Lib
