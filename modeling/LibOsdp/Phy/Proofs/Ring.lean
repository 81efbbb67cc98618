/-
The receive ring is a bounded queue.

`Rep p q` says that the ring `p` holds the bytes `q`, in the order in
which they will come out: the window from the tail up to the head.  Every
operation on the ring is the operation of the same name on the queue, so
a history on the one is a history on the other
(`ring_is_bounded_fifo`).  The rest of the development takes the ring to
be that queue: what is pushed in bulk is `osdpRbPushBuf`.
-/
import LibOsdp.Phy.Ring
import LibOsdp.Phy.Framer

namespace LibOsdp

open Lib

-- =============================================================== the queue

/-- One byte less than the ring has. -/
abbrev rbCapacity : Nat := rxRbSize - 1

/-- The cell that is never used. -/
theorem rbCapacity_succ : rbCapacity + 1 = rxRbSize := rfl

/-- An operation on a queue that holds `rbCapacity` bytes at most. -/
def queueStep (q : Bytes) : OsdpRb.Op → Bytes × OsdpRb.Ret
  | .push data =>
    if q.length < rbCapacity then (q ++ [data], .status 0)
    else (q, .status (-1))
  | .pushBuf data =>
    (osdpRbPushBuf q data, .moved (min data.length (rbCapacity - q.length)))
  | .pop => (q.tail, .byte q.head?)
  | .popBuf maxLen =>
    (q.drop maxLen.toNat, .bytes (q.take maxLen.toNat))
  | .reset => ([], .nothing)

/-- A history of the queue. -/
def queueRun (q : Bytes) : List OsdpRb.Op → Bytes × List OsdpRb.Ret
  | [] => (q, [])
  | op :: ops =>
    let (r, ret) := queueStep q op
    let (u, rets) := queueRun r ops
    (u, ret :: rets)

/-- What a ring holds, the next byte to come out first. -/
def OsdpRb.contents (p : OsdpRb) : Bytes :=
  ringWindow (byteAt p.buffer) rxRbSize p.tail
    (ringGap rxRbSize p.tail p.head)

/-- The ring is in order and holds these bytes. -/
structure Rep (p : OsdpRb) (q : Bytes) : Prop where
  head : p.head < rxRbSize
  tail : p.tail < rxRbSize
  length : p.buffer.length = rxRbSize
  contents : p.contents = q

section Rep

variable {p : OsdpRb} {q : Bytes}

theorem rep_init : Rep {} [] :=
  ⟨by decide, by decide, List.length_replicate, rfl⟩

/-- The queue is as long as the gap between the indices. -/
theorem Rep.gap (h : Rep p q) :
    q.length = ringGap rxRbSize p.tail p.head := by
  rw [← h.contents]
  exact length_ringWindow _ _ _

theorem Rep.length_le (h : Rep p q) : q.length ≤ rbCapacity := by
  have hgap := ringGap_lt h.tail h.head
  have hcap := rbCapacity_succ
  rw [h.gap]
  omega

/-- The ring refuses exactly when the queue is full. -/
theorem Rep.full_iff (h : Rep p q) :
    ringNext rxRbSize p.head = p.tail ↔ ¬ q.length < rbCapacity := by
  have hle := h.length_le
  have hcap := rbCapacity_succ
  rw [ringNext_eq_iff h.tail h.head, ← h.gap]
  omega

/-- There is nothing to take exactly when the queue is empty. -/
theorem Rep.empty_iff (h : Rep p q) : p.head = p.tail ↔ q = [] := by
  rw [← ringGap_eq_zero_iff h.tail, ← h.gap, List.length_eq_zero_iff]

-- ============================================================== operations

/-- A push into a ring with room appends. -/
theorem Rep.push (h : Rep p q) (data : UInt8) (hroom : q.length < rbCapacity) :
    (p.push data).2 = 0 ∧ Rep (p.push data).1 (q ++ [data]) := by
  have hnext : ringNext rxRbSize p.head ≠ p.tail :=
    fun e => h.full_iff.mp e hroom
  have hpush : p.push data = ({ p with
      buffer := p.buffer.set p.head data
      head := ringNext rxRbSize p.head }, 0) := if_neg hnext
  have hin : p.head < p.buffer.length := h.length ▸ h.head
  rw [hpush]
  refine ⟨rfl, ringNext_lt (by decide) _, h.tail, ?_, ?_⟩
  · rw [List.length_set, h.length]
  · rw [← h.contents]
    refine window_push h.tail h.head hnext ?_ fun k hk => ?_
    · unfold byteAt
      rw [List.getD_eq_getElem?_getD, List.getElem?_set_self hin]
      rfl
    · unfold byteAt
      rw [List.getD_eq_getElem?_getD, List.getElem?_set_ne (Ne.symm hk),
        List.getD_eq_getElem?_getD]

/-- A push into a full ring changes nothing. -/
theorem Rep.push_full (h : Rep p q) (data : UInt8)
    (hfull : ¬ q.length < rbCapacity) : p.push data = (p, -1) :=
  if_pos (h.full_iff.mpr hfull)

/-- A pop takes the first byte. -/
theorem Rep.pop (h : Rep p q) :
    p.pop.2 = q.head? ∧ Rep p.pop.1 q.tail := by
  cases q with
  | nil =>
    have hpop : p.pop = (p, none) := if_pos (h.empty_iff.mpr rfl)
    rw [hpop]
    exact ⟨rfl, h⟩
  | cons data rest =>
    have hne : p.head ≠ p.tail := fun e =>
      absurd (h.empty_iff.mp e) (List.cons_ne_nil _ _)
    have hpop : p.pop = ({ p with tail := ringNext rxRbSize p.tail },
        some (byteAt p.buffer p.tail)) := if_neg hne
    have hfirst := h.contents
    unfold OsdpRb.contents at hfirst
    rw [window_pop h.tail h.head hne] at hfirst
    obtain ⟨hdata, hrest⟩ := List.cons.inj hfirst
    rw [hpop]
    refine ⟨congrArg some hdata, h.head, ringNext_lt (by decide) _, h.length,
      hrest⟩

/-- In bulk, as much goes in as there is room for. -/
theorem Rep.pushBuf (h : Rep p q) (data : Bytes) :
    (p.pushBuf data).2 = min data.length (rbCapacity - q.length) ∧
      Rep (p.pushBuf data).1 (osdpRbPushBuf q data) := by
  induction data generalizing p q with
  | nil =>
    have hnone : osdpRbPushBuf q [] = q := by
      unfold osdpRbPushBuf
      rw [List.take_nil, List.append_nil]
    rw [hnone]
    exact ⟨(Nat.zero_min _).symm, h⟩
  | cons b rest ih =>
    have hle := h.length_le
    by_cases hroom : q.length < rbCapacity
    · obtain ⟨hret, hrep⟩ := h.push b hroom
      obtain ⟨hn, hrest⟩ := ih hrep
      have hlen : (q ++ [b]).length = q.length + 1 := List.length_append
      have hcap := rbCapacity_succ
      have hall : osdpRbPushBuf (q ++ [b]) rest
          = osdpRbPushBuf q (b :: rest) := by
        have hsplit : rxRbSize - 1 - q.length
            = (rxRbSize - 1 - (q ++ [b]).length) + 1 := by omega
        unfold osdpRbPushBuf
        rw [hsplit, List.take_succ_cons, List.append_assoc]
        rfl
      have hstep : p.pushBuf (b :: rest)
          = (((p.push b).1.pushBuf rest).1,
            ((p.push b).1.pushBuf rest).2 + 1) := by
        show (if (p.push b).2 ≠ 0 then _ else _) = _
        exact if_neg (by rw [hret]; exact fun e => e rfl)
      rw [hstep, ← hall]
      refine ⟨?_, hrest⟩
      show ((p.push b).1.pushBuf rest).2 + 1 = _
      rw [hn, hlen, List.length_cons]
      omega
    · have hfull := h.push_full b hroom
      have hzero : rbCapacity - q.length = 0 := by omega
      have hnone : osdpRbPushBuf q (b :: rest) = q := by
        unfold osdpRbPushBuf
        rw [hzero, List.take_zero, List.append_nil]
      have hstep : p.pushBuf (b :: rest) = (p, 0) := by
        show (if (p.push b).2 ≠ 0 then ((p.push b).1, 0) else _) = _
        rw [hfull]
        rfl
      rw [hstep, hnone, hzero, Nat.min_zero]
      exact ⟨rfl, h⟩

/-- In bulk, the first bytes come out, as many as are asked for and
there. -/
theorem Rep.popBuf (h : Rep p q) (n : Nat) :
    (p.popBuf n).2 = q.take n ∧ Rep (p.popBuf n).1 (q.drop n) := by
  induction n generalizing p q with
  | zero => exact ⟨List.take_zero.symm, h⟩
  | succ n ih =>
    obtain ⟨hbyte, hrep⟩ := h.pop
    generalize hp : p.pop = r at hbyte hrep
    obtain ⟨r, o⟩ := r
    dsimp only at hbyte hrep
    subst hbyte
    cases q with
    | nil =>
      have hstep : p.popBuf (n + 1) = (r, []) := by
        unfold OsdpRb.popBuf
        rw [hp]
        rfl
      rw [hstep]
      exact ⟨rfl, hrep⟩
    | cons b rest =>
      obtain ⟨hbytes, hrest⟩ := ih hrep
      have hstep : p.popBuf (n + 1)
          = ((r.popBuf n).1, b :: (r.popBuf n).2) := by
        rw [OsdpRb.popBuf, hp]
        rfl
      rw [hstep]
      exact ⟨congrArg (b :: ·) hbytes, hrest⟩

-- =============================================================== histories

/-- One operation: the same comes back, and the same is left. -/
theorem Rep.step (h : Rep p q) (op : OsdpRb.Op) :
    (p.step op).2 = (queueStep q op).2 ∧
      Rep (p.step op).1 (queueStep q op).1 := by
  cases op with
  | push data =>
    by_cases hroom : q.length < rbCapacity
    · have hqueue : queueStep q (.push data)
          = (q ++ [data], .status 0) := if_pos hroom
      obtain ⟨hret, hrep⟩ := h.push data hroom
      rw [hqueue]
      exact ⟨congrArg OsdpRb.Ret.status hret, hrep⟩
    · have hqueue : queueStep q (.push data)
          = (q, .status (-1)) := if_neg hroom
      have hring := h.push_full data hroom
      have hstep : p.step (.push data) = (p, .status (-1)) := by
        show ((p.push data).1, OsdpRb.Ret.status (p.push data).2) = _
        rw [hring]
      rw [hqueue, hstep]
      exact ⟨rfl, h⟩
  | pushBuf data =>
    obtain ⟨hn, hrep⟩ := h.pushBuf data
    exact ⟨congrArg OsdpRb.Ret.moved hn, hrep⟩
  | pop =>
    obtain ⟨hbyte, hrep⟩ := h.pop
    exact ⟨congrArg OsdpRb.Ret.byte hbyte, hrep⟩
  | popBuf maxLen =>
    obtain ⟨hbytes, hrep⟩ := h.popBuf maxLen.toNat
    exact ⟨congrArg OsdpRb.Ret.bytes hbytes, hrep⟩
  | reset =>
    have hpos : 0 < rxRbSize := by decide
    exact ⟨rfl, hpos, hpos, h.length, rfl⟩

/-- A history. -/
theorem Rep.run (h : Rep p q) (ops : List OsdpRb.Op) :
    (p.run ops).2 = (queueRun q ops).2 ∧
      Rep (p.run ops).1 (queueRun q ops).1 := by
  induction ops generalizing p q with
  | nil => exact ⟨rfl, h⟩
  | cons op ops ih =>
    obtain ⟨hret, hrep⟩ := h.step op
    obtain ⟨hrets, hend⟩ := ih hrep
    refine ⟨?_, hend⟩
    show (p.step op).2 :: ((p.step op).1.run ops).2 = _
    rw [hret, hrets]
    rfl

end Rep

/-- **The receive ring is a bounded queue.**  After every history of a
ring: what came back is what a queue of `rbCapacity` bytes gives, the ring
holds what that queue holds, and both indices are inside the buffer. -/
theorem ring_is_bounded_fifo (ops : List OsdpRb.Op) :
    (OsdpRb.run {} ops).2 = (queueRun [] ops).2 ∧
      (OsdpRb.run {} ops).1.contents = (queueRun [] ops).1 ∧
      (queueRun [] ops).1.length ≤ rbCapacity ∧
      (OsdpRb.run {} ops).1.head < rxRbSize ∧
      (OsdpRb.run {} ops).1.tail < rxRbSize := by
  obtain ⟨hrets, hrep⟩ := rep_init.run ops
  exact ⟨hrets, hrep.contents, hrep.length_le, hrep.head, hrep.tail⟩

/-- Two bytes in, one out, one more in: they leave in that order. -/
example : (OsdpRb.run {} [.pushBuf [1, 2], .pop, .push 3, .popBuf 5]).2
    = [.moved 2, .byte (some 1), .status 0, .bytes [2, 3]] := by
  decide

end LibOsdp
