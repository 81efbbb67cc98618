/-
Fixed-width integers as bytes, in both byte orders, and writes into the
middle of a buffer.

Writers produce the bytes; readers take the bytes at the front of a list
and read a missing byte as zero, so that a caller who has checked the
length pays nothing for it.  Only the round trips that a decoder of a
frame needs are proved.
-/
import Mathlib.Algebra.Group.Nat.Defs
import Mathlib.Data.List.Basic

namespace LibOsdp.Lib

/-- Byte `i` of a number, counted from the least significant. -/
def byteOf (v i : Nat) : UInt8 := UInt8.ofNat (v / 256 ^ i)

/-- The `n` low bytes of a number, least significant first. -/
def writeLe (n v : Nat) : List UInt8 := (List.range n).map (byteOf v)

/-- The `n` low bytes of a number, most significant first. -/
def writeBe (n v : Nat) : List UInt8 := (writeLe n v).reverse

/-- The number whose low bytes stand first in the list. -/
def readLe : Nat → List UInt8 → Nat
  | 0, _ => 0
  | n + 1, l => (l.headD 0).toNat + 256 * readLe n l.tail

/-- The number whose high bytes stand first in the list. -/
def readBe (n : Nat) (l : List UInt8) : Nat := readLe n (l.take n).reverse

/-- The byte at an index; zero past the end. -/
def byteAt (l : List UInt8) (i : Nat) : UInt8 := l.getD i 0

/-- Overwrite part of a buffer; the buffer grows if the write reaches
past its end. -/
def writeAt (buf : List UInt8) (off : Nat) (data : List UInt8) :
    List UInt8 :=
  buf.take off ++ data ++ buf.drop (off + data.length)

@[simp] theorem length_writeLe (n v : Nat) : (writeLe n v).length = n := by
  simp [writeLe]

@[simp] theorem length_writeBe (n v : Nat) : (writeBe n v).length = n := by
  simp [writeBe]

/-- A write within the buffer keeps its length. -/
theorem length_writeAt {buf : List UInt8} {off : Nat} {data : List UInt8}
    (h : off + data.length ≤ buf.length) :
    (writeAt buf off data).length = buf.length := by
  simp only [writeAt, List.length_append, List.length_take,
    List.length_drop]
  omega

/-- No write shortens the buffer. -/
theorem length_le_writeAt (buf : List UInt8) (off : Nat)
    (data : List UInt8) : buf.length ≤ (writeAt buf off data).length := by
  simp only [writeAt, List.length_append, List.length_take,
    List.length_drop]
  omega

/-- A write within the buffer: its own bytes where it goes, the old ones
elsewhere. -/
theorem getElem?_writeAt {buf : List UInt8} {off : Nat} {data : List UInt8}
    (h : off + data.length ≤ buf.length) (k : Nat) :
    (writeAt buf off data)[k]? =
      if off ≤ k ∧ k < off + data.length then data[k - off]?
      else buf[k]? := by
  have hoff : (buf.take off).length = off := by
    rw [List.length_take]
    omega
  unfold writeAt
  rw [List.append_assoc]
  by_cases hlo : off ≤ k
  · rw [List.getElem?_append_right (by omega), hoff]
    by_cases hhi : k < off + data.length
    · rw [if_pos ⟨hlo, hhi⟩, List.getElem?_append_left (by omega)]
    · rw [if_neg (fun hc => hhi hc.2),
        List.getElem?_append_right (by omega), List.getElem?_drop]
      congr 1
      omega
  · rw [if_neg (fun hc => hlo hc.1), List.getElem?_append_left (by omega),
      List.getElem?_take_of_lt (by omega)]

/-- A write behind a prefix leaves the prefix. -/
theorem writeAt_append_right (hd x d : List UInt8) (k : Nat) :
    writeAt (hd ++ x) (hd.length + k) d = hd ++ writeAt x k d := by
  unfold writeAt
  rw [List.take_length_add_append, Nat.add_assoc,
    List.drop_length_add_append]
  simp only [List.append_assoc]

/-- A write inside a prefix leaves what follows it. -/
theorem writeAt_append_left {x d : List UInt8} {k : Nat}
    (h : k + d.length ≤ x.length) (r : List UInt8) :
    writeAt (x ++ r) k d = writeAt x k d ++ r := by
  unfold writeAt
  rw [List.take_append_of_le_length (by omega),
    List.drop_append_of_le_length h, List.append_assoc, List.append_assoc,
    List.append_assoc]

/-- A write at the end of a prefix extends it. -/
theorem writeAt_end (x d r : List UInt8) :
    writeAt (x ++ r) x.length d = x ++ d ++ r.drop d.length := by
  unfold writeAt
  rw [List.take_left' rfl, List.drop_length_add_append]

-- ========================================================= single bytes

theorem byteAt_drop (l : List UInt8) (n k : Nat) :
    byteAt (l.drop n) k = byteAt l (n + k) := by
  unfold byteAt
  rw [List.getD_eq_getElem?_getD, List.getElem?_drop,
    List.getD_eq_getElem?_getD]

theorem byteAt_take {l : List UInt8} {n k : Nat} (h : k < n) :
    byteAt (l.take n) k = byteAt l k := by
  unfold byteAt
  rw [List.getD_eq_getElem?_getD, List.getElem?_take_of_lt h,
    List.getD_eq_getElem?_getD]

/-- A byte that was written is read back. -/
theorem byteAt_writeAt {buf : List UInt8} {off k : Nat}
    {data : List UInt8} (h : off + data.length ≤ buf.length)
    (hk : k < data.length) :
    byteAt (writeAt buf off data) (off + k) = byteAt data k := by
  have hget := getElem?_writeAt h (off + k)
  rw [if_pos (by omega), Nat.add_sub_cancel_left] at hget
  unfold byteAt
  rw [List.getD_eq_getElem?_getD, hget, List.getD_eq_getElem?_getD]

/-- The bytes beside a write are the old ones. -/
theorem byteAt_writeAt_ne {buf : List UInt8} {off k : Nat}
    {data : List UInt8} (h : off + data.length ≤ buf.length)
    (hk : k < off ∨ off + data.length ≤ k) :
    byteAt (writeAt buf off data) k = byteAt buf k := by
  have hget := getElem?_writeAt h k
  rw [if_neg (by omega)] at hget
  unfold byteAt
  rw [List.getD_eq_getElem?_getD, hget, List.getD_eq_getElem?_getD]

/-- The bytes in front of a write are the old ones, however far it
reaches. -/
theorem byteAt_writeAt_lt {buf : List UInt8} {off k : Nat}
    (data : List UInt8) (h : off ≤ buf.length) (hk : k < off) :
    byteAt (writeAt buf off data) k = byteAt buf k := by
  have hoff : (buf.take off).length = off := by
    rw [List.length_take]
    omega
  unfold byteAt writeAt
  rw [List.append_assoc, List.getD_eq_getElem?_getD,
    List.getElem?_append_left (by omega), List.getElem?_take_of_lt hk,
    List.getD_eq_getElem?_getD]

/-- The buffer holds what was written. -/
theorem stop_le_length_writeAt {buf : List UInt8} {off : Nat}
    (data : List UInt8) (h : off ≤ buf.length) :
    off + data.length ≤ (writeAt buf off data).length := by
  simp only [writeAt, List.length_append, List.length_take,
    List.length_drop]
  omega

/-- What was written, cut out again. -/
theorem slice_writeAt {buf : List UInt8} {off : Nat}
    (data : List UInt8) (h : off ≤ buf.length) :
    ((writeAt buf off data).take (off + data.length)).drop off = data := by
  have hoff : (buf.take off).length = off := by
    rw [List.length_take]
    omega
  unfold writeAt
  rw [List.take_left' (by rw [List.length_append, hoff]),
    List.drop_left' hoff]

/-- A byte that was written is read back, however far the write
reaches. -/
theorem byteAt_written {buf : List UInt8} {off k : Nat}
    {data : List UInt8} (h : off ≤ buf.length) (hk : k < data.length) :
    byteAt (writeAt buf off data) (off + k) = byteAt data k := by
  have hslice : byteAt (((writeAt buf off data).take
      (off + data.length)).drop off) k = byteAt data k := by
    rw [slice_writeAt data h]
  rwa [byteAt_drop, byteAt_take (by omega)] at hslice

/-- Two writes in a row are one. -/
theorem writeAt_writeAt {buf : List UInt8} {off : Nat}
    (x y : List UInt8) (h : off ≤ buf.length) :
    writeAt (writeAt buf off x) (off + x.length) y
      = writeAt buf off (x ++ y) := by
  have htake : (buf.take off).length = off := by
    rw [List.length_take]
    omega
  have hoff : (buf.take off ++ x).length = off + x.length := by
    rw [List.length_append, htake]
  unfold writeAt
  rw [List.take_left' hoff, ← hoff, List.drop_length_add_append,
    List.drop_drop]
  simp only [List.append_assoc, List.length_append, htake, Nat.add_assoc]

/-- A write leaves what is behind it. -/
theorem drop_writeAt {buf : List UInt8} {off n : Nat} {data : List UInt8}
    (h : off + data.length ≤ n) (hn : off ≤ buf.length) :
    (writeAt buf off data).drop n = buf.drop n := by
  have hoff : (buf.take off ++ data).length = off + data.length := by
    rw [List.length_append, List.length_take]
    omega
  obtain ⟨k, rfl⟩ := Nat.exists_eq_add_of_le h
  unfold writeAt
  rw [← hoff, List.drop_length_add_append, List.drop_drop, hoff]

/-- A write hides a shorter one at the same place. -/
theorem writeAt_writeAt_over {buf : List UInt8} {off : Nat}
    {x y : List UInt8} (h : off ≤ buf.length) (hlen : x.length ≤ y.length) :
    writeAt (writeAt buf off x) off y = writeAt buf off y := by
  have hoff : (buf.take off).length = off := by
    rw [List.length_take]
    omega
  have htake : (writeAt buf off x).take off = buf.take off := by
    unfold writeAt
    rw [List.append_assoc, List.take_left' hoff]
  have hdrop : (writeAt buf off x).drop (off + y.length)
      = buf.drop (off + y.length) :=
    drop_writeAt (by omega) h
  rw [writeAt, htake, hdrop]
  rfl

-- ============================================================== numbers

/-- The low byte comes first, and the rest of the number after it. -/
theorem writeLe_succ (n v : Nat) :
    writeLe (n + 1) v = byteOf v 0 :: writeLe n (v / 256) := by
  unfold writeLe
  rw [List.range_succ_eq_map, List.map_cons, List.map_map]
  congr 1
  apply List.map_congr_left
  intro i _
  show byteOf v (i + 1) = byteOf (v / 256) i
  unfold byteOf
  rw [Nat.div_div_eq_div_mul, Nat.pow_succ, Nat.mul_comm]

/-- What is read back of a number is what fits the field. -/
theorem readLe_writeLe (n v : Nat) (l : List UInt8) :
    readLe n (writeLe n v ++ l) = v % 256 ^ n := by
  induction n generalizing v with
  | zero => rw [Nat.pow_zero, Nat.mod_one]; rfl
  | succ n ih =>
    have hlow : (byteOf v 0).toNat = v % 256 := by
      simp [byteOf, UInt8.toNat_ofNat']
    rw [writeLe_succ, List.cons_append]
    show (byteOf v 0).toNat + 256 * readLe n (writeLe n (v / 256) ++ l) = _
    rw [hlow, ih, Nat.pow_succ, Nat.mul_comm (256 ^ n), Nat.mod_mul]

/-- A number that fits survives the wire. -/
theorem readLe_writeLe_of_lt {n v : Nat} (h : v < 256 ^ n)
    (l : List UInt8) : readLe n (writeLe n v ++ l) = v := by
  rw [readLe_writeLe, Nat.mod_eq_of_lt h]

/-- A field holds no more than its bytes do. -/
theorem readLe_lt (n : Nat) (l : List UInt8) : readLe n l < 256 ^ n := by
  induction n generalizing l with
  | zero => exact Nat.one_pos
  | succ n ih =>
    have hhead : (l.headD 0).toNat < 256 := UInt8.toNat_lt _
    have htail := ih l.tail
    show (l.headD 0).toNat + 256 * readLe n l.tail < 256 ^ (n + 1)
    rw [Nat.pow_succ]
    omega

/-- The high byte first, and the same is read back. -/
theorem readBe_writeBe (n v : Nat) (l : List UInt8) :
    readBe n (writeBe n v ++ l) = v % 256 ^ n := by
  have hlen : (writeBe n v).length = n := length_writeBe n v
  have htake : (writeBe n v ++ l).take n = writeBe n v :=
    List.take_left' hlen
  have hlow := readLe_writeLe n v []
  rw [List.append_nil] at hlow
  rw [readBe, htake, writeBe, List.reverse_reverse, hlow]

/-- A number that fits survives the wire in this order too. -/
theorem readBe_writeBe_of_lt {n v : Nat} (h : v < 256 ^ n)
    (l : List UInt8) : readBe n (writeBe n v ++ l) = v := by
  rw [readBe_writeBe, Nat.mod_eq_of_lt h]

@[simp] theorem byteAt_zero (b : UInt8) (l : List UInt8) :
    byteAt (b :: l) 0 = b := rfl

@[simp] theorem byteAt_succ (b : UInt8) (l : List UInt8) (k : Nat) :
    byteAt (b :: l) (k + 1) = byteAt l k := rfl

/-- Sixteen bits survive the wire. -/
theorem readLe_writeLe_two {v : Nat} (h : v < 65536) (l : List UInt8) :
    readLe 2 (writeLe 2 v ++ l) = v :=
  readLe_writeLe_of_lt h l

end LibOsdp.Lib
