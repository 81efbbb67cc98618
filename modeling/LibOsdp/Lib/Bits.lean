/-
Bit maps in a buffer of bytes, filled bit after bit.

A map of `n` bits takes the bytes in front of a buffer, eight bits a byte,
the lowest first.  It is written the way a loop writes it: a byte is
cleared when it is opened, and a bit is set when its turn comes.  `BitMap`
says how far such a loop has come, and has one rule for each of the two
steps.
-/
import LibOsdp.Lib.Bytes
import Mathlib.Data.Nat.Bitwise

namespace LibOsdp.Lib

-- ================================================================== bits

/-- The bit of a byte, counted from the lowest. -/
def bitOf (x : UInt8) (p : Nat) : Bool := x.toNat.testBit p

/-- The byte with one more bit set: `x | 1 << p`. -/
def setBit (x : UInt8) (p : Nat) : UInt8 := x ||| UInt8.ofNat (1 <<< p)

@[simp] theorem bitOf_zero (p : Nat) : bitOf 0 p = false := by
  show (0 : Nat).testBit p = false
  exact Nat.zero_testBit p

theorem bitOf_setBit {p : Nat} (x : UInt8) (hp : p < 8) (q : Nat) :
    bitOf (setBit x p) q = (bitOf x q || decide (q = p)) := by
  have hpow : 2 ^ p < 256 := Nat.pow_lt_pow_right (by decide) hp
  have hbit : (UInt8.ofNat (1 <<< p)).toNat = 2 ^ p := by
    rw [Nat.one_shiftLeft, UInt8.toNat_ofNat']
    exact Nat.mod_eq_of_lt hpow
  unfold bitOf setBit
  rw [UInt8.toNat_or, Nat.testBit_or, hbit, Nat.testBit_two_pow]
  congr 1
  exact decide_eq_decide.mpr eq_comm

-- ================================================================== maps

/-- The buffer `d` holds, in its first `m` bytes, the bits `on` as far as
the first `n` of them go, and is behind these bytes what `b` was. -/
structure BitMap (m n : Nat) (on : Nat → Bool) (b d : List UInt8) :
    Prop where
  length : d.length = b.length
  bits : ∀ k, k < m → ∀ p, p < 8 →
    bitOf (byteAt d k) p = (decide (8 * k + p < n) && on (8 * k + p))
  rest : ∀ k, m ≤ k → d[k]? = b[k]?

section BitMap

variable {m n : Nat} {on : Nat → Bool} {b d : List UInt8}

theorem byteAt_set {k : Nat} (hk : k < d.length) (x : UInt8) (j : Nat) :
    byteAt (d.set k x) j = if j = k then x else byteAt d j := by
  unfold byteAt
  rw [List.getD_eq_getElem?_getD, List.getD_eq_getElem?_getD]
  by_cases h : j = k
  · subst h
    rw [if_pos rfl, List.getElem?_set_self hk, Option.getD_some]
  · rw [if_neg h, List.getElem?_set_ne (Ne.symm h)]

/-- No byte is open yet. -/
theorem BitMap.start (on : Nat → Bool) (b : List UInt8) :
    BitMap 0 0 on b b :=
  ⟨rfl, fun _ hk => absurd hk (Nat.not_lt_zero _), fun _ _ => rfl⟩

/-- One more byte is opened. -/
theorem BitMap.opened (h : BitMap m n on b d) (hn : n ≤ 8 * m)
    (hm : m < d.length) : BitMap (m + 1) n on b (d.set m 0) := by
  refine ⟨List.length_set.trans h.length, fun k hk p hp => ?_,
    fun k hk => ?_⟩
  · rw [byteAt_set hm]
    by_cases hkm : k = m
    · subst hkm
      have hout : ¬ 8 * k + p < n := by omega
      rw [if_pos rfl, bitOf_zero, decide_eq_false hout, Bool.false_and]
    · rw [if_neg hkm]
      exact h.bits k (by omega) p hp
  · rw [List.getElem?_set_ne (by omega)]
    exact h.rest k (by omega)

/-- The next bit is not to be set. -/
theorem BitMap.pass (h : BitMap m n on b d) (hoff : on n = false) :
    BitMap m (n + 1) on b d := by
  refine ⟨h.length, fun k hk p hp => ?_, h.rest⟩
  rw [h.bits k hk p hp]
  by_cases hn : 8 * k + p = n
  · rw [hn, hoff, Bool.and_false, Bool.and_false]
  · have hiff : 8 * k + p < n ↔ 8 * k + p < n + 1 := by omega
    rw [decide_eq_decide.mpr hiff]

/-- The next bit is set, in a byte that is open. -/
theorem BitMap.mark (h : BitMap m n on b d) (hon : on n = true)
    (hopen : n / 8 < m) (hm : n / 8 < d.length) :
    BitMap m (n + 1) on b
      (d.set (n / 8) (setBit (byteAt d (n / 8)) (n % 8))) := by
  refine ⟨List.length_set.trans h.length, fun k hk p hp => ?_,
    fun k hk => ?_⟩
  · rw [byteAt_set hm]
    by_cases hkn : k = n / 8
    · have hbyte := h.bits k hk p hp
      rw [if_pos hkn, bitOf_setBit _ (Nat.mod_lt n (by decide)), ← hkn,
        hbyte]
      by_cases hpn : p = n % 8
      · have heq : 8 * k + p = n := by omega
        rw [heq, hon, decide_eq_true hpn, Bool.or_true,
          decide_eq_true (Nat.lt_succ_self n), Bool.and_self]
      · have hiff : 8 * k + p < n ↔ 8 * k + p < n + 1 := by omega
        rw [decide_eq_false hpn, Bool.or_false, decide_eq_decide.mpr hiff]
    · have hiff : 8 * k + p < n ↔ 8 * k + p < n + 1 := by omega
      rw [if_neg hkn, h.bits k hk p hp, decide_eq_decide.mpr hiff]
  · rw [List.getElem?_set_ne (by omega)]
    exact h.rest k hk

end BitMap

end LibOsdp.Lib
