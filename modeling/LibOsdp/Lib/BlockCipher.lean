/-
Modes of operation over an arbitrary block cipher: CBC encryption, its
inverse, and the two-key CBC-MAC.  Nothing here knows the protocol that
uses them.

# What is assumed of the cipher

`BlockCipher` carries its laws as fields: both directions map blocks to
blocks, and decryption undoes encryption under the same key.  Nothing is
assumed about how hard either is to compute.

# The round trip

CBC decryption inverts CBC encryption because each ciphertext block is
the chaining value of the next one on both sides: `cbcDecrypt_cbcEncrypt`
is an induction on the number of blocks with the chaining value free.
`stripPad_pad` is the round trip of the padding (a marker byte, then
zeros): the marker is the last nonzero byte of the padded text.
-/
import LibOsdp.Lib.Bytes
import Mathlib.Data.List.Basic
import Mathlib.Tactic.Linarith

namespace LibOsdp.Lib

/-- A block cipher with 128-bit blocks, and its laws. -/
structure BlockCipher where
  enc : List UInt8 → List UInt8 → List UInt8
  dec : List UInt8 → List UInt8 → List UInt8
  length_enc : ∀ k b, b.length = 16 → (enc k b).length = 16
  length_dec : ∀ k b, b.length = 16 → (dec k b).length = 16
  dec_enc : ∀ k b, b.length = 16 → dec k (enc k b) = b

/-- Bytewise exclusive or, as long as the shorter argument. -/
def xorBytes (a b : List UInt8) : List UInt8 := List.zipWith (· ^^^ ·) a b

@[simp] theorem length_xorBytes (a b : List UInt8) :
    (xorBytes a b).length = min a.length b.length := by
  simp [xorBytes]

/-- Exclusive or with the same mask twice is the identity. -/
theorem xorBytes_xorBytes {a b : List UInt8} (h : a.length = b.length) :
    xorBytes (xorBytes a b) b = a := by
  induction a generalizing b with
  | nil => rfl
  | cons x a ih =>
    cases b with
    | nil => cases h
    | cons y b =>
      have hl : a.length = b.length := Nat.succ.inj h
      have hx : (x ^^^ y) ^^^ y = x := by
        rw [UInt8.xor_assoc, UInt8.xor_self, UInt8.xor_zero]
      show (x ^^^ y ^^^ y) :: xorBytes (xorBytes a b) b = x :: a
      rw [hx, ih hl]

-- ======================================================== known blocks

/-- One block a key is known to encrypt to another. -/
structure KnownBlock where
  key : List UInt8
  plain : List UInt8
  coded : List UInt8

/-- Exchange the two blocks under their key. -/
def KnownBlock.swap (e : KnownBlock) (key b : List UInt8) : List UInt8 :=
  if key = e.key ∧ e.plain.length = 16 ∧ e.coded.length = 16 then
    if b = e.plain then e.coded else if b = e.coded then e.plain else b
  else b

theorem KnownBlock.length_swap (e : KnownBlock) (k : List UInt8)
    {b : List UInt8} (h : b.length = 16) : (e.swap k b).length = 16 := by
  unfold KnownBlock.swap
  split
  · next he =>
    split
    · exact he.2.2
    · split
      · exact he.2.1
      · exact h
  · exact h

theorem KnownBlock.swap_swap (e : KnownBlock) (k b : List UInt8) :
    e.swap k (e.swap k b) = b := by
  unfold KnownBlock.swap
  grind

/-- The same from numbers, most significant byte first. -/
def KnownBlock.of (key plain coded : Nat) : KnownBlock :=
  ⟨writeBe 16 key, writeBe 16 plain, writeBe 16 coded⟩

/-- A cipher of which these blocks are known: where they determine it, it
agrees with every cipher that encrypts them so. -/
def knownCipher (known : List KnownBlock) : BlockCipher where
  enc k b := known.foldr (fun e b => e.swap k b) b
  dec k b := known.foldl (fun b e => e.swap k b) b
  length_enc := by
    intro k b h
    induction known with
    | nil => exact h
    | cons e known ih => exact e.length_swap k ih
  length_dec := by
    intro k b h
    induction known generalizing b with
    | nil => exact h
    | cons e known ih => exact ih _ (e.length_swap k h)
  dec_enc := by
    intro k b _
    induction known with
    | nil => rfl
    | cons e known ih =>
      rw [List.foldr_cons, List.foldl_cons, e.swap_swap]
      exact ih

variable (c : BlockCipher)

-- ================================================================= CBC

/-- CBC encryption of `n` blocks. -/
def cbcEncrypt (k iv : List UInt8) : Nat → List UInt8 → List UInt8
  | 0, _ => []
  | n + 1, d =>
    let b := c.enc k (xorBytes (d.take 16) iv)
    b ++ cbcEncrypt k b n (d.drop 16)

/-- CBC decryption of `n` blocks. -/
def cbcDecrypt (k iv : List UInt8) : Nat → List UInt8 → List UInt8
  | 0, _ => []
  | n + 1, d =>
    let b := d.take 16
    xorBytes (c.dec k b) iv ++ cbcDecrypt k b n (d.drop 16)

theorem length_cbcEncrypt (k : List UInt8) (n : Nat) :
    ∀ (iv d : List UInt8), iv.length = 16 → d.length = n * 16 →
      (cbcEncrypt c k iv n d).length = n * 16 := by
  induction n with
  | zero => intro iv d _ _; rfl
  | succ n ih =>
    intro iv d hiv hd
    have hb : (c.enc k (xorBytes (d.take 16) iv)).length = 16 := by
      apply c.length_enc
      simp only [length_xorBytes, List.length_take]
      omega
    have htl : (d.drop 16).length = n * 16 := by
      rw [List.length_drop]
      omega
    rw [cbcEncrypt, List.length_append, hb, ih _ _ hb htl]
    omega

/-- Decryption inverts encryption, whatever the chaining value. -/
theorem cbcDecrypt_cbcEncrypt (k : List UInt8) (n : Nat) :
    ∀ (iv d : List UInt8), iv.length = 16 → d.length = n * 16 →
      cbcDecrypt c k iv n (cbcEncrypt c k iv n d) = d := by
  induction n with
  | zero =>
    intro iv d _ hd
    rw [Nat.zero_mul] at hd
    exact (List.eq_nil_of_length_eq_zero hd).symm
  | succ n ih =>
    intro iv d hiv hd
    have hx : (xorBytes (d.take 16) iv).length = 16 := by
      simp only [length_xorBytes, List.length_take]
      omega
    have hb := c.length_enc k _ hx
    have htl : (d.drop 16).length = n * 16 := by
      rw [List.length_drop]
      omega
    have hhd : (d.take 16).length = iv.length := by
      rw [List.length_take]
      omega
    rw [cbcEncrypt, cbcDecrypt]
    simp only [List.take_left' hb, List.drop_left' hb]
    rw [c.dec_enc k _ hx, xorBytes_xorBytes hhd, ih _ _ hb htl,
      List.take_append_drop]

-- ============================================================== padding

/-- `n` rounded up to whole blocks. -/
def padLen (n : Nat) : Nat := (n + 16 - 1) / 16 * 16

/-- A text followed by the marker and zeros up to a whole block. -/
def padMarked (marker : UInt8) (d : List UInt8) : List UInt8 :=
  d ++ marker :: List.replicate (padLen (d.length + 1) - d.length - 1) 0

/-- The text before the marker: strip the zeros at the end and the marker
in front of them. -/
def stripPad (marker : UInt8) (d : List UInt8) : Option (List UInt8) :=
  match d.reverse.dropWhile (· == 0) with
  | [] => none
  | b :: r => if b = marker then some r.reverse else none

theorem length_padMarked (marker : UInt8) (d : List UInt8) :
    (padMarked marker d).length = padLen (d.length + 1) := by
  simp only [padMarked, List.length_append, List.length_cons,
    List.length_replicate, padLen]
  omega

theorem stripPad_padMarked {marker : UInt8} (hm : marker ≠ 0)
    (d : List UInt8) : stripPad marker (padMarked marker d) = some d := by
  have hz : ∀ n (l : List UInt8),
      (List.replicate n 0 ++ marker :: l).dropWhile (· == 0)
        = marker :: l := by
    intro n l
    induction n with
    | zero => simp [hm]
    | succ n ih => simpa [List.replicate_succ] using ih
  unfold stripPad padMarked
  rw [List.reverse_append, List.reverse_cons, List.reverse_replicate,
    List.append_assoc, List.singleton_append, hz]
  simp

-- ================================================================== MAC

/-- The chaining value after `n` blocks under key `k`. -/
def cbcChain (k : List UInt8) : Nat → List UInt8 → List UInt8 → List UInt8
  | 0, iv, _ => iv
  | n + 1, iv, d =>
    cbcChain k n (c.enc k (xorBytes (d.take 16) iv)) (d.drop 16)

/-- The MAC of a text: all blocks but the last under `k₁`, the last under
`k₂`, with the marker and zeros filling a short or missing last block. -/
def cbcMac (marker : UInt8) (k₁ k₂ iv d : List UInt8) : List UInt8 :=
  let p := if d.length ≠ 0 ∧ d.length % 16 = 0 then d
    else padMarked marker d
  let n := p.length / 16 - 1
  c.enc k₂ (xorBytes (p.drop (n * 16)) (cbcChain c k₁ n iv p))

/-- A chaining value is one block. -/
theorem length_cbcChain (k : List UInt8) (n : Nat) :
    ∀ (iv d : List UInt8), iv.length = 16 → n * 16 ≤ d.length →
      (cbcChain c k n iv d).length = 16 := by
  induction n with
  | zero => intro iv d hiv _; exact hiv
  | succ n ih =>
    intro iv d hiv hd
    apply ih
    · apply c.length_enc
      simp only [length_xorBytes, List.length_take]
      omega
    · rw [List.length_drop]
      omega

/-- A MAC is one block. -/
theorem length_cbcMac (marker : UInt8) (k₁ k₂ iv d : List UInt8)
    (hiv : iv.length = 16) :
    (cbcMac c marker k₁ k₂ iv d).length = 16 := by
  have hblocks : ∀ p : List UInt8, p.length % 16 = 0 → 0 < p.length →
      (c.enc k₂ (xorBytes (p.drop ((p.length / 16 - 1) * 16))
        (cbcChain c k₁ (p.length / 16 - 1) iv p))).length = 16 := by
    intro p hmod hpos
    apply c.length_enc
    rw [length_xorBytes, length_cbcChain c k₁ _ iv p hiv (by omega),
      List.length_drop]
    omega
  unfold cbcMac
  dsimp only
  apply hblocks
  · by_cases h : d.length ≠ 0 ∧ d.length % 16 = 0
    · rw [if_pos h]
      exact h.2
    · rw [if_neg h, length_padMarked, padLen]
      omega
  · by_cases h : d.length ≠ 0 ∧ d.length % 16 = 0
    · rw [if_pos h]
      exact Nat.pos_of_ne_zero h.1
    · rw [if_neg h, length_padMarked, padLen]
      omega
end LibOsdp.Lib
