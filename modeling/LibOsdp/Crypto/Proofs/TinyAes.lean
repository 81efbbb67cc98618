/-
The library's own AES takes back what it encrypts, and so it is a block
cipher in the sense of `Lib.BlockCipher`.

# Layer by layer

The S-boxes are compared byte by byte and the rows are moved back where
they were.  The columns are linear: `xtime` distributes over the exclusive
or, and so does `Multiply` in its first argument.  What `InvMixColumns`
makes of a mixed column falls apart into what it makes of each of the four
bytes (`invMixByte_mixByte`), and what one byte contributes is computed
for all its values.  `Lib.Layers` puts the layers together; the round keys
do not matter to it.

# Buffers

`AES_CBC_encrypt_buffer` carries a pointer to the last block it wrote,
`AES_CBC_decrypt_buffer` a copy of the last block it read.  Both are CBC
as `Lib.BlockCipher` has it, block by block (`cbcEncryptLoop_eq`,
`cbcDecryptLoop_eq`), which is the form in which the secure channel calls
them.
-/
import LibOsdp.Crypto.TinyAes
import LibOsdp.Lib.Rounds
import Mathlib.Tactic.IntervalCases

namespace LibOsdp.TinyAes

open Lib

-- ================================================================ bytes

/-- A property of bytes, checked for every one of them. -/
theorem forall_byte {P : UInt8 → Prop}
    (h : ∀ n < 256, P (UInt8.ofNat n)) (x : UInt8) : P x := by
  have hx := h x.toNat x.toNat_lt
  rw [UInt8.ofNat_toNat] at hx
  exact hx

/-- `rsbox` is the inverse of `sbox`. -/
theorem getSBoxInvert_getSBoxValue (x : UInt8) :
    getSBoxInvert (getSBoxValue x) = x := by
  apply forall_byte (P := fun x => getSBoxInvert (getSBoxValue x) = x)
  decide +kernel

/-- What `xtime` folds back in: a product with the top bit. -/
def carry (x : UInt8) : UInt8 := ((x >>> 7) &&& 1) * 0x1B

/-- The carry is one of two bytes, by the top bit. -/
theorem carry_eq (x : UInt8) :
    carry x = if x.toBitVec.msb then 0x1B else 0 := by
  apply forall_byte (P := fun x =>
    carry x = if x.toBitVec.msb then 0x1B else 0)
  decide +kernel

theorem carry_xor (x y : UInt8) :
    carry (x ^^^ y) = carry x ^^^ carry y := by
  simp only [carry_eq, UInt8.toBitVec_xor, BitVec.msb_xor]
  cases x.toBitVec.msb <;> cases y.toBitVec.msb <;> rfl

/-- `xtime` is linear. -/
theorem xtime_xor (x y : UInt8) :
    xtime (x ^^^ y) = xtime x ^^^ xtime y := by
  have hshift : (x ^^^ y) <<< 1 = x <<< 1 ^^^ y <<< 1 :=
    UInt8.shiftLeft_xor
  show (x ^^^ y) <<< 1 ^^^ carry (x ^^^ y)
    = (x <<< 1 ^^^ carry x) ^^^ (y <<< 1 ^^^ carry y)
  rw [hshift, carry_xor]
  ac_rfl

/-- A bit is zero or one. -/
theorem bitAt_cases (y n : UInt8) : bitAt y n = 0 ∨ bitAt y n = 1 := by
  apply forall_byte (P := fun z => z &&& 1 = 0 ∨ z &&& 1 = 1)
  decide +kernel

theorem bitAt_mul_xor (m n x y : UInt8) :
    bitAt m n * (x ^^^ y) = (bitAt m n * x) ^^^ (bitAt m n * y) := by
  rcases bitAt_cases m n with h | h
  · rw [h, UInt8.zero_mul, UInt8.zero_mul, UInt8.zero_mul]
    rfl
  · rw [h, UInt8.one_mul, UInt8.one_mul, UInt8.one_mul]

/-- `Multiply` is linear in its first argument. -/
theorem multiply_xor (x y m : UInt8) :
    multiply (x ^^^ y) m = multiply x m ^^^ multiply y m := by
  simp only [multiply, xtime_xor, bitAt_mul_xor]
  ac_rfl

-- ============================================================== columns

/-- A byte of a mixed column, from the column turned so that its own byte
stands first. -/
def mixByte (a b c d : UInt8) : UInt8 :=
  xtime a ^^^ (xtime b ^^^ b) ^^^ c ^^^ d

/-- A byte of an unmixed column. -/
def invMixByte (a b c d : UInt8) : UInt8 :=
  multiply a 0x0E ^^^ multiply b 0x0B ^^^ multiply c 0x0D ^^^
    multiply d 0x09

/-- The sum of the column drops out of the byte it belongs to. -/
theorem mixByte_eq (a b c d : UInt8) :
    a ^^^ (xtime (a ^^^ b) ^^^ (a ^^^ b ^^^ c ^^^ d)) = mixByte a b c d := by
  have h : a ^^^ (xtime a ^^^ xtime b ^^^ (a ^^^ b ^^^ c ^^^ d))
      = (a ^^^ a) ^^^ mixByte a b c d := by
    unfold mixByte
    ac_rfl
  rw [xtime_xor, h, UInt8.xor_self, UInt8.zero_xor]

/-- The column that `MixColumns` stores. -/
theorem mixColumn_eq (w : Word) :
    mixColumn w = ⟨mixByte w.b0 w.b1 w.b2 w.b3,
      mixByte w.b1 w.b2 w.b3 w.b0, mixByte w.b2 w.b3 w.b0 w.b1,
      mixByte w.b3 w.b0 w.b1 w.b2⟩ := by
  simp only [← mixByte_eq]
  dsimp only [mixColumn]
  congr 3 <;> ac_rfl

/-- The column that `InvMixColumns` stores. -/
theorem invMixColumn_eq (w : Word) :
    invMixColumn w = ⟨invMixByte w.b0 w.b1 w.b2 w.b3,
      invMixByte w.b1 w.b2 w.b3 w.b0, invMixByte w.b2 w.b3 w.b0 w.b1,
      invMixByte w.b3 w.b0 w.b1 w.b2⟩ := by
  dsimp only [invMixColumn, invMixByte]
  congr 1 <;> ac_rfl

/-- What the four bytes of a mixed column contribute to the first byte of
the unmixed one: the first byte itself, and nothing from the others. -/
theorem contributions (x : UInt8) :
    multiply (xtime x) 0x0E ^^^ multiply x 0x0B ^^^ multiply x 0x0D ^^^
        multiply (xtime x ^^^ x) 0x09 = x ∧
      multiply (xtime x ^^^ x) 0x0E ^^^ multiply (xtime x) 0x0B ^^^
        multiply x 0x0D ^^^ multiply x 0x09 = 0 ∧
      multiply x 0x0E ^^^ multiply (xtime x ^^^ x) 0x0B ^^^
        multiply (xtime x) 0x0D ^^^ multiply x 0x09 = 0 ∧
      multiply x 0x0E ^^^ multiply x 0x0B ^^^
        multiply (xtime x ^^^ x) 0x0D ^^^ multiply (xtime x) 0x09 = 0 := by
  apply forall_byte (P := fun x =>
    multiply (xtime x) 0x0E ^^^ multiply x 0x0B ^^^ multiply x 0x0D ^^^
        multiply (xtime x ^^^ x) 0x09 = x ∧
      multiply (xtime x ^^^ x) 0x0E ^^^ multiply (xtime x) 0x0B ^^^
        multiply x 0x0D ^^^ multiply x 0x09 = 0 ∧
      multiply x 0x0E ^^^ multiply (xtime x ^^^ x) 0x0B ^^^
        multiply (xtime x) 0x0D ^^^ multiply x 0x09 = 0 ∧
      multiply x 0x0E ^^^ multiply x 0x0B ^^^
        multiply (xtime x ^^^ x) 0x0D ^^^ multiply (xtime x) 0x09 = 0)
  decide +kernel

/-- Unmixing a mixed column gives back its first byte; the other three are
the same column turned. -/
theorem invMixByte_mixByte (a b c d : UInt8) :
    invMixByte (mixByte a b c d) (mixByte b c d a) (mixByte c d a b)
      (mixByte d a b c) = a := by
  obtain ⟨ha, -, -, -⟩ := contributions a
  obtain ⟨-, hb, -, -⟩ := contributions b
  obtain ⟨-, -, hc, -⟩ := contributions c
  obtain ⟨-, -, -, hd⟩ := contributions d
  have hsum : invMixByte (mixByte a b c d) (mixByte b c d a)
      (mixByte c d a b) (mixByte d a b c)
      = (multiply (xtime a) 0x0E ^^^ multiply a 0x0B ^^^ multiply a 0x0D ^^^
          multiply (xtime a ^^^ a) 0x09) ^^^
        (multiply (xtime b ^^^ b) 0x0E ^^^ multiply (xtime b) 0x0B ^^^
          multiply b 0x0D ^^^ multiply b 0x09) ^^^
        (multiply c 0x0E ^^^ multiply (xtime c ^^^ c) 0x0B ^^^
          multiply (xtime c) 0x0D ^^^ multiply c 0x09) ^^^
        (multiply d 0x0E ^^^ multiply d 0x0B ^^^
          multiply (xtime d ^^^ d) 0x0D ^^^ multiply (xtime d) 0x09) := by
    simp only [invMixByte, mixByte, multiply_xor]
    ac_rfl
  rw [hsum, ha, hb, hc, hd]
  simp only [UInt8.xor_zero]

theorem invMixColumn_mixColumn (w : Word) :
    invMixColumn (mixColumn w) = w := by
  rw [invMixColumn_eq, mixColumn_eq]
  apply Word.ext <;> exact invMixByte_mixByte _ _ _ _

-- =============================================================== layers

/-- Adding a word twice. -/
theorem Word.xor_xor (v w : Word) : (v.xor w).xor w = v := by
  have h (x y : UInt8) : x ^^^ y ^^^ y = x := by
    rw [UInt8.xor_assoc, UInt8.xor_self, UInt8.xor_zero]
  apply Word.ext <;> exact h _ _

theorem addRoundKey_addRoundKey (roundKey : List Word) (round : Nat) :
    Function.Involutive (addRoundKey roundKey round) := by
  intro s
  apply AesState.ext <;> exact Word.xor_xor _ _

theorem invSubBytes_subBytes (s : AesState) :
    invSubBytes (subBytes s) = s := by
  have h (w : Word) :
      (w.map getSBoxValue).map getSBoxInvert = w := by
    apply Word.ext <;> exact getSBoxInvert_getSBoxValue _
  apply AesState.ext <;> exact h _

theorem invShiftRows_shiftRows (s : AesState) :
    invShiftRows (shiftRows s) = s := rfl

theorem invMixColumns_mixColumns (s : AesState) :
    invMixColumns (mixColumns s) = s := by
  apply AesState.ext <;> exact invMixColumn_mixColumn _

/-- The layers of AES under these round keys. -/
def layers (roundKey : List Word) : Layers AesState where
  addKey := addRoundKey roundKey
  scramble s := shiftRows (subBytes s)
  unscramble s := invSubBytes (invShiftRows s)
  mix := mixColumns
  unmix := invMixColumns
  addKey_addKey := addRoundKey_addRoundKey roundKey
  unscramble_scramble := by
    intro s
    show invSubBytes (invShiftRows (shiftRows (subBytes s))) = s
    rw [invShiftRows_shiftRows, invSubBytes_subBytes]
  unmix_mix := invMixColumns_mixColumns

section Cipher

variable (roundKey : List Word)

theorem cipherRounds_eq (s : AesState) (n : Nat) :
    cipherRounds roundKey s n = (layers roundKey).after n s := by
  induction n with
  | zero => rfl
  | succ n ih =>
    show addRoundKey roundKey (n + 1) (mixColumns (shiftRows
      (subBytes (cipherRounds roundKey s n)))) = _
    rw [ih]
    rfl

theorem invCipherRounds_eq (n : Nat) (s : AesState) :
    invCipherRounds roundKey n s = (layers roundKey).back n s := by
  induction n generalizing s with
  | zero => rfl
  | succ n ih => exact ih _

theorem cipher_eq (s : AesState) :
    cipher roundKey s = (layers roundKey).encrypt 9 s := by
  show addRoundKey roundKey 10 (shiftRows
    (subBytes (cipherRounds roundKey s 9))) = _
  rw [cipherRounds_eq]
  rfl

/-- `InvCipher` takes `Cipher` back, whatever the round keys. -/
theorem invCipher_cipher (s : AesState) :
    invCipher roundKey (cipher roundKey s) = s := by
  show invCipherRounds roundKey 9
    (addRoundKey roundKey 10 (cipher roundKey s)) = s
  rw [invCipherRounds_eq, cipher_eq]
  exact (layers roundKey).decrypt_encrypt 9 s

end Cipher

-- ============================================================== buffers

@[simp] theorem AesState.length_bytes (s : AesState) :
    s.bytes.length = 16 := rfl

/-- A state is read back from where it was stored. -/
theorem AesState.ofBytes_bytes (s : AesState) : .ofBytes s.bytes = s := rfl

/-- Storing a state stores the block it was read from. -/
theorem AesState.bytes_ofBytes {buf : List UInt8} (h : buf.length = 16) :
    (AesState.ofBytes buf).bytes = buf := by
  apply List.ext_getElem
  · rw [AesState.length_bytes, h]
  · intro n hn hb
    have hget (k : Nat) (hk : k < buf.length) : byteAt buf k = buf[k] := by
      rw [byteAt, List.getD_eq_getElem?_getD,
        List.getElem?_eq_getElem hk]
      rfl
    rw [AesState.length_bytes] at hn
    rw [← hget n hb]
    interval_cases n <;> rfl

/-- AES under the round keys that `KeyExpansion` makes of a key: a block
cipher. -/
def tinyAes : BlockCipher where
  enc key b := (cipher (keyExpansion key) (.ofBytes b)).bytes
  dec key b := (invCipher (keyExpansion key) (.ofBytes b)).bytes
  length_enc _ _ _ := AesState.length_bytes _
  length_dec _ _ _ := AesState.length_bytes _
  dec_enc := by
    intro key b hb
    show (invCipher (keyExpansion key) (.ofBytes
      (cipher (keyExpansion key) (.ofBytes b)).bytes)).bytes = b
    rw [AesState.ofBytes_bytes, invCipher_cipher,
      AesState.bytes_ofBytes hb]

example : tinyAes.enc (writeBe 16 0x2B7E151628AED2A6ABF7158809CF4F3C)
    (writeBe 16 0x6BC1BEE22E409F96E93D7E117393172A)
    = writeBe 16 0x3AD77BB40D7A3660A89ECAF32466EF97 := by
  decide +kernel

section Buffers

variable (key : List UInt8)

/-- The loop of `AES_CBC_encrypt_buffer` is CBC encryption. -/
theorem cbcEncryptLoop_eq (n : Nat) (iv buf : List UInt8) :
    (cbcEncryptLoop (keyExpansion key) n iv buf).1
      = cbcEncrypt tinyAes key iv n buf := by
  induction n generalizing iv buf with
  | zero => rfl
  | succ n ih =>
    show (tinyAes.enc key (xorBytes (buf.take 16) iv)) ++
      (cbcEncryptLoop (keyExpansion key) n _ (buf.drop 16)).1 = _
    rw [ih]
    rfl

/-- The loop of `AES_CBC_decrypt_buffer` is CBC decryption. -/
theorem cbcDecryptLoop_eq (n : Nat) (iv buf : List UInt8) :
    (cbcDecryptLoop (keyExpansion key) n iv buf).1
      = cbcDecrypt tinyAes key iv n buf := by
  induction n generalizing iv buf with
  | zero => rfl
  | succ n ih =>
    show xorBytes (tinyAes.dec key (buf.take 16)) iv ++
      (cbcDecryptLoop (keyExpansion key) n _ (buf.drop 16)).1 = _
    rw [ih]
    rfl

/-- How often the loops go round on whole blocks. -/
theorem blocks_of_whole {n : Nat} (h : n % 16 = 0) :
    (n + 15) / 16 = n / 16 := by
  omega

/-- With an IV the backend encrypts whole blocks in CBC mode. -/
theorem osdpEncrypt_cbc {iv data : List UInt8}
    (h : data.length % 16 = 0) :
    osdpEncrypt key (some iv) data
      = some (cbcEncrypt tinyAes key iv (data.length / 16) data) := by
  show some (cbcEncryptLoop (keyExpansion key) ((data.length + 15) / 16) iv
    data).1 = _
  rw [blocks_of_whole h, cbcEncryptLoop_eq]

/-- With an IV it decrypts them likewise. -/
theorem osdpDecrypt_cbc {iv data : List UInt8}
    (h : data.length % 16 = 0) :
    osdpDecrypt key (some iv) data
      = some (cbcDecrypt tinyAes key iv (data.length / 16) data) := by
  show some (cbcDecryptLoop (keyExpansion key) ((data.length + 15) / 16) iv
    data).1 = _
  rw [blocks_of_whole h, cbcDecryptLoop_eq]

/-- Without one it encrypts one block. -/
theorem osdpEncrypt_block {data : List UInt8} (h : data.length ≤ 16) :
    osdpEncrypt key none data = some (tinyAes.enc key data) :=
  if_pos h

/-- Without one it decrypts one block. -/
theorem osdpDecrypt_block {data : List UInt8} (h : data.length ≤ 16) :
    osdpDecrypt key none data = some (tinyAes.dec key data) :=
  if_pos h

end Buffers

/-- What `osdp_encrypt` can be asked: whole blocks with an IV, one block
without. -/
def Encryptable (iv : Option (List UInt8)) (data : List UInt8) : Prop :=
  match iv with
  | some iv => iv.length = 16 ∧ data.length % 16 = 0
  | none => data.length = 16

/-- `osdp_decrypt` takes back what `osdp_encrypt` stored, under every key
and in both modes, and the text keeps its length. -/
theorem osdp_decrypt_encrypt (key data : List UInt8)
    (iv : Option (List UInt8)) (h : Encryptable iv data) :
    ∃ coded, osdpEncrypt key iv data = some coded ∧
      coded.length = data.length ∧
      osdpDecrypt key iv coded = some data := by
  cases iv with
  | none =>
    have hlen : data.length = 16 := h
    have hcoded : (tinyAes.enc key data).length = 16 :=
      tinyAes.length_enc key data hlen
    refine ⟨_, osdpEncrypt_block key (Nat.le_of_eq hlen), ?_, ?_⟩
    · rw [hcoded, hlen]
    · rw [osdpDecrypt_block key (Nat.le_of_eq hcoded),
        tinyAes.dec_enc key data hlen]
  | some iv =>
    obtain ⟨hiv, hdata⟩ : iv.length = 16 ∧ data.length % 16 = 0 := h
    have hblocks : data.length = data.length / 16 * 16 := by omega
    have hcoded := length_cbcEncrypt tinyAes key (data.length / 16) iv data
      hiv hblocks
    have hwhole : (cbcEncrypt tinyAes key iv (data.length / 16)
        data).length % 16 = 0 := by
      omega
    refine ⟨_, osdpEncrypt_cbc key hdata, ?_, ?_⟩
    · rw [hcoded, ← hblocks]
    · rw [osdpDecrypt_cbc key hwhole, hcoded, Nat.mul_div_cancel _ (by decide),
        cbcDecrypt_cbcEncrypt tinyAes key _ iv data hiv hblocks]

theorem osdp_decrypt_encrypt_blocks :
    Encryptable (some (writeBe 16 3)) (writeBe 32 5) ∧
      ∃ coded, osdpEncrypt (writeBe 16 7) (some (writeBe 16 3))
          (writeBe 32 5) = some coded ∧
        coded.length = (writeBe 32 5).length ∧
        osdpDecrypt (writeBe 16 7) (some (writeBe 16 3)) coded
          = some (writeBe 32 5) := by
  have h : Encryptable (some (writeBe 16 3)) (writeBe 32 5) :=
    And.intro (by decide) (by decide)
  exact ⟨h, osdp_decrypt_encrypt _ _ _ h⟩

end LibOsdp.TinyAes
