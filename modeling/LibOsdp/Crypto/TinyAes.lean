/-
AES-128 as the library's own crypto backend computes it
(crypto/tinyaes_src.c, crypto/tinyaes.c).

# The state

`state_t` is the sixteen bytes of a block, laid over the buffer it is
encrypted in: `(*state)[i][j]` is byte `4 * i + j`.  Here it is four words
of four bytes, so that it cannot be of another size; `ofBytes` reads it
from a buffer and `bytes` stores it back.  The round keys are words as
well, four for each round.

# The tables

`sbox`, `rsbox` and `Rcon` are the tables of the source.  Everything else
is computed: the products of `InvMixColumns` by the macro `Multiply`, the
round keys by `KeyExpansion`.

# Whole blocks

`AES_CBC_encrypt_buffer` counts in blocks, so a length that is no multiple
of sixteen makes it go on behind the buffer it was given; no caller has
such a length.  The model reads zeros there.
-/
import LibOsdp.Lib.BlockCipher

namespace LibOsdp.TinyAes

open Lib

-- =============================================================== tables

/-- `sbox`. -/
def sbox : List UInt8 :=
  [0x63, 0x7C, 0x77, 0x7B, 0xF2, 0x6B, 0x6F, 0xC5, 0x30, 0x01, 0x67, 0x2B,
   0xFE, 0xD7, 0xAB, 0x76, 0xCA, 0x82, 0xC9, 0x7D, 0xFA, 0x59, 0x47, 0xF0,
   0xAD, 0xD4, 0xA2, 0xAF, 0x9C, 0xA4, 0x72, 0xC0, 0xB7, 0xFD, 0x93, 0x26,
   0x36, 0x3F, 0xF7, 0xCC, 0x34, 0xA5, 0xE5, 0xF1, 0x71, 0xD8, 0x31, 0x15,
   0x04, 0xC7, 0x23, 0xC3, 0x18, 0x96, 0x05, 0x9A, 0x07, 0x12, 0x80, 0xE2,
   0xEB, 0x27, 0xB2, 0x75, 0x09, 0x83, 0x2C, 0x1A, 0x1B, 0x6E, 0x5A, 0xA0,
   0x52, 0x3B, 0xD6, 0xB3, 0x29, 0xE3, 0x2F, 0x84, 0x53, 0xD1, 0x00, 0xED,
   0x20, 0xFC, 0xB1, 0x5B, 0x6A, 0xCB, 0xBE, 0x39, 0x4A, 0x4C, 0x58, 0xCF,
   0xD0, 0xEF, 0xAA, 0xFB, 0x43, 0x4D, 0x33, 0x85, 0x45, 0xF9, 0x02, 0x7F,
   0x50, 0x3C, 0x9F, 0xA8, 0x51, 0xA3, 0x40, 0x8F, 0x92, 0x9D, 0x38, 0xF5,
   0xBC, 0xB6, 0xDA, 0x21, 0x10, 0xFF, 0xF3, 0xD2, 0xCD, 0x0C, 0x13, 0xEC,
   0x5F, 0x97, 0x44, 0x17, 0xC4, 0xA7, 0x7E, 0x3D, 0x64, 0x5D, 0x19, 0x73,
   0x60, 0x81, 0x4F, 0xDC, 0x22, 0x2A, 0x90, 0x88, 0x46, 0xEE, 0xB8, 0x14,
   0xDE, 0x5E, 0x0B, 0xDB, 0xE0, 0x32, 0x3A, 0x0A, 0x49, 0x06, 0x24, 0x5C,
   0xC2, 0xD3, 0xAC, 0x62, 0x91, 0x95, 0xE4, 0x79, 0xE7, 0xC8, 0x37, 0x6D,
   0x8D, 0xD5, 0x4E, 0xA9, 0x6C, 0x56, 0xF4, 0xEA, 0x65, 0x7A, 0xAE, 0x08,
   0xBA, 0x78, 0x25, 0x2E, 0x1C, 0xA6, 0xB4, 0xC6, 0xE8, 0xDD, 0x74, 0x1F,
   0x4B, 0xBD, 0x8B, 0x8A, 0x70, 0x3E, 0xB5, 0x66, 0x48, 0x03, 0xF6, 0x0E,
   0x61, 0x35, 0x57, 0xB9, 0x86, 0xC1, 0x1D, 0x9E, 0xE1, 0xF8, 0x98, 0x11,
   0x69, 0xD9, 0x8E, 0x94, 0x9B, 0x1E, 0x87, 0xE9, 0xCE, 0x55, 0x28, 0xDF,
   0x8C, 0xA1, 0x89, 0x0D, 0xBF, 0xE6, 0x42, 0x68, 0x41, 0x99, 0x2D, 0x0F,
   0xB0, 0x54, 0xBB, 0x16]

/-- `rsbox`. -/
def rsbox : List UInt8 :=
  [0x52, 0x09, 0x6A, 0xD5, 0x30, 0x36, 0xA5, 0x38, 0xBF, 0x40, 0xA3, 0x9E,
   0x81, 0xF3, 0xD7, 0xFB, 0x7C, 0xE3, 0x39, 0x82, 0x9B, 0x2F, 0xFF, 0x87,
   0x34, 0x8E, 0x43, 0x44, 0xC4, 0xDE, 0xE9, 0xCB, 0x54, 0x7B, 0x94, 0x32,
   0xA6, 0xC2, 0x23, 0x3D, 0xEE, 0x4C, 0x95, 0x0B, 0x42, 0xFA, 0xC3, 0x4E,
   0x08, 0x2E, 0xA1, 0x66, 0x28, 0xD9, 0x24, 0xB2, 0x76, 0x5B, 0xA2, 0x49,
   0x6D, 0x8B, 0xD1, 0x25, 0x72, 0xF8, 0xF6, 0x64, 0x86, 0x68, 0x98, 0x16,
   0xD4, 0xA4, 0x5C, 0xCC, 0x5D, 0x65, 0xB6, 0x92, 0x6C, 0x70, 0x48, 0x50,
   0xFD, 0xED, 0xB9, 0xDA, 0x5E, 0x15, 0x46, 0x57, 0xA7, 0x8D, 0x9D, 0x84,
   0x90, 0xD8, 0xAB, 0x00, 0x8C, 0xBC, 0xD3, 0x0A, 0xF7, 0xE4, 0x58, 0x05,
   0xB8, 0xB3, 0x45, 0x06, 0xD0, 0x2C, 0x1E, 0x8F, 0xCA, 0x3F, 0x0F, 0x02,
   0xC1, 0xAF, 0xBD, 0x03, 0x01, 0x13, 0x8A, 0x6B, 0x3A, 0x91, 0x11, 0x41,
   0x4F, 0x67, 0xDC, 0xEA, 0x97, 0xF2, 0xCF, 0xCE, 0xF0, 0xB4, 0xE6, 0x73,
   0x96, 0xAC, 0x74, 0x22, 0xE7, 0xAD, 0x35, 0x85, 0xE2, 0xF9, 0x37, 0xE8,
   0x1C, 0x75, 0xDF, 0x6E, 0x47, 0xF1, 0x1A, 0x71, 0x1D, 0x29, 0xC5, 0x89,
   0x6F, 0xB7, 0x62, 0x0E, 0xAA, 0x18, 0xBE, 0x1B, 0xFC, 0x56, 0x3E, 0x4B,
   0xC6, 0xD2, 0x79, 0x20, 0x9A, 0xDB, 0xC0, 0xFE, 0x78, 0xCD, 0x5A, 0xF4,
   0x1F, 0xDD, 0xA8, 0x33, 0x88, 0x07, 0xC7, 0x31, 0xB1, 0x12, 0x10, 0x59,
   0x27, 0x80, 0xEC, 0x5F, 0x60, 0x51, 0x7F, 0xA9, 0x19, 0xB5, 0x4A, 0x0D,
   0x2D, 0xE5, 0x7A, 0x9F, 0x93, 0xC9, 0x9C, 0xEF, 0xA0, 0xE0, 0x3B, 0x4D,
   0xAE, 0x2A, 0xF5, 0xB0, 0xC8, 0xEB, 0xBB, 0x3C, 0x83, 0x53, 0x99, 0x61,
   0x17, 0x2B, 0x04, 0x7E, 0xBA, 0x77, 0xD6, 0x26, 0xE1, 0x69, 0x14, 0x63,
   0x55, 0x21, 0x0C, 0x7D]

/-- `Rcon`. -/
def rcon : List UInt8 :=
  [0x8D, 0x01, 0x02, 0x04, 0x08, 0x10, 0x20, 0x40, 0x80, 0x1B, 0x36]

/-- `getSBoxValue`. -/
def getSBoxValue (num : UInt8) : UInt8 := byteAt sbox num.toNat

/-- `getSBoxInvert`. -/
def getSBoxInvert (num : UInt8) : UInt8 := byteAt rsbox num.toNat

-- ========================================================== the state

/-- Four bytes: a column of the state, or a word of the round keys. -/
@[ext] structure Word where
  b0 : UInt8
  b1 : UInt8
  b2 : UInt8
  b3 : UInt8
deriving DecidableEq, Inhabited

/-- `state_t`. -/
@[ext] structure AesState where
  c0 : Word
  c1 : Word
  c2 : Word
  c3 : Word
deriving DecidableEq

/-- The word in a buffer at `off`. -/
def Word.ofBytes (buf : List UInt8) (off : Nat) : Word :=
  ⟨byteAt buf off, byteAt buf (off + 1), byteAt buf (off + 2),
    byteAt buf (off + 3)⟩

/-- A word as it lies in a buffer. -/
def Word.bytes (w : Word) : List UInt8 := [w.b0, w.b1, w.b2, w.b3]

/-- The same change to every byte. -/
def Word.map (f : UInt8 → UInt8) (w : Word) : Word :=
  ⟨f w.b0, f w.b1, f w.b2, f w.b3⟩

/-- Bytewise exclusive or. -/
def Word.xor (v w : Word) : Word :=
  ⟨v.b0 ^^^ w.b0, v.b1 ^^^ w.b1, v.b2 ^^^ w.b2, v.b3 ^^^ w.b3⟩

/-- The state laid over a buffer. -/
def AesState.ofBytes (buf : List UInt8) : AesState :=
  ⟨.ofBytes buf 0, .ofBytes buf 4, .ofBytes buf 8, .ofBytes buf 12⟩

/-- The buffer under a state. -/
def AesState.bytes (s : AesState) : List UInt8 :=
  s.c0.bytes ++ s.c1.bytes ++ s.c2.bytes ++ s.c3.bytes

/-- The same change to every column. -/
def AesState.map (f : Word → Word) (s : AesState) : AesState :=
  ⟨f s.c0, f s.c1, f s.c2, f s.c3⟩

-- ========================================================== round keys

/-- `Nk`, `Nb` and `Nr` of AES-128. -/
abbrev nk : Nat := 4

/-- `Nb`. -/
abbrev nb : Nat := 4

/-- `Nr`. -/
abbrev nr : Nat := 10

/-- Word `i` of the round keys. -/
def word (roundKey : List Word) (i : Nat) : Word := roundKey.getD i default

/-- The body of the second loop of `KeyExpansion`, for word `i`, with the
words before it at hand. -/
def expandWord (roundKey : List Word) (i : Nat) : Word :=
  let tempa := word roundKey (i - 1)
  let tempa :=
    if i % nk = 0 then
      let rotated : Word := ⟨tempa.b1, tempa.b2, tempa.b3, tempa.b0⟩
      let tempa := rotated.map getSBoxValue
      { tempa with b0 := tempa.b0 ^^^ byteAt rcon (i / nk) }
    else tempa
  (word roundKey (i - nk)).xor tempa

/-- `n` rounds of that loop, from word `i` on. -/
def expandFrom : Nat → Nat → List Word → List Word
  | 0, _, roundKey => roundKey
  | n + 1, i, roundKey =>
    expandFrom n (i + 1) (roundKey ++ [expandWord roundKey i])

/-- `KeyExpansion`. -/
def keyExpansion (key : List UInt8) : List Word :=
  expandFrom (nb * (nr + 1) - nk) nk
    [.ofBytes key 0, .ofBytes key 4, .ofBytes key 8, .ofBytes key 12]

/-- `AddRoundKey`. -/
def addRoundKey (roundKey : List Word) (round : Nat) (s : AesState) :
    AesState :=
  ⟨s.c0.xor (word roundKey (round * nb)),
    s.c1.xor (word roundKey (round * nb + 1)),
    s.c2.xor (word roundKey (round * nb + 2)),
    s.c3.xor (word roundKey (round * nb + 3))⟩

-- ============================================================== layers

/-- `SubBytes`. -/
def subBytes (s : AesState) : AesState := s.map (Word.map getSBoxValue)

/-- `InvSubBytes`. -/
def invSubBytes (s : AesState) : AesState :=
  s.map (Word.map getSBoxInvert)

/-- `ShiftRows`: row `j` moves `j` columns to the left. -/
def shiftRows (s : AesState) : AesState :=
  ⟨⟨s.c0.b0, s.c1.b1, s.c2.b2, s.c3.b3⟩,
    ⟨s.c1.b0, s.c2.b1, s.c3.b2, s.c0.b3⟩,
    ⟨s.c2.b0, s.c3.b1, s.c0.b2, s.c1.b3⟩,
    ⟨s.c3.b0, s.c0.b1, s.c1.b2, s.c2.b3⟩⟩

/-- `InvShiftRows`: row `j` moves `j` columns to the right. -/
def invShiftRows (s : AesState) : AesState :=
  ⟨⟨s.c0.b0, s.c3.b1, s.c2.b2, s.c1.b3⟩,
    ⟨s.c1.b0, s.c0.b1, s.c3.b2, s.c2.b3⟩,
    ⟨s.c2.b0, s.c1.b1, s.c0.b2, s.c3.b3⟩,
    ⟨s.c3.b0, s.c2.b1, s.c1.b2, s.c0.b3⟩⟩

/-- `xtime`. -/
def xtime (x : UInt8) : UInt8 := (x <<< 1) ^^^ (((x >>> 7) &&& 1) * 0x1B)

/-- The loop body of `MixColumns`. -/
def mixColumn (w : Word) : Word :=
  let t := w.b0
  let tmp := w.b0 ^^^ w.b1 ^^^ w.b2 ^^^ w.b3
  ⟨w.b0 ^^^ (xtime (w.b0 ^^^ w.b1) ^^^ tmp),
    w.b1 ^^^ (xtime (w.b1 ^^^ w.b2) ^^^ tmp),
    w.b2 ^^^ (xtime (w.b2 ^^^ w.b3) ^^^ tmp),
    w.b3 ^^^ (xtime (w.b3 ^^^ t) ^^^ tmp)⟩

/-- `MixColumns`. -/
def mixColumns (s : AesState) : AesState := s.map mixColumn

/-- `y >> n & 1`. -/
def bitAt (y n : UInt8) : UInt8 := (y >>> n) &&& 1

/-- `Multiply`. -/
def multiply (x y : UInt8) : UInt8 :=
  (bitAt y 0 * x) ^^^ (bitAt y 1 * xtime x) ^^^
    (bitAt y 2 * xtime (xtime x)) ^^^
    (bitAt y 3 * xtime (xtime (xtime x))) ^^^
    (bitAt y 4 * xtime (xtime (xtime (xtime x))))

/-- The loop body of `InvMixColumns`. -/
def invMixColumn (w : Word) : Word :=
  let a := w.b0
  let b := w.b1
  let c := w.b2
  let d := w.b3
  ⟨multiply a 0x0E ^^^ multiply b 0x0B ^^^ multiply c 0x0D ^^^
      multiply d 0x09,
    multiply a 0x09 ^^^ multiply b 0x0E ^^^ multiply c 0x0B ^^^
      multiply d 0x0D,
    multiply a 0x0D ^^^ multiply b 0x09 ^^^ multiply c 0x0E ^^^
      multiply d 0x0B,
    multiply a 0x0B ^^^ multiply b 0x0D ^^^ multiply c 0x09 ^^^
      multiply d 0x0E⟩

/-- `InvMixColumns`. -/
def invMixColumns (s : AesState) : AesState := s.map invMixColumn

-- ============================================================== cipher

variable (roundKey : List Word)

/-- The loop of `Cipher` up to the end of round `round`: the state there,
with the first round key added before. -/
def cipherRounds (s : AesState) : Nat → AesState
  | 0 => addRoundKey roundKey 0 s
  | round + 1 =>
    addRoundKey roundKey (round + 1)
      (mixColumns (shiftRows (subBytes (cipherRounds s round))))

/-- `Cipher`: the last round leaves the loop before `MixColumns`. -/
def cipher (s : AesState) : AesState :=
  addRoundKey roundKey nr
    (shiftRows (subBytes (cipherRounds roundKey s (nr - 1))))

/-- The loop of `InvCipher` from `round` down. -/
def invCipherRounds : Nat → AesState → AesState
  | 0, s => addRoundKey roundKey 0 (invSubBytes (invShiftRows s))
  | round + 1, s =>
    invCipherRounds round (invMixColumns
      (addRoundKey roundKey (round + 1) (invSubBytes (invShiftRows s))))

/-- `InvCipher`. -/
def invCipher (s : AesState) : AesState :=
  invCipherRounds roundKey (nr - 1) (addRoundKey roundKey nr s)

-- ============================================================= buffers

/-- `struct AES_ctx`. -/
structure AesCtx where
  roundKey : List Word
  iv : List UInt8

/-- `AES_init_ctx`; the IV is not set. -/
def aesInitCtx (key : List UInt8) : AesCtx := ⟨keyExpansion key, []⟩

/-- `AES_init_ctx_iv`. -/
def aesInitCtxIv (key iv : List UInt8) : AesCtx := ⟨keyExpansion key, iv⟩

/-- `AES_ECB_encrypt`. -/
def aesEcbEncrypt (ctx : AesCtx) (buf : List UInt8) : List UInt8 :=
  (cipher ctx.roundKey (.ofBytes buf)).bytes

/-- `AES_ECB_decrypt`. -/
def aesEcbDecrypt (ctx : AesCtx) (buf : List UInt8) : List UInt8 :=
  (invCipher ctx.roundKey (.ofBytes buf)).bytes

/-- `XorWithIv`, on one block. -/
def xorWithIv (buf iv : List UInt8) : List UInt8 := xorBytes buf iv

/-- The loop of `AES_CBC_encrypt_buffer`, `n` blocks from here: the
buffer, and the block `Iv` points to in the end. -/
def cbcEncryptLoop : Nat → (iv buf : List UInt8) → List UInt8 × List UInt8
  | 0, iv, _ => ([], iv)
  | n + 1, iv, buf =>
    let block :=
      (cipher roundKey (.ofBytes (xorWithIv (buf.take 16) iv))).bytes
    let (rest, last) := cbcEncryptLoop n block (buf.drop 16)
    (block ++ rest, last)

/-- `AES_CBC_encrypt_buffer`: the context keeps the last block for the
next call. -/
def aesCbcEncryptBuffer (ctx : AesCtx) (buf : List UInt8) :
    AesCtx × List UInt8 :=
  let (out, last) :=
    cbcEncryptLoop ctx.roundKey ((buf.length + 15) / 16) ctx.iv buf
  ({ ctx with iv := last }, out)

/-- The loop of `AES_CBC_decrypt_buffer`, `n` blocks from here. -/
def cbcDecryptLoop : Nat → (iv buf : List UInt8) → List UInt8 × List UInt8
  | 0, iv, _ => ([], iv)
  | n + 1, iv, buf =>
    let storeNextIv := buf.take 16
    let block :=
      xorWithIv (invCipher roundKey (.ofBytes storeNextIv)).bytes iv
    let (rest, last) := cbcDecryptLoop n storeNextIv (buf.drop 16)
    (block ++ rest, last)

/-- `AES_CBC_decrypt_buffer`. -/
def aesCbcDecryptBuffer (ctx : AesCtx) (buf : List UInt8) :
    AesCtx × List UInt8 :=
  let (out, last) :=
    cbcDecryptLoop ctx.roundKey ((buf.length + 15) / 16) ctx.iv buf
  ({ ctx with iv := last }, out)

-- ======================================================== the backend

/-- `osdp_encrypt`: CBC with an IV, one block without; nothing where the
assertion fails. -/
def osdpEncrypt (key : List UInt8) (iv : Option (List UInt8))
    (data : List UInt8) : Option (List UInt8) :=
  match iv with
  | some iv => some (aesCbcEncryptBuffer (aesInitCtxIv key iv) data).2
  | none =>
    if data.length ≤ 16 then some (aesEcbEncrypt (aesInitCtx key) data)
    else none

/-- `osdp_decrypt`. -/
def osdpDecrypt (key : List UInt8) (iv : Option (List UInt8))
    (data : List UInt8) : Option (List UInt8) :=
  match iv with
  | some iv => some (aesCbcDecryptBuffer (aesInitCtxIv key iv) data).2
  | none =>
    if data.length ≤ 16 then some (aesEcbDecrypt (aesInitCtx key) data)
    else none

end LibOsdp.TinyAes
