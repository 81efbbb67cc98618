/-
The MAC as `osdp_compute_mac` (osdp_sc.c) computes it: a block count, a
loop over all blocks but the last, and the last block put together in a
buffer of its own.

The rest of the development takes the MAC to be the two-key CBC-MAC of the
padded message (`macOf`), which says nothing of blocks and remainders.
`compute_mac_is_reference` joins the two.  What has to be seen is that the
loop never looks at the padding (`cbcChain_append`) and that the buffer
ends up holding the last block of the padded message (`macLast_whole`,
`macLast_short`).
-/
import LibOsdp.Sc.Sc

namespace LibOsdp

open Lib

-- ================================================================ the code

/-- The blocks `osdp_compute_mac` goes through: one at least. -/
def macBlockCount (len : Nat) : Nat :=
  let fullBlocks := len / 16
  let n := if len % 16 = 0 then fullBlocks else fullBlocks + 1
  if n = 0 then 1 else n

/-- The loop over all blocks but the last, `n` of them to go: where it
stands in the message, and its chaining value. -/
def macLoop (c : BlockCipher) (sMac1 : Bytes) :
    Nat → Bytes → Bytes → Bytes × Bytes
  | 0, p, iv => (p, iv)
  | n + 1, p, iv =>
    macLoop c sMac1 n (p.drop 16) (c.enc sMac1 (xorBytes (p.take 16) iv))

/-- The last block, put together in a zeroed buffer; `p` is where the loop
left off. -/
def macLast (len : Nat) (p : Bytes) : Bytes :=
  let fullBlocks := len / 16
  let rem := len % 16
  let block := zeros 16
  if rem = 0 ∧ fullBlocks > 0 then writeAt block 0 (p.take 16)
  else (writeAt block 0 (p.take rem)).set rem 0x80

/-- The block `osdp_compute_mac` comes to, starting from the IV. -/
def macBlock (c : BlockCipher) (sMac1 sMac2 iv data : Bytes) : Bytes :=
  let n := macBlockCount data.length
  let (p, iv) := macLoop c sMac1 (n - 1) data iv
  c.enc sMac2 (xorBytes (macLast data.length p) iv)

/-- `osdp_compute_mac`, step by step. -/
def computeMacSteps (env : Env) (isCmd : Bool) (data : Bytes)
    (sc : OsdpSecureChannel) : OsdpSecureChannel :=
  let iv := if isCmd then sc.rMac else sc.cMac
  let block := macBlock env.cipher sc.sMac1 sc.sMac2 iv data
  if isCmd then { sc with cMac := block } else { sc with rMac := block }

-- =============================================================== the loop

section Loop

variable (c : BlockCipher) (k : Bytes)

/-- The loop reads `n` blocks and leaves their chaining value. -/
theorem macLoop_eq (n : Nat) (p iv : Bytes) :
    macLoop c k n p iv = (p.drop (n * 16), cbcChain c k n iv p) := by
  induction n generalizing p iv with
  | zero => rw [Nat.zero_mul, List.drop_zero]; rfl
  | succ n ih =>
    rw [macLoop, ih, List.drop_drop, Nat.succ_mul, Nat.add_comm 16]
    rfl

/-- The chaining value after `n` blocks depends on these alone. -/
theorem cbcChain_append {n : Nat} {d : Bytes} (r iv : Bytes)
    (h : n * 16 ≤ d.length) :
    cbcChain c k n iv (d ++ r) = cbcChain c k n iv d := by
  induction n generalizing d iv with
  | zero => rfl
  | succ n ih =>
    have hone : 16 ≤ d.length := by omega
    have hrest : n * 16 ≤ (d.drop 16).length := by
      rw [List.length_drop]
      omega
    rw [cbcChain, cbcChain, List.take_append_of_le_length hone,
      List.drop_append_of_le_length hone, ih _ hrest]

end Loop

-- ========================================================= the last block

/-- A block that is whole is taken as it is. -/
theorem macLast_whole {len : Nat} {p : Bytes} (hrem : len % 16 = 0)
    (hpos : 0 < len) (hp : p.length = 16) : macLast len p = p := by
  have hfull : len / 16 > 0 := by omega
  unfold macLast
  dsimp only
  rw [if_pos ⟨hrem, hfull⟩, List.take_of_length_le (Nat.le_of_eq hp)]
  unfold writeAt zeros
  rw [Nat.zero_add, hp]
  simp

/-- A block that is short or missing is filled with the marker and
zeros. -/
theorem macLast_short {len : Nat} {p : Bytes}
    (hshort : len % 16 ≠ 0 ∨ len = 0) (hp : p.length = len % 16) :
    macLast len p = p ++ 0x80 :: zeros (15 - p.length) := by
  have hlt : p.length < 16 := by omega
  have hnot : ¬ (len % 16 = 0 ∧ len / 16 > 0) := by omega
  have hzeros : (zeros 16).drop p.length
      = 0 :: zeros (15 - p.length) := by
    unfold zeros
    rw [List.drop_replicate,
      show 16 - p.length = (15 - p.length) + 1 by omega,
      List.replicate_succ]
  unfold macLast
  dsimp only
  rw [if_neg hnot, ← hp, List.take_length]
  unfold writeAt
  rw [Nat.zero_add, hzeros, List.take_zero, List.nil_append,
    List.set_append_right _ _ (Nat.le_refl _), Nat.sub_self]
  rfl

-- ================================================================== result

/-- What is left to pad once the whole blocks are taken off. -/
theorem padMarked_drop (marker : UInt8) (d : Bytes) :
    (padMarked marker d).drop (d.length / 16 * 16)
      = d.drop (d.length / 16 * 16) ++
        marker :: zeros (15 - d.length % 16) := by
  have hle : d.length / 16 * 16 ≤ d.length := Nat.div_mul_le_self _ _
  have hpad : padLen (d.length + 1) - d.length - 1
      = 15 - d.length % 16 := by
    unfold padLen
    omega
  unfold padMarked
  rw [List.drop_append_of_le_length hle, hpad]
  rfl

/-- The block is the CBC-MAC. -/
theorem macBlock_eq (c : BlockCipher) (sMac1 sMac2 iv data : Bytes) :
    macBlock c sMac1 sMac2 iv data
      = cbcMac c 0x80 sMac1 sMac2 iv data := by
  unfold macBlock cbcMac
  dsimp only
  rw [macLoop_eq]
  by_cases hwhole : data.length ≠ 0 ∧ data.length % 16 = 0
  · -- the last block is the message's own
    have hcount : macBlockCount data.length - 1
        = data.length / 16 - 1 := by
      unfold macBlockCount
      dsimp only
      rw [if_pos hwhole.2, if_neg (by omega)]
    have hlast : (data.drop ((data.length / 16 - 1) * 16)).length = 16 := by
      rw [List.length_drop]
      omega
    rw [if_pos hwhole, hcount,
      macLast_whole hwhole.2 (Nat.pos_of_ne_zero hwhole.1) hlast]
  · -- the last block is padding, or ends in it
    have hshort : data.length % 16 ≠ 0 ∨ data.length = 0 := by omega
    have hcount : macBlockCount data.length - 1 = data.length / 16 := by
      unfold macBlockCount
      dsimp only
      split <;> split <;> omega
    have hpadded : (padMarked 0x80 data).length / 16 - 1
        = data.length / 16 := by
      rw [length_padMarked]
      unfold padLen
      omega
    have hleft : (data.drop (data.length / 16 * 16)).length
        = data.length % 16 := by
      rw [List.length_drop]
      omega
    have hchain : cbcChain c sMac1 (data.length / 16) iv
        (padMarked 0x80 data)
        = cbcChain c sMac1 (data.length / 16) iv data :=
      cbcChain_append _ _ _ _ (Nat.div_mul_le_self _ _)
    rw [if_neg hwhole, hcount, hpadded, hchain,
      macLast_short hshort hleft, padMarked_drop, hleft]

/-- It is the MAC the rest of the development computes with. -/
theorem computeMacSteps_eq (env : Env) (isCmd : Bool) (data : Bytes)
    (sc : OsdpSecureChannel) :
    computeMacSteps env isCmd data sc = osdpComputeMac env isCmd data sc := by
  unfold computeMacSteps osdpComputeMac macOf
  dsimp only
  rw [macBlock_eq]

/-- **The MAC is the two-key CBC-MAC.**  Whatever the message, the
direction and the context: `osdp_compute_mac` stores, as the MAC of that
direction, the CBC-MAC of the message from the other direction's MAC, all
blocks but the last under S-MAC1 and the last under S-MAC2, the message
padded with 0x80 and zeros if it is empty or ends in a short block; and it
changes nothing else. -/
theorem compute_mac_is_reference (env : Env) (isCmd : Bool) (data : Bytes)
    (sc : OsdpSecureChannel) :
    computeMacSteps env isCmd data sc =
      if isCmd then
        { sc with
          cMac := cbcMac env.cipher 0x80 sc.sMac1 sc.sMac2 sc.rMac data }
      else
        { sc with
          rMac := cbcMac env.cipher 0x80 sc.sMac1 sc.sMac2 sc.cMac data } := by
  unfold computeMacSteps
  dsimp only
  rw [macBlock_eq]
  cases isCmd <;> rfl

end LibOsdp
