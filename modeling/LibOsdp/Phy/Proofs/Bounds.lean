/-
Where `osdp_phy_finalize_packet` stores.

`finalizePacket` says what the finished packet is; it takes the packet as
a value and so cannot say which bytes of the caller's buffer were written
on the way.  Here the same function is a list of stores into that buffer,
in the order the code makes them, and the two are shown to agree on every
packet whose security block and id lie inside it.

# The one check that is short

Three checks stand in front of the stores.  Those for the MAC and for the
check bytes compare where the store ends with the room.  The one for the
padded data compares its length alone, and the data starts behind the
header, the security block and the id.  So a padded block that is not
longer than the buffer, but ends past it, is stored; the check that
follows reports the error when the bytes are already written.

`SealsPastEnd` is that case, and `finalize_inside` says there is no
other.
-/
import LibOsdp.Phy.Packet
import LibOsdp.Common.PlainEnv

namespace LibOsdp

open Lib

variable (env : Env)

-- =============================================================== stores

/-- One store: the index it begins at, and the bytes. -/
structure Store where
  off : Nat
  data : Bytes
  deriving DecidableEq, Repr

/-- The index behind its last byte. -/
def Store.stop (w : Store) : Nat := w.off + w.data.length

/-- The buffer after the stores, in order. -/
def stored (buf : Bytes) (ws : List Store) : Bytes :=
  ws.foldl (fun b w => writeAt b w.off w.data) buf

/-- Every store ends within the first `n` bytes. -/
def InsideOf (n : Nat) (ws : List Store) : Prop := ∀ w ∈ ws, w.stop ≤ n

/-- `AES_PAD_LEN`, of an `int`. -/
def aesPadLen (x : Int) : Int := (x + 16 - 1) / 16 * 16

/-- An `int` passed where a `size_t` is taken. -/
def sizeT (n : Int) : Nat := (n % 2 ^ 64).toNat

/-- The length field, of a packet behind `m` mark bytes. -/
def lenStore (m n : Nat) : Store := ⟨m + 2, [byteOf n 0, byteOf n 1]⟩

/-- The padding of `osdp_encrypt_data`: the marker behind the data, and
zeros up to whole blocks.  `off` and `len` count from SOM. -/
def padStores (m off len : Nat) : List Store :=
  [⟨m + len, [scEomMarker]⟩,
   ⟨m + len + 1, zeros (aesPadLen (len - off + 1) - (len - off) - 1).toNat⟩]

/-- `osdp_encrypt_data`: the padding, and the blocks encrypted where they
stand.  The cipher takes its length as a `size_t`. -/
def encryptStores (p : OsdpPd) (b : Bytes) (m off len : Nat) : List Store :=
  let n := sizeT (aesPadLen (len - off + 1))
  let text := fieldBytes ((stored b (padStores m off len)).drop (m + off)) n
  padStores m off len ++
    [⟨m + off, fieldBytes (cbcEncrypt env.cipher p.sc.sEnc
      (dataIv (!p.flags.pdMode) p.sc) (n / 16) text) n⟩]

/-- The check bytes, where they still fit, and the length returned. -/
def checkStores (b : Bytes) (m len maxLen : Nat) : List Store × Option Nat :=
  let pkt := (b.drop m).take len
  if len + checkLen (pktControl pkt) > maxLen then ([], none)
  else
    ([⟨m + len, checkBytes env (pktControl pkt) pkt⟩],
      some (m + len + checkLen (pktControl pkt)))

/-- The MAC and the check bytes of a packet of `len` bytes. -/
def macStores (p : OsdpPd) (b : Bytes) (m len maxLen : Nat) :
    List Store × Option Nat :=
  if len + 4 > maxLen then ([], none)
  else
    let n := checkLen (pktControl (b.drop m))
    let field := [lenStore m (len + n + 4)]
    let sc := osdpComputeMac env (!p.flags.pdMode)
      (((stored b field).drop m).take len) p.sc
    let mac := if p.flags.pdMode then sc.rMac else sc.cMac
    let ws := field ++ [⟨m + len, mac.take 4⟩]
    let (vs, ret) := checkStores env (stored b ws) m (len + 4) maxLen
    (ws ++ vs, ret)

/-- A packet that goes out with a MAC, its data encrypted where the block
type asks for it. -/
def sealStores (p : OsdpPd) (b : Bytes) (m len maxLen : Nat) :
    List Store × Option Nat :=
  let off := sealedOff (b.drop m)
  let pad := aesPadLen (len - off + 1)
  if encryptedType (pktData (b.drop m) 1).toNat then
    if pad > maxLen then ([], none)
    else
      let ws := encryptStores env p b m off len
      let (vs, ret) := macStores env p (stored b ws) m (off + pad).toNat maxLen
      (ws ++ vs, ret)
  else macStores env p b m len maxLen

/-- `osdp_phy_finalize_packet` on the buffer `buf` of `maxLen` bytes, of
which the packet has the first `len`: its stores, and the length it
returns unless it is OSDP_ERR_PKT_FMT. -/
def finalizeStores (p : OsdpPd) (buf : Bytes) (len maxLen : Nat) :
    List Store × Option Nat :=
  let m := p.markLen
  let pkt := buf.drop m
  if len ≤ pktHdrLen then ([], none)
  else if m = 1 ∧ byteAt buf 0 ≠ pktMark then ([], none)
  else if byteAt pkt 0 ≠ pktSom then ([], none)
  else
    let field := [lenStore m (len - m + checkLen (pktControl pkt))]
    let b := stored buf field
    let (vs, ret) :=
      if macOnTx p pkt then sealStores env p b m (len - m) (maxLen - m)
      else checkStores env b m (len - m) (maxLen - m)
    (field ++ vs, ret)

/-- The header is there, with the mark the flags promise and SOM. -/
def PacketStarts (p : OsdpPd) (buf : Bytes) (len : Nat) : Prop :=
  pktHdrLen < len ∧ ¬ (p.markLen = 1 ∧ byteAt buf 0 ≠ pktMark) ∧
    byteAt (buf.drop p.markLen) 0 = pktSom

/-- The padded data block passes its check and ends past the buffer. -/
def SealsPastEnd (p : OsdpPd) (buf : Bytes) (len maxLen : Nat) : Prop :=
  let m := p.markLen
  let pkt := buf.drop m
  let pad := aesPadLen ((len - m : Nat) - sealedOff pkt + 1)
  PacketStarts p buf len ∧ macOnTx p pkt = true ∧
    encryptedType (pktData pkt 1).toNat = true ∧
    pad ≤ (maxLen - m : Nat) ∧ maxLen < m + sealedOff pkt + sizeT pad

instance (p : OsdpPd) (buf : Bytes) (len : Nat) :
    Decidable (PacketStarts p buf len) :=
  inferInstanceAs (Decidable (_ ∧ _ ∧ _))

instance (p : OsdpPd) (buf : Bytes) (len maxLen : Nat) :
    Decidable (SealsPastEnd p buf len maxLen) :=
  inferInstanceAs (Decidable (_ ∧ _ ∧ _ ∧ _ ∧ _))

-- =============================================================== bounds

theorem insideOf_nil (n : Nat) : InsideOf n [] := by
  intro w hw
  cases hw

theorem insideOf_cons {n : Nat} {w : Store} {ws : List Store} :
    InsideOf n (w :: ws) ↔ w.stop ≤ n ∧ InsideOf n ws :=
  List.forall_mem_cons

theorem insideOf_append {n : Nat} {ws vs : List Store} :
    InsideOf n (ws ++ vs) ↔ InsideOf n ws ∧ InsideOf n vs :=
  List.forall_mem_append

theorem insideOf_singleton {n : Nat} {w : Store} :
    InsideOf n [w] ↔ w.stop ≤ n := by
  rw [insideOf_cons]
  exact and_iff_left (insideOf_nil n)

/-- The check bytes are as many as the control byte announces. -/
theorem length_checkBytes (c : UInt8) (pkt : Bytes) :
    (checkBytes env c pkt).length = checkLen c := by
  unfold checkBytes checkLen
  cases ctrlCrc c
  · rfl
  · exact length_writeLe 2 _

theorem checkLen_le (c : UInt8) : checkLen c ≤ 2 := by
  unfold checkLen
  cases ctrlCrc c <;> decide

/-- The padded length is the data and its marker rounded up. -/
theorem aesPadLen_bounds (x : Int) :
    x ≤ aesPadLen x ∧ aesPadLen x ≤ x + 15 := by
  unfold aesPadLen
  omega

/-- A length that is not negative is its own `size_t`. -/
theorem sizeT_of_nonneg {n : Int} (h : 0 ≤ n) (hlt : n < 2 ^ 64) :
    (sizeT n : Int) = n := by
  unfold sizeT
  omega

/-- The `size_t` of a negative length is larger than any buffer. -/
theorem sizeT_of_neg {n : Int} (h : n < 0) (hlt : -2 ^ 31 ≤ n) :
    2 ^ 63 < sizeT n := by
  unfold sizeT
  omega

/-- The padded block is inside the buffer exactly when it ends there: its
end is behind the marker's and the padding's. -/
theorem insideOf_encryptStores (p : OsdpPd) (b : Bytes) {m off len n : Nat}
    (hlen : len < 2 ^ 31) (hoff : off < 2 ^ 30) :
    InsideOf n (encryptStores env p b m off len) ↔
      m + off + sizeT (aesPadLen (len - off + 1)) ≤ n := by
  have hcover : m + len + 1 +
      (aesPadLen (len - off + 1) - (len - off) - 1).toNat
        ≤ m + off + sizeT (aesPadLen (len - off + 1)) := by
    obtain ⟨hlow, hhigh⟩ := aesPadLen_bounds ((len : Int) - off + 1)
    by_cases hneg : aesPadLen ((len : Int) - off + 1) < 0
    · have hbig := sizeT_of_neg hneg (by omega)
      omega
    · have hsize := sizeT_of_nonneg (Int.not_lt.mp hneg) (by omega)
      omega
  have hzeros : (zeros
      (aesPadLen ((len : Int) - off + 1) - (len - off) - 1).toNat).length
        = (aesPadLen ((len : Int) - off + 1) - (len - off) - 1).toNat :=
    List.length_replicate
  unfold encryptStores padStores
  rw [List.cons_append, List.cons_append, List.nil_append, insideOf_cons,
    insideOf_cons, insideOf_singleton]
  simp only [Store.stop, length_fieldBytes, hzeros, List.length_singleton]
  constructor
  · intro h
    exact h.2.2
  · intro h
    refine ⟨?_, ?_, h⟩
    · omega
    · omega

/-- The check bytes are compared with the room they need. -/
theorem insideOf_checkStores (b : Bytes) (m len maxLen : Nat) :
    InsideOf (m + maxLen) (checkStores env b m len maxLen).1 := by
  unfold checkStores
  dsimp only
  by_cases h : len + checkLen (pktControl ((b.drop m).take len)) > maxLen
  · rw [if_pos h]
    exact insideOf_nil _
  · rw [if_neg h, insideOf_singleton, Store.stop, length_checkBytes]
    dsimp only
    omega

/-- So is the MAC. -/
theorem insideOf_macStores (p : OsdpPd) (b : Bytes) (m len maxLen : Nat) :
    InsideOf (m + maxLen) (macStores env p b m len maxLen).1 := by
  unfold macStores
  by_cases h : len + 4 > maxLen
  · rw [if_pos h]
    exact insideOf_nil _
  · rw [if_neg h]
    refine insideOf_append.mpr ⟨?_, insideOf_checkStores env _ m _ maxLen⟩
    rw [List.singleton_append, insideOf_cons, insideOf_singleton]
    simp only [Store.stop, lenStore, List.length_take, List.length_cons,
      List.length_nil]
    omega

/-- Sealing stays inside unless the padded block passes its check and
ends past the buffer. -/
theorem insideOf_sealStores (p : OsdpPd) (b : Bytes) (m len maxLen : Nat)
    (hlen : len < 2 ^ 31) :
    InsideOf (m + maxLen) (sealStores env p b m len maxLen).1 ↔
      ¬ (encryptedType (pktData (b.drop m) 1).toNat = true ∧
        aesPadLen (len - sealedOff (b.drop m) + 1) ≤ maxLen ∧
        m + maxLen < m + sealedOff (b.drop m) +
          sizeT (aesPadLen (len - sealedOff (b.drop m) + 1))) := by
  have hoff : sealedOff (b.drop m) < 2 ^ 30 := by
    have hbyte := (pktData (b.drop m) 0).toNat_lt
    show 5 + (pktData (b.drop m) 0).toNat + 1 < 2 ^ 30
    omega
  unfold sealStores
  by_cases henc : encryptedType (pktData (b.drop m) 1).toNat = true
  · rw [if_pos henc]
    by_cases hpad : aesPadLen (len - sealedOff (b.drop m) + 1) > maxLen
    · rw [if_pos hpad]
      exact iff_of_true (insideOf_nil _) (fun h => by omega)
    · rw [if_neg hpad]
      refine insideOf_append.trans ?_
      rw [insideOf_encryptStores env p b hlen hoff]
      constructor
      · intro h hpast
        omega
      · intro h
        refine ⟨?_, insideOf_macStores env p _ m _ maxLen⟩
        by_contra hpast
        exact h ⟨henc, by omega, by omega⟩
  · rw [if_neg henc]
    exact iff_of_true (insideOf_macStores env p b m len maxLen)
      (fun h => henc h.1)

/-- The length field leaves every other byte. -/
theorem byteAt_lenStore {buf : Bytes} {m n k : Nat}
    (hbuf : m + 4 ≤ buf.length) (hk : 4 ≤ k) :
    byteAt ((stored buf [lenStore m n]).drop m) k = byteAt (buf.drop m) k := by
  have hfit : m + 2 + [byteOf n 0, byteOf n 1].length ≤ buf.length := by
    simpa using by omega
  have hget := getElem?_writeAt hfit (m + k)
  rw [if_neg (by simp; omega)] at hget
  show ((writeAt buf (m + 2) [byteOf n 0, byteOf n 1]).drop m).getD k 0
    = (buf.drop m).getD k 0
  simp only [List.getD_eq_getElem?_getD, List.getElem?_drop, hget]

/-- So the control byte and the security block are what they were. -/
theorem pktControl_lenStore {buf : Bytes} {m n : Nat}
    (hbuf : m + 4 ≤ buf.length) :
    pktControl ((stored buf [lenStore m n]).drop m)
      = pktControl (buf.drop m) :=
  byteAt_lenStore hbuf (Nat.le_refl 4)

theorem pktData_lenStore {buf : Bytes} {m n : Nat}
    (hbuf : m + 4 ≤ buf.length) (k : Nat) :
    pktData ((stored buf [lenStore m n]).drop m) k
      = pktData (buf.drop m) k :=
  byteAt_lenStore hbuf (by show 4 ≤ 5 + k; omega)

theorem sealedOff_lenStore {buf : Bytes} {m n : Nat}
    (hbuf : m + 4 ≤ buf.length) :
    sealedOff ((stored buf [lenStore m n]).drop m)
      = sealedOff (buf.drop m) := by
  unfold sealedOff
  rw [pktData_lenStore hbuf]

/-- The length returned is within the room the check bytes were compared
with. -/
theorem checkStores_ret {b : Bytes} {m len maxLen n : Nat}
    (h : (checkStores env b m len maxLen).2 = some n) : n ≤ m + maxLen := by
  unfold checkStores at h
  dsimp only at h
  by_cases hfit : len + checkLen (pktControl ((b.drop m).take len)) > maxLen
  · rw [if_pos hfit] at h
    cases h
  · rw [if_neg hfit] at h
    obtain rfl := Option.some.inj h
    omega

theorem macStores_ret {p : OsdpPd} {b : Bytes} {m len maxLen n : Nat}
    (h : (macStores env p b m len maxLen).2 = some n) : n ≤ m + maxLen := by
  unfold macStores at h
  by_cases hfit : len + 4 > maxLen
  · rw [if_pos hfit] at h
    cases h
  · rw [if_neg hfit] at h
    exact checkStores_ret env h

theorem sealStores_ret {p : OsdpPd} {b : Bytes} {m len maxLen n : Nat}
    (h : (sealStores env p b m len maxLen).2 = some n) : n ≤ m + maxLen := by
  unfold sealStores at h
  by_cases henc : encryptedType (pktData (b.drop m) 1).toNat = true
  · rw [if_pos henc] at h
    by_cases hpad : aesPadLen (len - sealedOff (b.drop m) + 1) > maxLen
    · rw [if_pos hpad] at h
      cases h
    · rw [if_neg hpad] at h
      exact macStores_ret env h
  · rw [if_neg henc] at h
    exact macStores_ret env h

/-- The function stays inside its buffer: no store ends behind it, and
what is returned is no longer than it. -/
def StaysInside (p : OsdpPd) (buf : Bytes) (len maxLen : Nat) : Prop :=
  InsideOf maxLen (finalizeStores env p buf len maxLen).1 ∧
    ∀ n, (finalizeStores env p buf len maxLen).2 = some n → n ≤ maxLen

theorem markLen_le (p : OsdpPd) : p.markLen ≤ 1 := by
  unfold OsdpPd.markLen
  cases p.flags.pktHasMark <;> decide

/-- `finalizeStores` past the checks of the header. -/
theorem finalizeStores_start {p : OsdpPd} {buf : Bytes} {len : Nat}
    (maxLen : Nat) (h : PacketStarts p buf len) :
    finalizeStores env p buf len maxLen =
      let m := p.markLen
      let field := [lenStore m
        (len - m + checkLen (pktControl (buf.drop m)))]
      let rest :=
        if macOnTx p (buf.drop m) then
          sealStores env p (stored buf field) m (len - m) (maxLen - m)
        else checkStores env (stored buf field) m (len - m) (maxLen - m)
      (field ++ rest.1, rest.2) := by
  obtain ⟨hhdr, hmark, hsom⟩ := h
  unfold finalizeStores
  dsimp only
  rw [if_neg (Nat.not_le.mpr hhdr), if_neg hmark, if_neg (not_not.mpr hsom)]

/-- A packet that fails one of them leaves the buffer alone. -/
theorem finalizeStores_stop {p : OsdpPd} {buf : Bytes} {len : Nat}
    (maxLen : Nat) (h : ¬ PacketStarts p buf len) :
    finalizeStores env p buf len maxLen = ([], none) := by
  unfold finalizeStores
  dsimp only
  by_cases hhdr : len ≤ pktHdrLen
  · rw [if_pos hhdr]
  · rw [if_neg hhdr]
    by_cases hmark : p.markLen = 1 ∧ byteAt buf 0 ≠ pktMark
    · rw [if_pos hmark]
    · rw [if_neg hmark]
      by_cases hsom : byteAt (buf.drop p.markLen) 0 = pktSom
      · exact absurd ⟨Nat.not_le.mp hhdr, hmark, hsom⟩ h
      · rw [if_pos hsom]

/-- A packet that is started on stays inside unless it seals past the
end. -/
theorem staysInside_start {p : OsdpPd} {buf : Bytes} {len maxLen : Nat}
    (hbuf : maxLen ≤ buf.length) (hlen : len ≤ maxLen)
    (hint : maxLen < 2 ^ 31) (h : PacketStarts p buf len) :
    StaysInside env p buf len maxLen ↔ ¬ SealsPastEnd p buf len maxLen := by
  have hm := markLen_le p
  have hhdr : 5 < len := h.1
  have hfield (n : Nat) : (lenStore p.markLen n).stop ≤ maxLen := by
    show p.markLen + 2 + 2 ≤ maxLen
    omega
  have hroom : p.markLen + (maxLen - p.markLen) = maxLen := by omega
  unfold StaysInside SealsPastEnd
  rw [finalizeStores_start env maxLen h]
  dsimp only
  rw [List.singleton_append, insideOf_cons, and_iff_right (hfield _),
    and_iff_right h]
  generalize hfld : [lenStore p.markLen (len - p.markLen +
    checkLen (pktControl (buf.drop p.markLen)))] = field
  by_cases hmac : macOnTx p (buf.drop p.markLen) = true
  · rw [if_pos hmac, and_iff_right hmac]
    have hret : ∀ n, (sealStores env p (stored buf field) p.markLen
        (len - p.markLen) (maxLen - p.markLen)).2 = some n → n ≤ maxLen := by
      intro n hn
      have hle := sealStores_ret env hn
      omega
    have hinside := insideOf_sealStores env p (stored buf field) p.markLen
      (len - p.markLen) (maxLen - p.markLen) (by omega)
    rw [hroom, ← hfld, sealedOff_lenStore (by omega),
      pktData_lenStore (by omega), hfld] at hinside
    rw [and_iff_left hret, hinside]
  · rw [if_neg hmac]
    have hret : ∀ n, (checkStores env (stored buf field) p.markLen
        (len - p.markLen) (maxLen - p.markLen)).2 = some n → n ≤ maxLen := by
      intro n hn
      have hle := checkStores_ret env hn
      omega
    have hinside := insideOf_checkStores env (stored buf field) p.markLen
      (len - p.markLen) (maxLen - p.markLen)
    rw [hroom] at hinside
    exact iff_of_true ⟨hinside, hret⟩ fun hpast => hmac hpast.1

/-- Every store of the function ends inside its buffer, and so does what
it returns, unless the padded data passes its check and ends past it. -/
theorem finalize_inside (p : OsdpPd) (buf : Bytes) (len maxLen : Nat)
    (hbuf : maxLen ≤ buf.length) (hlen : len ≤ maxLen)
    (hint : maxLen < 2 ^ 31) :
    StaysInside env p buf len maxLen ↔ ¬ SealsPastEnd p buf len maxLen := by
  by_cases hstart : PacketStarts p buf len
  · exact staysInside_start env hbuf hlen hint hstart
  · have hnone := finalizeStores_stop env maxLen hstart
    unfold StaysInside
    rw [hnone]
    refine iff_of_true ⟨insideOf_nil maxLen, ?_⟩ fun hpast => hstart hpast.1
    intro n hn
    cases hn

/-- A CP with its channel up. -/
abbrev sealingPd : OsdpPd := { flags := { scActive := true } }

/-- A command of block type SCS_17 with `n` data bytes, in a packet
buffer. -/
abbrev sealingBuf (n : Nat) : Bytes :=
  [0x53, 0x00, 0x00, 0x00, 0x0C, 0x02, 0x17, 0x80] ++ zeros n ++
    zeros (packetBufSize - 8 - n)

theorem length_sealingBuf {n : Nat} (h : n ≤ 248) :
    (sealingBuf n).length = packetBufSize := by
  simp only [zeros, List.length_append, List.length_cons, List.length_nil,
    List.length_replicate, packetBufSize]
  omega

/-- A short command stays inside the packet buffer. -/
theorem finalize_inside_short :
    StaysInside (plainEnv (knownCipher []) fun _ => 0) sealingPd
      (sealingBuf 20) 28 packetBufSize :=
  (finalize_inside _ sealingPd (sealingBuf 20) 28 packetBufSize
    (length_sealingBuf (by decide)).ge (by decide) (by decide)).mpr
    (by decide +kernel)

/-- With 240 data bytes the padded block is as long as the packet buffer
and begins at its ninth byte. -/
theorem finalize_inside_overrun :
    ¬ ∀ (p : OsdpPd) (buf : Bytes) (len maxLen : Nat),
      maxLen ≤ buf.length → len ≤ maxLen → maxLen < 2 ^ 31 →
        StaysInside (plainEnv (knownCipher []) fun _ => 0) p buf len
          maxLen := by
  intro h
  have hbuf : packetBufSize ≤ (sealingBuf 240).length :=
    (length_sealingBuf (by decide)).ge
  have hstart : PacketStarts sealingPd (sealingBuf 240) 248 := by
    decide +kernel
  have hpast : SealsPastEnd sealingPd (sealingBuf 240) 248 packetBufSize := by
    decide +kernel
  exact (staysInside_start _ hbuf (by decide) (by decide) hstart).mp
    (h sealingPd (sealingBuf 240) 248 packetBufSize hbuf (by decide)
      (by decide)) hpast

-- ================================================== the packet it makes

/-- The stores make the packet `out` behind the bytes `hd` of the buffer,
and the length returned is where it ends. -/
def Makes (hd b : Bytes) (res : List Store × Option Nat)
    (out : Option Bytes) : Prop :=
  res.2 = out.map (hd.length + ·.length) ∧
    ∀ q, out = some q → ∃ r, stored b res.1 = hd ++ q ++ r

theorem stored_append (b : Bytes) (ws vs : List Store) :
    stored b (ws ++ vs) = stored (stored b ws) vs :=
  List.foldl_append

/-- Stores made before are part of how the packet came about. -/
theorem Makes.after {hd b : Bytes} {res : List Store × Option Nat}
    {out : Option Bytes} {ws : List Store} (h : Makes hd (stored b ws) res out) :
    Makes hd b (ws ++ res.1, res.2) out := by
  refine ⟨h.1, ?_⟩
  intro q hq
  rw [stored_append]
  exact h.2 q hq

theorem Makes.nothing (hd b : Bytes) (ws : List Store) :
    Makes hd b (ws, none) none := by
  refine ⟨rfl, ?_⟩
  intro q hq
  cases hq

theorem stored_lenStore {pkt : Bytes} (hd r : Bytes) (n : Nat)
    (h : 4 ≤ pkt.length) :
    stored (hd ++ pkt ++ r) [lenStore hd.length n]
      = hd ++ setPktLen pkt n ++ r := by
  show writeAt (hd ++ pkt ++ r) (hd.length + 2) [byteOf n 0, byteOf n 1] = _
  rw [List.append_assoc, writeAt_append_right,
    writeAt_append_left (show 2 + 2 ≤ pkt.length from h), ← List.append_assoc]
  rfl

/-- A store behind the packet extends it. -/
theorem stored_end (hd pkt r d : Bytes) :
    stored (hd ++ pkt ++ r) [⟨hd.length + pkt.length, d⟩]
      = hd ++ (pkt ++ d) ++ r.drop d.length := by
  show writeAt (hd ++ pkt ++ r) (hd.length + pkt.length) d = _
  rw [← List.length_append, writeAt_end]
  simp only [List.append_assoc]

theorem drop_hd (hd x : Bytes) : (hd ++ x).drop hd.length = x :=
  List.drop_left' rfl

theorem checkStores_makes (hd pkt r : Bytes) (maxLen : Nat) :
    Makes hd (hd ++ pkt ++ r)
      (checkStores env (hd ++ pkt ++ r) hd.length pkt.length maxLen)
      (appendCheck env pkt maxLen) := by
  have hpkt : ((hd ++ pkt ++ r).drop hd.length).take pkt.length = pkt := by
    rw [List.append_assoc, drop_hd]
    exact List.take_left' rfl
  unfold checkStores appendCheck
  dsimp only
  rw [hpkt]
  by_cases h : pkt.length + checkLen (pktControl pkt) > maxLen
  · rw [if_pos h, if_pos h]
    exact .nothing hd _ []
  · rw [if_neg h, if_neg h]
    refine ⟨?_, ?_⟩
    · show some _ = some (hd.length + (pkt ++ checkBytes env _ pkt).length)
      rw [List.length_append, length_checkBytes, Nat.add_assoc]
    · intro q hq
      obtain rfl := Option.some.inj hq
      exact ⟨_, stored_end hd pkt r _⟩

/-- What is inside the packet is read of the packet. -/
theorem byteAt_append {pkt : Bytes} (r : Bytes) {k : Nat}
    (h : k < pkt.length) : byteAt (pkt ++ r) k = byteAt pkt k := by
  show (pkt ++ r).getD k 0 = pkt.getD k 0
  rw [List.getD_eq_getElem?_getD, List.getElem?_append_left h,
    List.getD_eq_getElem?_getD]

/-- The control byte is behind the length field. -/
theorem pktControl_setPktLen {pkt : Bytes} (n : Nat) (h : 5 ≤ pkt.length) :
    pktControl (setPktLen pkt n) = pktControl pkt := by
  have hget := getElem?_writeAt
    (show 2 + [byteOf n 0, byteOf n 1].length ≤ pkt.length by simp; omega) 4
  show (writeAt pkt 2 [byteOf n 0, byteOf n 1]).getD 4 0 = pkt.getD 4 0
  rw [List.getD_eq_getElem?_getD, hget, List.getD_eq_getElem?_getD]
  rfl

theorem length_setPktLen {pkt : Bytes} (n : Nat) (h : 4 ≤ pkt.length) :
    (setPktLen pkt n).length = pkt.length :=
  length_writeAt (show 2 + 2 ≤ pkt.length from h)

/-- The length field is written last. -/
theorem setPktLen_setPktLen {pkt : Bytes} (n k : Nat) (h : 4 ≤ pkt.length) :
    setPktLen (setPktLen pkt n) k = setPktLen pkt k := by
  have hk : setPktLen (setPktLen pkt n) k
      = (setPktLen pkt n).take 2 ++ [byteOf k 0, byteOf k 1] ++
        (setPktLen pkt n).drop 4 := rfl
  have htwo : (pkt.take 2).length = 2 := by
    rw [List.length_take]
    omega
  have htake : (setPktLen pkt n).take 2 = pkt.take 2 := by
    show (pkt.take 2 ++ [byteOf n 0, byteOf n 1] ++ pkt.drop 4).take 2 = _
    rw [List.append_assoc, List.take_left' htwo]
  have hdrop : (setPktLen pkt n).drop 4 = pkt.drop 4 :=
    List.drop_left' (by rw [List.length_append, htwo]; rfl)
  rw [hk, htake, hdrop]
  rfl

/-- The MAC and the check bytes of the packet `q`. -/
def macPacket (p : OsdpPd) (q : Bytes) (maxLen : Nat) : Option Bytes :=
  if q.length + 4 > maxLen then none
  else
    let q' := setPktLen q (q.length + checkLen (pktControl q) + 4)
    let sc := osdpComputeMac env (!p.flags.pdMode) q' p.sc
    let mac := if p.flags.pdMode then sc.rMac else sc.cMac
    appendCheck env (q' ++ mac.take 4) maxLen

/-- The MAC of a packet is one block, where the chain is. -/
theorem length_mac {p : OsdpPd} (hr : p.sc.rMac.length = 16)
    (hc : p.sc.cMac.length = 16) (q : Bytes) :
    (if p.flags.pdMode then
      (osdpComputeMac env (!p.flags.pdMode) q p.sc).rMac
    else (osdpComputeMac env (!p.flags.pdMode) q p.sc).cMac).length = 16 := by
  cases hrole : p.flags.pdMode
  · exact length_cbcMac env.cipher _ _ _ _ _ hr
  · exact length_cbcMac env.cipher _ _ _ _ _ hc

theorem macStores_makes {p : OsdpPd} (hr : p.sc.rMac.length = 16)
    (hc : p.sc.cMac.length = 16) (hd : Bytes) {q : Bytes} (r : Bytes)
    (maxLen : Nat) (hq : 5 ≤ q.length) :
    Makes hd (hd ++ q ++ r)
      (macStores env p (hd ++ q ++ r) hd.length q.length maxLen)
      (macPacket env p q maxLen) := by
  have hctl : pktControl ((hd ++ q ++ r).drop hd.length) = pktControl q := by
    rw [List.append_assoc, drop_hd]
    exact byteAt_append r (by omega)
  unfold macStores macPacket
  dsimp only
  rw [hctl]
  by_cases h : q.length + 4 > maxLen
  · rw [if_pos h, if_pos h]
    exact .nothing hd _ []
  · rw [if_neg h, if_neg h]
    have hroom : 4 ≤ q.length := by omega
    have hlen :=
      length_setPktLen (q.length + checkLen (pktControl q) + 4) hroom
    have hfield :=
      stored_lenStore hd r (q.length + checkLen (pktControl q) + 4) hroom
    generalize setPktLen q (q.length + checkLen (pktControl q) + 4) = q'
      at hlen hfield
    have htext : ((hd ++ q' ++ r).drop hd.length).take q.length = q' := by
      rw [List.append_assoc, drop_hd, ← hlen]
      exact List.take_left' rfl
    have hmac := length_mac env hr hc q'
    rw [hfield, htext]
    generalize (if p.flags.pdMode then
      (osdpComputeMac env (!p.flags.pdMode) q' p.sc).rMac
      else (osdpComputeMac env (!p.flags.pdMode) q' p.sc).cMac) = mac at hmac
    have hfour : (mac.take 4).length = 4 := by
      rw [List.length_take]
      omega
    have hws : stored (hd ++ q ++ r)
        ([lenStore hd.length (q.length + checkLen (pktControl q) + 4)] ++
          [⟨hd.length + q.length, mac.take 4⟩])
        = hd ++ (q' ++ mac.take 4) ++ r.drop 4 := by
      rw [stored_append, hfield, ← hlen, stored_end, hfour]
    have htotal : q.length + 4 = (q' ++ mac.take 4).length := by
      rw [List.length_append, hfour, hlen]
    rw [hws, htotal]
    refine Makes.after ?_
    rw [hws]
    exact checkStores_makes env hd (q' ++ mac.take 4) (r.drop 4) maxLen

/-- The two readings of AES_PAD_LEN agree. -/
theorem aesPadLen_length (off n : Nat) :
    aesPadLen ((off + n : Nat) - off + 1) = padLen (n + 1) := by
  unfold aesPadLen padLen
  omega

/-- The padding, stored behind the data. -/
theorem stored_padStores (hd a d r : Bytes) :
    ∃ r', stored (hd ++ (a ++ d) ++ r)
        (padStores hd.length a.length (a.length + d.length))
      = hd ++ (a ++ padMarked scEomMarker d) ++ r' := by
  have hz : (aesPadLen ((a.length + d.length : Nat) - a.length + 1) -
      ((a.length + d.length : Nat) - a.length) - 1).toNat
        = padLen (d.length + 1) - d.length - 1 := by
    rw [aesPadLen_length]
    omega
  have hfirst := stored_end hd (a ++ d) r [scEomMarker]
  have hsecond := stored_end hd ((a ++ d) ++ [scEomMarker]) (r.drop 1)
    (zeros (padLen (d.length + 1) - d.length - 1))
  rw [List.length_append] at hfirst
  rw [List.length_append, List.length_append, List.length_singleton]
    at hsecond
  refine ⟨(r.drop 1).drop
    (zeros (padLen (d.length + 1) - d.length - 1)).length, ?_⟩
  unfold padStores
  rw [hz, show [Store.mk _ _, Store.mk _ _] = [Store.mk _ _] ++ [_] from rfl,
    stored_append, hfirst, List.length_singleton, Nat.add_assoc, hsecond]
  simp only [padMarked, zeros, List.append_assoc, List.singleton_append]

/-- The ciphertext is as long as the padded data. -/
theorem length_osdpEncryptData {p : OsdpPd} (hr : p.sc.rMac.length = 16)
    (hc : p.sc.cMac.length = 16) (d : Bytes) :
    (osdpEncryptData env (!p.flags.pdMode) p.sc d).length
      = padLen (d.length + 1) := by
  have hiv : (dataIv (!p.flags.pdMode) p.sc).length = 16 := by
    unfold dataIv
    cases p.flags.pdMode
    · simpa using hr
    · simpa using hc
  have hblocks : (padMarked scEomMarker d).length
      = (padMarked scEomMarker d).length / 16 * 16 := by
    rw [length_padMarked, padLen]
    omega
  unfold osdpEncryptData
  dsimp only
  rw [length_cbcEncrypt env.cipher _ _ _ _ hiv hblocks, ← hblocks,
    length_padMarked]

/-- The data encrypted where it stands. -/
theorem stored_encryptStores {p : OsdpPd} (hr : p.sc.rMac.length = 16)
    (hc : p.sc.cMac.length = 16) (hd a d r : Bytes)
    (hlen : d.length < 2 ^ 31) :
    ∃ r', stored (hd ++ (a ++ d) ++ r)
        (encryptStores env p (hd ++ (a ++ d) ++ r) hd.length a.length
          (a.length + d.length))
      = hd ++ (a ++ osdpEncryptData env (!p.flags.pdMode) p.sc d) ++ r' := by
  obtain ⟨r', hpad⟩ := stored_padStores hd a d r
  have hn : sizeT (aesPadLen ((a.length + d.length : Nat) - a.length + 1))
      = (padMarked scEomMarker d).length := by
    rw [aesPadLen_length, length_padMarked]
    have hle : padLen (d.length + 1) ≤ d.length + 16 := by
      unfold padLen
      omega
    unfold sizeT
    omega
  have htext : fieldBytes ((hd ++ (a ++ padMarked scEomMarker d) ++ r').drop
      (hd.length + a.length)) (padMarked scEomMarker d).length
        = padMarked scEomMarker d := by
    rw [show hd ++ (a ++ padMarked scEomMarker d) ++ r'
      = (hd ++ a) ++ (padMarked scEomMarker d ++ r') by
        simp only [List.append_assoc], ← List.length_append, drop_hd]
    unfold fieldBytes
    rw [List.append_assoc]
    exact List.take_left' rfl
  have hcode : (osdpEncryptData env (!p.flags.pdMode) p.sc d).length
      = (padMarked scEomMarker d).length := by
    rw [length_osdpEncryptData env hr hc, length_padMarked]
  refine ⟨r', ?_⟩
  unfold encryptStores
  dsimp only
  rw [stored_append, hn, hpad, htext]
  have hfield : fieldBytes (cbcEncrypt env.cipher p.sc.sEnc
      (dataIv (!p.flags.pdMode) p.sc)
      ((padMarked scEomMarker d).length / 16) (padMarked scEomMarker d))
      (padMarked scEomMarker d).length
        = osdpEncryptData env (!p.flags.pdMode) p.sc d :=
    fieldBytes_self hcode
  rw [hfield]
  show writeAt (hd ++ (a ++ padMarked scEomMarker d) ++ r')
    (hd.length + a.length) _ = _
  rw [show hd ++ (a ++ padMarked scEomMarker d) ++ r'
      = (hd ++ a) ++ (padMarked scEomMarker d ++ r') by
        simp only [List.append_assoc], ← List.length_append,
    show (hd ++ a).length = (hd ++ a).length + 0 from rfl,
    writeAt_append_right,
    writeAt_append_left (show 0 + _ ≤ _ by rw [hcode]; omega)]
  unfold writeAt
  rw [List.take_zero, Nat.zero_add, hcode, List.drop_length]
  simp only [List.append_assoc, List.nil_append]

/-- The header, the security block and the id, and the data behind
them. -/
theorem split_sealedOff {pkt : Bytes} (h : sealedOff pkt ≤ pkt.length) :
    ∃ a d, pkt = a ++ d ∧ a.length = sealedOff pkt := by
  refine ⟨pkt.take (sealedOff pkt), pkt.drop (sealedOff pkt), ?_, ?_⟩
  · exact (List.take_append_drop _ _).symm
  · rw [List.length_take]
    omega

theorem sealedOff_ge (pkt : Bytes) : 6 ≤ sealedOff pkt := by
  show 6 ≤ 5 + (pktData pkt 0).toNat + 1
  omega

/-- The security block is behind the length field. -/
theorem byteAt_setPktLen {pkt : Bytes} (n : Nat) {k : Nat}
    (h : 4 ≤ pkt.length) (hk : 4 ≤ k) :
    byteAt (setPktLen pkt n) k = byteAt pkt k := by
  have hget := getElem?_writeAt
    (show 2 + [byteOf n 0, byteOf n 1].length ≤ pkt.length from h) k
  rw [if_neg (by simp; omega)] at hget
  show (writeAt pkt 2 [byteOf n 0, byteOf n 1]).getD k 0 = pkt.getD k 0
  rw [List.getD_eq_getElem?_getD, hget, List.getD_eq_getElem?_getD]

theorem pktData_setPktLen {pkt : Bytes} (n k : Nat) (h : 4 ≤ pkt.length) :
    pktData (setPktLen pkt n) k = pktData pkt k :=
  byteAt_setPktLen n h (by show 4 ≤ 5 + k; omega)

theorem sealedOff_setPktLen {pkt : Bytes} (n : Nat) (h : 4 ≤ pkt.length) :
    sealedOff (setPktLen pkt n) = sealedOff pkt := by
  unfold sealedOff
  rw [pktData_setPktLen n 0 h]

theorem encryptPayload_append {p : OsdpPd} {a d : Bytes}
    (ha : a.length = sealedOff (a ++ d)) :
    encryptPayload env p (a ++ d) =
      if encryptedType (pktData (a ++ d) 1).toNat then
        a ++ osdpEncryptData env (!p.flags.pdMode) p.sc d
      else a ++ d := by
  unfold encryptPayload
  rw [← ha, List.take_left' rfl, List.drop_left' rfl]

/-- Encrypting and filling in the length commute. -/
theorem encryptPayload_setPktLen {p : OsdpPd} {pkt : Bytes} (n : Nat)
    (h : sealedOff pkt ≤ pkt.length) :
    encryptPayload env p (setPktLen pkt n)
      = setPktLen (encryptPayload env p pkt) n := by
  obtain ⟨a, d, rfl, ha⟩ := split_sealedOff h
  have hsix := sealedOff_ge (a ++ d)
  have hleft (x : Bytes) : setPktLen (a ++ x) n = setPktLen a n ++ x :=
    writeAt_append_left (show 2 + 2 ≤ a.length by omega) x
  have hlen : (setPktLen a n).length = a.length :=
    length_setPktLen n (by omega)
  have hoff : (setPktLen a n).length = sealedOff (setPktLen a n ++ d) := by
    rw [← hleft, sealedOff_setPktLen n (by simp; omega), hlen, ha]
  rw [hleft, encryptPayload_append env hoff, encryptPayload_append env ha,
    ← hleft, pktData_setPktLen n 1 (by simp; omega)]
  by_cases henc : encryptedType (pktData (a ++ d) 1).toNat = true
  · rw [if_pos henc, if_pos henc, hleft]
  · rw [if_neg henc, if_neg henc]

/-- Encrypting leaves the header, the block and the id. -/
theorem byteAt_encryptPayload {p : OsdpPd} {pkt : Bytes} {k : Nat}
    (h : sealedOff pkt ≤ pkt.length) (hk : k < sealedOff pkt) :
    byteAt (encryptPayload env p pkt) k = byteAt pkt k := by
  obtain ⟨a, d, rfl, ha⟩ := split_sealedOff h
  rw [encryptPayload_append env ha]
  by_cases henc : encryptedType (pktData (a ++ d) 1).toNat = true
  · rw [if_pos henc, byteAt_append _ (by omega), byteAt_append _ (by omega)]
  · rw [if_neg henc]

theorem length_encryptPayload_ge {p : OsdpPd} {pkt : Bytes}
    (h : sealedOff pkt ≤ pkt.length) :
    sealedOff pkt ≤ (encryptPayload env p pkt).length := by
  obtain ⟨a, d, rfl, ha⟩ := split_sealedOff h
  rw [encryptPayload_append env ha]
  by_cases henc : encryptedType (pktData (a ++ d) 1).toNat = true
  · rw [if_pos henc, List.length_append]
    omega
  · rw [if_neg henc, List.length_append]
    omega

/-- The length field of what the MAC is taken over is filled in last. -/
theorem macPacket_setPktLen {p : OsdpPd} {q : Bytes} (n maxLen : Nat)
    (h : 5 ≤ q.length) :
    macPacket env p (setPktLen q n) maxLen = macPacket env p q maxLen := by
  unfold macPacket
  rw [length_setPktLen n (by omega), pktControl_setPktLen n h]
  dsimp only
  rw [setPktLen_setPktLen n _ (by omega)]

/-- Sealing makes the sealed packet. -/
theorem sealStores_makes {p : OsdpPd} (hr : p.sc.rMac.length = 16)
    (hc : p.sc.cMac.length = 16) (hd : Bytes) {pkt : Bytes} (r : Bytes)
    (maxLen : Nat) (hlen : pkt.length < 2 ^ 31) (hblock : 7 ≤ pkt.length)
    (hoff : sealedOff pkt ≤ pkt.length) :
    Makes hd (hd ++ pkt ++ r)
      (sealStores env p (hd ++ pkt ++ r) hd.length pkt.length maxLen)
      (if padTooLong pkt maxLen then none
        else macPacket env p (encryptPayload env p pkt) maxLen) := by
  have hdata (k : Nat) (hk : k < 2) :
      pktData ((hd ++ pkt ++ r).drop hd.length) k = pktData pkt k := by
    rw [List.append_assoc, drop_hd]
    exact byteAt_append r (show 5 + k < pkt.length by omega)
  have hsealed : sealedOff ((hd ++ pkt ++ r).drop hd.length)
      = sealedOff pkt := by
    unfold sealedOff
    rw [hdata 0 (by decide)]
  obtain ⟨a, d, rfl, ha⟩ := split_sealedOff hoff
  have hpkt : (a ++ d).length = a.length + d.length := List.length_append
  unfold sealStores padTooLong
  dsimp only
  rw [hsealed, hdata 1 (by decide), encryptPayload_append env ha]
  by_cases henc : encryptedType (pktData (a ++ d) 1).toNat = true
  · have hpad : aesPadLen ((a ++ d).length - sealedOff (a ++ d) + 1)
        = padLen (d.length + 1) := by
      rw [← ha, hpkt]
      exact aesPadLen_length _ _
    have hsub : (a ++ d).length - sealedOff (a ++ d) = d.length := by
      omega
    rw [if_pos henc, if_pos henc, henc, Bool.true_and, hpad, hsub]
    by_cases hlong : padLen (d.length + 1) > maxLen
    · rw [if_pos (by omega), if_pos (decide_eq_true hlong)]
      exact .nothing hd _ []
    · rw [if_neg (by omega), if_neg (by simpa using hlong)]
      obtain ⟨r', hst⟩ := stored_encryptStores env hr hc hd a d r (by omega)
      have hq : (sealedOff (a ++ d) + (padLen (d.length + 1) : Int)).toNat
          = (a ++ osdpEncryptData env (!p.flags.pdMode) p.sc d).length := by
        rw [List.length_append, length_osdpEncryptData env hr hc, ha]
        omega
      refine Makes.after ?_
      rw [← ha, hpkt, hst, ha, hq]
      exact macStores_makes env hr hc hd r' maxLen (by
        rw [List.length_append]
        have := sealedOff_ge (a ++ d)
        omega)
  · rw [if_neg henc, if_neg henc, Bool.eq_false_iff.mpr henc, Bool.false_and,
      if_neg (by decide)]
    exact macStores_makes env hr hc hd r maxLen (by omega)

theorem padTooLong_setPktLen {pkt : Bytes} (n maxLen : Nat)
    (h : 4 ≤ pkt.length) :
    padTooLong (setPktLen pkt n) maxLen = padTooLong pkt maxLen := by
  unfold padTooLong
  rw [pktData_setPktLen n 1 h, length_setPktLen n h, sealedOff_setPktLen n h]

/-- Whether a MAC is due is read from the packet alone. -/
theorem macOnTx_append {p : OsdpPd} {pkt : Bytes} (r : Bytes)
    (h : 5 ≤ pkt.length)
    (hblock : ctrlScb (pktControl pkt) = true → 7 ≤ pkt.length) :
    macOnTx p (pkt ++ r) = macOnTx p pkt := by
  have hctl : pktControl (pkt ++ r) = pktControl pkt :=
    byteAt_append r (by omega)
  unfold macOnTx
  rw [hctl]
  by_cases hscb : ctrlScb (pktControl pkt) = true
  · have hseven := hblock hscb
    have hdata : pktData (pkt ++ r) 1 = pktData pkt 1 :=
      byteAt_append r (show 5 + 1 < pkt.length by omega)
    rw [hdata]
  · rw [Bool.eq_false_iff.mpr hscb, Bool.and_false, Bool.false_and,
      Bool.false_and]

/-- The packet of `finalizePacket`, once it is to carry a MAC. -/
theorem finalizePacket_maced {p : OsdpPd} {pkt : Bytes} (maxLen : Nat)
    (h : macOnTx p pkt = true) (hoff : sealedOff pkt ≤ pkt.length) :
    (finalizePacket env p pkt maxLen).2 =
      if padTooLong pkt maxLen then none
      else macPacket env p (encryptPayload env p pkt) maxLen := by
  have hctl : pktControl (encryptPayload env p pkt) = pktControl pkt :=
    byteAt_encryptPayload env hoff
      (Nat.lt_of_lt_of_le (by decide) (sealedOff_ge pkt))
  unfold finalizePacket macPacket
  dsimp only
  rw [if_pos h, hctl]
  by_cases hlong : padTooLong pkt maxLen = true
  · rw [if_pos hlong, if_pos hlong]
  · rw [if_neg hlong, if_neg hlong]
    by_cases hfit : (encryptPayload env p pkt).length + 4 > maxLen
    · rw [if_pos hfit, if_pos hfit]
    · rw [if_neg hfit, if_neg hfit]

/-- The stores make the packet `finalizePacket` says is sent, for every
packet whose security block and id lie inside it. -/
theorem finalizeStores_makes {p : OsdpPd} {buf : Bytes} {len maxLen : Nat}
    (hr : p.sc.rMac.length = 16) (hc : p.sc.cMac.length = 16)
    (hbuf : len ≤ buf.length) (hlen : len < 2 ^ 31)
    (hstart : PacketStarts p buf len)
    (hblock : ∀ pkt, pkt = (buf.take len).drop p.markLen →
      ctrlScb (pktControl pkt) = true →
      7 ≤ pkt.length ∧ sealedOff pkt ≤ pkt.length) :
    Makes (buf.take p.markLen) buf (finalizeStores env p buf len maxLen)
      (finalizePacket env p ((buf.take len).drop p.markLen)
        (maxLen - p.markLen)).2 := by
  have hm := markLen_le p
  have hhdr : 5 < len := hstart.1
  obtain ⟨hd, pkt, r, rfl, hhd, hpl⟩ : ∃ hd pkt r, buf = hd ++ pkt ++ r ∧
      hd.length = p.markLen ∧ pkt.length = len - p.markLen := by
    refine ⟨buf.take p.markLen, (buf.drop p.markLen).take (len - p.markLen),
      buf.drop len, ?_, ?_, ?_⟩
    · rw [List.append_assoc]
      conv_lhs => rw [← List.take_append_drop p.markLen buf,
        ← List.take_append_drop (len - p.markLen) (buf.drop p.markLen)]
      rw [List.drop_drop, show p.markLen + (len - p.markLen) = len by omega]
    · rw [List.length_take]
      omega
    · rw [List.length_take, List.length_drop]
      omega
  have hfront : (hd ++ pkt ++ r).take p.markLen = hd := by
    rw [List.append_assoc]
    exact List.take_left' hhd
  have hpkt : ((hd ++ pkt ++ r).take len).drop p.markLen = pkt := by
    rw [List.take_left' (by rw [List.length_append]; omega), ← hhd, drop_hd]
  have hrest : (hd ++ pkt ++ r).drop p.markLen = pkt ++ r := by
    rw [List.append_assoc, ← hhd, drop_hd]
  have hctl : pktControl (pkt ++ r) = pktControl pkt :=
    byteAt_append r (by omega)
  rw [finalizeStores_start env maxLen hstart, hfront, hpkt]
  dsimp only
  rw [hrest, hctl]
  have hblock := hblock pkt hpkt.symm
  rw [macOnTx_append r (by omega) fun hscb => (hblock hscb).1, ← hpl,
    ← hhd]
  refine Makes.after ?_
  rw [stored_lenStore hd r _ (by omega)]
  have hn (n : Nat) : (setPktLen pkt n).length = pkt.length :=
    length_setPktLen n (by omega)
  by_cases hmac : macOnTx p pkt = true
  · have hscb : ctrlScb (pktControl pkt) = true := by
      unfold macOnTx at hmac
      simp only [Bool.and_eq_true] at hmac
      exact hmac.1.2
    obtain ⟨hseven, hoff⟩ := hblock hscb
    rw [if_pos hmac, finalizePacket_maced env _ hmac hoff,
      ← hn (pkt.length + checkLen (pktControl pkt)),
      ← padTooLong_setPktLen (pkt.length + checkLen (pktControl pkt)) _
        (by omega),
      ← macPacket_setPktLen env (pkt.length + checkLen (pktControl pkt)) _
        (Nat.le_trans (Nat.le_trans (by decide) (sealedOff_ge pkt))
          (length_encryptPayload_ge env hoff)),
      ← encryptPayload_setPktLen env _ hoff, hn]
    have hoff' : sealedOff (setPktLen pkt
        (pkt.length + checkLen (pktControl pkt)))
          ≤ (setPktLen pkt
            (pkt.length + checkLen (pktControl pkt))).length := by
      rw [hn, sealedOff_setPktLen _ (by omega)]
      exact hoff
    have hsealed := sealStores_makes env hr hc hd r (maxLen - hd.length)
      (by rw [hn]; omega) (by rw [hn]; exact hseven) hoff'
    rw [hn] at hsealed
    exact hsealed
  · rw [if_neg hmac]
    have hplain : (finalizePacket env p pkt (maxLen - hd.length)).2
        = appendCheck env
          (setPktLen pkt (pkt.length + checkLen (pktControl pkt)))
          (maxLen - hd.length) := by
      unfold finalizePacket
      dsimp only
      rw [if_neg hmac]
    have hmade := checkStores_makes env hd
      (setPktLen pkt (pkt.length + checkLen (pktControl pkt))) r
      (maxLen - hd.length)
    rw [hn] at hmade
    rw [hplain]
    exact hmade

end LibOsdp
