/-
A frame and back: what one side makes of an id and a data block, the other
side takes apart into the same id and the same data block.

# Bytes first

Finishing a packet and taking it apart share no code.  The finalizer works
out where the data start from the packet it is given, pads and encrypts
them, and computes the MAC over what precedes it; the decoder starts from
the length of the frame and works backwards.  So the round trip is proved
on lists that are put together from their parts: `finalizePacket_plain`
and `finalizePacket_mac` say which parts a finished packet has, and
`phyDecode_plain` and `phyDecode_mac` what is made of such parts.

# The chain

Both ends compute a MAC from the last one the other direction had, and so
do they find the IV of the data.  `InStep` has both ends hold the same
keys and the same two MACs.  Neither end looks at its own last MAC while
it works on a frame, so it does not matter that it is replaced there, and
afterwards the values are the same again (`frame_round_trip_of`).  So a
conversation of any length, in any order of turns, arrives as it was sent
(`conversation_arrives`).

# The buffer

`Ready` is a packet in the transmit buffer whose block is typed, and
`Ready.arrives` what the other end makes of it once it is finished.  It
asks for a security block exactly where the channel is up: that leaves out
the messages of a handshake, and a busy reply under a channel.
-/
import LibOsdp.Common.PlainEnv
import LibOsdp.Phy.Proofs.Sealing

namespace LibOsdp

open Lib

-- ========================================================= length and check

/-- The length field of a packet. -/
def lengthField (pkt : Bytes) : Nat :=
  (byteAt pkt 3).toNat * 256 + (byteAt pkt 2).toNat

/-- A packet and the check bytes behind it. -/
def withCheck (env : Env) (pkt : Bytes) : Bytes :=
  pkt ++ checkBytes env (pktControl pkt) pkt

section Check

variable {env : Env} {pkt q : Bytes}

/-- The length filled in is the length read. -/
theorem lengthField_setPktLen {n : Nat} (h : 4 ≤ pkt.length)
    (hn : n < 65536) : lengthField (setPktLen pkt n) = n := by
  have hin : 2 + [byteOf n 0, byteOf n 1].length ≤ pkt.length := h
  have hlow : byteAt (setPktLen pkt n) 2 = byteOf n 0 :=
    byteAt_writeAt (k := 0) hin Nat.two_pos
  have hhigh : byteAt (setPktLen pkt n) 3 = byteOf n 1 :=
    byteAt_writeAt (k := 1) hin Nat.one_lt_two
  unfold lengthField
  rw [hlow, hhigh]
  simp only [byteOf, UInt8.toNat_ofNat']
  omega

theorem lengthField_append (r : Bytes) (h : 4 ≤ pkt.length) :
    lengthField (pkt ++ r) = lengthField pkt := by
  unfold lengthField
  rw [byteAt_append r (by omega), byteAt_append r (by omega)]

theorem length_withCheck (env : Env) (pkt : Bytes) :
    (withCheck env pkt).length
      = pkt.length + checkLen (pktControl pkt) := by
  unfold withCheck
  rw [List.length_append, length_checkBytes]

/-- The check bytes are the last ones, and right. -/
theorem integrity_withCheck (h : 5 ≤ pkt.length) :
    phyIntegrityOk env (withCheck env pkt) = true := by
  have hctl : pktControl (withCheck env pkt) = pktControl pkt :=
    byteAt_append _ (by omega)
  have hlen : (withCheck env pkt).length
      - checkLen (pktControl (withCheck env pkt)) = pkt.length := by
    rw [hctl, length_withCheck, Nat.add_sub_cancel]
  unfold phyIntegrityOk
  dsimp only
  rw [hlen, hctl]
  unfold withCheck
  rw [List.drop_left' rfl, List.take_left' rfl]
  exact beq_self_eq_true _

theorem appendCheck_some {maxLen : Nat}
    (h : appendCheck env pkt maxLen = some q) : q = withCheck env pkt := by
  unfold appendCheck at h
  dsimp only at h
  split at h
  · cases h
  · exact (Option.some.inj h).symm

end Check

-- =============================================================== finishing

section Finishing

variable {env : Env} {p : OsdpPd} {a q : Bytes} {maxLen : Nat}

theorem setPktLen_append (n : Nat) (d : Bytes) (h : 4 ≤ a.length) :
    setPktLen (a ++ d) n = setPktLen a n ++ d :=
  writeAt_append_left (show 2 + 2 ≤ a.length from h) d

/-- Without a MAC: the header with its length, the data block, and the
check bytes. -/
theorem finalizePacket_plain {block : Bytes} (ha : a.length = 5)
    (hmac : macOnTx p (a ++ block) = false)
    (h : (finalizePacket env p (a ++ block) maxLen).2 = some q) :
    (finalizePacket env p (a ++ block) maxLen).1 = p.sc ∧
      q = withCheck env (setPktLen a (5 + block.length +
        checkLen (pktControl a)) ++ block) := by
  have hctl : pktControl (a ++ block) = pktControl a :=
    byteAt_append _ (by omega)
  unfold finalizePacket at h ⊢
  dsimp only at h ⊢
  rw [if_neg (Bool.eq_false_iff.mp hmac)] at h ⊢
  refine ⟨rfl, ?_⟩
  have hq := appendCheck_some h
  rw [setPktLen_append _ _ (by omega), hctl, List.length_append, ha] at hq
  exact hq

/-- The data as they go out. -/
def sentData (env : Env) (p : OsdpPd) (type : UInt8) (data : Bytes) :
    Bytes :=
  if encryptedType type.toNat then
    osdpEncryptData env (!p.flags.pdMode) p.sc data
  else data

/-- The channel once the bytes in front of the MAC are `pkt`. -/
def sentChannel (env : Env) (p : OsdpPd) (pkt : Bytes) :
    OsdpSecureChannel :=
  osdpComputeMac env (!p.flags.pdMode) pkt p.sc

/-- The MAC of a packet of this role, as it goes out. -/
def sentMac (pdMode : Bool) (sc : OsdpSecureChannel) : Bytes :=
  (if pdMode then sc.rMac else sc.cMac).take 4

/-- What the MAC of a packet is taken over: `a` is the header with the
security block and the id. -/
def macdPart (a body : Bytes) : Bytes :=
  setPktLen a (a.length + body.length + checkLen (pktControl a) + 4) ++ body

/-- With a MAC: the header with its length, the security block and the id,
the data, encrypted where the type asks for it, the MAC and the check
bytes. -/
theorem finalizePacket_mac {data : Bytes} (ha : a.length = 8)
    (hlen : byteAt a 5 = 2) (hmac : macOnTx p (a ++ data) = true)
    (h : (finalizePacket env p (a ++ data) maxLen).2 = some q) :
    let part := macdPart a (sentData env p (byteAt a 6) data)
    (finalizePacket env p (a ++ data) maxLen).1 = sentChannel env p part ∧
      q = withCheck env
        (part ++ sentMac p.flags.pdMode (sentChannel env p part)) := by
  intro part
  have hctl (x : Bytes) : pktControl (a ++ x) = pktControl a :=
    byteAt_append _ (by omega)
  have htype : pktData (a ++ data) 1 = byteAt a 6 :=
    byteAt_append _ (show 6 < a.length by omega)
  have hoff : sealedOff (a ++ data) = a.length := by
    have hfive : pktData (a ++ data) 0 = 2 :=
      (byteAt_append _ (show 5 < a.length by omega)).trans hlen
    unfold sealedOff
    rw [hfive, ha]
    rfl
  have henc : encryptPayload env p (a ++ data)
      = a ++ sentData env p (byteAt a 6) data := by
    rw [encryptPayload_append env hoff.symm, htype]
    unfold sentData
    split <;> rfl
  have hpart (n : Nat) (hn : n = checkLen (pktControl a)) :
      setPktLen (a ++ sentData env p (byteAt a 6) data)
        ((a ++ sentData env p (byteAt a 6) data).length + n + 4)
        = part := by
    rw [hn, setPktLen_append _ _ (by omega), List.length_append]
    rfl
  unfold finalizePacket at h ⊢
  dsimp only at h ⊢
  rw [if_pos hmac] at h ⊢
  split at h
  · cases h
  · next hpad =>
    rw [if_neg hpad]
    rw [henc] at h ⊢
    split at h
    · cases h
    · next hfit =>
      rw [if_neg hfit]
      rw [hpart _ (by rw [hctl])] at h ⊢
      exact ⟨rfl, appendCheck_some h⟩

end Finishing

-- ================================================================ decoding

section Decoding

variable {env : Env} {r : OsdpPd} {a : Bytes}

/-- Without a security block, and with no channel: what stands between
the header and the check bytes is the payload. -/
theorem phyDecode_plain (env : Env) (r : OsdpPd) (block rest : Bytes)
    {chk : Bytes} (ha : a.length = 5)
    (hctl : ctrlScb (pktControl a) = false)
    (hact : r.flags.scActive = false)
    (hchk : chk.length = checkLen (pktControl a)) :
    let buf := a ++ block ++ chk ++ rest
    phyDecode env r buf (a ++ block ++ chk).length
      = .ok ⟨r, buf, block.length, block⟩ := by
  intro buf
  have hbuf : pktControl buf = pktControl a := by
    show byteAt (a ++ block ++ chk ++ rest) 4 = byteAt a 4
    rw [List.append_assoc, List.append_assoc]
    exact byteAt_append _ (by omega)
  have href : frameRefusal r buf = none := by
    unfold frameRefusal
    dsimp only
    rw [hbuf, hctl, hact]
    rfl
  have hsel : takeSelector r buf = r := by
    unfold takeSelector
    rw [hbuf, hctl]
    exact if_neg fun hc => Bool.false_ne_true hc.1
  have hmac : carriesMac r buf = false := by
    unfold carriesMac
    rw [hbuf, hctl]
    rfl
  have hscb : scbLen buf = 0 := by
    unfold scbLen
    rw [hbuf, hctl]
    rfl
  have hroom : payloadRoom buf (a ++ block ++ chk).length
      = block.length := by
    unfold payloadRoom
    rw [hbuf, hscb, List.length_append, List.length_append, ha, hchk]
    simp only [pktHdrLen]
    omega
  have hpay : (buf.drop 5).take block.length = block := by
    show ((a ++ block ++ chk ++ rest).drop 5).take block.length = block
    rw [List.append_assoc, List.append_assoc, List.drop_left' ha,
      List.take_left' rfl]
  unfold phyDecode
  rw [href, hsel, hmac, hscb, hroom]
  show Except.ok (DecodeResult.mk r buf _ ((buf.drop 5).take _)) = _
  rw [Int.toNat_natCast, hpay]

/-- The block type carries a MAC. -/
def maced (type : UInt8) : Bool :=
  decide (scs15 ≤ type.toNat) && decide (type.toNat ≤ scs18)

/-- Under the channel: header, security block and id in front, a MAC that
is the one computed over what precedes it. -/
theorem phyDecode_mac (env : Env) (r : OsdpPd) (body rest : Bytes)
    {mac chk : Bytes} (ha : a.length = 8)
    (hctl : ctrlScb (pktControl a) = true) (hlen : byteAt a 5 = 2)
    (htype : maced (byteAt a 6) = true) (hact : r.flags.scActive = true)
    (hcap : r.flags.pdMode = true → r.scIsCapable = true)
    (hmac : mac = sentMac (!r.flags.pdMode)
      (osdpComputeMac env r.flags.pdMode (a ++ body) r.sc))
    (hfour : mac.length = 4)
    (hchk : chk.length = checkLen (pktControl a)) :
    phyDecode env r (a ++ body ++ mac ++ chk ++ rest)
        (a ++ body ++ mac ++ chk).length =
      if encryptedType (byteAt a 6).toNat then
        decodeDecrypt env
          { r with sc := osdpComputeMac env r.flags.pdMode (a ++ body) r.sc }
          (a ++ body ++ mac ++ chk ++ rest) 7 (body.length + 1 : Nat)
      else .ok ⟨{ r with
          sc := osdpComputeMac env r.flags.pdMode (a ++ body) r.sc },
        a ++ body ++ mac ++ chk ++ rest, (body.length + 1 : Nat),
        a.drop 7 ++ body⟩ := by
  let buf := a ++ body ++ mac ++ chk ++ rest
  let q : OsdpPd :=
    { r with sc := osdpComputeMac env r.flags.pdMode (a ++ body) r.sc }
  show phyDecode env r buf (a ++ body ++ mac ++ chk).length =
    if encryptedType (byteAt a 6).toNat then
      decodeDecrypt env q buf 7 (body.length + 1 : Nat)
    else .ok ⟨q, buf, (body.length + 1 : Nat), a.drop 7 ++ body⟩
  have hsplit : buf = a ++ (body ++ (mac ++ (chk ++ rest))) := by
    show a ++ body ++ mac ++ chk ++ rest = _
    simp only [List.append_assoc]
  have hbyte (k : Nat) (hk : k < 8) : byteAt buf k = byteAt a k := by
    rw [hsplit]
    exact byteAt_append _ (by omega)
  have hbuf : pktControl buf = pktControl a := hbyte 4 (by decide)
  have hdata : pktData buf 1 = byteAt a 6 := hbyte 6 (by decide)
  obtain ⟨h15, h18⟩ : scs15 ≤ (byteAt a 6).toNat ∧
      (byteAt a 6).toNat ≤ scs18 := by
    unfold maced at htype
    rw [Bool.and_eq_true, decide_eq_true_iff, decide_eq_true_iff] at htype
    exact htype
  simp only [scs15] at h15
  simp only [scs18] at h18
  have href : frameRefusal r buf = none := by
    unfold frameRefusal
    dsimp only
    rw [hbuf, hctl, hdata, hact, if_pos rfl,
      if_neg fun hc => hc.2 (hcap hc.1),
      if_neg (by simp only [scs11, scs18]; omega),
      if_neg fun hc => hc.1 rfl]
  have hsel : takeSelector r buf = r := by
    unfold takeSelector selectsScbkd
    dsimp only
    rw [hdata]
    refine if_neg fun hc => ?_
    have ht := hc.2
    simp only [Bool.and_eq_true, Bool.or_eq_true, beq_iff_eq, scs11,
      scs13] at ht
    omega
  have hcarry : carriesMac r buf = true := by
    unfold carriesMac
    rw [hbuf, hctl, hact, hdata]
    exact decide_eq_true h15
  have hscb : scbLen buf = 2 := by
    have hfive : pktData buf 0 = 2 := (hbyte 5 (by decide)).trans hlen
    unfold scbLen
    rw [hbuf, hctl, hfive]
    rfl
  have hroom : payloadRoom buf (a ++ body ++ mac ++ chk).length
      = ((body.length + 1 : Nat) : Int) + 4 := by
    unfold payloadRoom
    rw [hbuf, hscb, List.length_append, List.length_append,
      List.length_append, ha, hfour, hchk]
    simp only [pktHdrLen]
    omega
  have hcut : macSplit buf (a ++ body ++ mac ++ chk).length
      = (a ++ body, mac) := by
    have hoff : (a ++ body ++ mac ++ chk).length
        - checkLen (pktControl buf) - 4 = (a ++ body).length := by
      rw [hbuf, List.length_append, List.length_append, hfour, hchk]
      omega
    have hshow : buf = (a ++ body) ++ (mac ++ (chk ++ rest)) := by
      rw [hsplit, List.append_assoc]
    unfold macSplit
    dsimp only
    rw [hoff, hshow, List.take_left' rfl, List.drop_left' rfl,
      List.take_left' hfour]
  have hafter : phyComputeMac env r buf (a ++ body ++ mac ++ chk).length
      = q := by
    unfold phyComputeMac
    rw [hcut]
  have hmatch : macMatches env r buf (a ++ body ++ mac ++ chk).length
      = true := by
    unfold macMatches
    dsimp only
    rw [hafter, hcut, hmac]
    show (_ == sentMac _ _) = true
    unfold sentMac
    cases hrole : r.flags.pdMode <;> simp [q, hrole]
  unfold phyDecode
  rw [href, hsel, hcarry, hscb, hroom]
  unfold decodeAccept
  dsimp only
  rw [hafter, hmatch, hdata, if_neg (by decide), if_neg (by decide),
    Int.add_sub_cancel]
  by_cases henc : encryptedType (byteAt a 6).toNat = true
  · rw [if_pos henc, if_pos henc]
  · have hpay : (buf.drop 7).take (body.length + 1) = a.drop 7 ++ body := by
      have hone : (a.drop 7 ++ body).length = body.length + 1 := by
        rw [List.length_append, List.length_drop, ha]
        omega
      rw [hsplit, List.drop_append_of_le_length (by omega),
        ← List.append_assoc, List.take_left' hone]
    rw [if_neg henc, if_neg henc, Int.toNat_natCast]
    show Except.ok (DecodeResult.mk q buf _ ((buf.drop 7).take _)) = _
    rw [hpay]

end Decoding

-- ============================================================= data blocks

section Data

variable {env : Env} {sc sc' : OsdpSecureChannel} {isCmd : Bool}

/-- An IV is one block. -/
theorem length_dataIv (hr : sc.rMac.length = 16) (hc : sc.cMac.length = 16) :
    (dataIv isCmd sc).length = 16 := by
  unfold dataIv
  rw [List.length_map]
  cases isCmd
  · exact hc
  · exact hr

/-- Whole blocks, one at least. -/
theorem length_sealedData (env : Env)
    (hiv : (dataIv isCmd sc).length = 16) (d : Bytes) :
    (osdpEncryptData env isCmd sc d).length = padLen (d.length + 1) := by
  have hblocks : (padMarked scEomMarker d).length
      = (padMarked scEomMarker d).length / 16 * 16 := by
    rw [length_padMarked, padLen]
    omega
  unfold osdpEncryptData
  dsimp only
  rw [length_cbcEncrypt env.cipher _ _ _ _ hiv hblocks, ← hblocks,
    length_padMarked]

/-- A data block survives encryption, whatever bytes it ends in. -/
theorem osdpDecryptData_encrypt (allowEmpty : Bool)
    (hiv : (dataIv isCmd sc).length = 16) (d : Bytes) :
    osdpDecryptData env allowEmpty isCmd sc (osdpEncryptData env isCmd sc d)
      = some d := by
  have hlen := length_sealedData env hiv d
  have hpad : (padMarked scEomMarker d).length = padLen (d.length + 1) :=
    length_padMarked _ d
  have hwhole : padLen (d.length + 1) % 16 = 0 ∧
      16 ≤ padLen (d.length + 1) := by
    unfold padLen
    omega
  have hne : osdpEncryptData env isCmd sc d ≠ [] := by
    intro e
    rw [e, List.length_nil] at hlen
    omega
  have hback : cbcDecrypt env.cipher sc.sEnc (dataIv isCmd sc)
      (padLen (d.length + 1) / 16) (osdpEncryptData env isCmd sc d)
      = padMarked scEomMarker d := by
    unfold osdpEncryptData
    dsimp only
    rw [hpad]
    exact cbcDecrypt_cbcEncrypt env.cipher _ _ _ _ hiv (by rw [hpad]; omega)
  unfold osdpDecryptData
  rw [if_neg (by rw [hlen]; omega), if_neg hne, hlen, hback]
  exact stripPad_padMarked (by decide) d


/-- The MAC of a direction enters neither the IV nor the key of its own
data. -/
theorem osdpEncryptData_osdpComputeMac (part d : Bytes) :
    osdpEncryptData env isCmd (osdpComputeMac env isCmd part sc) d
      = osdpEncryptData env isCmd sc d := by
  cases isCmd <;> rfl

theorem dataIv_osdpComputeMac (part : Bytes) :
    dataIv isCmd (osdpComputeMac env isCmd part sc) = dataIv isCmd sc := by
  cases isCmd <;> rfl

end Data

-- ================================================================== step

/-- The same keys, and the same last MAC of either direction. -/
structure SameChain (a b : OsdpSecureChannel) : Prop where
  sEnc : a.sEnc = b.sEnc
  sMac1 : a.sMac1 = b.sMac1
  sMac2 : a.sMac2 = b.sMac2
  rMac : a.rMac = b.rMac
  cMac : a.cMac = b.cMac

/-- The two ends of a line keep step: one is the CP and one the PD, they
hold the same channel or none, and a PD that has one can have one. -/
structure InStep (p r : OsdpPd) : Prop where
  roles : r.flags.pdMode = !p.flags.pdMode
  active : r.flags.scActive = p.flags.scActive
  capable : p.flags.pdMode = true → p.flags.scActive = true →
    p.scIsCapable = true
  capable' : r.flags.pdMode = true → r.flags.scActive = true →
    r.scIsCapable = true
  chain : SameChain p.sc r.sc
  rMac : p.sc.rMac.length = 16
  cMac : p.sc.cMac.length = 16

section Step

variable {env env' : Env} {p r : OsdpPd} {sc sc' : OsdpSecureChannel}

theorem SameChain.symm (h : SameChain sc sc') : SameChain sc' sc :=
  ⟨h.sEnc.symm, h.sMac1.symm, h.sMac2.symm, h.rMac.symm, h.cMac.symm⟩

theorem InStep.symm (h : InStep p r) : InStep r p := by
  refine ⟨?_, h.active.symm, h.capable', h.capable, h.chain.symm, ?_, ?_⟩
  · rw [h.roles, Bool.not_not]
  · rw [← h.chain.rMac]
    exact h.rMac
  · rw [← h.chain.cMac]
    exact h.cMac

/-- A MAC depends on nothing else of the channel, and on nothing but the
cipher of the environment. -/
theorem SameChain.macOf (h : SameChain sc sc')
    (hc : env.cipher = env'.cipher) (isCmd : Bool) (d : Bytes) :
    macOf env isCmd sc d = macOf env' isCmd sc' d := by
  unfold LibOsdp.macOf
  rw [hc, h.sMac1, h.sMac2, h.rMac, h.cMac]

/-- Both ends are at the same MACs once both have computed the one of a
frame. -/
theorem SameChain.osdpComputeMac (h : SameChain sc sc')
    {env env' : Env} (hc : env.cipher = env'.cipher) (isCmd : Bool)
    (d : Bytes) :
    SameChain (osdpComputeMac env isCmd d sc)
      (osdpComputeMac env' isCmd d sc') := by
  have hmac := h.macOf hc isCmd d
  cases isCmd
  · exact ⟨h.sEnc, h.sMac1, h.sMac2, hmac, h.cMac⟩
  · exact ⟨h.sEnc, h.sMac1, h.sMac2, h.rMac, hmac⟩

/-- The IV of a data block is the same at both ends. -/
theorem SameChain.dataIv (h : SameChain sc sc') (isCmd : Bool) :
    dataIv isCmd sc = dataIv isCmd sc' := by
  unfold LibOsdp.dataIv
  rw [h.rMac, h.cMac]

/-- So are the encrypted data. -/
theorem SameChain.osdpEncryptData (h : SameChain sc sc')
    (hc : env.cipher = env'.cipher) (isCmd : Bool) (d : Bytes) :
    osdpEncryptData env isCmd sc d = osdpEncryptData env' isCmd sc' d := by
  unfold LibOsdp.osdpEncryptData
  rw [hc, h.sEnc, h.dataIv isCmd]

/-- A MAC computed at both ends keeps them in step. -/
theorem InStep.osdpComputeMac (h : InStep p r)
    (hc : env.cipher = env'.cipher) (isCmd : Bool) (d : Bytes) :
    InStep { p with sc := osdpComputeMac env isCmd d p.sc }
      { r with sc := osdpComputeMac env' isCmd d r.sc } := by
  have hlen (iv : Bytes) (hiv : iv.length = 16) :
      (cbcMac env.cipher scEomMarker p.sc.sMac1 p.sc.sMac2 iv d).length
        = 16 :=
    length_cbcMac env.cipher _ _ _ iv d hiv
  refine ⟨h.roles, h.active, h.capable, h.capable',
    h.chain.osdpComputeMac hc isCmd d, ?_, ?_⟩
  · cases isCmd
    · exact hlen _ h.cMac
    · exact h.rMac
  · cases isCmd
    · exact h.cMac
    · exact hlen _ h.rMac

end Step

-- ================================================================ drafts

/-- A packet as it stands before it is finished. -/
structure Draft where
  head : Bytes
  type : UInt8
  id : UInt8
  data : Bytes

/-- The bytes of a draft: under the channel there is a security block of
two bytes behind the header. -/
def Draft.packet (d : Draft) (active : Bool) : Bytes :=
  d.head ++ (if active then [2, d.type] else []) ++ d.id :: d.data

/-- What the other side is to find in the frame. -/
def Draft.payload (d : Draft) : Bytes := d.id :: d.data

/-- The header says whether there is a security block, and a block under
the channel is one that carries a MAC. -/
structure Draft.Suits (d : Draft) (active : Bool) : Prop where
  head : d.head.length = 5
  scb : ctrlScb (pktControl d.head) = active
  type : active = true → maced d.type = true

section RoundTrip

variable {env env' : Env} {p r : OsdpPd} {d : Draft} {q : Bytes}
variable {sc : OsdpSecureChannel} {maxLen : Nat}

/-- A frame read back: the payload, and nothing of the PD changed but the
channel. -/
def ReadsAs (env : Env) (r : OsdpPd) (q rest : Bytes) (payload : Bytes)
    (sc : OsdpSecureChannel) : Prop :=
  ∃ pkt, phyDecode env r (q ++ rest) q.length
    = .ok ⟨{ r with sc := sc }, pkt, payload.length, payload⟩

/-- The check bytes of both ends agree. -/
theorem integrity_withCheck_env {pkt : Bytes} (hcrc : env.crc16 = env'.crc16)
    (h : 5 ≤ pkt.length) : phyIntegrityOk env' (withCheck env pkt) = true := by
  have hsame : withCheck env pkt = withCheck env' pkt := by
    unfold withCheck checkBytes
    rw [hcrc]
  rw [hsame]
  exact integrity_withCheck h

theorem appendCheck_le {pkt : Bytes}
    (h : appendCheck env pkt maxLen = some q) : q.length ≤ maxLen := by
  have hq := appendCheck_some h
  unfold appendCheck at h
  dsimp only at h
  split at h
  · cases h
  · rw [hq, length_withCheck]
    omega

/-- A finished packet is no longer than it may be. -/
theorem finalizePacket_le {pkt : Bytes}
    (h : (finalizePacket env p pkt maxLen).2 = some q) :
    q.length ≤ maxLen := by
  unfold finalizePacket at h
  dsimp only at h
  split at h
  · split at h
    · cases h
    · split at h
      · cases h
      · exact appendCheck_le h
  · exact appendCheck_le h

/-- A packet that goes out without a MAC: `front` is its header with the
length filled in. -/
theorem plain_frame {head block : Bytes} (hcrc : env.crc16 = env'.crc16)
    (hhead : head.length = 5) (hmac : macOnTx p (head ++ block) = false)
    (hmax : maxLen < 65536)
    (h : finalizePacket env p (head ++ block) maxLen = (sc, some q)) :
    sc = p.sc ∧ lengthField q = q.length ∧ phyIntegrityOk env' q = true ∧
      ∃ front, front.length = 5 ∧ pktControl front = pktControl head ∧
        q = withCheck env (front ++ block) ∧
        (checkBytes env (pktControl (front ++ block))
          (front ++ block)).length = checkLen (pktControl front) := by
  obtain ⟨hsc, hq⟩ := finalizePacket_plain hhead hmac (congrArg Prod.snd h)
  rw [h] at hsc
  have hle : q.length ≤ maxLen :=
    finalizePacket_le (congrArg Prod.snd h)
  let front := setPktLen head
    (5 + block.length + checkLen (pktControl head))
  have hfront : front.length = 5 :=
    (length_setPktLen _ (by rw [hhead]; decide)).trans hhead
  have hctl : pktControl front = pktControl head :=
    pktControl_setPktLen _ (Nat.le_of_eq hhead.symm)
  have hpart : pktControl (front ++ block) = pktControl head :=
    (byteAt_append _ (by rw [hfront]; decide)).trans hctl
  have hlen : q.length
      = 5 + block.length + checkLen (pktControl head) := by
    rw [hq, length_withCheck, List.length_append, hfront, hpart]
  refine ⟨hsc, ?_, ?_, front, hfront, hctl, hq, ?_⟩
  · have hfour : 4 ≤ front.length := by
      rw [hfront]
      decide
    have hlong : 4 ≤ (front ++ block).length := by
      rw [List.length_append]
      omega
    have hfield : lengthField q
        = 5 + block.length + checkLen (pktControl head) := by
      rw [hq]
      unfold withCheck
      rw [lengthField_append _ hlong, lengthField_append _ hfour,
        lengthField_setPktLen (by rw [hhead]; decide)
          (by rw [← hlen]; omega)]
    rw [hfield, hlen]
  · rw [hq]
    refine integrity_withCheck_env hcrc ?_
    rw [List.length_append, hfront]
    omega
  · rw [length_checkBytes, hpart, hctl]

/-- Without a channel. -/
theorem round_trip_plain (hcrc : env.crc16 = env'.crc16)
    (hact : p.flags.scActive = false) (hract : r.flags.scActive = false)
    (hd : d.Suits false) (hmax : maxLen < 65536)
    (h : finalizePacket env p (d.packet false) maxLen = (sc, some q)) :
    sc = p.sc ∧ lengthField q = q.length ∧ phyIntegrityOk env' q = true ∧
      ∀ rest, ReadsAs env' r q rest d.payload r.sc := by
  have hpkt : d.packet false = d.head ++ d.payload := by
    show d.head ++ [] ++ d.payload = _
    rw [List.append_nil]
  have hmac : macOnTx p (d.head ++ d.payload) = false := by
    unfold macOnTx
    rw [hact]
    rfl
  rw [hpkt] at h
  obtain ⟨hsc, hlen, hok, front, hfront, hctl, hq, hchk⟩ :=
    plain_frame hcrc hd.head hmac hmax h
  refine ⟨hsc, hlen, hok, fun rest => ?_⟩
  have hread := phyDecode_plain env' r d.payload rest hfront
    (by rw [hctl]; exact hd.scb) hract hchk
  refine ⟨front ++ d.payload ++ checkBytes env
    (pktControl (front ++ d.payload)) (front ++ d.payload) ++ rest, ?_⟩
  rw [hq]
  exact hread

/-- Decrypting what the other side encrypted: `front` ends in the id. -/
theorem decodeDecrypt_encrypt {front : Bytes} (body data rest : Bytes)
    (hfront : front.length = 8)
    (hiv : (dataIv r.flags.pdMode r.sc).length = 16)
    (hbody : body = osdpEncryptData env r.flags.pdMode r.sc data) :
    ∃ pkt, decodeDecrypt env r (front ++ body ++ rest) 7
        (body.length + 1 : Nat)
      = .ok ⟨r, pkt, (data.length + 1 : Nat), byteAt front 7 :: data⟩ := by
  have hlen : body.length = padLen (data.length + 1) := by
    rw [hbody]
    exact length_sealedData env hiv data
  have hcount : ((body.length + 1 : Nat) : Int) - 1 = body.length := by
    omega
  have hblocks : ((body.length : Nat) : Int).tmod 16 = 0 := by
    rw [Int.tmod_eq_emod_of_nonneg (Int.natCast_nonneg _), hlen, padLen]
    omega
  have htake : ((front ++ body ++ rest).drop (7 + 1)).take body.length
      = body := by
    rw [List.append_assoc, List.drop_left' hfront, List.take_left' rfl]
  have hdec : osdpDecryptData env r.flags.allowEmptyEdb r.flags.pdMode r.sc
      body = some data := by
    rw [hbody]
    exact osdpDecryptData_encrypt _ hiv data
  have hid : byteAt (front ++ body ++ rest) 7 = byteAt front 7 := by
    rw [List.append_assoc]
    exact byteAt_append _ (by rw [hfront]; decide)
  refine ⟨writeAt (front ++ body ++ rest) (7 + 1)
    (data ++ zeros (body.length - data.length)), ?_⟩
  unfold decodeDecrypt
  dsimp only
  rw [hcount, if_neg (not_not.mpr hblocks), if_neg (by omega),
    Int.toNat_natCast, htake, hdec, hid]

/-- Under the channel. -/
theorem round_trip_mac (hcrc : env.crc16 = env'.crc16)
    (hcip : env.cipher = env'.cipher) (hs : InStep p r)
    (hact : p.flags.scActive = true) (hd : d.Suits true)
    (hmax : maxLen < 65536)
    (h : finalizePacket env p (d.packet true) maxLen = (sc, some q)) :
    lengthField q = q.length ∧ phyIntegrityOk env' q = true ∧
      ∃ sc', InStep { p with sc := sc } { r with sc := sc' } ∧
        ∀ rest, ReadsAs env' r q rest d.payload sc' := by
  let a := d.head ++ [2, d.type] ++ [d.id]
  have ha : a.length = 8 := by
    show (d.head ++ [2, d.type] ++ [d.id]).length = 8
    rw [List.length_append, List.length_append, hd.head]
    rfl
  have hbyte (k : Nat) : byteAt a (5 + k) = byteAt [2, d.type, d.id] k := by
    have hdrop : a.drop 5 = [2, d.type, d.id] := by
      show (d.head ++ [2, d.type] ++ [d.id]).drop 5 = _
      rw [List.append_assoc, List.drop_left' hd.head]
      rfl
    rw [← byteAt_drop, hdrop]
  have hctl : pktControl a = pktControl d.head := by
    show byteAt (d.head ++ [2, d.type] ++ [d.id]) 4 = _
    rw [List.append_assoc]
    exact byteAt_append _ (by rw [hd.head]; decide)
  have hpkt : d.packet true = a ++ d.data := by
    show d.head ++ [2, d.type] ++ d.id :: d.data = a ++ d.data
    rw [List.append_assoc _ [d.id]]
    rfl
  have hfive : byteAt a 5 = 2 := hbyte 0
  have hsix : byteAt a 6 = d.type := hbyte 1
  have hseven : byteAt a 7 = d.id := hbyte 2
  have htype := hd.type rfl
  have h15 : scs15 ≤ d.type.toNat := by
    unfold maced at htype
    rw [Bool.and_eq_true, decide_eq_true_iff] at htype
    exact htype.1
  have hmac : macOnTx p (a ++ d.data) = true := by
    have hscb : pktControl (a ++ d.data) = pktControl d.head :=
      (byteAt_append _ (by rw [ha]; decide)).trans hctl
    have hty : pktData (a ++ d.data) 1 = d.type :=
      (byteAt_append _ (show 6 < a.length by rw [ha]; decide)).trans hsix
    unfold macOnTx
    rw [hact, hscb, hd.scb, hty, decide_eq_true h15]
    rfl
  obtain ⟨hsc, hq⟩ := finalizePacket_mac ha hfive hmac
    (congrArg Prod.snd (hpkt ▸ h))
  rw [hpkt] at h
  rw [h, hsix] at hsc
  rw [hsix] at hq
  have hsc : sc = sentChannel env p
    (macdPart a (sentData env p d.type d.data)) := hsc
  -- the parts of the frame
  let body := sentData env p d.type d.data
  let front := setPktLen a
    (a.length + body.length + checkLen (pktControl a) + 4)
  have hfront : front.length = 8 :=
    (length_setPktLen _ (by rw [ha]; decide)).trans ha
  have hkeep (k : Nat) (hk : 4 ≤ k) : byteAt front k = byteAt a k :=
    byteAt_setPktLen _ (by rw [ha]; decide) hk
  have hfc : pktControl front = pktControl d.head :=
    (hkeep 4 (by decide)).trans hctl
  have hpart : (front ++ body).length = 8 + body.length := by
    rw [List.length_append, hfront]
  let mac := sentMac p.flags.pdMode (sentChannel env p (front ++ body))
  have hstep := hs.osdpComputeMac hcip
    (!p.flags.pdMode) (front ++ body)
  have hmaclen : mac.length = 4 := by
    have hlong := length_mac env hs.rMac hs.cMac (front ++ body)
    show ((if p.flags.pdMode then
        (sentChannel env p (front ++ body)).rMac
      else (sentChannel env p (front ++ body)).cMac).take 4).length = 4
    rw [List.length_take]
    show min 4 (if p.flags.pdMode then
        (osdpComputeMac env (!p.flags.pdMode) (front ++ body) p.sc).rMac
      else (osdpComputeMac env (!p.flags.pdMode) (front ++ body)
        p.sc).cMac).length = 4
    rw [hlong]
    rfl
  have hmacEq : mac = sentMac (!r.flags.pdMode)
      (osdpComputeMac env' r.flags.pdMode (front ++ body) r.sc) := by
    show sentMac p.flags.pdMode
      (osdpComputeMac env (!p.flags.pdMode) (front ++ body) p.sc) = _
    unfold sentMac
    rw [hs.roles, Bool.not_not, hstep.chain.rMac, hstep.chain.cMac]
  have hq : q = withCheck env (front ++ body ++ mac) := hq
  have hqc : pktControl (front ++ body ++ mac) = pktControl d.head := by
    rw [List.append_assoc]
    exact (byteAt_append _ (by rw [hfront]; decide)).trans hfc
  have hqlen : q.length
      = a.length + body.length + checkLen (pktControl a) + 4 := by
    rw [hq, length_withCheck, List.length_append, hpart, hmaclen, hqc, hctl,
      ha]
    omega
  have hle : q.length ≤ maxLen := finalizePacket_le (congrArg Prod.snd h)
  have hboth : InStep { p with sc := sc }
      { r with
        sc := osdpComputeMac env' (!p.flags.pdMode) (front ++ body) r.sc } := by
    rw [hsc]
    exact hstep
  refine ⟨?_, ?_, _, hboth, fun rest => ?_⟩
  · have hfield : lengthField q
        = a.length + body.length + checkLen (pktControl a) + 4 := by
      rw [hq]
      unfold withCheck
      rw [List.append_assoc, List.append_assoc,
        lengthField_append _ (by rw [hfront]; decide),
        lengthField_setPktLen (by rw [ha]; decide)
          (by rw [← hqlen]; omega)]
    rw [hfield, hqlen]
  · rw [hq]
    refine integrity_withCheck_env hcrc ?_
    rw [List.length_append, hpart]
    omega
  · have hrole : r.flags.pdMode = !p.flags.pdMode := hs.roles
    have hchk : (checkBytes env (pktControl (front ++ body ++ mac))
        (front ++ body ++ mac)).length = checkLen (pktControl front) := by
      rw [length_checkBytes, hqc, hfc]
    have hread := phyDecode_mac env' r body rest hfront
      (by rw [hfc]; exact hd.scb)
      ((hkeep 5 (by decide)).trans hfive)
      (by rw [hkeep 6 (by decide), hsix]; exact htype)
      (hs.active.trans hact)
      (fun hpd => hs.capable' hpd (hs.active.trans hact))
      hmacEq hmaclen hchk
    rw [hkeep 6 (by decide), hsix, hrole] at hread
    unfold ReadsAs
    rw [hq]
    by_cases henc : encryptedType d.type.toNat = true
    · have hbody : body = osdpEncryptData env' (!p.flags.pdMode)
          (osdpComputeMac env' (!p.flags.pdMode) (front ++ body) r.sc)
          d.data := by
        rw [osdpEncryptData_osdpComputeMac,
          ← hs.chain.osdpEncryptData hcip]
        show sentData env p d.type d.data = _
        unfold sentData
        rw [if_pos henc]
      let r' : OsdpPd :=
        { r with
          sc := osdpComputeMac env' (!p.flags.pdMode) (front ++ body) r.sc }
      have hrole' : r'.flags.pdMode = !p.flags.pdMode := hrole
      have hiv : (dataIv r'.flags.pdMode r'.sc).length = 16 := by
        rw [hrole']
        show (dataIv (!p.flags.pdMode) (osdpComputeMac env'
          (!p.flags.pdMode) (front ++ body) r.sc)).length = 16
        rw [dataIv_osdpComputeMac, ← hs.chain.dataIv]
        exact length_dataIv hs.rMac hs.cMac
      obtain ⟨pkt, hpkt⟩ := decodeDecrypt_encrypt body d.data
        (mac ++ checkBytes env (pktControl (front ++ body ++ mac))
          (front ++ body ++ mac) ++ rest) hfront hiv
        (by rw [hrole']; exact hbody)
      rw [if_pos henc] at hread
      refine ⟨pkt, hread.trans ?_⟩
      rw [List.append_assoc _ mac, List.append_assoc _ (mac ++ _)]
      rw [hkeep 7 (by decide), hseven] at hpkt
      exact hpkt
    · have hbody : body = d.data := by
        show sentData env p d.type d.data = _
        unfold sentData
        rw [if_neg henc]
      have hseven : (d.head ++ [2, d.type]).length = 7 := by
        rw [List.length_append, hd.head]
        rfl
      have hdrop : front.drop 7 = [d.id] := by
        show (setPktLen (d.head ++ [2, d.type] ++ [d.id]) _).drop 7 = _
        rw [setPktLen_append _ _ (by rw [hseven]; decide)]
        exact List.drop_left' ((length_setPktLen _
          (by rw [hseven]; decide)).trans hseven)
      have hpay : [d.id] ++ body = d.payload := by
        rw [hbody]
        rfl
      have hcount : body.length + 1 = d.payload.length := by
        rw [hbody]
        rfl
      rw [if_neg henc, hdrop, hpay, hcount] at hread
      exact ⟨_, hread⟩

/-- A frame goes round: its length field is its length, its check bytes
are right, and the other side finds the id and the data of the draft in
it, whatever they are and whatever lies behind the frame; and the two ends
are still in step. -/
theorem frame_round_trip_of (hcrc : env.crc16 = env'.crc16)
    (hcip : env.cipher = env'.cipher) (hs : InStep p r)
    (hd : d.Suits p.flags.scActive) (hmax : maxLen < 65536)
    (h : finalizePacket env p (d.packet p.flags.scActive) maxLen
      = (sc, some q)) :
    lengthField q = q.length ∧ phyIntegrityOk env' q = true ∧
      ∃ sc', InStep { p with sc := sc } { r with sc := sc' } ∧
        ∀ rest, ReadsAs env' r q rest d.payload sc' := by
  cases hact : p.flags.scActive with
  | false =>
    rw [hact] at hd h
    obtain ⟨rfl, hlen, hok, hread⟩ :=
      round_trip_plain hcrc hact (hs.active.trans hact) hd hmax h
    exact ⟨hlen, hok, r.sc, hs, hread⟩
  | true =>
    rw [hact] at hd h
    exact round_trip_mac hcrc hcip hs hact hd hmax h

end RoundTrip

-- ================================================================ sending

/-- A packet that is laid and typed: it has a security block exactly where
the channel is up, of two bytes and of a type with a MAC. -/
structure Ready (i : Nat) (t : Osdp) (block : Bytes) : Prop where
  laid : Laid i t block (dataPos i t + block.length)
  scb : ctrlScb (byteAt t.txBuf ((t.pd i).markLen + 4))
    = (t.pd i).flags.scActive
  pos : (t.pd i).flags.scActive = true →
    dataPos i t = (t.pd i).markLen + 7
  type : (t.pd i).flags.scActive = true →
    maced (byteAt t.txBuf ((t.pd i).markLen + 6)) = true

section Sending

variable {i : Nat} {data : Bytes} {id : UInt8} {t : Osdp}

/-- Two bytes in the middle of a list. -/
theorem slice_two {l : Bytes} {n : Nat} (h : n + 2 ≤ l.length) :
    (l.drop n).take 2 = [byteAt l n, byteAt l (n + 1)] := by
  have hlen : (l.drop n).length = l.length - n := List.length_drop
  cases e : l.drop n with
  | nil =>
    rw [e, List.length_nil] at hlen
    omega
  | cons x tl =>
    cases tl with
    | nil =>
      rw [e, List.length_singleton] at hlen
      omega
    | cons y tl =>
      have hx : byteAt l n = x := by
        rw [show n = n + 0 from rfl, ← byteAt_drop, e]
        rfl
      have hy : byteAt l (n + 1) = y := by
        rw [← byteAt_drop, e]
        rfl
      rw [hx, hy]
      rfl

/-- A packet that is ready is a draft. -/
theorem Ready.draft (h : Ready i t (id :: data)) :
    ∃ d : Draft, d.Suits (t.pd i).flags.scActive ∧
      d.payload = id :: data ∧
      packetOf i t (dataPos i t + (id :: data).length)
        = d.packet (t.pd i).flags.scActive := by
  let total := dataPos i t + (id :: data).length
  let pkt := packetOf i t total
  obtain ⟨hge, -⟩ := dataPos_ge i t
  have htotal : total = dataPos i t + (data.length + 1) := rfl
  have hlen : pkt.length = total - (t.pd i).markLen := h.laid.length_packetOf
  have hbyte (k : Nat) (hk : (t.pd i).markLen + k < total) :
      byteAt pkt k = byteAt t.txBuf ((t.pd i).markLen + k) :=
    byteAt_packetOf hk
  -- the header, the block and the data
  have hback : pkt.drop (dataPos i t - (t.pd i).markLen) = id :: data := by
    show ((t.txBuf.take total).drop (t.pd i).markLen).drop _ = _
    rw [List.drop_drop, Nat.add_sub_cancel' (by omega)]
    exact h.laid.block_eq
  have hsplit : pkt = pkt.take (dataPos i t - (t.pd i).markLen)
      ++ id :: data := by
    rw [← hback, List.take_append_drop]
  let d : Draft := ⟨pkt.take 5, byteAt pkt 6, id, data⟩
  have hhead : d.head.length = 5 := by
    show (pkt.take 5).length = 5
    rw [List.length_take]
    omega
  have hscb : ctrlScb (pktControl d.head) = (t.pd i).flags.scActive := by
    have hctl : pktControl d.head
        = byteAt t.txBuf ((t.pd i).markLen + 4) := by
      show byteAt (pkt.take 5) 4 = _
      rw [byteAt_take (by decide), hbyte 4 (by omega)]
    rw [hctl]
    exact h.scb
  refine ⟨d, ⟨hhead, hscb, fun ha => ?_⟩, rfl, ?_⟩
  · have hpos := h.pos ha
    show maced (byteAt pkt 6) = true
    rw [hbyte 6 (by omega)]
    exact h.type ha
  · show pkt = d.packet _
    cases ha : (t.pd i).flags.scActive with
    | false =>
      have hpos : dataPos i t = (t.pd i).markLen + 5 := by
        rw [dataPos_eq, h.scb, ha]
        rfl
      rw [hpos, Nat.add_sub_cancel_left] at hsplit
      show pkt = pkt.take 5 ++ [] ++ id :: data
      rw [List.append_nil]
      exact hsplit
    | true =>
      have hpos := h.pos ha
      have hfive : byteAt pkt 5 = 2 := by
        have hsec := (dataPos_ge i t).2 (h.scb.trans ha)
        apply UInt8.toNat_inj.mp
        rw [hbyte 5 (by omega)]
        show _ = 2
        omega
      have hseven : pkt.take 7 = pkt.take 5 ++ [2, byteAt pkt 6] := by
        rw [show 7 = 5 + 2 from rfl, List.take_add,
          slice_two (by omega), hfive]
      rw [hpos, Nat.add_sub_cancel_left, hseven] at hsplit
      exact hsplit

end Sending

-- =============================================================== receiving

/-- A frame lies in the packet buffer, with `rest` behind it. -/
structure FrameHeld (j : Nat) (w : Osdp) (frame rest : Bytes) : Prop where
  bytes : (w.buf (w.pd j).packetBuf).drop (w.pd j).markLen = frame ++ rest
  length : (w.pd j).packetBufLen - (w.pd j).markLen = frame.length

/-- A store into a packet buffer leaves the PDs and the history. -/
theorem writeBuf_total (ref : BufRef) (off : Nat) (d : Bytes) (w : Osdp) :
    ∃ x, writeBuf ref off d w = .ok () x ∧ x.pd = w.pd ∧ x.log = w.log := by
  unfold writeBuf
  split
  · exact ⟨_, rfl, rfl, rfl⟩
  · exact ⟨_, rfl, rfl, rfl⟩

/-- Decoding a frame that is held: what the PD becomes, and the payload. -/
theorem osdpPhyDecodePacket_held {env : Env} {j : Nat} {w : Osdp}
    {frame rest payload pkt : Bytes} {q : OsdpPd}
    (hw : FrameHeld j w frame rest)
    (h : phyDecode env (w.pd j) (frame ++ rest) frame.length
      = .ok ⟨q, pkt, payload.length, payload⟩) :
    ∃ v, osdpPhyDecodePacket env j w = .ok (payload.length, payload) v ∧
      v.pd j = q ∧ v.log = w.log := by
  rw [← hw.bytes, ← hw.length] at h
  obtain ⟨x, hx, hpd, hlog⟩ :=
    writeBuf_total (w.pd j).packetBuf (w.pd j).markLen pkt w
  refine ⟨x.updPd j fun _ => q, ?_, updPd_pd_same _ _ _, hlog⟩
  unfold osdpPhyDecodePacket
  rw [bind_eq (getPd_ok.mpr ⟨rfl, rfl⟩),
    bind_eq (m := readBuf (w.pd j).packetBuf) (s := w) rfl, h]
  show (writeBuf (w.pd j).packetBuf (w.pd j).markLen pkt >>= fun _ => _) w = _
  rw [bind_eq hx]
  rfl

section Line

variable {env env' : Env} {i j size : Nat} {data : Bytes} {u w : Osdp}
variable {done : Int}

/-- The first `len` bytes of the transmit buffer, from SOM on. -/
def frameOf (i : Nat) (u : Osdp) (len : Nat) : Bytes :=
  (u.txBuf.take len).drop (u.pd i).markLen

/-- What a run of the finalizer on a packet that was laid leaves. -/
theorem finalize_frame {t : Osdp} {block : Bytes} {total : Nat}
    (hl : Laid i t block total) (hne : block ≠ [])
    (h : osdpPhyFinalizePacket env i total size t = .ok done u)
    (hge : 0 ≤ done) :
    ∃ sc, finalizePacket env (t.pd i) (packetOf i t total)
        (size - (t.pd i).markLen) = (sc, some (frameOf i u done.toNat)) ∧
      u.pd i = { t.pd i with sc := sc } := by
  rw [finalize_laid env hl hne size] at h
  have hfit : (t.pd i).markLen ≤ t.txBuf.length := by
    have hroom := hl.room
    have hstop := hl.stop
    obtain ⟨hpos, -⟩ := dataPos_ge i t
    omega
  cases hres : finalizePacket env (t.pd i) (packetOf i t total)
      (size - (t.pd i).markLen) with
  | mk sc res =>
    have hpd : (sealedOn env i total size t).pd i
        = { t.pd i with sc := sc } := by
      unfold sealedOn
      rw [updPd_pd_same, hres]
    rw [hres] at h
    split at h
    · cases h
    · cases res with
      | none =>
        cases h
        exact absurd hge (by decide)
      | some q =>
        cases h
        refine ⟨sc, ?_, hpd⟩
        have hmark : ((sealedOn env i total size t).pd i).markLen
            = (t.pd i).markLen := by
          rw [hpd]
          rfl
        have hframe : frameOf i { sealedOn env i total size t with
            txBuf := writeAt t.txBuf (t.pd i).markLen q }
            (((t.pd i).markLen + q.length : Nat) : Int).toNat = q := by
          show ((writeAt t.txBuf (t.pd i).markLen q).take _).drop
            ((sealedOn env i total size t).pd i).markLen = q
          rw [hmark, Int.toNat_natCast]
          exact slice_writeAt q hfit
        rw [hframe]

/-- A frame arrives: its length field is its length, the other end of the
line finds its check bytes right and reads this block from it, whatever
lies behind it there.  Nothing but the channel is different then, and the
two ends keep step. -/
structure Arrives (env' : Env) (j : Nat) (frame block : Bytes) (q : OsdpPd)
    (w : Osdp) : Prop where
  length : lengthField frame = frame.length
  intact : phyIntegrityOk env' frame = true
  reads : ∀ rest, FrameHeld j w frame rest →
    ∃ v sc, osdpPhyDecodePacket env' j w = .ok (block.length, block) v ∧
      v.pd j = { w.pd j with sc := sc } ∧ v.log = w.log ∧
      InStep q (v.pd j)

/-- A packet that is ready, once finished, arrives. -/
theorem Ready.arrives {t : Osdp} {id : UInt8}
    (hready : Ready i t (id :: data)) (hcrc : env.crc16 = env'.crc16)
    (hcip : env.cipher = env'.cipher) (hs : InStep (t.pd i) (w.pd j))
    (hsize : size ≤ packetBufSize)
    (hfin : osdpPhyFinalizePacket env i
      (dataPos i t + (id :: data).length) size t = .ok done u)
    (hge : 0 ≤ done) :
    Arrives env' j (frameOf i u done.toNat) (id :: data) (u.pd i) w := by
  obtain ⟨d, hd, hpay, hpkt⟩ := hready.draft
  obtain ⟨sc, hseal, hupd⟩ :=
    finalize_frame hready.laid (List.cons_ne_nil _ _) hfin hge
  rw [hpkt] at hseal
  have hmax : size - (t.pd i).markLen < 65536 := by
    have : packetBufSize = 256 := rfl
    omega
  obtain ⟨hlen, hok, sc', hboth, hread⟩ :=
    frame_round_trip_of hcrc hcip hs hd hmax hseal
  refine ⟨hlen, hok, fun rest hw => ?_⟩
  obtain ⟨pkt, hdec⟩ := hread rest
  obtain ⟨v, hv, hvpd, hlog⟩ := osdpPhyDecodePacket_held hw hdec
  rw [hpay] at hv
  refine ⟨v, sc', hv, hvpd, hlog, ?_⟩
  rw [hupd, hvpd]
  exact hboth

end Line

/-- One side of a line whose channel is up. -/
def sealedSide (pdMode : Bool) : Osdp :=
  { pd := fun _ =>
      { flags := { pdMode := pdMode, scCapable := true, scActive := true }
        cmdId := cmdLed
        replyId := replyRaw } }

/-- The environment of that line. -/
def sealedLine : Env := plainEnv (knownCipher []) fun _ => 0

-- ========================================================== conversations

/-- A turn of a conversation: who speaks, what is said, and how much may
go out. -/
structure Turn where
  fromPd : Bool
  draft : Draft
  maxLen : Nat

/-- A frame on its way: one end finishes it, the other one checks and
decodes it.  The two ends afterwards, and the payload. -/
def passFrame (env env' : Env) (p r : OsdpPd) (t : Turn) :
    Option (OsdpPd × OsdpPd × Bytes) :=
  match finalizePacket env p (t.draft.packet p.flags.scActive) t.maxLen with
  | (_, none) => none
  | (sc, some q) =>
    if phyIntegrityOk env' q then
      match phyDecode env' r q q.length with
      | .ok got => some ({ p with sc := sc }, got.pd, got.payload)
      | .error _ => none
    else none

/-- A conversation between a CP and a PD. -/
def converse (cpEnv pdEnv : Env) :
    List Turn → OsdpPd → OsdpPd → Option (OsdpPd × OsdpPd × List Bytes)
  | [], cp, pd => some (cp, pd, [])
  | t :: turns, cp, pd =>
    if t.fromPd then do
      let (pd, cp, got) ← passFrame pdEnv cpEnv pd cp t
      let (cp, pd, rest) ← converse cpEnv pdEnv turns cp pd
      return (cp, pd, got :: rest)
    else do
      let (cp, pd, got) ← passFrame cpEnv pdEnv cp pd t
      let (cp, pd, rest) ← converse cpEnv pdEnv turns cp pd
      return (cp, pd, got :: rest)

/-- The draft suits the channel, and fits once it is finished. -/
structure Turn.Goes (t : Turn) (p : OsdpPd) : Prop where
  suits : t.draft.Suits p.flags.scActive
  fits : finishedLen p (t.draft.packet p.flags.scActive) ≤ t.maxLen
  room : t.maxLen ≤ packetBufSize

section Conversation

variable {env env' : Env} {p r : OsdpPd} {t : Turn}

/-- What can be sent depends on whether the channel is up. -/
theorem Turn.Goes.congr (h : t.Goes p)
    (hact : r.flags.scActive = p.flags.scActive) : t.Goes r := by
  have hlen (pkt : Bytes) : finishedLen r pkt = finishedLen p pkt := by
    unfold finishedLen macOnTx
    rw [hact]
  exact ⟨hact ▸ h.suits, by rw [hlen, hact]; exact h.fits, h.room⟩

/-- A draft that fits is finished. -/
theorem Turn.Goes.finalizes (h : t.Goes p) (hr : p.sc.rMac.length = 16)
    (hc : p.sc.cMac.length = 16) (env : Env) :
    ∃ sc q, finalizePacket env p (t.draft.packet p.flags.scActive) t.maxLen
      = (sc, some q) := by
  let pkt := t.draft.packet p.flags.scActive
  have hfive : 5 ≤ pkt.length := by
    have hhead := h.suits.head
    show 5 ≤ (t.draft.head ++ _ ++ _).length
    rw [List.length_append, List.length_append]
    omega
  have hoff : macOnTx p pkt = true → sealedOff pkt ≤ pkt.length := by
    intro hmac
    have hact : p.flags.scActive = true := by
      unfold macOnTx at hmac
      rw [Bool.and_eq_true, Bool.and_eq_true] at hmac
      exact hmac.1.1
    have hpkt : pkt = t.draft.head ++ ([2, t.draft.type] ++
        t.draft.id :: t.draft.data) := by
      show t.draft.head ++ (if p.flags.scActive then _ else _) ++ _ = _
      rw [if_pos hact, List.append_assoc]
    have hfirst : pktData pkt 0 = 2 := by
      have hdrop : pkt.drop 5 = [2, t.draft.type] ++
          t.draft.id :: t.draft.data := by
        rw [hpkt, List.drop_left' h.suits.head]
      show byteAt pkt (5 + 0) = 2
      rw [← byteAt_drop, hdrop]
      rfl
    unfold sealedOff
    rw [hfirst, hpkt, List.length_append, List.length_append, h.suits.head]
    show 5 + 2 + 1 ≤ 5 + (2 + (t.draft.data.length + 1))
    omega
  cases hres : finalizePacket env p pkt t.maxLen with
  | mk sc res =>
    rcases finalizePacket_fits env t.maxLen hr hc hfive hoff with
      ⟨⟨q, hq, -⟩, -⟩ | ⟨-, hlt⟩
    · rw [hres] at hq
      have hq : res = some q := hq
      exact ⟨sc, q, by rw [hq]⟩
    · exact absurd h.fits (Nat.not_le.mpr hlt)

/-- One turn: the payload arrives, and the ends keep step. -/
theorem passFrame_arrives (hcrc : env.crc16 = env'.crc16)
    (hcip : env.cipher = env'.cipher) (hs : InStep p r) (h : t.Goes p) :
    ∃ p' r', passFrame env env' p r t = some (p', r', t.draft.payload) ∧
      InStep p' r' ∧ p'.flags = p.flags := by
  obtain ⟨sc, q, hq⟩ := h.finalizes hs.rMac hs.cMac env
  have hmax : t.maxLen < 65536 := Nat.lt_of_le_of_lt h.room (by decide)
  obtain ⟨-, hok, sc', hboth, hread⟩ :=
    frame_round_trip_of hcrc hcip hs h.suits hmax hq
  obtain ⟨pkt, hdec⟩ := hread []
  rw [List.append_nil] at hdec
  refine ⟨_, _, ?_, hboth, rfl⟩
  unfold passFrame
  rw [hq]
  dsimp only
  rw [if_pos hok, hdec]

/-- A conversation under a channel, or without one, arrives as it was
sent: whoever speaks, however often in a row, every payload is found by
the other side, and in the end the two are in step as in the beginning. -/
theorem conversation_arrives {cpEnv pdEnv : Env} {cp pd : OsdpPd}
    (hcrc : cpEnv.crc16 = pdEnv.crc16)
    (hcip : cpEnv.cipher = pdEnv.cipher) (hs : InStep cp pd)
    (turns : List Turn) (h : ∀ t ∈ turns, t.Goes cp) :
    ∃ cp' pd', converse cpEnv pdEnv turns cp pd
        = some (cp', pd', turns.map fun t => t.draft.payload) ∧
      InStep cp' pd' := by
  induction turns generalizing cp pd with
  | nil => exact ⟨cp, pd, rfl, hs⟩
  | cons t turns ih =>
    have ht := h t List.mem_cons_self
    have hrest := fun u hu => h u (List.mem_cons_of_mem t hu)
    unfold converse
    by_cases hfrom : t.fromPd = true
    · obtain ⟨pd₁, cp₁, hpass, hstep, hflags⟩ :=
        passFrame_arrives hcrc.symm hcip.symm
          hs.symm (ht.congr hs.active)
      have hact : cp₁.flags.scActive = cp.flags.scActive := by
        rw [hstep.active, hflags, hs.active]
      obtain ⟨cp₂, pd₂, hrun, hend⟩ :=
        ih hstep.symm fun u hu => (hrest u hu).congr hact
      refine ⟨cp₂, pd₂, ?_, hend⟩
      rw [if_pos hfrom, hpass]
      show (converse cpEnv pdEnv turns cp₁ pd₁ >>= fun x => _) = _
      rw [hrun]
      rfl
    · obtain ⟨cp₁, pd₁, hpass, hstep, hflags⟩ :=
        passFrame_arrives hcrc hcip hs ht
      obtain ⟨cp₂, pd₂, hrun, hend⟩ :=
        ih hstep fun u hu => (hrest u hu).congr (by rw [hflags])
      refine ⟨cp₂, pd₂, ?_, hend⟩
      rw [if_neg hfrom, hpass]
      show (converse cpEnv pdEnv turns cp₁ pd₁ >>= fun x => _) = _
      rw [hrun]
      rfl

end Conversation

/-- A turn with one byte of data. -/
def shortTurn (fromPd : Bool) : Turn :=
  ⟨fromPd, ⟨[pktSom, 0, 0, 0, 0x0C], if fromPd then 0x18 else 0x17, 0x60,
    [0x80]⟩, 64⟩

theorem conversation_arrives_twice :
    ∃ cp' pd', converse sealedLine sealedLine
        [shortTurn false, shortTurn true] ((sealedSide false).pd 0)
        ((sealedSide true).pd 0)
        = some (cp', pd', [[0x60, 0x80], [0x60, 0x80]]) ∧
      InStep cp' pd' := by
  have hs : InStep ((sealedSide false).pd 0) ((sealedSide true).pd 0) :=
    ⟨rfl, rfl, fun _ _ => rfl, fun _ _ => rfl, ⟨rfl, rfl, rfl, rfl, rfl⟩,
      rfl, rfl⟩
  have hgoes (fromPd : Bool) :
      (shortTurn fromPd).Goes ((sealedSide false).pd 0) := by
    cases fromPd
    · exact ⟨⟨rfl, by decide, fun _ => by decide⟩, by decide, by decide⟩
    · exact ⟨⟨rfl, by decide, fun _ => by decide⟩, by decide, by decide⟩
  refine conversation_arrives rfl rfl hs _ fun t ht => ?_
  rcases List.mem_pair.mp ht with rfl | rfl
  · exact hgoes false
  · exact hgoes true

end LibOsdp
