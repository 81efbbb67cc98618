/-
Card commands and card replies across the wire: the two halves of
osdp_trs.c are written apart, and here one is shown to read back what
the other builds.

# Commands

A card command is built from a queue that `cp_band_admit` guards, so the
statement starts there: what was admitted fits the packet, its PIN layout
is one the wire can carry, and the PD decodes the very command.  The
completion mask is the one field no check looks at; the wire has three
bits for it.

# Replies

`osdp_trs_reply_decode` fills the event first and decides apart from it
whether the application is to hear of it: a card sighting that repeats
the last one is filled in and not dispatched.  `trsReplyEvent` is what it
fills in, `trsReplyVerdict` what becomes of it.

# Packed bytes

Three bytes of a PIN entry are packed, two of them with a four-bit offset
and a flag for its unit.  `trsPinPos_wire` is the law of one offset, and
the packed bytes are taken apart once each.
-/
import LibOsdp.Cp.Api

namespace LibOsdp

open Lib

-- ========================================================= packed bytes

/-- An offset the wire can carry fits four bits and is read back. -/
theorem trsPinPos_wire {pos off : Nat} {unit : Bool}
    (h : trsPinPosToWire pos = some (off, unit)) :
    off ≤ 15 ∧ trsPinPosFromWire off unit = pos := by
  unfold trsPinPosToWire at h
  by_cases hbytes : pos % 8 = 0 ∧ pos / 8 ≤ 15
  · rw [if_pos hbytes] at h
    obtain ⟨rfl, rfl⟩ := Prod.mk.inj (Option.some.inj h)
    refine ⟨hbytes.2, ?_⟩
    show pos / 8 * 8 = pos
    omega
  · rw [if_neg hbytes] at h
    by_cases hbits : pos ≤ 15
    · rw [if_pos hbits] at h
      obtain ⟨rfl, rfl⟩ := Prod.mk.inj (Option.some.inj h)
      refine ⟨hbits, ?_⟩
      show pos * 1 = pos
      omega
    · rw [if_neg hbits] at h
      cases h

/-- A format the wire can carry is read back. -/
theorem trsPinFormat_wire {format w : Nat}
    (h : trsPinFormatToWire format = some w) :
    w < 3 ∧ w + 1 = format := by
  unfold trsPinFormatToWire at h
  grind

theorem bitIf_le (b : Bool) (v : Nat) : bitIf b v ≤ v := by
  cases b
  · exact Nat.zero_le v
  · exact Nat.le_refl v

/-- A byte from a number that fits it. -/
theorem toNat_ofNat_of_lt {n : Nat} (h : n < 256) :
    (UInt8.ofNat n).toNat = n := by
  rw [UInt8.toNat_ofNat']
  exact Nat.mod_eq_of_lt h

/-- bmFormatString, taken apart. -/
theorem formatByte_parts {f off : Nat} (hf : f < 4) (ho : off ≤ 15)
    (justify unit : Bool) :
    ∃ b, b = UInt8.ofNat (f + bitIf justify 4 + off * 8 +
        bitIf unit 128) ∧
      b.toNat % 4 = f ∧ b.toNat.testBit 2 = justify ∧
      b.toNat / 8 % 16 = off ∧ b.toNat.testBit 7 = unit := by
  have hj := bitIf_le justify 4
  have hu := bitIf_le unit 128
  refine ⟨_, rfl, ?_⟩
  rw [toNat_ofNat_of_lt (by omega), Nat.testBit_eq_decide_div_mod_eq,
    Nat.testBit_eq_decide_div_mod_eq]
  cases justify <;> cases unit <;> simp only [bitIf] <;>
    refine ⟨?_, ?_, ?_, ?_⟩ <;> simp <;> omega

/-- bmPINBlockString, taken apart. -/
theorem blockByte_parts {size blk : UInt8} (hs : size ≤ 0x0f)
    (hb : blk ≤ 0x0f) :
    ∃ b, b = UInt8.ofNat (size.toNat * 16 + blk.toNat) ∧
      UInt8.ofNat (b.toNat % 16) = blk ∧
      UInt8.ofNat (b.toNat / 16 % 16) = size := by
  have hs : size.toNat ≤ 15 := UInt8.le_iff_toNat_le.mp hs
  have hb : blk.toNat ≤ 15 := UInt8.le_iff_toNat_le.mp hb
  refine ⟨_, rfl, ?_⟩
  rw [toNat_ofNat_of_lt (by omega)]
  constructor
  · rw [show (size.toNat * 16 + blk.toNat) % 16 = blk.toNat by omega]
    exact UInt8.ofNat_toNat
  · rw [show (size.toNat * 16 + blk.toNat) / 16 % 16 = size.toNat by omega]
    exact UInt8.ofNat_toNat

/-- bmPINLengthFormat, taken apart. -/
theorem lengthByte_parts {off : Nat} (ho : off ≤ 15) (unit : Bool) :
    ∃ b, b = UInt8.ofNat (off + bitIf unit 16) ∧
      b.toNat % 16 = off ∧ b.toNat.testBit 4 = unit := by
  have hu := bitIf_le unit 16
  refine ⟨_, rfl, ?_⟩
  rw [toNat_ofNat_of_lt (by omega), Nat.testBit_eq_decide_div_mod_eq]
  cases unit <;> simp only [bitIf] <;> refine ⟨?_, ?_⟩ <;> simp <;> omega

-- ============================================================= commands

/-- A PIN entry as its C structure can hold it (the prologue is an array
of three), with a completion mask the wire has bits for. -/
structure TrsPinEntry.Representable (e : TrsPinEntry) : Prop where
  prologue : e.teoPrologue.length = 3
  complete : e.completeOn < 8

/-- A command whose fields its C structure and the wire can hold. -/
def TrsCmd.Representable : TrsCmd → Prop
  | .enterPin e => e.Representable
  | _ => True

/-- The block of CMD_ENTER_PIN is read back in every field. -/
theorem trsPinDecode_bytes {e : TrsPinEntry} {hd : Bytes}
    (he : e.Representable) (hcheck : osdpTrsPinEntryCheck e = true)
    (hapdu : e.apdu.length ≤ trsApduMaxLen)
    (h : trsPinBytes e = some hd) :
    trsPinDecode (hd ++ writeBe 2 e.apdu.length ++ e.apdu) = some e := by
  obtain ⟨a, b, c, hteo⟩ := List.length_eq_three.mp he.prologue
  simp only [osdpTrsPinEntryCheck, Bool.and_eq_true,
    decide_eq_true_eq] at hcheck
  obtain ⟨⟨⟨⟨-, -⟩, -⟩, hsize⟩, hblk⟩ := hcheck
  simp only [trsPinBytes, Option.bind_eq_bind, Option.bind_eq_some_iff,
    Prod.exists, Option.pure_def, Option.some.injEq] at h
  obtain ⟨f, hf, po, pu, hpin, lo, lu, hlen, rfl⟩ := h
  obtain ⟨hf, hformat⟩ := trsPinFormat_wire hf
  obtain ⟨hpo, hpin⟩ := trsPinPos_wire hpin
  obtain ⟨hlo, hlen⟩ := trsPinPos_wire hlen
  obtain ⟨fb, hfb, hfmt, hjust, hoff, hunit⟩ :=
    formatByte_parts (by omega : f < 4) hpo e.rightJustify pu
  obtain ⟨bb, hbb, hblkB, hsizeB⟩ := blockByte_parts hsize hblk
  obtain ⟨lb, hlb, hloff, hlunit⟩ := lengthByte_parts hlo lu
  obtain ⟨cb, hcb⟩ : ∃ b, b = UInt8.ofNat (e.completeOn % 8) := ⟨_, rfl⟩
  have hcomp : cb.toNat % 8 = e.completeOn := by
    have hlt := he.complete
    rw [hcb, toNat_ofNat_of_lt (by omega)]
    omega
  have hlang (l : Bytes) :
      UInt16.ofNat (readBe 2 (writeBe 2 e.languageId.toNat ++ l))
        = e.languageId := by
    rw [readBe_writeBe_of_lt e.languageId.toNat_lt, UInt16.ofNat_toNat]
  have hn : readBe 2 (writeBe 2 e.apdu.length ++ e.apdu)
      = e.apdu.length :=
    readBe_writeBe_of_lt (Nat.lt_of_le_of_lt hapdu (by decide)) e.apdu
  rw [hteo, ← hfb, ← hbb, ← hlb, ← hcb]
  -- the fifteen bytes, the length and the APDU, one list
  show trsPinDecode (e.timeoutInitial :: e.timeoutDigit :: fb :: bb :: lb ::
    e.minDigits :: e.maxDigits :: cb :: e.numMessages ::
    byteOf e.languageId.toNat 1 :: byteOf e.languageId.toNat 0 ::
    e.msgIndex :: a :: b :: c ::
    byteOf e.apdu.length 1 :: byteOf e.apdu.length 0 :: e.apdu) = some e
  unfold trsPinDecode
  rw [if_neg (by simp)]
  show (if fb.toNat % 4 = 3 then none
    else if readBe 2 (writeBe 2 e.apdu.length ++ e.apdu) > trsApduMaxLen ∨
      readBe 2 (writeBe 2 e.apdu.length ++ e.apdu) > e.apdu.length then none
    else some _) = _
  rw [if_neg (by omega), hn, if_neg (by omega)]
  have hlang := hlang (e.msgIndex :: a :: b :: c ::
    byteOf e.apdu.length 1 :: byteOf e.apdu.length 0 :: e.apdu)
  have hformat : fb.toNat % 4 + 1 = e.format := by rw [hfmt, hformat]
  have hpin : trsPinPosFromWire (fb.toNat / 8 % 16) (fb.toNat.testBit 7)
      = e.blockOffsetBits := by rw [hoff, hunit, hpin]
  have hlen : trsPinPosFromWire (lb.toNat % 16) (lb.toNat.testBit 4)
      = e.lengthOffsetBits := by rw [hloff, hlunit, hlen]
  have hdata : e.apdu.take
      (readBe 2 (writeBe 2 e.apdu.length ++ e.apdu)) = e.apdu := by
    rw [hn, List.take_length]
  refine congrArg some (Eq.trans ?_ (rfl : TrsPinEntry.mk
    e.timeoutInitial e.timeoutDigit e.format e.rightJustify
    e.blockOffsetBits e.blockSizeBytes e.lengthSizeBits
    e.lengthOffsetBits e.minDigits e.maxDigits e.completeOn
    e.numMessages e.languageId e.msgIndex e.teoPrologue e.apdu = e))
  rw [TrsPinEntry.mk.injEq]
  exact ⟨rfl, rfl, hformat, hjust, hpin, hblkB, hsizeB, hlen, rfl, rfl,
    hcomp, rfl, hlang, rfl, hteo.symm, hdata⟩
/-- A card command behind its three bytes reaches the card half of the
decoder. -/
theorem osdpTrsCmdDecode_card {code : UInt8} {body : Bytes}
    (hcode : code = 1 ∨ code = 3 ∨ code = 4) :
    osdpTrsCmdDecode 1 ([1, code, 0] ++ body)
      = (1, trsCardCmdDecode code.toNat (0 :: body)) := by
  have hvalid : trsModeCodeValid 1 code.toNat = true := by
    obtain rfl | rfl | rfl := hcode <;> decide
  show (if body.length + 3 < 2 then _ else
    if (!trsModeCodeValid 1 code.toNat) = true then _ else
    if (1 : Nat) = 0 then _ else if (1 : UInt8) ≠ 1 then _ else _) = _
  rw [if_neg (by omega), if_neg (by rw [hvalid]; decide),
    if_neg (by decide), if_neg (by decide)]
  rfl

/-- A PIN entry that decodes is for the application. -/
theorem trsCardCmdDecode_pin {body : Bytes} {e : TrsPinEntry}
    (h : trsPinDecode body = some e) :
    trsCardCmdDecode 3 (0 :: body) = .toApp (.enterPin e) := by
  simp [trsCardCmdDecode, h]

/-- What a card command's own block decodes to. -/
theorem trsCardCmdDecode_body {c : TrsCmd} {room : Int} {code : UInt8}
    {body : Bytes} (hc : c.Representable) (hcode : trsCmdToWire c = some code)
    (h : trsAppCmdBody room c = some body) :
    (code = 1 ∨ code = 3 ∨ code = 4) ∧
      trsCardCmdDecode code.toNat (0 :: body) = .toApp c := by
  cases c with
  | start => cases hcode
  | stop => cases hcode
  | cardScan =>
    obtain rfl := Option.some.inj hcode
    exact ⟨.inr (.inr rfl), rfl⟩
  | sendApdu apdu =>
    obtain rfl := Option.some.inj hcode
    refine ⟨.inl rfl, ?_⟩
    by_cases hlen : apdu.length > trsApduMaxLen ∨ room < apdu.length
    · rw [trsAppCmdBody, if_pos hlen] at h
      cases h
    · rw [trsAppCmdBody, if_neg hlen] at h
      obtain rfl := Option.some.inj h
      show (if apdu.length > trsApduMaxLen then TrsDecode.refuse
        else .toApp (.sendApdu apdu)) = _
      rw [if_neg (by omega)]
  | enterPin e =>
    obtain rfl := Option.some.inj hcode
    refine ⟨.inr (.inl rfl), ?_⟩
    by_cases hroom : room < 17 ∨ (!osdpTrsPinEntryCheck e) = true
    · rw [trsAppCmdBody, if_pos hroom] at h
      cases h
    · rw [trsAppCmdBody, if_neg hroom] at h
      by_cases hlen : e.apdu.length > trsApduMaxLen ∨
          room - 17 < e.apdu.length
      · rw [if_pos hlen] at h
        cases h
      · rw [if_neg hlen] at h
        obtain ⟨hd, hhd, rfl⟩ := Option.map_eq_some_iff.mp h
        have hcheck : osdpTrsPinEntryCheck e = true := by
          simpa using fun hno => hroom (.inr hno)
        have hdec := trsPinDecode_bytes hc hcheck (by omega) hhd
        exact trsCardCmdDecode_pin hdec

/-- The PD decodes the very command the CP built. -/
theorem osdpTrsCmdDecode_build {c : TrsCmd} {t : OsdpTrs} {maxLen : Int}
    {bytes : Bytes} (hc : c.Representable)
    (h : osdpTrsCmdBuild t (some (.xwr c)) maxLen = some bytes) :
    osdpTrsCmdDecode 1 bytes = (1, .toApp c) := by
  rw [osdpTrsCmdBuild, Option.bind_eq_bind, Option.bind_eq_some_iff] at h
  obtain ⟨code, hcode, h⟩ := h
  by_cases hroom : maxLen < 3
  · rw [if_pos hroom] at h
    cases h
  · rw [if_neg hroom] at h
    obtain ⟨body, hbody, rfl⟩ := Option.map_eq_some_iff.mp h
    obtain ⟨hwire, hdec⟩ := trsCardCmdDecode_body hc hcode hbody
    rw [osdpTrsCmdDecode_card hwire, hdec]

/-- A layout that passes the check has its fifteen bytes. -/
theorem trsPinBytes_isSome {e : TrsPinEntry}
    (h : osdpTrsPinEntryCheck e = true) : (trsPinBytes e).isSome := by
  simp only [osdpTrsPinEntryCheck, Bool.and_eq_true] at h
  obtain ⟨⟨⟨⟨hf, hb⟩, hl⟩, -⟩, -⟩ := h
  obtain ⟨f, hf⟩ := Option.isSome_iff_exists.mp hf
  obtain ⟨⟨po, pu⟩, hb⟩ := Option.isSome_iff_exists.mp hb
  obtain ⟨⟨lo, lu⟩, hl⟩ := Option.isSome_iff_exists.mp hl
  simp [trsPinBytes, hf, hb, hl]

/-- The room a card command may need: its three bytes and the largest
APDU the packet has room for. -/
def trsCmdRoom (p : OsdpPd) : Int := 3 + max 0 (osdpTrsMaxApduLen p)

/-- An APDU that was admitted fits the estimate. -/
theorem sendApdu_admitted {p : OsdpPd} {apdu : Bytes} {isOpen : Bool}
    (h : cpBandAdmit p (.xwr (.sendApdu apdu)) = some isOpen) :
    (apdu.length : Int) ≤ osdpTrsMaxApduLen p := by
  have hcap : (apdu.length : Int) ≤ osdpTrsApduCapacity p false := by
    unfold cpBandAdmit cpApduAdmit at h
    grind
  simpa [osdpTrsApduCapacity] using hcap

/-- One behind a PIN block leaves room for the block, and the block can be
coded. -/
theorem enterPin_admitted {p : OsdpPd} {e : TrsPinEntry} {isOpen : Bool}
    (h : cpBandAdmit p (.xwr (.enterPin e)) = some isOpen) :
    (e.apdu.length : Int) ≤ osdpTrsMaxApduLen p - 19 ∧
      osdpTrsPinEntryCheck e = true := by
  have hadm : (e.apdu.length : Int) ≤ osdpTrsApduCapacity p true ∧
      osdpTrsPinEntryCheck e = true := by
    unfold cpBandAdmit cpApduAdmit at h
    grind
  refine ⟨?_, hadm.2⟩
  simpa [osdpTrsApduCapacity] using hadm.1

/-- What was admitted can be built. -/
theorem osdpTrsCmdBuild_admitted {p : OsdpPd} {c : TrsCmd} {isOpen : Bool}
    {t : OsdpTrs} {maxLen : Int}
    (hband : cpBandAdmit p (.xwr c) = some isOpen)
    (hcard : c ≠ .start ∧ c ≠ .stop) (hroom : trsCmdRoom p ≤ maxLen) :
    (osdpTrsCmdBuild t (some (.xwr c)) maxLen).isSome := by
  have hmax : osdpTrsMaxApduLen p ≤ trsApduMaxLen := min_le_right _ _
  unfold trsCmdRoom at hroom
  have hthree : ¬ maxLen < 3 := by omega
  cases c with
  | start => exact absurd rfl hcard.1
  | stop => exact absurd rfl hcard.2
  | cardScan =>
    show (if maxLen < 3 then none else some _).isSome = true
    rw [if_neg hthree]
    rfl
  | sendApdu apdu =>
    have hcap := sendApdu_admitted hband
    have hfit : ¬ (apdu.length > trsApduMaxLen ∨
        maxLen - 3 < apdu.length) := by
      omega
    show (if maxLen < 3 then none
      else (if apdu.length > trsApduMaxLen ∨ maxLen - 3 < apdu.length then none
        else some apdu).map _).isSome = true
    rw [if_neg hthree, if_neg hfit]
    rfl
  | enterPin e =>
    obtain ⟨hcap, hcheck⟩ := enterPin_admitted hband
    obtain ⟨hd, hhd⟩ := Option.isSome_iff_exists.mp
      (trsPinBytes_isSome hcheck)
    have hsmall : ¬ (maxLen - 3 < 17 ∨
        (!osdpTrsPinEntryCheck e) = true) := by
      rw [hcheck]
      simp
      omega
    have hfit : ¬ (e.apdu.length > trsApduMaxLen ∨
        maxLen - 3 - 17 < e.apdu.length) := by
      omega
    show (if maxLen < 3 then none
      else (trsAppCmdBody (maxLen - 3) (.enterPin e)).map _).isSome = true
    rw [if_neg hthree, trsAppCmdBody, if_neg hsmall, if_neg hfit, hhd]
    rfl

-- ============================================================== replies

/-- What `osdp_trs_reply_decode` fills `*event` with when it accepts the
reply, whether or not it then asks for the event to be dispatched.  A
mode report fills in nothing. -/
def trsReplyEvent (buf : Bytes) : Option TrsReply :=
  if buf.length < 2 then none
  else
    let data := buf.drop 2
    match (byteAt buf 0).toNat, (byteAt buf 1).toNat with
    | 0, 2 =>
      let csnLen := (byteAt data 2).toNat
      let protLen := (byteAt data 3).toNat
      if data.length < 4 ∨ 1 < (byteAt data 1).toNat then none
      else if csnLen > 32 ∨ protLen > 64 ∨
          data.length < 4 + csnLen + protLen then none
      else
        some (.cardInfo (byteAt data 0) (byteAt data 1 == 1)
          (byteAt data 2) ((data.drop 4).take csnLen) (byteAt data 3)
          ((data.drop (4 + csnLen)).take protLen))
    | 1, 1 =>
      if data.length < 1 then none
      else if data.length < 2 then some (.cardPresent (byteAt data 0) .present)
      else
        (trsCardStatusFromWire (byteAt data 1)).map
          (.cardPresent (byteAt data 0))
    | 0, 0 | 1, 0 =>
      if data.length < 1 then none else some (.error (byteAt data 0))
    | 1, 2 =>
      let n := data.length - 2
      if data.length < 2 ∨ n > trsApduMaxLen then none
      else
        some (.cardData (byteAt data 0) (byteAt data 1) n (data.drop 2))
    | 1, 3 =>
      if data.length < 3 then none
      else
        some (.pinComplete (byteAt data 0) (byteAt data 1) (byteAt data 2))
    | _, _ => none

/-- What becomes of an event once it is filled in: an error fails its
command, and a sighting that only repeats the last answer to the scan's
question is not news. -/
def trsReplyVerdict (t : OsdpTrs) (r : TrsReply) : TrsReplyAction :=
  match r with
  | .error _ => .dispatchError r
  | .cardPresent _ status =>
    if t.scan.asking ∧ t.scan.lastStatus = status then .quiet
    else .dispatch r
  | _ => .dispatch r

/-- A sighting is dispatched unless it is no news. -/
theorem trsCardPresent_verdict (now : Int) (reader : UInt8)
    (status : TrsCardStatus) (t : OsdpTrs) :
    (trsCardPresent now reader status t).2
      = trsReplyVerdict t (.cardPresent reader status) := by
  unfold trsCardPresent trsScanPresenceIsNews trsScanNoteAnswered
    trsReplyVerdict
  cases hask : t.scan.asking
  · simp [hask]
  · by_cases hsame : t.scan.lastStatus = status
    · simp [hask, hsame]
    · simp [hask, hsame]

/-- The event the decoder fills in is the one its action is about. -/
theorem osdpTrsReplyDecode_event {buf : Bytes} {r : TrsReply}
    (now : Int) (t : OsdpTrs) (h : trsReplyEvent buf = some r) :
    (osdpTrsReplyDecode now buf t).2 = trsReplyVerdict t r := by
  unfold trsReplyEvent at h
  unfold osdpTrsReplyDecode
  grind [trsCardInfo, trsCardSighting, trsCardData, trsReplyVerdict,
    trsCardPresent_verdict]

/-- The lengths of a reply are within what its C structure declares. -/
def TrsReply.WithinMaxima : TrsReply → Prop
  | .cardInfo _ _ csnLen _ protocolDataLen _ =>
    csnLen.toNat ≤ 32 ∧ protocolDataLen.toNat ≤ 64
  | .cardData _ _ apduLength _ => apduLength ≤ trsApduMaxLen
  | _ => True

/-- A reply without what its arrays hold past their named lengths. -/
def TrsReply.named : TrsReply → TrsReply
  | .cardInfo reader contactless csnLen csn pLen pData =>
    .cardInfo reader contactless csnLen (fieldBytes csn csnLen.toNat) pLen
      (fieldBytes pData pLen.toNat)
  | .cardData reader status n apdu =>
    .cardData reader status n (fieldBytes apdu n)
  | r => r

/-- The status byte is read back. -/
theorem trsCardStatus_wire {status : TrsCardStatus} {w : UInt8}
    (h : trsCardStatusToWire status = some w) :
    trsCardStatusFromWire w = some status := by
  cases status <;> cases h <;> rfl

/-- A card report is read back. -/
theorem trsReplyEvent_cardInfo (reader csnLen pLen : UInt8)
    (contactless : Bool) (csn pData : Bytes)
    (hcsn : csn.length = csnLen.toNat) (hp : pData.length = pLen.toNat)
    (hmax : csnLen.toNat ≤ 32 ∧ pLen.toNat ≤ 64) :
    trsReplyEvent ([0, 2] ++ ([reader, if contactless then 1 else 0,
      csnLen, pLen] ++ csn ++ pData))
      = some (.cardInfo reader contactless csnLen csn pLen pData) := by
  have hproto : (if contactless then (1 : UInt8) else 0).toNat ≤ 1 := by
    cases contactless <;> decide
  have hback : ((if contactless then (1 : UInt8) else 0) == 1)
      = contactless := by
    cases contactless <;> decide
  have hlen : (csn ++ pData).length = csnLen.toNat + pLen.toNat := by
    rw [List.length_append, hcsn, hp]
  have hfirst : (csn ++ pData).take csnLen.toNat = csn :=
    List.take_left' hcsn
  have hsecond (x : UInt8) :
      (reader :: x :: csnLen :: pLen :: (csn ++ pData)).drop
        (4 + csnLen.toNat) = pData := by
    rw [Nat.add_comm]
    exact List.drop_left' hcsn
  have hlast : pData.take pLen.toNat = pData :=
    List.take_of_length_le (by omega)
  generalize (if contactless then (1 : UInt8) else 0) = proto at hproto hback
  show (if (csn ++ pData).length + 4 < 4 ∨ 1 < proto.toNat then none
    else if csnLen.toNat > 32 ∨ pLen.toNat > 64 ∨
      (csn ++ pData).length + 4 < 4 + csnLen.toNat + pLen.toNat then none
    else some (TrsReply.cardInfo reader (proto == 1) csnLen
      ((csn ++ pData).take csnLen.toNat) pLen
      (((reader :: proto :: csnLen :: pLen :: (csn ++ pData)).drop
        (4 + csnLen.toNat)).take pLen.toNat))) = _
  rw [if_neg (by omega), if_neg (by omega), hback, hfirst, hsecond, hlast]

/-- An R-APDU is read back. -/
theorem trsReplyEvent_cardData (reader status : UInt8) (apdu : Bytes)
    (hlen : apdu.length ≤ trsApduMaxLen) :
    trsReplyEvent ([1, 2] ++ ([reader, status] ++ apdu))
      = some (.cardData reader status apdu.length apdu) := by
  show (if apdu.length + 2 < 2 ∨ apdu.length > trsApduMaxLen then none
    else some (TrsReply.cardData reader status apdu.length apdu)) = _
  rw [if_neg (by omega)]

/-- A sighting is read back. -/
theorem trsReplyEvent_cardPresent (reader : UInt8) {status : TrsCardStatus}
    {w : UInt8} (hw : trsCardStatusToWire status = some w) :
    trsReplyEvent ([1, 1] ++ [reader, w])
      = some (.cardPresent reader status) := by
  show (trsCardStatusFromWire w).map (TrsReply.cardPresent reader) = _
  rw [trsCardStatus_wire hw]
  rfl

/-- The CP reads back the very reply the PD built. -/
theorem trsReplyEvent_build {r : TrsReply} {mode : UInt8} {maxLen : Int}
    {bytes : Bytes} (hr : r.WithinMaxima)
    (h : osdpTrsReplyBuild mode (some (.trs r)) maxLen = some bytes) :
    trsReplyEvent bytes = some r.named := by
  unfold osdpTrsReplyBuild at h
  cases hb : trsReplyBody r with
  | none => simp [hb] at h
  | some x =>
    obtain ⟨hd, body⟩ := x
    simp only [hb] at h
    by_cases hroom : maxLen < 2 ∨ maxLen - 2 < body.length
    · rw [if_pos hroom] at h
      cases h
    · rw [if_neg hroom] at h
      obtain rfl := Option.some.inj h
      cases r with
      | cardInfo reader contactless csnLen csn pLen pData =>
        have hc : min csnLen.toNat 32 = csnLen.toNat := min_eq_left hr.1
        have hp : min pLen.toNat 64 = pLen.toNat := min_eq_left hr.2
        simp only [trsReplyBody, hc, hp, UInt8.ofNat_toNat, Option.some.injEq,
          Prod.mk.injEq] at hb
        obtain ⟨rfl, rfl⟩ := hb
        exact trsReplyEvent_cardInfo reader csnLen pLen contactless _ _
          (length_fieldBytes _ _) (length_fieldBytes _ _) hr
      | cardPresent reader status =>
        obtain ⟨w, hw, he⟩ := Option.map_eq_some_iff.mp hb
        obtain ⟨rfl, rfl⟩ := Prod.mk.inj he
        exact trsReplyEvent_cardPresent reader hw
      | cardData reader status n apdu =>
        rw [trsReplyBody, if_neg (Nat.not_lt.mpr hr)] at hb
        obtain ⟨rfl, rfl⟩ := Prod.mk.inj (Option.some.inj hb)
        have hn : (fieldBytes apdu n).length = n := length_fieldBytes apdu n
        have hrec := trsReplyEvent_cardData reader status
          (fieldBytes apdu n) (by rw [hn]; exact hr)
        rw [hn] at hrec
        exact hrec
      | pinComplete reader status tries =>
        obtain ⟨rfl, rfl⟩ := Prod.mk.inj (Option.some.inj hb)
        rfl
      | error code =>
        obtain ⟨rfl, rfl⟩ := Prod.mk.inj (Option.some.inj hb)
        rfl

-- =========================================================== round trip

/-- Card commands and card replies survive the wire: an admitted command
can be built where the packet has the room admission counts on, and
whatever is built of it a PD in mode 01 decodes to the very command; a
reply whose lengths are within their maxima is read back, and dispatched
as such unless it is no news. -/
theorem trs_codec_roundtrip :
    (∀ (p : OsdpPd) (c : TrsCmd) (isOpen : Bool) (t : OsdpTrs)
      (maxLen : Int), c.Representable → c ≠ .start → c ≠ .stop →
      cpBandAdmit p (.xwr c) = some isOpen →
      (trsCmdRoom p ≤ maxLen →
        (osdpTrsCmdBuild t (some (.xwr c)) maxLen).isSome) ∧
      ∀ bytes, osdpTrsCmdBuild t (some (.xwr c)) maxLen = some bytes →
        osdpTrsCmdDecode 1 bytes = (1, .toApp c)) ∧
    ∀ (r : TrsReply) (mode : UInt8) (maxLen : Int) (bytes : Bytes)
      (now : Int) (t : OsdpTrs), r.WithinMaxima →
      osdpTrsReplyBuild mode (some (.trs r)) maxLen = some bytes →
      trsReplyEvent bytes = some r.named ∧
      (osdpTrsReplyDecode now bytes t).2 = trsReplyVerdict t r.named := by
  constructor
  · intro p c isOpen t maxLen hc hstart hstop hband
    constructor
    · intro hroom
      exact osdpTrsCmdBuild_admitted hband ⟨hstart, hstop⟩ hroom
    · intro bytes hbuild
      exact osdpTrsCmdDecode_build hc hbuild
  · intro r mode maxLen bytes now t hr hbuild
    have hevent := trsReplyEvent_build hr hbuild
    exact ⟨hevent, osdpTrsReplyDecode_event now t hevent⟩

/-- A PIN entry with an offset in bits and one in bytes. -/
def samplePinEntry : TrsPinEntry where
  timeoutInitial := 30
  timeoutDigit := 10
  format := 2
  rightJustify := true
  blockOffsetBits := 40
  blockSizeBytes := 8
  lengthSizeBits := 4
  lengthOffsetBits := 13
  minDigits := 4
  maxDigits := 12
  completeOn := 6
  numMessages := 1
  languageId := 0x0409
  msgIndex := 2
  teoPrologue := [1, 2, 3]
  apdu := [0x00, 0x20, 0x00, 0x80]

/-- A session in which the scan is off. -/
abbrev openBand : OsdpPd := { trs := { bandOpen := true } }

/-- A PIN entry and a card report, there and back. -/
theorem trs_codec_roundtrip_pin :
    (∃ bytes, osdpTrsCmdBuild {} (some (.xwr (.enterPin samplePinEntry))) 200
        = some bytes ∧
      osdpTrsCmdDecode 1 bytes = (1, .toApp (.enterPin samplePinEntry))) ∧
    ∃ bytes, osdpTrsReplyBuild 1
        (some (.trs (.cardInfo 0 true 2 [7, 8, 9] 1 [0x3B]))) 200
          = some bytes ∧
      trsReplyEvent bytes = some (.cardInfo 0 true 2 [7, 8] 1 [0x3B]) := by
  refine ⟨⟨_, rfl, ?_⟩, _, rfl, ?_⟩
  · exact (trs_codec_roundtrip.1 openBand (.enterPin samplePinEntry) true {}
      200 ⟨rfl, by decide⟩ (by decide) (by decide) rfl).2 _ rfl
  · exact (trs_codec_roundtrip.2 (.cardInfo 0 true 2 [7, 8, 9] 1 [0x3B]) 1
      200 _ 0 {} ⟨by decide, by decide⟩ rfl).1

end LibOsdp
