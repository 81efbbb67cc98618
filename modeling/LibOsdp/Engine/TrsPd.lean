/-
Transparent card mode on the PD (the second half of osdp_trs.c): decoding
CMD_XWR and building REPLY_XRD.

Mode setting is the library's own business; everything in mode 1 but the
terminate command goes to the application.
-/
import LibOsdp.Engine.Multipart

namespace LibOsdp

open Lib

abbrev trsApduMaxLen : Nat := 258

/-- What `osdp_trs_cmd_decode` asks its caller to do. -/
inductive TrsDecode where
  | refuse
  | ack
  | modeReport
  | toApp (cmd : TrsCmd)
  deriving DecidableEq, Repr

/-- `trs_mode_code_valid`. -/
def trsModeCodeValid (mode code : Nat) : Bool :=
  !(code == 0 || (mode != 0 && mode != 1) || (mode == 0 && decide (code > 2))
    || (mode == 1 && decide (code > 4)))

/-- `trs_pin_pos_from_wire`. -/
def trsPinPosFromWire (offset : Nat) (unitBytes : Bool) : Nat :=
  offset * if unitBytes then 8 else 1

/-- The CMD_ENTER_PIN block, reader byte consumed. -/
def trsPinDecode (buf : Bytes) : Option TrsPinEntry :=
  if buf.length < 17 then none
  else
    let fmt := (byteAt buf 2).toNat
    let blk := (byteAt buf 3).toNat
    let len := (byteAt buf 4).toNat
    let apduLength := readBe 2 (buf.drop 15)
    if fmt % 4 = 3 then none
    else if apduLength > trsApduMaxLen ∨ apduLength > buf.length - 17 then none
    else some
      { timeoutInitial := byteAt buf 0
        timeoutDigit := byteAt buf 1
        format := fmt % 4 + 1
        rightJustify := fmt.testBit 2
        blockOffsetBits := trsPinPosFromWire (fmt / 8 % 16) (fmt.testBit 7)
        blockSizeBytes := UInt8.ofNat (blk % 16)
        lengthSizeBits := UInt8.ofNat (blk / 16 % 16)
        lengthOffsetBits := trsPinPosFromWire (len % 16) (len.testBit 4)
        minDigits := byteAt buf 5
        maxDigits := byteAt buf 6
        completeOn := (byteAt buf 7).toNat % 8
        numMessages := byteAt buf 8
        languageId := UInt16.ofNat (readBe 2 (buf.drop 9))
        msgIndex := byteAt buf 11
        teoPrologue := (buf.drop 12).take 3
        apdu := (buf.drop 17).take apduLength }

/-- The mode-1 half of `osdp_trs_cmd_decode`, past mode and code. -/
def trsCardCmdDecode (code : Nat) (buf : Bytes) : TrsDecode :=
  if code = 2 then .ack
  else if buf.length < 1 then .refuse
  else
    let body := buf.drop 1
    match code with
    | 1 => if body.length > trsApduMaxLen then .refuse else .toApp (.sendApdu body)
    | 3 => match trsPinDecode body with
      | some e => .toApp (.enterPin e)
      | none => .refuse
    | 4 => .toApp .cardScan
    | _ => .refuse

/-- `osdp_trs_cmd_decode`: the mode afterwards and the action. -/
def osdpTrsCmdDecode (trsMode : UInt8) (buf : Bytes) : UInt8 × TrsDecode :=
  if buf.length < 2 then (trsMode, .refuse)
  else
    let mode := (byteAt buf 0).toNat
    let code := (byteAt buf 1).toNat
    if !trsModeCodeValid mode code then (trsMode, .refuse)
    else if mode = 0 then
      if code = 2 then
        if buf.length < 3 then (trsMode, .refuse)
        else
          let newMode := byteAt buf 2
          if newMode ≠ 0 ∧ newMode ≠ 1 then (trsMode, .refuse)
          else (newMode, .ack)
      else (trsMode, .modeReport)
    else if trsMode ≠ 1 then (trsMode, .refuse)
    else (trsMode, trsCardCmdDecode code (buf.drop 2))

/-- `trs_card_status_to_wire`. -/
def trsCardStatusToWire : TrsCardStatus → Option UInt8
  | .notPresent => some 0
  | .present => some 1
  | .presentContactless => some 2
  | .presentContact => some 3
  | .unknown => none

/-- The mode and code bytes of a TRS reply (`trs_reply_to_wire`) and what
follows them, before the space for it is compared. -/
def trsReplyBody : TrsReply → Option (Bytes × Bytes)
  | .cardInfo reader contactless csnLen csn pLen pData =>
    let c := min csnLen.toNat 32
    let d := min pLen.toNat 64
    some ([0, 2],
      [reader, if contactless then 1 else 0, UInt8.ofNat c, UInt8.ofNat d] ++
        fieldBytes csn c ++ fieldBytes pData d)
  | .cardPresent reader status =>
    (trsCardStatusToWire status).map fun w => ([1, 1], [reader, w])
  | .error code => some ([1, 0], [code])
  | .cardData reader status n apdu =>
    if n > trsApduMaxLen then none
    else some ([1, 2], [reader, status] ++ fieldBytes apdu n)
  | .pinComplete reader status tries => some ([1, 3], [reader, status, tries])

/-- `osdp_trs_reply_build`: the data block of REPLY_XRD. -/
def osdpTrsReplyBuild (trsMode : UInt8) (event : Option OsdpEvent)
    (maxLen : Int) : Option Bytes :=
  match event with
  | some (.trs reply) =>
    match trsReplyBody reply with
    | none => none
    | some (hd, body) =>
      if maxLen < 2 ∨ maxLen - 2 < body.length then none else some (hd ++ body)
  | _ => if maxLen < 4 then none else some [0, 1, trsMode, 0]

end LibOsdp
