/-
Transparent card mode on the CP (osdp_trs.c): the commands of a session,
the replies to them, the session's own steps, and the presence scan that
opens sessions nobody asked for.

# Sessions

A session is a nested state machine, `TrsState`, inside the two protocol
states TRS_SETUP and TRS_RUN.  Its library-driven steps are serialised
from that state; everything else the application queued between a START
and its STOP.

# The scan

A probe is a session with no band behind it.  It enters mode 1, asks once
whether a card is there, polls for a while, and restores mode 0.  The
functions here are pure in `OsdpTrs`; the clock is an argument.
-/
import LibOsdp.Engine.TrsPd

namespace LibOsdp

open Lib

abbrev trsMode00 : UInt8 := 0
abbrev trsMode01 : UInt8 := 1
abbrev trsScanMode0DwellMs : Int := 200
abbrev trsScanMode1DwellMs : Int := 200
abbrev trsScanHoldMs : Int := 500
abbrev trsScanBackoffMaxMs : Int := 5000

-- ============================================================= commands

/-- `trs_pin_format_to_wire`. -/
def trsPinFormatToWire (format : Nat) : Option Nat :=
  match format with
  | 1 => some 0
  | 2 => some 1
  | 3 => some 2
  | _ => none

/-- `trs_pin_pos_to_wire`: the four-bit offset and whether its unit is
bytes. -/
def trsPinPosToWire (posBits : Nat) : Option (Nat × Bool) :=
  if posBits % 8 = 0 ∧ posBits / 8 ≤ 15 then some (posBits / 8, true)
  else if posBits ≤ 15 then some (posBits, false)
  else none

/-- `osdp_trs_pin_entry_check`: the wire can carry this layout. -/
def osdpTrsPinEntryCheck (e : TrsPinEntry) : Bool :=
  (trsPinFormatToWire e.format).isSome &&
    (trsPinPosToWire e.blockOffsetBits).isSome &&
    (trsPinPosToWire e.lengthOffsetBits).isSome &&
    decide (e.lengthSizeBits ≤ 0x0f) && decide (e.blockSizeBytes ≤ 0x0f)

/-- The bits of a flag byte. -/
def bitIf (b : Bool) (v : Nat) : Nat := if b then v else 0

/-- The fifteen bytes of a CMD_ENTER_PIN block in front of its APDU. -/
def trsPinBytes (e : TrsPinEntry) : Option Bytes := do
  let format ← trsPinFormatToWire e.format
  let (pinOff, pinUnit) ← trsPinPosToWire e.blockOffsetBits
  let (lenOff, lenUnit) ← trsPinPosToWire e.lengthOffsetBits
  return [e.timeoutInitial, e.timeoutDigit,
      UInt8.ofNat (format + bitIf e.rightJustify 4 + pinOff * 8 +
        bitIf pinUnit 128),
      UInt8.ofNat (e.lengthSizeBits.toNat * 16 + e.blockSizeBytes.toNat),
      UInt8.ofNat (lenOff + bitIf lenUnit 16),
      e.minDigits, e.maxDigits, UInt8.ofNat (e.completeOn % 8),
      e.numMessages] ++ writeBe 2 e.languageId.toNat ++
    [e.msgIndex] ++ fieldBytes e.teoPrologue 3

/-- `trs_local_cmd_build`: a step of the session, or the scan's
question. -/
def trsLocalCmdBuild (t : OsdpTrs) (maxLen : Int) : Option Bytes :=
  if t.state = .xmit ∧ t.scan.asking then
    if maxLen < 3 then none else some [1, 4, 0]
  else
    match t.state with
    | .setMode => if maxLen < 4 then none else some [0, 2, trsMode01, 0]
    | .teardown => if maxLen < 4 then none else some [0, 2, trsMode00, 0]
    | .disconnectCard => if maxLen < 3 then none else some [1, 2, 0]
    | _ => none

/-- A card command of the application's, past the three bytes every one
begins with; `room` is what is left. -/
def trsAppCmdBody (room : Int) : TrsCmd → Option Bytes
  | .sendApdu apdu =>
    if apdu.length > trsApduMaxLen ∨ room < apdu.length then none
    else some apdu
  | .enterPin e =>
    if room < 17 ∨ !osdpTrsPinEntryCheck e then none
    else if e.apdu.length > trsApduMaxLen ∨ room - 17 < e.apdu.length then
      none
    else (trsPinBytes e).map (· ++ writeBe 2 e.apdu.length ++ e.apdu)
  | .cardScan => some []
  | _ => none

/-- `trs_cmd_to_wire`, the code under mode 1. -/
def trsCmdToWire : TrsCmd → Option UInt8
  | .sendApdu _ => some 1
  | .enterPin _ => some 3
  | .cardScan => some 4
  | _ => none

/-- `osdp_trs_cmd_build`: the data block of CMD_XWR. -/
def osdpTrsCmdBuild (t : OsdpTrs) (cmd : Option OsdpCmd) (maxLen : Int) :
    Option Bytes :=
  match cmd with
  | none => trsLocalCmdBuild t maxLen
  | some (.xwr c) => do
    let code ← trsCmdToWire c
    if maxLen < 3 then none
    else (trsAppCmdBody (maxLen - 3) c).map ([1, code, 0] ++ ·)
  | some _ => none

/-- `osdp_trs_max_apdu_len`. -/
def osdpTrsMaxApduLen (p : OsdpPd) : Int :=
  min ((getTxBufSize p : Int) - 40) trsApduMaxLen

/-- `osdp_trs_apdu_capacity`, of a PIN entry or of a plain APDU. -/
def osdpTrsApduCapacity (p : OsdpPd) (isPin : Bool) : Int :=
  osdpTrsMaxApduLen p - if isPin then 19 else 0

-- ============================================================== replies

/-- `osdp_trs_scan_note_activity`. -/
def osdpTrsScanNoteActivity (now : Int) (t : OsdpTrs) : OsdpTrs :=
  if t.scan.enabled && !t.probe then
    { t with scan := { t.scan with tstamp := now } }
  else t

/-- `trs_scan_note_card`. -/
def trsScanNoteCard (now : Int) (present : Bool) (t : OsdpTrs) : OsdpTrs :=
  if !t.scan.enabled then t
  else if !t.probe then osdpTrsScanNoteActivity now t
  else if !present then { t with scan := { t.scan with holding := false } }
  else
    { t with
      scan :=
        { t.scan with
          holdTstamp := if t.scan.holding then t.scan.holdTstamp else now
          holding := true
          backoffMs := 0 } }

/-- `trs_scan_presence_is_news`, and what it leaves behind. -/
def trsScanPresenceIsNews (status : TrsCardStatus) (t : OsdpTrs) :
    OsdpTrs × Bool :=
  if !t.scan.asking then (t, true)
  else if t.scan.lastStatus = status then (t, false)
  else ({ t with scan := { t.scan with lastStatus := status } }, true)

/-- `trs_scan_note_answered`. -/
def trsScanNoteAnswered (t : OsdpTrs) : OsdpTrs :=
  if t.scan.asking then { t with scan := { t.scan with support := .yes } }
  else t

/-- `trs_card_status_from_wire`. -/
def trsCardStatusFromWire (wire : UInt8) : Option TrsCardStatus :=
  match wire.toNat with
  | 0 => some .notPresent
  | 1 => some .present
  | 2 => some .presentContactless
  | 3 => some .presentContact
  | _ => none

/-- What a REPLY_XRD came to: `enum osdp_trs_reply_action_e`, with the
event where there is one for the application. -/
inductive TrsReplyAction where
  | malformed
  | quiet
  | dispatch (r : TrsReply)
  | dispatchError (r : TrsReply)
  deriving DecidableEq, Repr

/-- A card sighting, decoded. -/
def trsCardPresent (now : Int) (reader : UInt8) (status : TrsCardStatus)
    (t : OsdpTrs) : OsdpTrs × TrsReplyAction :=
  let (u, news) := trsScanPresenceIsNews status (trsScanNoteAnswered t)
  (trsScanNoteCard now (status ≠ .notPresent) u,
    if news then .dispatch (.cardPresent reader status) else .quiet)

/-- REPLY_CARD_INFO_REPORT, its data block. -/
def trsCardInfo (now : Int) (data : Bytes) (t : OsdpTrs) :
    OsdpTrs × TrsReplyAction :=
  let csnLen := (byteAt data 2).toNat
  let protLen := (byteAt data 3).toNat
  if data.length < 4 ∨ 1 < (byteAt data 1).toNat then (t, .malformed)
  else if csnLen > 32 ∨ protLen > 64 ∨ data.length < 4 + csnLen + protLen then
    (t, .malformed)
  else
    (trsScanNoteCard now true t,
      .dispatch (.cardInfo (byteAt data 0) (byteAt data 1 == 1)
        (byteAt data 2) ((data.drop 4).take csnLen) (byteAt data 3)
        ((data.drop (4 + csnLen)).take protLen)))

/-- REPLY_CARD_PRESENT, its data block; the status byte is optional. -/
def trsCardSighting (now : Int) (data : Bytes) (t : OsdpTrs) :
    OsdpTrs × TrsReplyAction :=
  if data.length < 1 then (t, .malformed)
  else if data.length < 2 then trsCardPresent now (byteAt data 0) .present t
  else
    match trsCardStatusFromWire (byteAt data 1) with
    | none => (t, .malformed)
    | some st => trsCardPresent now (byteAt data 0) st t

/-- REPLY_CARD_DATA, its data block. -/
def trsCardData (data : Bytes) : TrsReplyAction :=
  let n := data.length - 2
  if data.length < 2 ∨ n > trsApduMaxLen then .malformed
  else .dispatch (.cardData (byteAt data 0) (byteAt data 1) n (data.drop 2))

/-- `osdp_trs_reply_decode`. -/
def osdpTrsReplyDecode (now : Int) (buf : Bytes) (t : OsdpTrs) :
    OsdpTrs × TrsReplyAction :=
  if buf.length < 2 then (t, .malformed)
  else
    let data := buf.drop 2
    match (byteAt buf 0).toNat, (byteAt buf 1).toNat with
    | 0, 1 =>
      if data.length < 1 then (t, .malformed)
      else ({ t with mode := byteAt data 0 }, .quiet)
    | 0, 2 => trsCardInfo now data t
    | 1, 1 => trsCardSighting now data t
    | 0, 0 | 1, 0 =>
      if data.length < 1 then (t, .malformed)
      else (t, .dispatchError (.error (byteAt data 0)))
    | 1, 2 => (t, trsCardData data)
    | 1, 3 =>
      if data.length < 3 then (t, .malformed)
      else
        (t, .dispatch
          (.pinComplete (byteAt data 0) (byteAt data 1) (byteAt data 2)))
    | _, _ => (t, .malformed)

-- ========================================================= the session

/-- `osdp_trs_state_update`: the session after a command that went well,
and the protocol state that comes next. -/
def osdpTrsStateUpdate (replyId : Nat) (t : OsdpTrs) : OsdpTrs × CpState :=
  match t.state with
  | .setMode =>
    let mode := if replyId = replyAck then trsMode01 else t.mode
    if mode ≠ trsMode01 then
      ({ t with mode := mode, state := .done, failed := true }, .online)
    else ({ t with mode := mode, state := .xmit }, .trsRun)
  | .xmit => ({ t with scan := { t.scan with asking := false } }, .trsRun)
  | .disconnectCard => ({ t with state := .teardown }, .trsRun)
  | .teardown => ({ t with state := .done }, .online)
  | .done => (t, .online)

/-- `trs_scan_note_refused`: whether the reader turned the question down,
and what that leaves. -/
def trsScanNoteRefused (replyId : Nat) (t : OsdpTrs) : OsdpTrs × Bool :=
  if !t.scan.asking then (t, false)
  else
    let u := { t with scan := { t.scan with asking := false } }
    if replyId ≠ replyNak ∧ replyId ≠ replyXrd ∧ replyId ≠ replyAck then
      (u, false)
    else
      ({ u with scan := { u.scan with support := .no, declined := true } },
        true)

/-- `osdp_trs_state_update_err`. -/
def osdpTrsStateUpdateErr (replyId : Nat) (t : OsdpTrs) :
    OsdpTrs × CpState :=
  let (u, refused) := trsScanNoteRefused replyId t
  if refused then (u, .trsRun)
  else
    match u.state with
    | .setMode | .xmit | .disconnectCard =>
      ({ u with failed := true, state := .teardown }, .trsRun)
    | _ => ({ u with failed := true, state := .done }, .online)

-- ============================================================= the scan

/-- `osdp_trs_scan_probe_due`. -/
def osdpTrsScanProbeDue (now : Int) (p : OsdpPd) : Bool :=
  let t := p.trs
  t.scan.enabled && p.flags.trsCapable && !t.bandOpen &&
    decide (now - t.scan.tstamp > max t.scan.mode0DwellMs t.scan.backoffMs)

/-- `osdp_trs_probe_expired`. -/
def osdpTrsProbeExpired (now : Int) (t : OsdpTrs) : Bool :=
  if !t.scan.enabled then true
  else if t.scan.holding then
    decide (now - t.scan.holdTstamp > t.scan.holdMs)
  else decide (now - t.scan.probeTstamp > t.scan.mode1DwellMs)

/-- `osdp_trs_scan_ask_due`. -/
def osdpTrsScanAskDue (now : Int) (t : OsdpTrs) : Bool :=
  if !t.scan.enabled || !t.probe || t.scan.asking || t.scan.support == .no then
    false
  else if !t.scan.asked then true
  else decide (now - t.scan.askTstamp > t.scan.mode1DwellMs)

/-- `osdp_trs_scan_note_ask`. -/
def osdpTrsScanNoteAsk (now : Int) (t : OsdpTrs) : OsdpTrs :=
  { t with
    scan := { t.scan with asking := true, asked := true, askTstamp := now } }

/-- `trs_scan_forget_ask`. -/
def trsScanForgetAsk (t : OsdpTrs) : OsdpTrs :=
  { t with scan := { t.scan with asking := false, asked := false } }

/-- `osdp_trs_probe_note_open`. -/
def osdpTrsProbeNoteOpen (t : OsdpTrs) : OsdpTrs :=
  trsScanForgetAsk
    { t with
      probe := true, stopPending := false
      scan := { t.scan with holding := false } }

/-- `osdp_trs_probe_note_run`. -/
def osdpTrsProbeNoteRun (now : Int) (t : OsdpTrs) : OsdpTrs :=
  { t with scan := { t.scan with probeTstamp := now } }

/-- `osdp_trs_probe_adopted`. -/
def osdpTrsProbeAdopted (t : OsdpTrs) : OsdpTrs :=
  trsScanForgetAsk
    { t with
      probe := false, stopPending := true
      scan := { t.scan with holding := false } }

/-- `osdp_trs_probe_close`: true when the reader refused the probe. -/
def osdpTrsProbeClose (now : Int) (t : OsdpTrs) : OsdpTrs × Bool :=
  let u := trsScanForgetAsk
    { t with
      probe := false
      scan := { t.scan with holding := false, tstamp := now } }
  if !u.failed then
    ({ u with scan := { u.scan with backoffMs := 0 } }, false)
  else
    let base := if u.scan.backoffMs = 0 then u.scan.mode0DwellMs
      else u.scan.backoffMs
    ({ u with
      scan := { u.scan with backoffMs := min (base * 2) trsScanBackoffMaxMs } },
      true)

/-- `osdp_trs_probe_reset`. -/
def osdpTrsProbeReset (now : Int) (t : OsdpTrs) : OsdpTrs :=
  trsScanForgetAsk
    { t with
      probe := false
      scan :=
        { t.scan with
          holding := false, tstamp := now, support := .unknown
          lastStatus := .unknown } }

end LibOsdp
