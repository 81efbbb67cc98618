/-
The application-facing data of osdp.h: what an app submits, what the
library hands back, and what each side is told along the way.

A C `union` discriminated by an id is an inductive type with one
constructor per member, so a command whose id and payload disagree cannot
be written down.  The id itself is a number the app may set to anything:
`unlisted` stands for the values the enumeration does not name.  Codes that arrive as a byte off the wire and are only
range-checked afterwards (control codes, colours, biometric types) stay
bytes: the check is part of the program, not of the type.

A variable-length payload keeps both the length field and the bytes, as
the C structure does; the two are allowed to disagree, and the encoders
decide what then happens.
-/
import LibOsdp.Common.Ids

namespace LibOsdp

abbrev Bytes : Type := List UInt8

-- ============================================================ commands

/-- `enum osdp_status_report_type`. -/
inductive StatusType where
  | input | output | local | reader
  | unlisted (code : UInt32)
  deriving DecidableEq, Repr

/-- `struct osdp_status_report`. -/
structure StatusReport where
  type : StatusType
  nrEntries : Int := 0
  report : Bytes := []
  deriving DecidableEq, Repr

/-- `struct osdp_cmd_led_params`; `timerCount` is read for the temporary
half only. -/
structure LedParams where
  controlCode : UInt8
  onCount : UInt8
  offCount : UInt8
  onColor : UInt8
  offColor : UInt8
  timerCount : UInt16 := 0
  deriving DecidableEq, Repr

/-- `struct osdp_cmd_biomatch`; `struct osdp_cmd_bioread` is its first
four fields. -/
structure BioArgs where
  reader : UInt8
  type : UInt8
  format : UInt8
  quality : UInt8
  length : UInt16 := 0
  data : Bytes := []
  deriving DecidableEq, Repr

/-- `struct osdp_cmd_pivdata`. -/
structure PivRequest where
  oid : Bytes
  element : UInt8
  offset : UInt8
  deriving DecidableEq, Repr

/-- `struct osdp_cmd_auth`. -/
structure AuthArgs where
  algorithm : UInt8
  key : UInt8
  length : UInt16
  data : Bytes
  deriving DecidableEq, Repr

/-- `struct osdp_trs_pin_entry`, without the APDU that follows it. -/
structure TrsPinEntry where
  timeoutInitial : UInt8
  timeoutDigit : UInt8
  format : Nat
  rightJustify : Bool
  blockOffsetBits : Nat
  blockSizeBytes : UInt8
  lengthSizeBits : UInt8
  lengthOffsetBits : Nat
  minDigits : UInt8
  maxDigits : UInt8
  completeOn : Nat
  numMessages : UInt8
  languageId : UInt16
  msgIndex : UInt8
  teoPrologue : Bytes
  apdu : Bytes
  deriving DecidableEq, Repr

/-- `struct osdp_trs_cmd`: the session brackets START and STOP, and the
card commands that ride between them. -/
inductive TrsCmd where
  | start
  | stop
  | sendApdu (apdu : Bytes)
  | enterPin (entry : TrsPinEntry)
  | cardScan
  deriving DecidableEq, Repr

/-- `enum osdp_mp_msg_type`: the family of a multi-part transfer. -/
inductive MpMsg where
  | fileTransfer | piv | genauth | crauth | bioread
  deriving DecidableEq, Repr

/-- `enum osdp_mp_outcome`. -/
inductive MpOutcome where
  | ok | okRebooting | aborted | unrecognized | invalid
  deriving DecidableEq, Repr

/-- `enum osdp_mp_phase`. -/
inductive MpPhase where
  | start | progress | done
  deriving DecidableEq, Repr

/-- `struct osdp_mp_progress`, and the `struct osdp_mp_notification` it is
copied into. -/
structure MpProgress where
  msgType : MpMsg
  objectId : Nat
  total : Nat
  offset : Nat
  outcome : MpOutcome
  deriving DecidableEq, Repr

/-- `struct osdp_pd_id`. -/
structure PdId where
  version : UInt32 := 0
  model : UInt32 := 0
  vendorCode : UInt32 := 0
  serialNumber : UInt32 := 0
  firmwareVersion : UInt32 := 0
  deriving DecidableEq, Repr

/-- `enum osdp_trs_session_status_e`. -/
inductive TrsSessionStatus where
  | opened | closed | failed | scanSuspended | scanNoDeparture
  deriving DecidableEq, Repr

/-- `struct osdp_notification`. -/
inductive Notification where
  | scStatus (active scbkD : Bool)
  | pdStatus (online : Bool)
  | mp (phase : MpPhase) (progress : MpProgress)
  | pdId (id : PdId)
  | trsStatus (status : TrsSessionStatus)
  deriving DecidableEq, Repr

/-- `struct osdp_cmd`: what a CP app submits and what a PD app is handed.
`statusReport`, `comsetDone` and `notification` reach a PD app only. -/
inductive OsdpCmd where
  | output (outputNo controlCode : UInt8) (timerCount : UInt16)
  | led (reader ledNumber : UInt8) (temporary permanent : LedParams)
  | buzzer (reader controlCode onCount offCount repCount : UInt8)
  | text (reader controlCode tempTime offsetRow offsetCol length : UInt8)
      (data : Bytes)
  | keyset (type length : UInt8) (data : Bytes)
  | comset (address : UInt8) (baudRate : UInt32)
  | mfg (vendorCode : UInt32) (length : UInt8) (data : Bytes)
  | fileTx (id : Nat) (flags : UInt32)
  | status (report : StatusReport)
  | comsetDone (address : UInt8) (baudRate : UInt32)
  | notification (n : Notification)
  | bioread (args : BioArgs)
  | biomatch (args : BioArgs)
  | tdset (year : UInt16) (month day hour minute second : UInt8)
  | pivdata (req : PivRequest)
  | genauth (auth : AuthArgs)
  | crauth (auth : AuthArgs)
  | xwr (trs : TrsCmd)
  | unlisted (id : UInt32)
  deriving DecidableEq, Repr

-- ============================================================== events

/-- `enum osdp_event_cardread_format_e`; a CP stores whatever byte the
reply had there. -/
inductive CardFormat where
  | rawUnspecified | rawWiegand | ascii
  | reserved (code : UInt8)
  deriving DecidableEq, Repr

/-- `enum osdp_trs_card_status_e`. -/
inductive TrsCardStatus where
  | unknown | notPresent | present | presentContactless | presentContact
  deriving DecidableEq, Repr

/-- `struct osdp_trs_reply`. -/
inductive TrsReply where
  | cardInfo (reader : UInt8) (contactless : Bool) (csnLen : UInt8)
      (csn : Bytes) (protocolDataLen : UInt8) (protocolData : Bytes)
  | cardPresent (reader : UInt8) (status : TrsCardStatus)
  | cardData (reader status : UInt8) (apduLength : Nat) (apdu : Bytes)
  | pinComplete (reader status tries : UInt8)
  | error (code : UInt8)
  deriving DecidableEq, Repr

/-- `struct osdp_event_bioreadr`. -/
structure BioReadr where
  reader : UInt8
  status : UInt8
  type : UInt8
  quality : UInt8
  length : Nat
  data : Bytes
  deriving DecidableEq, Repr

/-- `struct osdp_event`: what a PD app submits and a CP app is handed. -/
inductive OsdpEvent where
  | cardread (readerNo : Int) (format : CardFormat) (length : Nat)
      (data : Bytes)
  | keypress (readerNo : Int) (length : Nat) (data : Bytes)
  | mfgrep (vendorCode : UInt32) (length : Nat) (data : Bytes)
  | status (report : StatusReport)
  | notification (n : Notification)
  | mfgstatr (length : Nat) (data : Bytes)
  | mfgerrr (length : Nat) (data : Bytes)
  | bioreadr (r : BioReadr)
  | biomatchr (reader status score : UInt8)
  | pivdatar (length : Nat) (data : Bytes)
  | genauthr (length : Nat) (data : Bytes)
  | crauthr (length : Nat) (data : Bytes)
  | trs (reply : TrsReply)
  | unlisted (type : UInt32)
  deriving DecidableEq, Repr

/-- `enum osdp_completion_status`. -/
inductive CompletionStatus where
  | ok | failed | flushed | aborted
  deriving DecidableEq, Repr

/-- A submitted event: the node is the address of the structure the app
handed over, which is how the app knows it again on completion. -/
structure SubmittedEvent where
  node : Nat
  event : OsdpEvent
  deriving DecidableEq, Repr

/-- A submitted command, likewise; `broadcast` is
OSDP_CMD_FLAG_BROADCAST of its `flags`. -/
structure SubmittedCmd where
  node : Nat
  broadcast : Bool := false
  cmd : OsdpCmd
  deriving DecidableEq, Repr

-- ============================================================= targets

/-- `osdp_cmd_reader_no`: the reader a command names, else -1. -/
def osdpCmdReaderNo : OsdpCmd → Int
  | .led reader .. => reader.toNat
  | .buzzer reader .. => reader.toNat
  | .text reader .. => reader.toNat
  | .bioread args => args.reader.toNat
  | .biomatch args => args.reader.toNat
  | _ => -1

/-- `osdp_event_reader_no`: the reader an event names, else -1. -/
def osdpEventReaderNo : OsdpEvent → Int
  | .cardread readerNo .. => readerNo
  | .keypress readerNo .. => readerNo
  | .bioreadr r => r.reader.toNat
  | .biomatchr reader .. => reader.toNat
  | _ => -1

end LibOsdp
