/-
Command decoding on the PD (osdp_pd.c, `pd_decode_command` and what it
calls).

Every case of the C `switch` is a function of its own that takes the data
block behind the command id and returns the case's `ret`; `pdErrGeneric`
is a `break` before anything was decided, which becomes a length NAK.

# The reply is chosen here

`reply_id` starts out as REPLY_NAK and is changed by the case that
accepts the command; the application, where it is asked, is asked before
that.  What an accepted command leaves for later (the new key, the new
address) is parked in the union with the NAK code.
-/
import LibOsdp.Engine.Engines
import LibOsdp.Engine.TrsPd

namespace LibOsdp

open Lib

variable (env : Env) (run : List ApiCall → OsdpM Unit)

/-- `pd->reply_id = id`. -/
def setReply (i id : Nat) : OsdpM Unit :=
  updPd i fun p => { p with replyId := id }

/-- `pd->nak_code = c`. -/
def setNakCode (i : Nat) (c : UInt8) : OsdpM Unit :=
  updPd i fun p => p.setNak c

/-- `pd->reply_id = REPLY_NAK; pd->nak_code = c`. -/
def replyWithNak (i : Nat) (c : UInt8) : OsdpM Unit :=
  updPd i fun p => p.nak c

/-- The capability a command needs, and whether some item must be there
(`num_items != 0`) beyond the compliance level. -/
def cmdCapability (cmdId : Nat) : Option (Nat × Bool) :=
  match cmdId with
  | cmdIstat => some (capContactStatusMonitoring, true)
  | cmdOstat => some (capOutputControl, true)
  | cmdOut => some (capOutputControl, false)
  | cmdLed => some (capReaderLedControl, false)
  | cmdBuz => some (capReaderAudibleOutput, true)
  | cmdText => some (capReaderTextOutput, true)
  | cmdTdset => some (capTimeKeeping, false)
  | cmdBioread | cmdBiomatch => some (capBiometrics, true)
  | cmdPivdata | cmdGenauth | cmdCrauth => some (capSmartCardSupport, false)
  | cmdChlng | cmdScrypt | cmdKeyset => some (capCommunicationSecurity, false)
  | _ => none

/-- `pd_cmd_cap_ok` without its NAK; `item` is the output or LED the
command names. -/
def capAllows (p : OsdpPd) (item : Option Nat) : Bool :=
  match cmdCapability p.cmdId with
  | none => false
  | some (fc, needItems) =>
    let cap := p.cap fc
    cap.complianceLevel != 0 && !(needItems && cap.numItems == 0) &&
      decide (item.getD 0 ≤ cap.numItems.toNat)

/-- `pd_cmd_cap_ok`. -/
def pdCmdCapOk (i : Nat) (item : Option Nat) : OsdpM Bool := do
  let p ← getPd i
  if capAllows p item then
    return true
  match p.cmdId with
  | cmdChlng | cmdScrypt | cmdKeyset => replyWithNak i nakScUnsup
  | _ => replyWithNak i nakCmdUnknown
  return false

-- ============================================================== the app

/-- A LED parameter block with this `SET` code asks for neither state. -/
def ledTimesMissing (setCode : UInt8) (l : LedParams) : Bool :=
  l.controlCode == setCode && l.onCount == 0 && l.offCount == 0

/-- The per-command half of `validate_command`. -/
def commandWellFormed : OsdpCmd → Bool
  | .output _ controlCode _ => decide (controlCode < 7)
  | .led _ _ t p =>
    decide (t.controlCode < 3) && decide (p.controlCode < 2) &&
      !ledTimesMissing 2 t && !ledTimesMissing 1 p
  | .buzzer _ controlCode onCount _ _ =>
    decide (controlCode < 3) && !(onCount == 0 && controlCode != 1)
  | .text _ controlCode .. => decide (1 ≤ controlCode) && decide (controlCode < 5)
  | .tdset _ month day hour minute second =>
    decide (1 ≤ month) && decide (month ≤ 12) && decide (1 ≤ day) &&
      decide (day ≤ 31) && decide (hour ≤ 23) && decide (minute ≤ 59) &&
      decide (second ≤ 59)
  | _ => true

/-- `validate_command`. -/
def validateCommand (p : OsdpPd) (cmd : OsdpCmd) : Bool :=
  commandWellFormed cmd &&
    decide (osdpCmdReaderNo cmd ≤ (p.cap capReaders).numItems.toNat)

/-- `pd_nak_code_from_callback`. -/
def pdNakCodeFromCallback (ret : Int) : UInt8 :=
  if ret = -7 then nakBioType else if ret = -8 then nakBioFmt else nakRecord

/-- A command the PD can carry out, put to the application. -/
def offerCommand (i : Nat) (cmd : OsdpCmd) : OsdpM (Int × OsdpCmd) := do
  let p ← getPd i
  if validateCommand p cmd then
    callCommandCallback env run i cmd
  else return (-1, cmd)

/-- `do_command_callback`: whether the application took the command, and
the command as it left it. -/
def doCommandCallback (i : Nat) (cmd : OsdpCmd) : OsdpM (Bool × OsdpCmd) := do
  let (ret, cmd) ← offerCommand env run i cmd
  if ret ≠ 0 then
    replyWithNak i (pdNakCodeFromCallback ret)
    return (false, cmd)
  return (true, cmd)

/-- `pd_deliver_notification`. -/
def pdDeliverNotification (i : Nat) (n : Notification) : OsdpM Unit := do
  let p ← getPd i
  if p.flags.enableNotif then
    let _ ← callCommandCallback env run i (.notification n)

/-- `notify_pd_status`. -/
def notifyPdStatus (i : Nat) (online : Bool) : OsdpM Unit :=
  pdDeliverNotification env run i (.pdStatus online)

/-- `notify_sc_status`. -/
def notifyScStatus (i : Nat) : OsdpM Unit := do
  let p ← getPd i
  pdDeliverNotification env run i
    (.scStatus p.flags.scActive p.flags.scUseScbkd)

/-- `pd_sc_deactivate`. -/
def pdScDeactivate (i : Nat) : OsdpM Unit := do
  let p ← getPd i
  scDeactivate i
  if p.flags.scActive then
    notifyScStatus env run i

-- ============================================================= events

/-- `event_is_reply_to`. -/
def eventIsReplyTo (cmdId : Nat) (ev : OsdpEvent) : Bool :=
  match cmdId, ev with
  | cmdMfg, .mfgrep .. | cmdMfg, .mfgstatr .. | cmdMfg, .mfgerrr .. => true
  | cmdBioread, .bioreadr .. => true
  | cmdBiomatch, .biomatchr .. => true
  | cmdPivdata, .pivdatar .. => true
  | cmdGenauth, .genauthr .. => true
  | cmdCrauth, .crauthr .. => true
  | cmdOut, .status r | cmdOstat, .status r => r.type == .output
  | cmdLstat, .status r => r.type == .local
  | cmdIstat, .status r => r.type == .input
  | cmdRstat, .status r => r.type == .reader
  | _, _ => false

/-- `pd_translate_event`; nothing stands for its `BUG()`. -/
def pdTranslateEvent : OsdpEvent → Option Nat
  | .cardread _ .rawUnspecified _ _ | .cardread _ .rawWiegand _ _ =>
    some replyRaw
  | .cardread .. => none
  | .keypress .. => some replyKeypad
  | .status r => some <| match r.type with
    | .input => replyIstatr
    | .output => replyOstatr
    | .local => replyLstatr
    | .reader => replyRstatr
    | .unlisted _ => replyAck
  | .mfgrep .. => some replyMfgrep
  | .mfgstatr .. => some replyMfgstatr
  | .mfgerrr .. => some replyMfgerrr
  | .bioreadr .. => some replyBioreadr
  | .biomatchr .. => some replyBiomatchr
  | .pivdatar .. => some replyPivdatar
  | .genauthr .. => some replyGenauthr
  | .crauthr .. => some replyCrauthr
  | .trs _ => some replyXrd
  | .notification _ | .unlisted _ => none

/-- The event becomes the active one and picks the reply. -/
def pdTakeEvent (i : Nat) (ev : SubmittedEvent) (rest : List SubmittedEvent) :
    OsdpM Unit := do
  match pdTranslateEvent ev.event with
  | none => throw .bug
  | some id =>
    updPd i fun p =>
      { p with eventQueue := rest, activeEvent := some ev, replyId := id }

/-- `pd_take_inline_reply`. -/
def pdTakeInlineReply (i : Nat) : OsdpM Bool := do
  let p ← getPd i
  match p.eventQueue with
  | ev :: rest =>
    if eventIsReplyTo p.cmdId ev.event then
      pdTakeEvent i ev rest
      return true
    return false
  | [] => return false

/-- The reply the application submitted from within its callback, or an
ACK with the reply to follow on a poll. -/
def pdInlineReplyOrAck (i : Nat) : OsdpM Int := do
  if !(← pdTakeInlineReply i) then
    setReply i replyAck
  return pdErrNone

-- ================================================= prebuilt status replies

/-- The data block of a status reply (`pd_prebuild_status_reply`); the
report must cover every item the PD has. -/
def statusReportBytes (p : OsdpPd) (replyId : Nat) (r : StatusReport)
    (maxLen : Int) : Option Bytes :=
  let full (n : Nat) : Option Bytes :=
    if r.nrEntries ≠ n ∨ maxLen < n ∨ n > 64 then none
    else some (fieldBytes r.report n)
  match replyId with
  | replyOstatr => full (p.cap capOutputControl).numItems.toNat
  | replyIstatr => full (p.cap capContactStatusMonitoring).numItems.toNat
  | replyRstatr => full (p.cap capReaders).numItems.toNat
  | replyLstatr =>
    if r.nrEntries < 2 ∨ maxLen < 2 then none else some (fieldBytes r.report 2)
  | _ => none

/-- The packet under construction is `len` bytes long. -/
def pdStage (i len : Nat) : OsdpM Unit :=
  updPd i fun p => { p with packetBuf := .tx, packetBufLen := len }

/-- The packet is finalized and waits to be sent. -/
def pdStaged (i len : Nat) : OsdpM Unit :=
  updPd i fun p => { p with packetBufLen := len, replyPrebuilt := true }

/-- `pd_prebuild_status_reply`: false where the C function returns -1. -/
def pdPrebuildStatusReply (i replyId : Nat) (r : StatusReport) :
    OsdpM Bool := do
  let p ← getPd i
  let size := getTxBufSize p
  let hdrLen ← osdpPhyPacketInit i size
  if hdrLen < 0 then
    return false
  let p ← getPd i
  let buf ← readBuf .tx
  let off := osdpPhyPacketGetDataOffset p buf
  if size ≤ off then
    return false
  match statusReportBytes p replyId r (size - off - 1 : Nat) with
  | none => return false
  | some data =>
    writeBuf .tx off (UInt8.ofNat replyId :: data)
    let len := hdrLen.toNat + 1 + data.length
    pdStage i len
    let ret ← osdpPhyFinalizePacket env i len size
    if ret < 0 then
      return false
    pdStaged i ret.toNat
    return true

-- ========================================================== the commands

/-- CMD_POLL. -/
def pdDecodePoll (i : Nat) (data : Bytes) : OsdpM Int := do
  if data.length ≠ 0 then
    return pdErrGeneric
  let p ← getPd i
  if osdpPivPdReplyPending p then
    setReply i (osdpPivPdReplyId p)
    return pdErrNone
  if osdpBioPdReplyPending p then
    setReply i replyBioreadr
    return pdErrNone
  match p.eventQueue with
  | ev :: rest => pdTakeEvent i ev rest
  | [] => setReply i replyAck
  return pdErrNone

/-- The application's turn in a status request: an event it submits, or
the report it fills in. -/
def pdStatusReply (i : Nat) (type : StatusType) (replyId : Nat) :
    OsdpM Int := do
  let (ok, cmd) ← doCommandCallback env run i (.status { type := type })
  if !ok then
    return pdErrReply
  if ← pdTakeInlineReply i then
    return pdErrNone
  let report := match cmd with
    | .status r => r
    | _ => { type := type }
  if !(← pdPrebuildStatusReply env i replyId report) then
    return pdErrGeneric
  setReply i replyId
  return pdErrNone

/-- CMD_LSTAT, CMD_ISTAT, CMD_OSTAT and CMD_RSTAT; two of them need a
capability first. -/
def pdDecodeStatus (i : Nat) (data : Bytes) (type : StatusType)
    (replyId : Nat) (needCap : Bool) : OsdpM Int := do
  if data.length ≠ 0 then
    return pdErrGeneric
  if needCap then
    if !(← pdCmdCapOk i none) then
      return pdErrReply
  pdStatusReply env run i type replyId

/-- CMD_ID and CMD_CAP: one byte of data, which nobody reads. -/
def pdDecodeIdentity (i : Nat) (data : Bytes) (replyId : Nat) : OsdpM Int := do
  if data.length ≠ 1 then
    return pdErrGeneric
  setReply i replyId
  return pdErrNone

/-- The record loop of CMD_OUT, CMD_LED and CMD_BUZ: each record is
checked and handed to the application until one is refused. -/
def pdRecords (i size : Nat) (parse : Bytes → OsdpCmd)
    (item : Bytes → Option Nat) : Nat → Bytes → OsdpM Bool
  | 0, _ => return true
  | n + 1, data => do
    if !(← pdCmdCapOk i (item data)) then
      return false
    let (ok, _) ← doCommandCallback env run i (parse data)
    if !ok then
      return false
    pdRecords i size parse item n (data.drop size)

/-- One CMD_OUT record. -/
def parseOutput (d : Bytes) : OsdpCmd :=
  .output (byteAt d 0) (byteAt d 1) (UInt16.ofNat (readLe 2 (d.drop 2)))

/-- One CMD_LED record. -/
def parseLed (d : Bytes) : OsdpCmd :=
  .led (byteAt d 0) (byteAt d 1)
    ⟨byteAt d 2, byteAt d 3, byteAt d 4, byteAt d 5, byteAt d 6,
      UInt16.ofNat (readLe 2 (d.drop 7))⟩
    ⟨byteAt d 9, byteAt d 10, byteAt d 11, byteAt d 12, byteAt d 13, 0⟩

/-- One CMD_BUZ record. -/
def parseBuzzer (d : Bytes) : OsdpCmd :=
  .buzzer (byteAt d 0) (byteAt d 1) (byteAt d 2) (byteAt d 3) (byteAt d 4)

/-- CMD_OUT. -/
def pdDecodeOut (i : Nat) (data : Bytes) : OsdpM Int := do
  if data.length % 4 ≠ 0 then
    return pdErrGeneric
  let item (d : Bytes) : Option Nat := some ((byteAt d 0).toNat + 1)
  if ← pdRecords env run i 4 parseOutput item (data.length / 4) data then
    pdInlineReplyOrAck i
  else return pdErrReply

/-- CMD_LED and CMD_BUZ: an ACK once every record was taken. -/
def pdDecodeRecords (i size : Nat) (parse : Bytes → OsdpCmd)
    (item : Bytes → Option Nat) (data : Bytes) : OsdpM Int := do
  if data.length % size ≠ 0 then
    return pdErrGeneric
  if ← pdRecords env run i size parse item (data.length / size) data then
    setReply i replyAck
    return pdErrNone
  else return pdErrReply

/-- CMD_LED. -/
def pdDecodeLed (i : Nat) (data : Bytes) : OsdpM Int :=
  pdDecodeRecords env run i 14 parseLed
    (fun d => some ((byteAt d 1).toNat + 1)) data

/-- CMD_BUZ. -/
def pdDecodeBuz (i : Nat) (data : Bytes) : OsdpM Int :=
  pdDecodeRecords env run i 5 parseBuzzer (fun _ => none) data

/-- The tail of CMD_TEXT and CMD_TDSET: capability, application, ACK. -/
def pdCapThenAck (i : Nat) (cmd : OsdpCmd) : OsdpM Int := do
  if !(← pdCmdCapOk i none) then
    return pdErrReply
  let (ok, _) ← doCommandCallback env run i cmd
  if !ok then
    return pdErrReply
  setReply i replyAck
  return pdErrNone

/-- CMD_TEXT. -/
def pdDecodeText (i : Nat) (data : Bytes) : OsdpM Int := do
  if data.length < 6 then
    return pdErrGeneric
  let n := (byteAt data 5).toNat
  if n > 32 ∨ data.length - 6 < n then
    return pdErrGeneric
  pdCapThenAck env run i
    (.text (byteAt data 0) (byteAt data 1) (byteAt data 2) (byteAt data 3)
      (byteAt data 4) (byteAt data 5) ((data.drop 6).take n))

/-- CMD_TDSET. -/
def pdDecodeTdset (i : Nat) (data : Bytes) : OsdpM Int := do
  if data.length ≠ 7 then
    return pdErrGeneric
  pdCapThenAck env run i
    (.tdset (UInt16.ofNat (readLe 2 data)) (byteAt data 2) (byteAt data 3)
      (byteAt data 4) (byteAt data 5) (byteAt data 6))

/-- The COMSET members of the union: the address shares byte 0 with the
NAK code, the baud rate is aligned behind it. -/
def OsdpPd.setComsetPending (p : OsdpPd) (address : UInt8) (baud : UInt32) :
    OsdpPd :=
  { p with
    pending := writeAt (p.pending.set 0 address) 4 (writeLe 4 baud.toNat) }

/-- Accept a COMSET: the new settings wait for the reply to go out. -/
def pdParkComset (i : Nat) (address : UInt8) (baud : UInt32) : OsdpM Unit :=
  updPd i fun p => { p.setComsetPending address baud with replyId := replyCom }

/-- CMD_COMSET. -/
def pdDecodeComset (i : Nat) (data : Bytes) : OsdpM Int := do
  if data.length ≠ 5 then
    return pdErrGeneric
  let address := byteAt data 0
  let baud := UInt32.ofNat (readLe 4 (data.drop 1))
  if address ≥ 0x7F then
    return pdErrGeneric
  let (ok, cmd) ← doCommandCallback env run i (.comset address baud)
  if !ok then
    return pdErrReply
  let (address, baud) := match cmd with
    | .comset a b => (a, b)
    | _ => (address, baud)
  pdParkComset i address baud
  return pdErrNone

/-- CMD_MFG. -/
def pdDecodeMfg (i : Nat) (data : Bytes) : OsdpM Int := do
  if data.length < 3 then
    return pdErrGeneric
  let n := UInt8.ofNat (data.length - 3)
  if n > 64 then
    return pdErrGeneric
  let (ok, _) ← doCommandCallback env run i
    (.mfg (UInt32.ofNat (readLe 3 data)) n ((data.drop 3).take n.toNat))
  if !ok then
    return pdErrReply
  pdInlineReplyOrAck i

/-- The first four bytes of CMD_BIOREAD and CMD_BIOMATCH. -/
def parseBioArgs (d : Bytes) : BioArgs :=
  { reader := byteAt d 0, type := byteAt d 1, format := byteAt d 2
    quality := byteAt d 3 }

/-- CMD_BIOREAD. -/
def pdDecodeBioread (i : Nat) (data : Bytes) : OsdpM Int := do
  if data.length ≠ 4 then
    return pdErrGeneric
  if !(← pdCmdCapOk i none) then
    return pdErrReply
  let (ok, _) ← doCommandCallback env run i (.bioread (parseBioArgs data))
  if !ok then
    return pdErrReply
  pdInlineReplyOrAck i

/-- CMD_BIOMATCH. -/
def pdDecodeBiomatch (i : Nat) (data : Bytes) : OsdpM Int := do
  if data.length < 6 then
    return pdErrGeneric
  if !(← pdCmdCapOk i none) then
    return pdErrReply
  let n := readLe 2 (data.drop 4)
  if n ≠ data.length - 6 ∨ n > 128 then
    setNakCode i nakCmdLen
    return pdErrGeneric
  let args :=
    { parseBioArgs data with
      length := UInt16.ofNat n, data := data.drop 6 }
  let (ok, _) ← doCommandCallback env run i (.biomatch args)
  if !ok then
    return pdErrReply
  pdInlineReplyOrAck i

/-- CMD_ACURXSIZE. -/
def pdDecodeAcurxsize (i : Nat) (data : Bytes) : OsdpM Int := do
  if data.length < 2 then
    return pdErrGeneric
  updPd i fun p =>
    { p with peerRxSize := readLe 2 data, replyId := replyAck }
  return pdErrNone

/-- CMD_KEEPACTIVE. -/
def pdDecodeKeepactive (i : Nat) (data : Bytes) : OsdpM Int := do
  if data.length < 2 then
    return pdErrGeneric
  updPd i fun p =>
    { p with scTstamp := p.scTstamp + readLe 2 data, replyId := replyAck }
  return pdErrNone

/-- CMD_ABORT. -/
def pdDecodeAbort (i : Nat) (data : Bytes) : OsdpM Int := do
  if data.length ≠ 0 then
    return pdErrGeneric
  osdpEnginesAbort env run i
  setReply i replyAck
  return pdErrNone

/-- CMD_FILETRANSFER. -/
def pdDecodeFiletransfer (i : Nat) (data : Bytes) : OsdpM Int := do
  if !(← osdpFileCmdTxDecode env run i data) then
    replyWithNak i nakRecord
    return pdErrReply
  setReply i replyFtstat
  return pdErrNone

/-- CMD_PIVDATA. -/
def pdDecodePivdata (i : Nat) (data : Bytes) : OsdpM Int := do
  if data.length ≠ 5 then
    return pdErrGeneric
  if !(← pdCmdCapOk i none) then
    return pdErrReply
  let req : PivRequest := ⟨data.take 3, byteAt data 3, byteAt data 4⟩
  if !(← osdpPivPdOpen env run i cmdPivdata req.element.toNat) then
    return pdErrGeneric
  let (ok, _) ← doCommandCallback env run i (.pivdata req)
  if !ok then
    return pdErrReply
  pdInlineReplyOrAck i

/-- CMD_GENAUTH and CMD_CRAUTH. -/
def pdDecodeAuth (i cmdId : Nat) (data : Bytes) : OsdpM Int := do
  if data.length < mpHdrSize .w16 then
    return pdErrGeneric
  if !(← pdCmdCapOk i none) then
    return pdErrReply
  match ← osdpPivPdCmdFrag env run i cmdId data with
  | .malformed => return pdErrGeneric
  | .more =>
    setReply i replyAck
    return pdErrNone
  | .complete cmd =>
    let (ok, _) ← doCommandCallback env run i cmd
    if !ok then
      osdpPivAbort env run i
      return pdErrReply
    pdInlineReplyOrAck i

/-- The application's turn in CMD_XWR: a TRS event at the head of the
queue is the answer, anything else means an ACK now. -/
def pdXwrToApp (i : Nat) (c : TrsCmd) : OsdpM Int := do
  let (ok, _) ← doCommandCallback env run i (.xwr c)
  if !ok then
    return pdErrReply
  let p ← getPd i
  match p.eventQueue with
  | ⟨node, .trs r⟩ :: rest =>
    updPd i fun p =>
      { p with
        eventQueue := rest
        activeEvent := some ⟨node, .trs r⟩
        replyId := replyXrd }
  | _ => setReply i replyAck
  return pdErrNone

/-- CMD_XWR. -/
def pdDecodeXwr (i : Nat) (data : Bytes) : OsdpM Int := do
  let p ← getPd i
  let (mode, act) := osdpTrsCmdDecode p.trs.mode data
  updPd i fun p => { p with trs := { p.trs with mode := mode } }
  match act with
  | .refuse => return pdErrGeneric
  | .ack =>
    setReply i replyAck
    return pdErrNone
  | .modeReport =>
    setReply i replyXrd
    return pdErrNone
  | .toApp c => pdXwrToApp env run i c

/-- The sixteen key bytes of a KEYSET command as the application left
it. -/
def keysetKey (data : Bytes) (cmd : OsdpCmd) : Bytes :=
  match cmd with
  | .keyset _ _ key => fieldBytes key 16
  | _ => data.drop 2

/-- Accept a KEYSET: the new key waits for the reply to go out. -/
def pdParkKey (i : Nat) (key : Bytes) : OsdpM Unit :=
  updPd i fun p => { p with replyId := replyAck, pending := key }

/-- CMD_KEYSET: the new key is parked, not stored. -/
def pdDecodeKeyset (i : Nat) (data : Bytes) : OsdpM Int := do
  if data.length ≠ 18 then
    return pdErrGeneric
  if byteAt data 0 ≠ 1 ∨ byteAt data 1 ≠ 16 then
    return pdErrGeneric
  setNakCode i nakScCond
  if !(← pdCmdCapOk i none) then
    return pdErrReply
  let p ← getPd i
  if !p.flags.scActive ∨ env.commandCallback.isNone then
    return pdErrReply
  let (ok, cmd) ← doCommandCallback env run i (.keyset 1 16 (data.drop 2))
  if !ok then
    setNakCode i nakScCond
    return pdErrReply
  pdParkKey i (keysetKey data cmd)
  return pdErrNone

/-- CMD_CHLNG: whatever session there was is over. -/
def pdDecodeChlng (i : Nat) (data : Bytes) : OsdpM Int := do
  if data.length ≠ 8 then
    return pdErrGeneric
  if !(← pdCmdCapOk i none) then
    return pdErrReply
  pdScDeactivate env run i
  osdpScSetup env i
  updPd i fun p =>
    { p with sc := { p.sc with cpRandom := data }, replyId := replyCcrypt }
  return pdErrNone

/-- CMD_SCRYPT. -/
def pdDecodeScrypt (i : Nat) (data : Bytes) : OsdpM Int := do
  if data.length ≠ 16 then
    return pdErrGeneric
  if !(← pdCmdCapOk i none) then
    return pdErrReply
  let p ← getPd i
  if p.flags.scActive then
    setNakCode i nakScCond
    return pdErrReply
  updPd i fun p => { p with sc := { p.sc with cpCryptogram := data } }
  let p ← getPd i
  if !osdpVerifyCpCryptogram env p.sc then
    setNakCode i nakScUnsup
    return pdErrReply
  setReply i replyRmacI
  return pdErrNone

/-- The `switch` of `pd_decode_command`; nothing for an unknown id. -/
def pdDecodeCases (i id : Nat) (data : Bytes) : OsdpM (Option Int) := do
  match id with
  | cmdPoll => return some (← pdDecodePoll i data)
  | cmdLstat =>
    return some (← pdDecodeStatus env run i data .local replyLstatr false)
  | cmdIstat =>
    return some (← pdDecodeStatus env run i data .input replyIstatr true)
  | cmdOstat =>
    return some (← pdDecodeStatus env run i data .output replyOstatr true)
  | cmdRstat =>
    return some (← pdDecodeStatus env run i data .reader replyRstatr false)
  | cmdIdent => return some (← pdDecodeIdentity i data replyPdid)
  | cmdCap => return some (← pdDecodeIdentity i data replyPdcap)
  | cmdOut => return some (← pdDecodeOut env run i data)
  | cmdLed => return some (← pdDecodeLed env run i data)
  | cmdBuz => return some (← pdDecodeBuz env run i data)
  | cmdText => return some (← pdDecodeText env run i data)
  | cmdTdset => return some (← pdDecodeTdset env run i data)
  | cmdComset => return some (← pdDecodeComset env run i data)
  | cmdMfg => return some (← pdDecodeMfg env run i data)
  | cmdBioread => return some (← pdDecodeBioread env run i data)
  | cmdBiomatch => return some (← pdDecodeBiomatch env run i data)
  | cmdAcurxsize => return some (← pdDecodeAcurxsize i data)
  | cmdKeepactive => return some (← pdDecodeKeepactive i data)
  | cmdAbort => return some (← pdDecodeAbort env run i data)
  | cmdFiletransfer => return some (← pdDecodeFiletransfer env run i data)
  | cmdPivdata => return some (← pdDecodePivdata env run i data)
  | cmdGenauth => return some (← pdDecodeAuth env run i cmdGenauth data)
  | cmdCrauth => return some (← pdDecodeAuth env run i cmdCrauth data)
  | cmdXwr => return some (← pdDecodeXwr env run i data)
  | cmdKeyset => return some (← pdDecodeKeyset env run i data)
  | cmdChlng => return some (← pdDecodeChlng env run i data)
  | cmdScrypt => return some (← pdDecodeScrypt env i data)
  | _ => return none

/-- A command ENFORCE_SECURE lets through without a session. -/
def allowedInPlain (id : Nat) : Bool :=
  id == cmdIdent || id == cmdCap || id == cmdChlng || id == cmdScrypt

/-- The command is refused before it is looked at. -/
def refusedByPolicy (p : OsdpPd) (id : Nat) : Bool :=
  p.flags.enforceSecure && !p.flags.scActive && !allowedInPlain id

/-- `pd_decode_command` on a payload that starts with the id byte. -/
def pdDecodeCommand (i : Nat) (payload : Bytes) : OsdpM Int := do
  let id := (byteAt payload 0).toNat
  let data := payload.drop 1
  replyWithNak i nakRecord
  updPd i fun p => { p with cmdId := id }
  let p ← getPd i
  if refusedByPolicy p id then
    setNakCode i nakScCond
    return pdErrReply
  match ← pdDecodeCases env run i id data with
  | none =>
    replyWithNak i nakCmdUnknown
    return pdErrReply
  | some ret =>
    if ret = pdErrGeneric then
      replyWithNak i nakCmdLen
      return pdErrReply
    return ret

end LibOsdp
