/-
File transfer (osdp_file.c), both roles.

A transfer converges on `fileTransitionDone` however it ends: the DONE
notification goes out while the engine still has its state, then the
file is closed and the context reset.  `in_terminal` is up for the whole
of it, since the engine itself is already at `MpState.done` by the time
the application is told.
-/
import LibOsdp.Engine.Multipart

namespace LibOsdp

open Lib

variable (env : Env) (run : List ApiCall → OsdpM Unit)

-- ============================================================ wire status

/-- `enum`-like status codes of FTSTAT, as the sixteen bits on the wire. -/
abbrev fileTxStatusAck : Nat := 0
abbrev fileTxStatusContentsProcessed : Nat := 1
abbrev fileTxStatusPdReset : Nat := 2
abbrev fileTxStatusKeepAlive : Nat := 3
abbrev fileTxStatusErrAbort : Nat := 0xFFFF
abbrev fileTxStatusErrUnknown : Nat := 0xFFFE
abbrev fileTxStatusErrInvalid : Nat := 0xFFFD

abbrev fileTxFlagExclusive : UInt32 := 0x01000000
abbrev fileTxFlagPlainText : UInt32 := 0x02000000
abbrev fileTxFlagPollResp : UInt32 := 0x04000000

abbrev fileFinalizeTimeoutMs : Int := 30000

/-- `SET_FLAG_V`. -/
def setFlagV (flags bit : UInt32) (v : Bool) : UInt32 :=
  if v then flags ||| bit else flags &&& ~~~bit

/-- `file_outcome_from_wire_status`. -/
def fileOutcomeFromWireStatus (status : Nat) : MpOutcome :=
  if status = fileTxStatusContentsProcessed then .ok
  else if status = fileTxStatusPdReset then .okRebooting
  else if status = fileTxStatusErrUnknown then .unrecognized
  else if status = fileTxStatusErrInvalid then .invalid
  else .aborted

/-- `file_wire_status_from_outcome`. -/
def fileWireStatusFromOutcome : MpOutcome → Nat
  | .ok => fileTxStatusContentsProcessed
  | .okRebooting => fileTxStatusPdReset
  | .unrecognized => fileTxStatusErrUnknown
  | .invalid => fileTxStatusErrInvalid
  | .aborted => fileTxStatusErrAbort

-- ============================================================= life cycle

/-- Change the file context. -/
def updFile (i : Nat) (f : OsdpFile → OsdpFile) : OsdpM Unit :=
  updPd i fun p => { p with file := p.file.map f }

/-- What `file_state_reset` leaves. -/
def fileReset : OsdpFile :=
  { mp := { binding := .fileOps, eventCb := true } }

/-- `file_state_reset`. -/
def fileStateReset (i : Nat) : OsdpM Unit := updFile i fun _ => fileReset

/-- `osdp_file_tx_is_active`. -/
def osdpFileTxIsActive (p : OsdpPd) : Bool :=
  p.file.isSome && (p.mp .file).isActive

/-- `file_close_if_open`. -/
def fileCloseIfOpen (i : Nat) : OsdpM Unit := do
  let p ← getPd i
  if (p.file.getD {}).isOpen then
    observe (.file i .close)
    updFile i fun f => { f with isOpen := false }

/-- `file_transition_done`. -/
def fileTransitionDone (i : Nat) (outcome : MpOutcome) : OsdpM Unit := do
  updFile i fun f => { f with inTerminal := true }
  osdpMpEmitStart env run i .file
  osdpMpFinish env run i .file outcome
  fileCloseIfOpen i
  let p ← getPd i
  if !p.flags.pdMode && outcome == .okRebooting then
    updPd i fun p => { p with request := { p.request with offline := true } }
  fileStateReset i

/-- `osdp_file_tx_abort`. -/
def osdpFileTxAbort (i : Nat) : OsdpM Unit := do
  let p ← getPd i
  if osdpFileTxIsActive p then
    fileTransitionDone env run i .aborted

-- ================================================================ sender

/-- `osdp_file_cmd_tx_build`: the data block of CMD_FILETRANSFER. -/
def osdpFileCmdTxBuild (i : Nat) (maxLen : Int) : OsdpM (Option Bytes) := do
  let p ← getPd i
  assertC p.file.isSome
  assertC (p.mp .file).isActive
  let fileId := (p.file.getD {}).fileId
  if maxLen ≤ 11 then
    fileTransitionDone env run i .aborted
    return none
  if (p.mp .file).state = .wait ∧ (p.mp .file).offset = (p.mp .file).total then
    let idle ← osdpMpTxBuildIdle i .file
    return some (UInt8.ofNat fileId :: idle)
  let engineMax := maxLen - 1 - mpScReserve
  if engineMax ≤ mpHdrSize .w32 then
    fileTransitionDone env run i .aborted
    return none
  match ← osdpMpTxBuildEx env i .file engineMax [] with
  | none =>
    fileTransitionDone env run i .aborted
    return none
  | some frag =>
    let m ← getMp i .file
    if m.lastLen = 0 then
      if m.state = .wait then
        updFile i fun f => { f with errors := f.errors + 1 }
    else
      updFile i fun f => { f with errors := 0 }
    return some (UInt8.ofNat fileId :: frag)

/-- `osdp_file_cmd_stat_decode`: false where the C function returns -1. -/
def osdpFileCmdStatDecode (i : Nat) (buf : Bytes) : OsdpM Bool := do
  let p ← getPd i
  if p.file.isNone || !(p.mp .file).isActive then
    return false
  if buf.length < 7 then
    return false
  assertC (buf.length == 7)
  let control := byteAt buf 0
  let delay := readLe 2 (buf.drop 1)
  let status := readLe 2 (buf.drop 3)
  updFile i fun f =>
    let fl := setFlagV f.flags fileTxFlagExclusive (control &&& 1 == 0)
    let fl := setFlagV fl fileTxFlagPlainText (control &&& 2 != 0)
    let fl := setFlagV fl fileTxFlagPollResp (control &&& 4 != 0)
    { f with flags := fl }
  osdpMpTxCommit env run i .file
  let now ← osdpMillisNow
  updMp i .file fun m => { m with waitTimeMs := delay, tstamp := now }
  let m ← getMp i .file
  if status ≥ 0x8000 then
    fileTransitionDone env run i (fileOutcomeFromWireStatus status)
  else if m.offset ≠ m.total then
    return true
  else if status = fileTxStatusKeepAlive then
    updMp i .file fun m => { m with state := .wait }
  else
    fileTransitionDone env run i (fileOutcomeFromWireStatus status)
  return true

/-- What `osdp_file_tx_get_command` asks for. -/
inductive EngineCmd where
  | send (id : Nat)
  | hold
  | nothing
  deriving DecidableEq, Repr

/-- `osdp_file_tx_get_command`. -/
def osdpFileTxGetCommand (i : Nat) : OsdpM EngineCmd := do
  let p ← getPd i
  if !osdpFileTxIsActive p then
    return .nothing
  osdpMpEmitStart env run i .file
  let p ← getPd i
  let f := p.file.getD {}
  if f.errors > fileErrorRetryMax ∨ f.mp.cancelReq then
    fileTransitionDone env run i .aborted
    return .send cmdAbort
  let now ← osdpMillisNow
  match osdpMpTxNext f.mp now with
  | .wait =>
    return if f.flags &&& fileTxFlagExclusive != 0 then .hold else .nothing
  | .data =>
    return if f.flags &&& fileTxFlagPollResp != 0 then .send cmdPoll
      else .send cmdFiletransfer
  | .done => return .nothing

-- ============================================================== receiver

/-- Open the file and arm the engine; false when the file will not open. -/
def fileArmReceive (i type total : Nat) : OsdpM Bool := do
  let s ← get
  observe (.file i (.open type total))
  if (env.fileOps.openFile s.log type total).1 < 0 then
    return false
  fileStateReset i
  updFile i fun f =>
    { f with
      fileId := type
      isOpen := true
      mp := { f.mp with msgType := some .fileTransfer, objectId := type } }
  osdpMpRxInit i .file .w32 total
  osdpMpEmitStart env run i .file
  return true

/-- The opening half of `osdp_file_cmd_tx_decode`: ask the application,
open the file and arm the engine.  False refuses the frame. -/
def fileOpenReceive (i : Nat) (buf : Bytes) : OsdpM Bool := do
  let type := (byteAt buf 0).toNat
  let body := buf.drop 1
  match osdpMpHdrRead .w32 body with
  | none => return false
  | some (total, _, dlen) =>
    if body.length < mpHdrSize .w32 + dlen then
      return false
    let p ← getPd i
    if env.commandCallback.isSome then
      let (ret, _) ← callCommandCallback env run i
        (.fileTx type (p.file.getD {}).flags)
      if ret < 0 then
        return false
    fileArmReceive env run i type total

/-- What `osdp_file_cmd_tx_decode` makes of the engine's verdict. -/
def fileRxVerdict (i : Nat) (openedNow : Bool) (mrc : MpRc) :
    OsdpM Bool := do
  let p ← getPd i
  if mrc = .err then
    if (p.file.getD {}).writeFailed then
      return true
    updFile i fun f => { f with errors := f.errors + 1 }
    if openedNow then
      fileTransitionDone env run i .aborted
    return false
  if mrc = .earlyTerm then
    updFile i fun f => { f with keepAlivePending := true }
    return true
  if (p.mp .file).lastLen = 0 then
    updFile i fun f => { f with keepAlivePending := true }
  return true

/-- `osdp_file_cmd_tx_decode`: false where the C function returns -1. -/
def osdpFileCmdTxDecode (i : Nat) (buf : Bytes) : OsdpM Bool := do
  let p ← getPd i
  if p.file.isNone then
    return false
  if buf.length < 11 then
    return false
  let openedNow := !(p.mp .file).isActive
  if openedNow then
    if !(← fileOpenReceive env run i buf) then
      return false
  let (mrc, _) ← osdpMpRxConsumeEx env i .file (buf.drop 1) 0
  fileRxVerdict env run i openedNow mrc

/-- The bytes of FTSTAT. -/
def fileStatBytes (status delay : Nat) : Bytes :=
  0x01 :: (writeLe 2 delay ++ writeLe 2 status ++ [0, 0])

/-- The end of file in `osdp_file_cmd_stat_build`: status and delay. -/
def fileStatAtEof (i : Nat) : OsdpM (Nat × Nat) := do
  match env.fileOps.finalize with
  | none =>
    fileTransitionDone env run i .ok
    return (fileWireStatusFromOutcome .ok, 0)
  | some fin =>
    let s ← get
    observe (.file i .finalize)
    let (ready, outcome, delay) := fin s.log
    if ready then
      fileTransitionDone env run i outcome
      return (fileWireStatusFromOutcome outcome, 0)
    let now ← osdpMillisNow
    updFile i fun f =>
      { f with
        finalizeTstamp := if f.finalizeTstamp = 0 then now
          else f.finalizeTstamp }
    let p ← getPd i
    if now - (p.file.getD {}).finalizeTstamp < fileFinalizeTimeoutMs then
      return (fileTxStatusKeepAlive, delay)
    fileTransitionDone env run i .aborted
    return (fileTxStatusErrAbort, 0)

/-- `osdp_file_cmd_stat_build`: the data block of REPLY_FTSTAT. -/
def osdpFileCmdStatBuild (i : Nat) (maxLen : Int) : OsdpM (Option Bytes) := do
  let p ← getPd i
  if p.file.isNone || !(p.mp .file).isActive then
    return none
  if maxLen < 7 then
    return none
  let f := p.file.getD {}
  if f.writeFailed then
    fileTransitionDone env run i .aborted
    return some (fileStatBytes fileTxStatusErrAbort 0)
  let mut status := fileTxStatusAck
  if f.keepAlivePending then
    updFile i fun f => { f with keepAlivePending := false }
  else if f.mp.lastLen > 0 then
    osdpMpRxCommit env run i .file
  else
    status := fileTxStatusErrInvalid
  let m ← getMp i .file
  if m.offset = m.total ∧ m.total ≠ 0 then
    let (st, delay) ← fileStatAtEof env run i
    return some (fileStatBytes st delay)
  return some (fileStatBytes status 0)

-- ========================================================= control plane

/-- `osdp_file_tx_request_cancel`: false when no transfer is running. -/
def osdpFileTxRequestCancel (i : Nat) : OsdpM Bool := do
  let p ← getPd i
  if !osdpFileTxIsActive p then
    return false
  updMp i .file fun m => { m with cancelReq := true }
  return true

end LibOsdp
