/-
One refresh of a PD (osdp_pd.c, `osdp_pd_update`): time-outs, one frame
in, one reply out, and what a sent reply commits.

# Phases

    expire -> receive -> build -> send -> commit

A finalized reply the channel would not take stays parked in the transmit
buffer; the next refresh then skips receiving and building and goes
straight to the send.  What is committed after the send is read off
`cmd_id` and `reply_id`, so the exchange these name is the one that
counts, whenever it was decoded.
-/
import LibOsdp.Pd.Build

namespace LibOsdp

open Lib

variable (env : Env) (run : List ApiCall → OsdpM Unit)

-- ============================================================= receive

/-- The PD's reading of a frame check that did not say OK. -/
def pdErrorOfPhy (err : Int) : Int :=
  if err = errPktNack then pdErrReply
  else if err = errPktNoData then pdErrNoData
  else if err = errPktWait then pdErrWait
  else if err = errPktSkip then pdErrIgnore
  else if err = errPktFmt then pdErrGeneric
  else err

/-- The PD's reading of a decode that yielded no payload. -/
def pdErrorOfDecode (len : Int) : Int :=
  if len = errPktNack then pdErrReply else pdErrGeneric

/-- The second half of `pd_receive_and_process_command`, on a frame that
passed the checks. -/
def pdProcessFrame (i : Nat) : OsdpM Int := do
  let (len, payload) ← osdpPhyDecodePacket env i
  if len ≤ 0 then
    return pdErrorOfDecode len
  let p ← getPd i
  observe (.decoded i payload p.flags.scActive)
  let ret ← pdDecodeCommand env run i payload
  observe (.verdict i payload ret)
  return ret

/-- An exchange begins. -/
def pdListen (i : Nat) : OsdpM Unit := do
  updPd i fun p => { p with replyPrebuilt := false }
  observe (.receive i)

/-- `pd_receive_and_process_command`. -/
def pdReceiveAndProcessCommand (i : Nat) : OsdpM Int := do
  pdListen i
  let err ← osdpPhyCheckPacket env i
  if err = errPktNone then
    pdProcessFrame env run i
  else
    if err = errPktSkip then
      osdpPhyStateReset env i false
    return pdErrorOfPhy err

-- ============================================================ time-outs

/-- `pd_error_reset`. -/
def pdErrorReset (i : Nat) : OsdpM Unit := do
  pdCompleteActive env run i .failed
  pdScDeactivate env run i
  osdpPhyStateReset env i false

/-- A session nobody used for long enough is over. -/
def pdExpireSession (i : Nat) : OsdpM Unit := do
  let p ← getPd i
  let age ← osdpMillisSince p.scTstamp
  if p.flags.scActive ∧ age > pdScTimeoutMs then
    pdScDeactivate env run i

/-- A CP that was silent for long enough is gone, and its transfers with
it. -/
def pdExpireLink (i : Nat) : OsdpM Unit := do
  let p ← getPd i
  let age ← osdpMillisSince p.tstamp
  if p.flags.online ∧ age > pdOnlineToutMs then
    updPd i fun p => { p with flags := { p.flags with online := false } }
    osdpEnginesAbort env run i
    notifyPdStatus env run i false

/-- A frame is about to be answered: the link is up. -/
def pdMarkOnline (i : Nat) : OsdpM Unit := do
  let p ← getPd i
  if !p.flags.online then
    updPd i fun p => { p with flags := { p.flags with online := true } }
    notifyPdStatus env run i true

/-- An accepted command keeps the session alive. -/
def pdTouchSession (i : Nat) (ret : Int) : OsdpM Unit := do
  let p ← getPd i
  if ret = pdErrNone ∧ p.flags.scActive then
    let now ← osdpMillisNow
    updPd i fun p => { p with scTstamp := now }

-- ============================================================== commits

/-- A KEYSET was acknowledged: the parked key takes over and the session
under the old one ends. -/
def pdCommitKeyset (i : Nat) : OsdpM Unit := do
  let p ← getPd i
  observe (.keyCommit i p.pending)
  updPd i fun p =>
    { p with
      sc := { p.sc with scbk := p.pending }
      pending := zeros 16
      flags := { p.flags with scUseScbkd := false, installMode := false } }
  pdScDeactivate env run i

/-- A COMSET was answered: the parked address and baud rate take over. -/
def pdCommitComset (i : Nat) : OsdpM Unit := do
  let p ← getPd i
  let baud := UInt32.ofNat (readLe 4 (p.pending.drop 4))
  let _ ← doCommandCallback env run i (.comsetDone p.nakCode baud)
  updPd i fun p =>
    { p with
      address := p.nakCode.toNat
      baudRate := UInt32.ofNat (readLe 4 (p.pending.drop 4)) }

/-- What the reply just sent commits. -/
def pdCommit (i : Nat) : OsdpM Unit := do
  let p ← getPd i
  if p.cmdId = cmdKeyset ∧ p.replyId = replyAck then
    pdCommitKeyset env run i
  else if p.cmdId = cmdComset ∧ p.replyId = replyCom then
    pdCommitComset env run i

-- ========================================================== the refresh

/-- From the finalized reply in the transmit buffer to the end of the
refresh. -/
def pdSendStage (i : Nat) : OsdpM Unit := do
  let ret ← pdSendReply env i
  if ret = pdErrRetrySend then
    return
  if ret = pdErrNone then
    pdCompleteActive env run i .ok
    pdCommit env run i
    osdpPhyProgressSequence i
  else
    pdCompleteActive env run i .failed
  osdpPhyStateReset env i false

/-- From a processed frame to the end of the refresh; `ret` says whether
the command was accepted. -/
def pdReplyStage (i : Nat) (ret : Int) : OsdpM Unit := do
  pdMarkOnline env run i
  pdTouchSession i ret
  let p ← getPd i
  if p.replyPrebuilt then
    pdSendStage env run i
  else
    let built ← pdBuildReplyPacket env run i
    if built ≠ pdErrNone then
      pdErrorReset env run i
    else
      pdSendStage env run i

/-- `osdp_pd_update` past the time-outs. -/
def pdServe (i : Nat) : OsdpM Unit := do
  let p ← getPd i
  if p.replyPrebuilt then
    pdSendStage env run i
  else
    let ret ← pdReceiveAndProcessCommand env run i
    if ret = pdErrIgnore ∨ ret = pdErrNoData then
      return
    let p ← getPd i
    let age ← osdpMillisSince p.tstamp
    if ret = pdErrWait ∧ age < respToutMs then
      return
    if ret ≠ pdErrNone ∧ ret ≠ pdErrReply then
      pdErrorReset env run i
    else
      pdReplyStage env run i ret

/-- `osdp_pd_update`. -/
def osdpPdUpdate (i : Nat) : OsdpM Unit := do
  pdExpireSession env run i
  pdExpireLink env run i
  pdServe env run i

end LibOsdp
