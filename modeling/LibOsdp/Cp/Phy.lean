/-
One exchange on the CP (osdp_cp.c, `cp_process_reply` and
`cp_phy_state_update`): a command out, a reply in, and again if need be.

    SEND_CMD -> SEND_CMD_WAIT -> REPLY_WAIT -> DONE | ERR
        ^                            |
    RETRY_CMD <-------- WAIT <-------+

# The bus

In the three states of the upper row up to REPLY_WAIT the PD owns the bus
it shares with the others: a packet lies in the transmit buffer or a
reply is outstanding.  WAIT and RETRY_CMD give it up.

# The response time

The transmit time that is added to it is computed from `packet_buf_len`
after the reset that clears it, so it is always zero.
-/
import LibOsdp.Cp.Decode

namespace LibOsdp

open Lib

variable (env : Env) (run : List ApiCall → OsdpM Unit)

-- ============================================================ requests

/-- A CP_REQ bit. -/
inductive CpReq where
  | restartSc | linkReset | offline | disable | enable | trsOpen | trsScan
  deriving DecidableEq, Repr

/-- `test_request`, on the bits. -/
def CpRequest.has (q : CpRequest) : CpReq → Bool
  | .restartSc => q.restartSc
  | .linkReset => q.linkReset
  | .offline => q.offline
  | .disable => q.disable
  | .enable => q.enable
  | .trsOpen => q.trsOpen
  | .trsScan => q.trsScan

/-- One bit, set or cleared. -/
def CpRequest.put (q : CpRequest) (r : CpReq) (b : Bool) : CpRequest :=
  match r with
  | .restartSc => { q with restartSc := b }
  | .linkReset => { q with linkReset := b }
  | .offline => { q with offline := b }
  | .disable => { q with disable := b }
  | .enable => { q with enable := b }
  | .trsOpen => { q with trsOpen := b }
  | .trsScan => { q with trsScan := b }

/-- `make_request`. -/
def makeRequest (i : Nat) (r : CpReq) : OsdpM Unit :=
  updPd i fun p => { p with request := p.request.put r true }

/-- `check_request`. -/
def checkRequest (i : Nat) (r : CpReq) : OsdpM Bool := do
  let p ← getPd i
  if p.request.has r then
    updPd i fun p => { p with request := p.request.put r false }
    return true
  return false

-- ============================================================== replies

/-- The second half of `cp_process_reply`, on a frame that passed the
checks. -/
def cpProcessFrame (i : Nat) : OsdpM Int := do
  let (len, payload) ← osdpPhyDecodePacket env i
  if len ≤ 0 then
    return cpErrGeneric
  let p ← getPd i
  observe (.decoded i payload p.flags.scActive)
  let ret ← cpDecodeResponse env run i payload
  observe (.verdict i payload ret)
  return ret

/-- A frame the checks refused with a NAK left behind. -/
def cpProcessNack (i : Nat) : OsdpM Int := do
  let p ← getPd i
  if p.nakCode = nakSeqNum then
    makeRequest i .linkReset
    return cpErrSeqNum
  if p.nakCode = nakScCond then
    makeRequest i .restartSc
  return cpErrGeneric

/-- `cp_process_reply`. -/
def cpProcessReply (i : Nat) : OsdpM Int := do
  let err ← osdpPhyCheckPacket env i
  if err = errPktNone then
    cpProcessFrame env run i
  else if err = errPktWait ∨ err = errPktNoData then
    return cpErrNoData
  else if err = errPktBusy then
    updPd i fun p => { p with replyId := replyBusy }
    return cpErrRetryCmd
  else if err = errPktNack then
    cpProcessNack i
  else
    return cpErrGeneric

-- =========================================================== phy states

/-- `pd->phy_state = st`. -/
def setPhyState (i : Nat) (st : CpPhyState) : OsdpM Unit :=
  updPd i fun p => { p with phyState := st }

/-- `cp_phy_bus_is_busy`. -/
def cpPhyBusIsBusy (p : OsdpPd) : Bool :=
  p.phyState == .sendCmd || p.phyState == .sendCmdWait ||
    p.phyState == .replyWait

/-- `cp_phy_running`. -/
def cpPhyRunning (p : OsdpPd) : Bool :=
  cpPhyBusIsBusy p || p.phyState == .wait || p.phyState == .retryCmd

/-- The exchange has failed. -/
def cpPhyFail (i : Nat) : OsdpM Int := do
  setPhyState i .err
  return cpErrGeneric

/-- `cp_phy_state_done`. -/
def cpPhyStateDone (i : Nat) : OsdpM Unit := do
  let now ← osdpMillisNow
  updPd i fun p =>
    { p with
      scTstamp := if p.flags.scActive then now else p.scTstamp
      phyRetryCount := 0
      phyState := .done }

/-- `cp_phy_state_wait`. -/
def cpPhyStateWait (i : Nat) (waitMs : Int) : OsdpM Unit := do
  let now ← osdpMillisNow
  updPd i fun p =>
    { p with waitMs := waitMs, phyTstamp := now, phyState := .wait }

/-- `cp_calculate_transmit_time`, for a nonzero baud rate. -/
def cpCalculateTransmitTime (p : OsdpPd) : Nat :=
  ((p.packetBufLen * 10000 + p.baudRate.toNat - 1) % 2 ^ 32) /
    p.baudRate.toNat

/-- A packet the channel took: now the reply is awaited.  A baud rate of
zero, which a REPLY_COM can set, ends the run in a division. -/
def cpAwaitReply (i : Nat) : OsdpM Unit := do
  osdpPhyStateReset env i false
  let now ← osdpMillisNow
  let p ← getPd i
  if p.baudRate = 0 then
    throw .bug
  updPd i fun p =>
    { p with
      replyId := replyInvalid
      phyState := .replyWait
      phyTstamp := now
      respTimeoutMs := respToutMs + cpCalculateTransmitTime p }

/-- SEND_CMD_WAIT: offer the finalized packet to the channel. -/
def cpPhySend (i : Nat) : OsdpM Int := do
  let p ← getPd i
  let rc ← osdpPhySendPacket env i p.packetBufLen
  if rc = errPktWaitTx then
    return cpErrDefer
  if rc < 0 then
    cpPhyFail i
  else
    cpAwaitReply env i
    return cpErrInprog

/-- SEND_CMD: build the packet, then offer it. -/
def cpPhyBuild (i : Nat) : OsdpM Int := do
  if ← cpBuildPacket env run i then
    setPhyState i .sendCmdWait
    cpPhySend env i
  else
    cpPhyFail i

/-- RETRY_CMD: rewind to what the command was first sent with. -/
def cpPhyRewind (i : Nat) : OsdpM Unit := do
  if env.channelFlush then
    modify fun s => { s with line := [] }
  updPd i fun p =>
    { p with seqNumber := (p.phyTxSeq : Int) - 1, phyState := .sendCmd }

/-- One more attempt, if the budget allows it. -/
def cpPhyRetry (i : Nat) : OsdpM Int := do
  updPd i fun p => { p with phyRetryCount := p.phyRetryCount + 1 }
  cpPhyStateWait i cmdRetryWaitMs
  return cpErrDefer

/-- The reply the exchange ends with, whatever `cp_process_reply` made of
it. -/
def cpReplyEnds (p : OsdpPd) (rc : Int) : Bool :=
  rc == cpErrNone || rc == cpErrSeqNum ||
    (rc == cpErrUnknown && p.cmdId == cmdPoll && p.flags.ignoreUsr)

/-- REPLY_WAIT after `cp_process_reply` said `rc`. -/
def cpPhyJudge (i : Nat) (rc : Int) : OsdpM Int := do
  let p ← getPd i
  if cpReplyEnds p rc then
    cpPhyStateDone i
    return cpErrNone
  if rc = cpErrGeneric ∨ rc = cpErrUnknown ∨ rc = cpErrApp then
    cpPhyFail i
  else if rc = cpErrRetryCmd then
    if p.phyRetryCount ≥ cmdMaxRetries then
      cpPhyStateDone i
      return cpErrNone
    else
      cpPhyRetry i
  else
    let age ← osdpMillisSince p.phyTstamp
    if age > p.respTimeoutMs then
      if p.phyRetryCount < cmdMaxRetries then cpPhyRetry i else cpPhyFail i
    else
      return cpErrInprog

/-- A decoded reply moves the sequence number on, even one the handshake
then rejects. -/
def cpPhyAcknowledge (i : Nat) (rc : Int) : OsdpM Unit := do
  if rc = cpErrNone ∨ rc = cpErrApp then
    let now ← osdpMillisNow
    updPd i fun p => { p with tstamp := now }
    osdpPhyProgressSequence i

/-- REPLY_WAIT. -/
def cpPhyReply (i : Nat) : OsdpM Int := do
  let rc ← cpProcessReply env run i
  cpPhyAcknowledge i rc
  cpPhyJudge i rc

/-- WAIT: sit out the pause between two attempts. -/
def cpPhyPause (i : Nat) : OsdpM Int := do
  let p ← getPd i
  let age ← osdpMillisSince p.phyTstamp
  if age ≥ p.waitMs then
    setPhyState i .retryCmd
  return cpErrDefer

/-- `cp_phy_state_update`. -/
def cpPhyStateUpdate (i : Nat) : OsdpM Int := do
  let p ← getPd i
  match p.phyState with
  | .done | .idle => return cpErrNone
  | .err => return cpErrGeneric
  | .wait => cpPhyPause i
  | .retryCmd => do
    cpPhyRewind env i
    cpPhyBuild env run i
  | .sendCmd => cpPhyBuild env run i
  | .sendCmdWait => cpPhySend env i
  | .replyWait => cpPhyReply env run i

end LibOsdp
