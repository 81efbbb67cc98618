/-
The CP's protocol state machine (osdp_cp.c, `cp_keyset_complete` to
`state_update`).

# One pass

    exchange -> settle -> choose the next state -> effects -> requests
             -> enter

A pass that finds the exchange still running does nothing else.  An
exchange that is over, well or badly, is settled first: the reply is
judged by `reply_id` and `cmd_id`, the application's command is
completed, and the phy layer is reset.

# What a failed exchange is judged by

The phy state ERR only presets the error.  The judgement is the same as
after DONE, on whatever `reply_id` was left there.
-/
import LibOsdp.Cp.Command

namespace LibOsdp

open Lib

variable (env : Env) (run : List ApiCall → OsdpM Unit)

-- ======================================================== the judgement

/-- `cp_state_is_online`. -/
def cpStateIsOnline : CpState → Bool
  | .online | .trsSetup | .trsRun => true
  | _ => false

/-- `cp_is_online`. -/
def cpIsOnline (p : OsdpPd) : Bool := cpStateIsOnline p.state

/-- The key of the KEYSET that is active. -/
def activeKey (p : OsdpPd) : Option Bytes :=
  match p.activeCmd with
  | some ⟨_, _, .keyset _ _ data⟩ => some (fieldBytes data 16)
  | _ => none

/-- The first half of `cp_keyset_complete`: the stored key is replaced,
or the default key is done with. -/
def cpTakeKey (i : Nat) : OsdpM Unit := do
  let p ← getPd i
  if p.flags.scUseScbkd then
    updPd i fun p => { p with flags := { p.flags with scUseScbkd := false } }
  else
    match activeKey p with
    | none => return
    | some key =>
      observe (.keyCommit i key)
      updPd i fun p => { p with sc := { p.sc with scbk := key } }

/-- `cp_keyset_complete`. -/
def cpKeysetComplete (i : Nat) : OsdpM Unit := do
  cpTakeKey i
  scDeactivate i
  cpNotifyScStatus env run i
  let p ← getPd i
  if cpIsOnline p then
    makeRequest i .restartSc

/-- A reply POLL may draw. -/
def isPollResponse (id : Nat) : Bool :=
  match id with
  | replyLstatr | replyIstatr | replyOstatr | replyRstatr | replyMfgrep
  | replyMfgstatr | replyMfgerrr | replyBioreadr | replyBiomatchr
  | replyPivdatar | replyGenauthr | replyCrauthr | replyRaw | replyKeypad
  | replyXrd => true
  | _ => false

/-- The replies, ACK aside, a command other than POLL permits. -/
def isExpectedResponse (cmdId replyId : Nat) (trsError : Bool) : Bool :=
  match cmdId with
  | cmdFiletransfer => replyId == replyFtstat
  | cmdComset => replyId == replyCom
  | cmdMfg => replyId == replyMfgrep || replyId == replyMfgstatr
  | cmdBioread => replyId == replyBioreadr
  | cmdBiomatch => replyId == replyBiomatchr
  | cmdPivdata => replyId == replyPivdatar
  | cmdGenauth => replyId == replyGenauthr
  | cmdCrauth => replyId == replyCrauthr
  | cmdLstat => replyId == replyLstatr
  | cmdIstat => replyId == replyIstatr
  | cmdOstat | cmdOut => replyId == replyOstatr
  | cmdRstat => replyId == replyRstatr
  | cmdXwr => replyId == replyXrd && !trsError
  | _ => false

/-- What `cp_check_online_response` permits. -/
def onlineResponseOk (p : OsdpPd) : Bool :=
  if p.replyId = replyAck then true
  else if p.replyId = replyNak ∨ p.replyId = replyInvalid then false
  else if p.cmdId = cmdPoll then isPollResponse p.replyId || p.flags.ignoreUsr
  else isExpectedResponse p.cmdId p.replyId p.trs.replyError

/-- `cp_check_online_response`. -/
def cpCheckOnlineResponse (i : Nat) : OsdpM Bool := do
  let p ← getPd i
  if p.replyId = replyAck ∧ p.cmdId = cmdKeyset then
    cpKeysetComplete env run i
  return onlineResponseOk p

/-- `state_check_reply`. -/
def stateCheckReply (i : Nat) : OsdpM Bool := do
  let p ← getPd i
  match p.state with
  | .init => return p.replyId == replyPdid
  | .capdet => return p.replyId == replyPdcap
  | .scChlng => return p.replyId == replyCcrypt
  | .scScrypt => return p.replyId == replyRmacI
  | .setScbk => return p.replyId == replyAck
  | .online | .trsSetup | .trsRun => cpCheckOnlineResponse env run i
  | .offline | .disabled => return false

-- ======================================================== soft failures

/-- `cp_trs_cmd_is_app_owned`. -/
def cpTrsCmdIsAppOwned (p : OsdpPd) : Bool :=
  p.trs.state == .xmit && !p.trs.scan.asking

/-- `cp_cmd_is_app_owned`. -/
def cpCmdIsAppOwned (p : OsdpPd) : Bool :=
  match p.cmdId with
  | cmdXwr => cpTrsCmdIsAppOwned p
  | cmdOut | cmdLed | cmdBuz | cmdText | cmdTdset | cmdIstat | cmdOstat
  | cmdLstat | cmdRstat | cmdComset | cmdKeyset | cmdMfg | cmdBioread
  | cmdBiomatch | cmdPivdata | cmdGenauth | cmdCrauth
  | cmdFiletransfer => true
  | _ => false

/-- `cp_nak_code_is_app_level`. -/
def cpNakCodeIsAppLevel (code : UInt8) : Bool :=
  code == nakCmdLen || code == nakCmdUnknown || code == nakBioType ||
    code == nakBioFmt || code == nakRecord

/-- A NAK to a card command that says nothing about the link. -/
def isCardNak (p : OsdpPd) : Bool :=
  p.cmdId == cmdXwr && p.replyId == replyNak && p.nakCode != nakSeqNum &&
    p.nakCode != nakScUnsup && p.nakCode != nakScCond

/-- `cp_cmd_failure_is_soft`. -/
def cpCmdFailureIsSoft (p : OsdpPd) : Bool :=
  cpIsOnline p && p.phyState == .done && cpCmdIsAppOwned p &&
    ((p.cmdId == cmdMfg && p.replyId == replyMfgerrr) ||
      p.replyId == replyBusy ||
      (p.cmdId == cmdXwr && p.replyId == replyXrd && p.trs.replyError) ||
      isCardNak p ||
      (p.replyId == replyNak && cpNakCodeIsAppLevel p.nakCode))

-- ================================================================ settle

/-- Hand the command back, or over to the biometric engine that is still
collecting its reply. -/
def cpSettleCommand (i : Nat) (status : Bool) : OsdpM Unit := do
  let p ← getPd i
  if status && p.activeCmd.isSome && p.engineCmd.isNone &&
      osdpBioOwnsCmd p p.cmdId then
    updPd i fun p =>
      { p with engineCmd := p.activeCmd, engineCmdMpType := .bioread }
  else
    cpCompleteCmd env run i p.activeCmd (if status then .ok else .failed)
  setActiveCmd i none

/-- What a refused command leaves to clean up when the link stays up. -/
def cpAbortRefused (i : Nat) : OsdpM Unit := do
  let p ← getPd i
  if p.cmdId = cmdFiletransfer then
    osdpFileTxAbort env run i
  let p ← getPd i
  if osdpPivOwnsCmd p p.cmdId then
    osdpPivAbort env run i

/-- The error a failed exchange amounts to. -/
def cpSettleFailure (i : Nat) : OsdpM Int := do
  let p ← getPd i
  if cpCmdFailureIsSoft p then
    cpAbortRefused env run i
    return cpErrNone
  else
    return cpErrGeneric

/-- The middle of `state_update`, on an exchange that is over: the error
the transition is chosen by. -/
def cpSettle (i : Nat) (err : Int) : OsdpM Int := do
  let status ← stateCheckReply env run i
  cpSettleCommand env run i status
  let err ← if status then pure err else cpSettleFailure env run i
  osdpPhyStateReset env i false
  return err

-- ========================================================== transitions

/-- `cp_sc_should_retry`. -/
def cpScShouldRetry (now : Int) (p : OsdpPd) : Bool :=
  p.scIsCapable && !p.flags.scActive && decide (now - p.scTstamp > pdScRetryMs)

/-- `get_next_ok_state`. -/
def getNextOkState (now : Int) (p : OsdpPd) : Option CpState :=
  match p.state with
  | .init => some .capdet
  | .capdet =>
    if p.scIsCapable then some .scChlng
    else if p.flags.enforceSecure then some .offline
    else some .online
  | .scChlng => some .scScrypt
  | .scScrypt => some (if p.flags.scUseScbkd then .setScbk else .online)
  | .setScbk => some .scChlng
  | .online => some (if cpScShouldRetry now p then .scChlng else .online)
  | .offline => some (if now - p.tstamp > p.waitMs then .init else .offline)
  | .disabled => some .disabled
  | .trsSetup | .trsRun => none

/-- `get_next_err_state`. -/
def getNextErrState (p : OsdpPd) : Option CpState :=
  match p.state with
  | .init | .capdet | .online | .offline => some .offline
  | .scChlng =>
    if p.flags.enforceSecure then some .offline
    else if !p.flags.scUseScbkd && !p.flags.scEstablished then some .scChlng
    else some .online
  | .scScrypt => some (if p.flags.enforceSecure then .offline else .online)
  | .setScbk =>
    some
      (if p.flags.enforceSecure || p.flags.scUseScbkd then .offline
      else .online)
  | .disabled => some .disabled
  | .trsSetup | .trsRun => none

/-- `get_next_state`. -/
def getNextState (i : Nat) (err : Int) : OsdpM CpState := do
  let p ← getPd i
  let now ← osdpMillisNow
  match if err = cpErrNone then getNextOkState now p else getNextErrState p with
  | some next => return next
  | none => throw .bug

/-- PD_FLAG_SC_USE_SCBKD, set or cleared. -/
def setUseScbkd (i : Nat) (b : Bool) : OsdpM Unit :=
  updPd i fun p => { p with flags := { p.flags with scUseScbkd := b } }

/-- `cp_transition_effects` after a success. -/
def cpOkEffects (i : Nat) (cur next : CpState) : OsdpM Unit := do
  match cur with
  | .capdet => if next = .scChlng then setUseScbkd i false
  | .scScrypt =>
    scActivate i
    cpNotifyScStatus env run i
    if next ≠ .setScbk then
      updPd i fun p =>
        { p with flags := { p.flags with scEstablished := true } }
  | .setScbk => cpKeysetComplete env run i
  | _ => return

/-- `cp_transition_effects` after a failure. -/
def cpErrEffects (i : Nat) (cur next : CpState) : OsdpM Unit := do
  match cur with
  | .scChlng =>
    if next = .offline then
      return
    else if next = .scChlng then
      setUseScbkd i true
    else
      setUseScbkd i false
      let now ← osdpMillisNow
      updPd i fun p => { p with scTstamp := now }
  | .setScbk =>
    scDeactivate i
    cpNotifyScStatus env run i
  | _ => return

/-- `cp_transition_effects`. -/
def cpTransitionEffects (i : Nat) (cur next : CpState) (err : Int) :
    OsdpM Unit :=
  if err = cpErrNone then cpOkEffects env run i cur next
  else cpErrEffects env run i cur next

/-- The requests that apply while online. -/
def cpOnlineRequests (i : Nat) (next : CpState) : OsdpM (CpState × Bool) := do
  let mut next := next
  if ← checkRequest i .restartSc then
    osdpPhyStateReset env i true
    next := .scChlng
  if ← checkRequest i .offline then
    next := .offline
  if ← checkRequest i .trsOpen then
    next := .trsSetup
  if ← checkRequest i .trsScan then
    return (.trsSetup, true)
  return (next, false)

/-- The next state of a card session. -/
def cpTrsNext (i : Nat) (err : Int) : OsdpM CpState := do
  let p ← getPd i
  let (t, next) := if err = cpErrNone then osdpTrsStateUpdate p.replyId p.trs
    else osdpTrsStateUpdateErr p.replyId p.trs
  updTrs i fun _ => { t with scan := { t.scan with declined := false } }
  if t.scan.declined then
    cpNotifyTrsStatus env run i .scanNoDeparture
  return next

/-- The next state by the protocol's own lights, and whether it opens a
probe. -/
def cpProtocolNext (i : Nat) (cur : CpState) (err : Int) :
    OsdpM (CpState × Bool) := do
  if ← checkRequest i .linkReset then
    return (.offline, false)
  if cur = .trsSetup ∨ cur = .trsRun then
    return (← cpTrsNext env run i err, false)
  let next ← getNextState i err
  cpTransitionEffects env run i cur next err
  let p ← getPd i
  if p.state = .online ∨ next = .online then
    cpOnlineRequests env i next
  else
    return (next, false)

/-- The application's verdict on whether the PD takes part at all. -/
def cpLifecycle (i : Nat) (next : CpState) : OsdpM CpState := do
  let mut next := next
  if ← checkRequest i .disable then
    next := .disabled
  if ← checkRequest i .enable then
    next := .init
  return next

-- ================================================================= entry

/-- The end of a card session, as `cp_state_change` handles it. -/
def cpLeaveTrs (i : Nat) : OsdpM Unit := do
  let p ← getPd i
  if p.trs.probe then
    let now ← osdpMillisNow
    let (t, refused) := osdpTrsProbeClose now p.trs
    updTrs i fun _ => t
    if refused then
      cpNotifyTrsStatus env run i .scanSuspended
  else
    if p.trs.stopPending then
      cpFlushTrsBand env run i
    let p ← getPd i
    cpNotifyTrsStatus env run i (if p.trs.failed then .failed else .closed)

/-- The requests a session leaves behind. -/
def cpDropSessionRequests (i : Nat) : OsdpM Unit :=
  updPd i fun p =>
    { p with
      request := (p.request.put .restartSc false).put .offline false }

/-- Entry into OFFLINE. -/
def cpEnterOffline (i : Nat) : OsdpM Unit := do
  let now ← osdpMillisNow
  updPd i fun p => { p with tstamp := now, waitMs := onlineRetryWaitMaxMs }
  cpDropSessionRequests i
  scDeactivate i
  cpNotifyScStatus env run i
  osdpEnginesAbort env run i

/-- Entry into DISABLED. -/
def cpEnterDisabled (i : Nat) : OsdpM Unit := do
  cpDropSessionRequests i
  scDeactivate i
  cpNotifyScStatus env run i
  osdpEnginesAbort env run i
  osdpPhyStateReset env i true

/-- Entry into TRS_SETUP. -/
def cpEnterTrsSetup (i : Nat) : OsdpM Unit :=
  updPd i fun p =>
    { p with
      trs :=
        { p.trs with
          state := .setMode, mode := trsMode00, failed := false
          stopPending := true }
      flags := { p.flags with trsActive := true } }

/-- Entry into TRS_RUN from TRS_SETUP. -/
def cpEnterTrsRun (i : Nat) : OsdpM Unit := do
  let p ← getPd i
  if p.trs.probe then
    let now ← osdpMillisNow
    updTrs i (osdpTrsProbeNoteRun now)
  else
    cpNotifyTrsStatus env run i .opened

/-- Entry into SC_CHLNG. -/
def cpEnterScChlng (i : Nat) : OsdpM Unit := do
  osdpPhyStateReset env i true
  osdpScSetup env i
  let p ← getPd i
  observe (.challenged i p.sc.cpRandom)

/-- The entry actions of `cp_state_change`. -/
def cpEnter (i : Nat) (cur next : CpState) : OsdpM Unit := do
  match next with
  | .init =>
    osdpPhyStateReset env i true
    let now ← osdpMillisNow
    updTrs i (osdpTrsProbeReset now)
  | .online =>
    updPd i fun p => { p with flags := { p.flags with trsActive := false } }
    if cur = .trsSetup ∨ cur = .trsRun then
      cpLeaveTrs env run i
  | .offline => cpEnterOffline env run i
  | .scChlng => cpEnterScChlng env i
  | .disabled => cpEnterDisabled env run i
  | .trsSetup => cpEnterTrsSetup i
  | .trsRun => if cur = .trsSetup then cpEnterTrsRun env run i
  | _ => return

/-- `cp_state_change`. -/
def cpStateChange (i : Nat) (cur next : CpState) : OsdpM Unit := do
  cpEnter env run i cur next
  updPd i fun p => { p with state := next }
  if cpStateIsOnline cur != cpStateIsOnline next then
    cpNotifyPdStatus env run i (cpStateIsOnline next)

-- ============================================================== the pass

/-- `state_update` from the choice of the next state on. -/
def cpAdvance (i : Nat) (cur : CpState) (err : Int) : OsdpM Unit := do
  let (next, probeOpen) ← cpProtocolNext env run i cur err
  let next ← cpLifecycle i next
  if cur ≠ next then
    cpStateChange env run i cur next
  if probeOpen && next == .trsSetup then
    updTrs i osdpTrsProbeNoteOpen

/-- IDLE: choose a command.  True when there is one to send. -/
def cpKick (i : Nat) : OsdpM Bool := do
  let id ← stateGetCmd env run i
  updPd i fun p => { p with cmdId := id }
  let p ← getPd i
  if id ≠ cmdInvalid ∧ p.phyState = .idle then
    setPhyState i .sendCmd
    return true
  return false

/-- `state_update` past the exchange. -/
def cpProceed (i : Nat) (cur : CpState) : OsdpM Unit := do
  let p ← getPd i
  match p.phyState with
  | .idle =>
    if ← cpKick env run i then
      return
    else
      cpAdvance env run i cur cpErrNone
  | .err => do
    let err ← cpSettle env run i cpErrGeneric
    cpAdvance env run i cur err
  | .done => do
    let err ← cpSettle env run i cpErrNone
    cpAdvance env run i cur err
  | _ => throw .bug

/-- `state_update`. -/
def stateUpdate (i : Nat) : OsdpM Unit := do
  let p ← getPd i
  if cpPhyRunning p then
    let err ← cpPhyStateUpdate env run i
    if err = cpErrInprog ∨ err = cpErrDefer then
      return
    else
      cpProceed env run i p.state
  else
    cpProceed env run i p.state

end LibOsdp
