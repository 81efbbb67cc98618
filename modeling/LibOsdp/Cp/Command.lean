/-
What the CP sends next (osdp_cp.c, `cp_setup_active_cmd` to
`state_get_cmd`).

Priority is positional: the application's queue, the transfer engines,
the presence scan, and last the paced POLL.  Zero stands for the C
function's -1: nothing is sent this round.

# Completions on the way

A command that cannot be translated, and the markers of a card session,
are completed here and never reach the wire.
-/
import LibOsdp.Cp.Phy

namespace LibOsdp

open Lib

variable (env : Env) (run : List ApiCall → OsdpM Unit)

-- ============================================================ the queue

/-- `pd->active_cmd = cmd`. -/
def setActiveCmd (i : Nat) (cmd : Option SubmittedCmd) : OsdpM Unit :=
  updPd i fun p => { p with activeCmd := cmd }

/-- `cp_cmd_dequeue`. -/
def cpCmdDequeue (i : Nat) : OsdpM (Option SubmittedCmd) := do
  let p ← getPd i
  match p.cmdQueue with
  | [] => return none
  | cmd :: rest =>
    updPd i fun p => { p with cmdQueue := rest }
    return some cmd

/-- `cp_cmd_is_trs(cmd, OSDP_TRS_CMD_START)`. -/
def isTrsStart (c : SubmittedCmd) : Bool :=
  match c.cmd with
  | .xwr .start => true
  | _ => false

/-- `cp_cmd_is_trs(cmd, OSDP_TRS_CMD_STOP)`. -/
def isTrsStop (c : SubmittedCmd) : Bool :=
  match c.cmd with
  | .xwr .stop => true
  | _ => false

/-- `cp_setup_active_cmd`. -/
def cpSetupActiveCmd (i : Nat) (cmd : SubmittedCmd) : OsdpM Nat := do
  let p ← getPd i
  let id ← cpTranslateCmd p cmd.cmd
  if cmd.broadcast then
    updPd i fun p => { p with flags := { p.flags with pktBroadcast := true } }
  if id = cmdInvalid then
    cpCompleteCmd env run i (some cmd) .failed
    setActiveCmd i none
  else
    setActiveCmd i (some cmd)
  return id

/-- `cp_discard_cmd`. -/
def cpDiscardCmd (i : Nat) (cmd : SubmittedCmd)
    (status : CompletionStatus) : OsdpM Unit := do
  cpCompleteCmd env run i (some cmd) status
  setActiveCmd i none

/-- The first loop of `cp_flush_trs_band`, on the detached queue: whether
it met the STOP, and what lies behind that. -/
def cpDrainBand (i : Nat) : List SubmittedCmd →
    OsdpM (Bool × List SubmittedCmd)
  | [] => return (false, [])
  | cmd :: rest => do
    cpCompleteCmd env run i (some cmd) .flushed
    if isTrsStop cmd then return (true, rest) else cpDrainBand i rest

/-- `cp_flush_trs_band`. -/
def cpFlushTrsBand (i : Nat) : OsdpM Unit := do
  let p ← getPd i
  updPd i fun p => { p with cmdQueue := [] }
  let (stopSeen, kept) ← cpDrainBand env run i p.cmdQueue
  updPd i fun p => { p with cmdQueue := kept ++ p.cmdQueue }
  if !stopSeen then
    updPd i fun p => { p with trs := { p.trs with bandOpen := false } }

-- ============================================================ selection

/-- `cp_get_poll_command`. -/
def cpGetPollCommand (i : Nat) : OsdpM Nat := do
  let p ← getPd i
  let now ← osdpMillisNow
  if now - p.tstamp > pdPollTimeoutMs then
    updPd i fun p => { p with tstamp := now }
    return cmdPoll
  return cmdInvalid

/-- The presence scan and the POLL: what is left when neither queue nor
engines have anything. -/
def cpGetIdleCommand (i : Nat) : OsdpM Nat := do
  let p ← getPd i
  let now ← osdpMillisNow
  if osdpTrsScanProbeDue now p then
    makeRequest i .trsScan
    return cmdInvalid
  cpGetPollCommand i

/-- The smartcard and biometric engines, then the rest. -/
def cpGetStagedCommand (i : Nat) : OsdpM Nat := do
  let piv ← osdpPivCpGetCommand env run i
  if piv ≠ 0 then
    return piv
  let bio ← osdpBioCpGetCommand env run i
  if bio ≠ 0 then
    return bio
  cpGetIdleCommand i

/-- `cp_get_online_command` with an empty queue. -/
def cpGetEngineCommand (i : Nat) : OsdpM Nat := do
  match ← osdpFileTxGetCommand env run i with
  | .send id => return id
  | .hold => return cmdInvalid
  | .nothing => cpGetStagedCommand env run i

/-- `cp_get_online_command`. -/
def cpGetOnlineCommand (i : Nat) : OsdpM Nat := do
  match ← cpCmdDequeue i with
  | none => cpGetEngineCommand env run i
  | some cmd =>
    if isTrsStart cmd then
      cpDiscardCmd env run i cmd .ok
      makeRequest i .trsOpen
      return cmdInvalid
    else
      cpSetupActiveCmd env run i cmd

/-- `pd->trs = f(pd->trs)`. -/
def updTrs (i : Nat) (f : OsdpTrs → OsdpTrs) : OsdpM Unit :=
  updPd i fun p => { p with trs := f p.trs }

/-- A card session with nothing queued: close an expired probe, ask the
scan's question, or poll. -/
def cpGetTrsIdleCommand (i : Nat) : OsdpM Nat := do
  let p ← getPd i
  let now ← osdpMillisNow
  if p.trs.probe && osdpTrsProbeExpired now p.trs then
    updTrs i fun t => { t with state := .teardown }
    return cmdXwr
  if osdpTrsScanAskDue now p.trs then
    setActiveCmd i none
    updTrs i (osdpTrsScanNoteAsk now)
    return cmdXwr
  cpGetPollCommand i

/-- `cp_get_trs_command` on a queued command that is not a START for a
probe. -/
def cpGetBandCommand (i : Nat) (cmd : SubmittedCmd) : OsdpM Nat := do
  if isTrsStop cmd then
    cpDiscardCmd env run i cmd .ok
    updTrs i fun t => { t with stopPending := false, state := .disconnectCard }
    return cmdXwr
  else
    cpSetupActiveCmd env run i cmd

/-- A START that meets a probe turns it into the band's session. -/
def cpAdoptProbe (i : Nat) (cmd : SubmittedCmd) : OsdpM Unit := do
  cpDiscardCmd env run i cmd .ok
  updTrs i osdpTrsProbeAdopted
  cpNotifyTrsStatus env run i .opened

/-- `cp_get_trs_command`.  Adopting a probe starts over with no probe
left to adopt, so two rounds are all there can be. -/
def cpGetTrsCommand (i : Nat) : Nat → OsdpM Nat
  | 0 => throw .nesting
  | rounds + 1 => do
    let p ← getPd i
    match p.trs.state with
    | .xmit =>
      match ← cpCmdDequeue i with
      | none => cpGetTrsIdleCommand i
      | some cmd =>
        let p ← getPd i
        if p.trs.probe && isTrsStart cmd then
          cpAdoptProbe env run i cmd
          cpGetTrsCommand i rounds
        else
          cpGetBandCommand env run i cmd
    | .setMode | .disconnectCard | .teardown =>
      setActiveCmd i none
      return cmdXwr
    | .done => cpGetPollCommand i

/-- `state_get_cmd`. -/
def stateGetCmd (i : Nat) : OsdpM Nat := do
  let p ← getPd i
  match p.state with
  | .init => return cmdIdent
  | .capdet => return cmdCap
  | .scChlng => return cmdChlng
  | .scScrypt => return cmdScrypt
  | .setScbk => return cmdKeyset
  | .online => cpGetOnlineCommand env run i
  | .trsSetup | .trsRun => cpGetTrsCommand env run i 2
  | .offline | .disabled => return cmdInvalid

end LibOsdp
