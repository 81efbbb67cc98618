/-
The CP's public interface (osdp_cp.c, exported methods) and its runs.

A run is a list of inputs: refreshes, each with the time it happens at
and the bytes that arrived since the last one, and calls the application
makes between refreshes.  Calls it makes from inside a callback come from
`Env` instead and are run by `cpRunCalls`, to the depth the run allows.

A refresh or a registration from inside a callback is turned away by the
library's own guard, so these are inputs only.
-/
import LibOsdp.Cp.Update
import LibOsdp.Common.PlainEnv
import LibOsdp.Lib.Run

namespace LibOsdp

open Lib

variable (env : Env)

-- =========================================================== submission

/-- The checks of `cp_submit_command` every command has to pass. -/
def cpSubmitRefused (s : Osdp) (p : OsdpPd) (cmd : SubmittedCmd) : Bool :=
  env.commandCompletion.isNone || p.state == .disabled || !cpIsOnline p ||
    (cmd.broadcast && (s.numPd != 1 || p.flags.enforceSecure)) ||
    decide (osdpCmdReaderNo cmd.cmd > (p.cap capReaders).numItems.toNat)

/-- The APDU checks of `cp_band_admit`. -/
def cpApduAdmit (p : OsdpPd) : TrsCmd → Bool
  | .sendApdu apdu => decide (apdu.length ≤ osdpTrsApduCapacity p false)
  | .enterPin e =>
    decide (e.apdu.length ≤ osdpTrsApduCapacity p true) &&
      osdpTrsPinEntryCheck e
  | _ => true

/-- `cp_band_admit`: where the band stands once the command has joined the
queue, unless it may not. -/
def cpBandAdmit (p : OsdpPd) (cmd : OsdpCmd) : Option Bool :=
  let isOpen := p.trs.bandOpen
  match cmd with
  | .xwr .start => if isOpen then none else some true
  | .xwr .stop => if isOpen then some false else none
  | .xwr c => if isOpen && cpApduAdmit p c then some isOpen else none
  | _ => if isOpen then none else some isOpen

/-- `cp_own_engine_cmd`. -/
def cpOwnEngineCmd (i : Nat) (cmd : SubmittedCmd) (t : MpMsg) :
    OsdpM Unit :=
  updPd i fun p => { p with engineCmd := some cmd, engineCmdMpType := t }

/-- The end of `cp_submit_command`, for commands that ride the queue. -/
def cpSubmitQueued (i : Nat) (cmd : SubmittedCmd) : OsdpM Bool := do
  let p ← getPd i
  let isXwr := wireCmdOf cmd.cmd == some cmdXwr
  if keysetRefused p cmd.cmd || (isXwr && !p.flags.trsCapable) then
    return false
  match cpBandAdmit p cmd.cmd with
  | none => return false
  | some isOpen =>
    updTrs i fun t => { t with bandOpen := isOpen }
    updPd i fun p => { p with cmdQueue := p.cmdQueue ++ [cmd] }
    return true

/-- A command a transfer engine takes over at once. -/
def cpSubmitEngine (i : Nat) (cmd : SubmittedCmd) (t : MpMsg)
    (started : Bool) : OsdpM Bool := do
  if started then
    cpOwnEngineCmd i cmd t
  return started

/-- `cp_submit_command`: false where the C function returns -1. -/
def cpSubmitCommand (i : Nat) (cmd : SubmittedCmd) : OsdpM Bool := do
  let s ← get
  let p ← getPd i
  if cpSubmitRefused env s p cmd then
    return false
  match cmd.cmd with
  | .fileTx id flags => do
    let ok ← osdpFileTxCommand env i id flags
    cpSubmitEngine i cmd .fileTransfer ok
  | .pivdata _ => do
    let ok ← osdpPivCpSubmit i cmd.cmd
    cpSubmitEngine i cmd .piv ok
  | .genauth _ => do
    let ok ← osdpPivCpSubmit i cmd.cmd
    cpSubmitEngine i cmd .genauth ok
  | .crauth _ => do
    let ok ← osdpPivCpSubmit i cmd.cmd
    cpSubmitEngine i cmd .crauth ok
  | _ => cpSubmitQueued i cmd

/-- `osdp_cp_submit_command`. -/
def osdpCpSubmitCommand (i : Nat) (cmd : SubmittedCmd) : OsdpM Bool := do
  let s ← get
  if s.tearingDown ∨ i ≥ s.numPd then
    return false
  modify fun s => { s with running := true }
  let ok ← cpSubmitCommand env i cmd
  modify fun t => { t with running := s.running }
  if ok then
    observe (.accepted i cmd.node)
  return ok

-- ========================================================= flags, states

/-- `osdp_cp_cancel`. -/
def osdpCpCancel (i : Nat) (what : MpMsg) : OsdpM Bool := do
  let s ← get
  if s.tearingDown ∨ i ≥ s.numPd then
    return false
  match what with
  | .fileTransfer => osdpFileTxRequestCancel i
  | .bioread => osdpBioRequestCancel i
  | _ => osdpPivRequestCancel i what

/-- The flags `m` names, set or cleared. -/
def CpFlagMask.apply (m : CpFlagMask) (doSet : Bool) (f : PdFlags) :
    PdFlags :=
  { f with
    enforceSecure := if m.enforceSecure then doSet else f.enforceSecure
    ignoreUsr := if m.ignUnsolicited then doSet else f.ignoreUsr
    enableNotif := if m.enableNotification then doSet else f.enableNotif
    allowEmptyEdb := if m.allowEmptyEdb then doSet else f.allowEmptyEdb }

/-- `osdp_cp_modify_flag`. -/
def osdpCpModifyFlag (i : Nat) (m : CpFlagMask) (doSet : Bool) :
    OsdpM Bool := do
  let s ← get
  if i ≥ s.numPd ∨ m.other then
    return false
  let p ← getPd i
  if m.enforceSecure && (!doSet || p.flags.scDisabled) then
    return false
  updPd i fun p => { p with flags := m.apply doSet p.flags }
  return true

/-- `osdp_cp_disable_pd`. -/
def osdpCpDisablePd (i : Nat) : OsdpM Bool := do
  let s ← get
  let p ← getPd i
  if i ≥ s.numPd ∨ p.state = .disabled ∨ p.request.disable then
    return false
  makeRequest i .disable
  return true

/-- `osdp_cp_enable_pd`. -/
def osdpCpEnablePd (i : Nat) : OsdpM Bool := do
  let s ← get
  let p ← getPd i
  if i ≥ s.numPd ∨ p.state ≠ .disabled ∨ p.request.enable then
    return false
  makeRequest i .enable
  return true

/-- A dwell of the presence scan, or its default. -/
def scanParam (v : Nat) (dflt : Int) : Int := if v = 0 then dflt else v

/-- `osdp_cp_trs_scan_enable`. -/
def osdpCpTrsScanEnable (i : Nat) (params : TrsScanParams) :
    OsdpM Bool := do
  let s ← get
  if i ≥ s.numPd then
    return false
  updTrs i fun t =>
    { t with
      scan :=
        { t.scan with
          mode0DwellMs := scanParam params.mode0DwellMs trsScanMode0DwellMs
          mode1DwellMs := scanParam params.mode1DwellMs trsScanMode1DwellMs
          holdMs := scanParam params.holdMs trsScanHoldMs
          backoffMs := 0
          holding := false
          tstamp := s.now
          lastStatus := .unknown
          enabled := true } }
  return true

/-- `osdp_cp_trs_scan_disable`. -/
def osdpCpTrsScanDisable (i : Nat) : OsdpM Bool := do
  let s ← get
  if i ≥ s.numPd then
    return false
  updTrs i fun t =>
    { t with
      scan := { t.scan with enabled := false, holding := false, backoffMs := 0 } }
  return true

-- ========================================= calls that reach a callback

section Nested

variable (run : List ApiCall → OsdpM Unit)

/-- The loop of `cp_drain_queue`, on the detached queue. -/
def cpDrain (i : Nat) (status : CompletionStatus) :
    List SubmittedCmd → OsdpM Unit
  | [] => return
  | cmd :: rest => do
    cpCompleteCmd env run i (some cmd) status
    cpDrain i status rest

/-- `cp_drain_queue`. -/
def cpDrainQueue (i : Nat) (status : CompletionStatus) : OsdpM Unit := do
  let p ← getPd i
  updPd i fun p => { p with cmdQueue := [] }
  cpDrain env run i status p.cmdQueue

/-- `osdp_cp_flush_commands`. -/
def osdpCpFlushCommands (i : Nat) : OsdpM Unit := do
  let s ← get
  if s.tearingDown ∨ i ≥ s.numPd then
    return
  modify fun s => { s with running := true }
  cpDrainQueue env run i .flushed
  modify fun t => { t with running := s.running }
  updPd i fun p =>
    { p with
      trs := { p.trs with bandOpen := p.flags.trsActive && p.trs.stopPending } }

/-- The loop of `osdp_cp_refresh`: round robin, but never past a PD that
owns the bus. -/
def cpRefreshLoop : Nat → OsdpM Unit
  | 0 => return
  | rounds + 1 => do
    let s ← get
    let i := s.currentPd
    stateUpdate env run i
    let p ← getPd i
    if cpPhyBusIsBusy p then
      return
    else
      modify fun s =>
        { s with currentPd := if i + 1 ≥ s.numPd then 0 else i + 1 }
      cpRefreshLoop rounds

/-- `osdp_cp_refresh`. -/
def osdpCpRefresh : OsdpM Unit := do
  let s ← get
  if s.tearingDown ∨ s.running then
    return
  modify fun s => { s with isSealed := true }
  if s.numPd = 0 then
    return
  modify fun s => { s with running := true }
  cpRefreshLoop env run s.numPd
  modify fun s => { s with running := false }

/-- One PD of `osdp_cp_teardown`. -/
def cpTeardownPd (i : Nat) : OsdpM Unit := do
  cpDrainQueue env run i .aborted
  let p ← getPd i
  updPd i fun p => { p with engineCmd := none }
  cpCompleteCmd env run i p.engineCmd .aborted
  let p ← getPd i
  cpCompleteCmd env run i p.activeCmd .aborted
  updPd i fun p => { p with activeCmd := none, sc := {} }

/-- The loop of `osdp_cp_teardown`. -/
def cpTeardownPds : List Nat → OsdpM Unit
  | [] => return
  | i :: rest => do
    cpTeardownPd env run i
    cpTeardownPds rest

/-- `osdp_cp_teardown`, short of freeing the memory. -/
def osdpCpTeardown : OsdpM Unit := do
  let s ← get
  if s.tearingDown then
    return
  modify fun s => { s with tearingDown := true }
  cpTeardownPds env run (List.range s.numPd)

/-- A call from inside a callback. -/
def cpApiCall : ApiCall → OsdpM Unit
  | .cpSubmitCommand i cmd => do let _ ← osdpCpSubmitCommand env i cmd
  | .cpCancel i what => do let _ ← osdpCpCancel i what
  | .cpFlushCommands i => osdpCpFlushCommands env run i
  | .cpModifyFlag i m doSet => do let _ ← osdpCpModifyFlag i m doSet
  | .cpDisablePd i => do let _ ← osdpCpDisablePd i
  | .cpEnablePd i => do let _ ← osdpCpEnablePd i
  | .cpTrsScanEnable i params => do let _ ← osdpCpTrsScanEnable i params
  | .cpTrsScanDisable i => do let _ ← osdpCpTrsScanDisable i
  | .pdSubmitEvent _ | .pdFlushEvents => return

/-- The calls of one callback, in order. -/
def cpCalls : List ApiCall → OsdpM Unit
  | [] => return
  | c :: rest => do
    cpApiCall env run c
    cpCalls rest

end Nested

/-- Callbacks may nest `n` deep. -/
def cpRunCalls : Nat → List ApiCall → OsdpM Unit
  | 0, [] => return
  | 0, _ :: _ => throw .nesting
  | n + 1, calls => cpCalls env (cpRunCalls n) calls

-- ================================================================ setup

/-- `osdp_pd_info_t`, as far as a CP reads it; `fileOps` says that
`osdp_file_register_ops` was called for the PD. -/
structure CpPdInfo where
  address : Nat
  baudRate : UInt32 := 9600
  enforceSecure : Bool := false
  installMode : Bool := false
  ignUnsolicited : Bool := false
  enableNotification : Bool := false
  allowEmptyEdb : Bool := false
  bioreadrMultipart : Bool := false
  scbk : Option Bytes := none
  fileOps : Bool := false

/-- `cp_add_pd` turns this configuration down. -/
def cpInfoRefused (info : CpPdInfo) : Bool :=
  info.enforceSecure && (info.installMode || info.scbk.isNone)

/-- `cp_collect_init_flags` and the flags `cp_add_pd` sets besides. -/
def cpSetupFlags (info : CpPdInfo) : PdFlags :=
  { enforceSecure := info.enforceSecure
    installMode := info.installMode
    ignoreUsr := info.ignUnsolicited
    enableNotif := info.enableNotification
    allowEmptyEdb := info.allowEmptyEdb
    bioreadrMp := info.bioreadrMultipart
    scDisabled := info.scbk.isNone
    cpUseCrc := true
    pktSkipMark := env.skipMarkByte }

/-- The device `cp_add_pd` adds. -/
def cpSetupDevice (info : CpPdInfo) : OsdpPd :=
  { flags := cpSetupFlags env info
    baudRate := info.baudRate
    address := info.address
    seqNumber := -1
    packetBuf := .tx
    sc := { scbk := info.scbk.getD (zeros 16) }
    file := if info.fileOps then some fileReset else none }

/-- `cp_add_pd`; nothing where it refuses the configuration. -/
def cpAddPd (s : Osdp) (infos : List CpPdInfo) : Option Osdp :=
  if infos.any cpInfoRefused then none
  else
    some
      { s with
        numPd := s.numPd + infos.length
        currentPd := 0
        pd := fun j =>
          match infos[j - s.numPd]? with
          | some info =>
            if s.numPd ≤ j then cpSetupDevice env info else s.pd j
          | none => s.pd j }

/-- `osdp_cp_setup`. -/
def osdpCpSetup (infos : List CpPdInfo) : Option Osdp :=
  let s : Osdp := { numPd := 0, pd := fun _ => {}, rxIsTx := true }
  if infos = [] then some s else cpAddPd env s infos

/-- `osdp_cp_add_pd`; a refused call changes nothing. -/
def osdpCpAddPd (infos : List CpPdInfo) : OsdpM Bool := do
  let s ← get
  if s.tearingDown ∨ s.running ∨ s.isSealed ∨ infos.length = 0 then
    return false
  match cpAddPd env s infos with
  | none => return false
  | some t =>
    set t
    return true

-- ================================================================= runs

/-- What can happen to a CP from outside. -/
inductive CpInput where
  /-- a refresh at this time, these bytes having arrived before it -/
  | refresh (now : Int) (rx : Bytes)
  /-- a call made between refreshes -/
  | call (c : ApiCall)
  | addPd (infos : List CpPdInfo)
  | teardown

/-- Time passed, and bytes arrived. -/
def Osdp.arriveCp (s : Osdp) (now : Int) (rx : Bytes) : Osdp :=
  { s with now := now, line := s.line ++ rx }

/-- One input, taken. -/
def cpStep (depth : Nat) : CpInput → OsdpM Unit
  | .refresh now rx => do
    modify (·.arriveCp now rx)
    osdpCpRefresh env (cpRunCalls env depth)
  | .call c => cpApiCall env (cpRunCalls env depth) c
  | .addPd infos => do
    let _ ← osdpCpAddPd env infos
  | .teardown => osdpCpTeardown env (cpRunCalls env depth)

/-- The runs of a CP whose inputs are each acceptable to `ok`. -/
abbrev CpRun (depth : Nat) (ok : Osdp → CpInput → Bool) :
    Osdp → List CpInput → Osdp → Prop :=
  Run (cpStep env depth) ok

/-- Any input at all. -/
def anyCpInput (_ : Osdp) (_ : CpInput) : Bool := true

end LibOsdp
