/-
`cp_add_pd` with the memory it works on (osdp_cp.c, osdp_common.c).

Elsewhere a CP is a function from indices to devices, and adding PDs
extends it.  In memory the devices lie in one array that cannot grow: a
larger one is allocated, made the context's own, and filled; then the
records of the PDs that were there are copied in, and the new ones are
built behind them one by one.  A new PD that cannot be built takes all of
it back.

# What points where

A record points to the ring its bytes arrive in, to its capture, and to
the contexts of its transfer engines.  A context points back: the argument
of its event callback is the record of its PD, and moves with it
(`osdpEnginesRebind`).

# The heap

Blocks are named by when they were asked for (`Lib.Heap`).  Reading,
writing or giving back a block that does not live is an error of the
model, `badPointer`, as it would be one of the program.  Whether there is
memory, and whether a capture file can be opened, is up to `AllocEnv`.
-/
import LibOsdp.Cp.Api
import LibOsdp.Lib.Heap

namespace LibOsdp.Mem

open Lib

-- ================================================================ records

/-- `struct osdp_pd *`: an array, and the place in it. -/
structure PdPtr where
  block : Nat
  index : Nat
  deriving DecidableEq, Repr

/-- The operation of a transfer engine, `struct osdp_file`,
`struct osdp_piv` or `struct osdp_bio`. -/
inductive EngineOp where
  | file (f : OsdpFile)
  | piv (p : OsdpPiv)
  | bio (b : OsdpBio)

/-- The state machine every engine has. -/
def EngineOp.mp : EngineOp → Multipart
  | .file f => f.mp
  | .piv p => p.mp
  | .bio b => b.mp

/-- `osdp_file_tx_is_active`, `osdp_piv_is_active`, `osdp_bio_is_active`. -/
def EngineOp.active : EngineOp → Bool
  | .file f => f.mp.isActive
  | .piv p => p.phase != .idle
  | .bio b => b.active

/-- The context of an engine.  `eventArg` is `event_arg`; the callback it
is for is `osdp_mp_pd_notify` wherever one is set, and it is set where an
operation begins. -/
structure EngineCtx where
  op : EngineOp
  eventArg : Option PdPtr := none
  armed : op.active = true → op.mp.eventCb = true

/-- `osdp_mp_set_event_cb(mp, osdp_mp_pd_notify, pd)` on a context that has
the callback already. -/
def EngineCtx.setArg (e : EngineCtx) (pd : PdPtr) : EngineCtx :=
  { e with eventArg := some pd }

/-- `struct osdp_pd`.  `data` is the part that is no pointer to a block. -/
structure PdRecord where
  name : Bytes := zeros 16
  idx : Nat := 0
  capturePkt : Bool := false
  data : OsdpPd := {}
  rxRb : Option Nat := none
  file : Option Nat := none
  piv : Option Nat := none
  bio : Option Nat := none
  packetCaptureCtx : Option Nat := none

/-- The contexts `osdp_engines_rebind` looks at. -/
def PdRecord.engines (r : PdRecord) : List (Option Nat) :=
  [r.file, r.piv, r.bio]

/-- What a block holds. -/
inductive CpBlock where
  | pds (l : List PdRecord)
  | ring
  | pcap
  | engine (e : EngineCtx)

/-- The part of `struct osdp` that `cp_add_pd` works on, and the heap. -/
structure CpMem where
  pd : Option Nat
  numPd : Nat
  currentPd : Option PdPtr
  heap : Heap CpBlock

/-- What the surroundings decide: whether the attempt of that name gets a
block or a capture file.  `traces` is the build's
`OPT_OSDP_PACKET_TRACE || OPT_OSDP_DATA_TRACE`. -/
structure AllocEnv where
  calloc : Nat → Bool
  pcapStart : Nat → Bool
  traces : Bool

inductive MemFault where
  | badPointer
  deriving DecidableEq, Repr

abbrev MemM := EStateM MemFault CpMem

-- ================================================================= blocks

/-- A new block, if there is one. -/
def tryAlloc (ok : Nat → Bool) (b : CpBlock) : MemM (Option Nat) := do
  let m ← get
  if ok m.heap.next then
    set { m with heap := m.heap.alloc b }
    return some m.heap.next
  else
    set { m with heap := m.heap.skip }
    return none

def readBlock (a : Nat) : MemM CpBlock := do
  let m ← get
  match m.heap.cell a with
  | some b => return b
  | none => throw .badPointer

def writeBlock (a : Nat) (b : CpBlock) : MemM Unit := do
  let _ ← readBlock a
  modify fun m => { m with heap := m.heap.store a b }

def freeBlock (a : Nat) : MemM Unit := do
  let _ ← readBlock a
  modify fun m => { m with heap := m.heap.free a }

/-- `safe_free`. -/
def safeFree : Option Nat → MemM Unit
  | none => return
  | some a => freeBlock a

/-- The array at `a`. -/
def readPds (a : Nat) : MemM (List PdRecord) := do
  match ← readBlock a with
  | .pds l => return l
  | _ => throw .badPointer

/-- `*pd`. -/
def readPd (pd : PdPtr) : MemM PdRecord := do
  let l ← readPds pd.block
  match l[pd.index]? with
  | some r => return r
  | none => throw .badPointer

/-- An assignment to members of `*pd`. -/
def writePd (pd : PdPtr) (f : PdRecord → PdRecord) : MemM Unit := do
  let l ← readPds pd.block
  let r ← readPd pd
  writeBlock pd.block (.pds (l.set pd.index (f r)))

/-- `osdp_fill_zeros` over an array. -/
def fillZeros (a : Nat) : MemM Unit := do
  let l ← readPds a
  writeBlock a (.pds (List.replicate l.length {}))

-- ================================================================ building

/-- `osdp_pd_info_t`, with the name and the capture flag. -/
structure PdInfo extends CpPdInfo where
  name : Option Bytes := none
  capturePackets : Bool := false

/-- `OSDP_PD_NAME_MAXLEN - 1` bytes of a string at most, and zeros. -/
def nameField (s : Bytes) : Bytes :=
  fieldBytes ((s.takeWhile (· ≠ 0)).take 15) 16

/-- `snprintf(pd->name, OSDP_PD_NAME_MAXLEN, "PD-%d", info->address)`. -/
def defaultName (address : Nat) : Bytes :=
  ("PD-" ++ toString address).toUTF8.toList

/-- `cp_collect_init_flags`, from no flags. -/
def cpCollectInitFlags (info : CpPdInfo) : PdFlags :=
  { enforceSecure := info.enforceSecure
    installMode := info.installMode
    ignoreUsr := info.ignUnsolicited
    enableNotif := info.enableNotification
    allowEmptyEdb := info.allowEmptyEdb
    bioreadrMp := info.bioreadrMultipart }

/-- `init_flags_conflict`. -/
def initFlagsConflict (info : CpPdInfo) : Bool :=
  info.enforceSecure && info.installMode

/-- The members set for every new PD, before anything is checked. -/
def PdRecord.begin (idx : Nat) (info : PdInfo) (r : PdRecord) : PdRecord :=
  { r with
    idx := idx
    name := nameField (info.name.getD (defaultName info.address))
    capturePkt := info.capturePackets
    data :=
      { r.data with
        packetBuf := .tx
        baudRate := info.baudRate
        address := info.address
        flags := cpCollectInitFlags info.toCpPdInfo
        seqNumber := -1 } }

/-- SET_FLAG and CLEAR_FLAG. -/
def PdRecord.setFlags (f : PdFlags → PdFlags) (r : PdRecord) : PdRecord :=
  { r with data := { r.data with flags := f r.data.flags } }

/-- The key, and the flag that there is one. -/
def PdRecord.setScbk (key : Bytes) (r : PdRecord) : PdRecord :=
  { r with
    data :=
      { r.data with
        sc := { r.data.sc with scbk := key }
        flags := { r.data.flags with scDisabled := false } } }

variable (env : Env) (al : AllocEnv)

/-- `is_capture_enabled`. -/
def isCaptureEnabled (r : PdRecord) : Bool := r.capturePkt && al.traces

/-- `osdp_packet_capture_init`. -/
def osdpPacketCaptureInit (pd : PdPtr) : MemM Unit := do
  let cap ← tryAlloc al.pcapStart .pcap
  writePd pd fun r => { r with packetCaptureCtx := cap }

/-- `osdp_packet_capture_finish`. -/
def osdpPacketCaptureFinish (r : PdRecord) : MemM Unit :=
  safeFree r.packetCaptureCtx

/-- `cp_setup_pd_rx_storage`: false where the C function returns -1. -/
def cpSetupPdRxStorage (pd : PdPtr) : MemM Bool := do
  let rb ← tryAlloc al.calloc .ring
  writePd pd fun r => { r with rxRb := rb }
  return rb.isSome

/-- The key, or the refusal of a PD that is to be secure without one. -/
def cpSetupKey (pd : PdPtr) : Option Bytes → MemM Bool
  | some key => do
    writePd pd (·.setScbk key)
    return true
  | none => do
    let r ← readPd pd
    return !r.data.flags.enforceSecure

/-- The end of the body of the loop of `cp_add_pd`.  The queue is empty as
it is. -/
def cpFinishPd (pd : PdPtr) : MemM Unit := do
  writePd pd (·.setFlags fun f => { f with pktSkipMark := env.skipMarkByte })
  let r ← readPd pd
  if isCaptureEnabled al r then
    osdpPacketCaptureInit al pd

/-- The body of that loop: false where it goes to `error`. -/
def cpBuildPd (pd : PdPtr) (info : PdInfo) : MemM Bool := do
  writePd pd (·.begin pd.index info)
  if initFlagsConflict info.toCpPdInfo then
    return false
  writePd pd
    (·.setFlags fun f => { f with scDisabled := true, cpUseCrc := true })
  if !(← cpSetupPdRxStorage al pd) then
    return false
  if !(← cpSetupKey pd info.scbk) then
    return false
  cpFinishPd env al pd
  return true

/-- The loop: whether it ran to the end, and how many PDs it worked on,
the one it failed at included. -/
def cpBuildPds (pd : PdPtr) : List PdInfo → MemM (Bool × Nat)
  | [] => return (true, 0)
  | info :: rest => do
    if ← cpBuildPd env al pd info then
      let (ok, n) ← cpBuildPds ⟨pd.block, pd.index + 1⟩ rest
      return (ok, n + 1)
    else
      return (false, 1)

/-- The capture of a PD that is let go. -/
def cpReleaseCapture (r : PdRecord) : MemM Unit := do
  if isCaptureEnabled al r then
    osdpPacketCaptureFinish r

/-- `cp_release_pd_resources`. -/
def cpReleasePdResources (pd : PdPtr) : Nat → MemM Unit
  | 0 => return
  | n + 1 => do
    let r ← readPd pd
    cpReleaseCapture al r
    safeFree r.rxRb
    cpReleasePdResources ⟨pd.block, pd.index + 1⟩ n

/-- `memcpy` of `n` records, to the front of the array at `new`. -/
def copyPds (new : Nat) (old : Option Nat) (n : Nat) : MemM Unit := do
  match old with
  | none => throw .badPointer
  | some a => do
    let l ← readPds a
    let l' ← readPds new
    writeBlock new (.pds (l.take n ++ l'.drop n))

/-- The records that were there, if there were any. -/
def copyOld (old : CpMem) (new : Nat) : MemM Unit := do
  if 0 < old.numPd then
    copyPds new old.pd old.numPd

/-- `cp_expand_pd_array`: the new array. -/
def cpExpandPdArray (numPd : Nat) : MemM (Option Nat) := do
  let old ← get
  match ← tryAlloc al.calloc
      (.pds (List.replicate (old.numPd + numPd) {})) with
  | none => return none
  | some new => do
    modify fun m => { m with pd := some new, numPd := old.numPd + numPd }
    copyOld old new
    return some new

-- ================================================================ rebinding

/-- One round of `osdp_engines_rebind`. -/
def rebindEngine (pd : PdPtr) : Option Nat → MemM Unit
  | none => return
  | some a => do
    match ← readBlock a with
    | .engine e =>
      if e.op.mp.eventCb then
        writeBlock a (.engine (e.setArg pd))
    | _ => throw .badPointer

/-- The loop of `osdp_engines_rebind`. -/
def rebindEngines (pd : PdPtr) : List (Option Nat) → MemM Unit
  | [] => return
  | a :: rest => do
    rebindEngine pd a
    rebindEngines pd rest

/-- `osdp_engines_rebind`. -/
def osdpEnginesRebind (pd : PdPtr) : MemM Unit := do
  let r ← readPd pd
  rebindEngines pd r.engines

/-- The loop of `cp_add_pd` over the PDs that were there. -/
def cpRebindPds (pd : PdPtr) : Nat → MemM Unit
  | 0 => return
  | n + 1 => do
    osdpEnginesRebind pd
    cpRebindPds ⟨pd.block, pd.index + 1⟩ n

-- ================================================================== result

/-- The old array is wiped and given back. -/
def dropArray : Option Nat → MemM Unit
  | none => throw .badPointer
  | some a => do
    fillZeros a
    freeBlock a

/-- The end of `cp_add_pd` where every new PD was built. -/
def cpKeepPds (old : CpMem) (new : Nat) : MemM Unit := do
  modify fun m => { m with currentPd := some ⟨new, 0⟩ }
  cpRebindPds ⟨new, 0⟩ old.numPd
  if 0 < old.numPd then
    dropArray old.pd

/-- The end of `cp_add_pd` behind `error`. -/
def cpDropPds (old : CpMem) (new n : Nat) : MemM Unit := do
  cpReleasePdResources al ⟨new, old.numPd⟩ n
  modify fun m => { m with pd := old.pd, numPd := old.numPd }
  dropArray (some new)

/-- `cp_add_pd`: false where the C function returns -1. -/
def cpAddPd (infos : List PdInfo) : MemM Bool := do
  let old ← get
  match ← cpExpandPdArray al infos.length with
  | none => return false
  | some new => do
    let (ok, n) ← cpBuildPds env al ⟨new, old.numPd⟩ infos
    if ok then
      cpKeepPds old new
      return true
    else
      cpDropPds al old new n
      return false

end LibOsdp.Mem
