/-
The multi-part engine (osdp_multipart.c) and what ties it to a PD
(osdp_common.c): headers, the two directions of a transfer, and the
notifications a transfer raises.

# Callbacks

A callback is a function of the history (`Env`) and may call back into
the library.  How those calls run is the parameter `run`; the functions
that can reach a callback take it along, and the API ties the knot.  The
entry in the history is made before the calls: what a callback returns
may depend on them only as far as the environment chose it to.

# Slots

A transfer is owned by one of three engines of a PD; `MpSlot` names the
owner, in place of the C pointer to its `struct osdp_multipart`.
-/
import LibOsdp.Phy.Framer

namespace LibOsdp

open Lib

variable (env : Env) (run : List ApiCall → OsdpM Unit)

-- =========================================================== callbacks

/-- `pd->command_callback(arg, cmd)`: what it returned and the command as
it left it.  Callers check that one is registered. -/
def callCommandCallback (i : Nat) (cmd : OsdpCmd) : OsdpM (Int × OsdpCmd) := do
  match env.commandCallback with
  | none => return (-1, cmd)
  | some f =>
    let s ← get
    let r := f s.log cmd
    observe (.command i cmd r.ret)
    run r.calls
    return (r.ret, r.edit cmd)

/-- `pd_complete_event`. -/
def pdCompleteEvent (ev : Option SubmittedEvent) (status : CompletionStatus) :
    OsdpM Unit := do
  match ev, env.eventCompletion with
  | some ev, some f =>
    let s ← get
    let r := f s.log ev status
    observe (.evDone ev.node status)
    run r.calls
  | _, _ => return

/-- `cp_dispatch_event`. -/
def cpDispatchEvent (i : Nat) (ev : OsdpEvent) : OsdpM Unit := do
  match env.eventCallback with
  | none => return
  | some f =>
    let s ← get
    let r := f s.log i ev
    observe (.event i ev)
    run r.calls

/-- `cp_complete_cmd`. -/
def cpCompleteCmd (i : Nat) (cmd : Option SubmittedCmd)
    (status : CompletionStatus) : OsdpM Unit := do
  match cmd, env.commandCompletion with
  | some cmd, some f =>
    let s ← get
    let r := f s.log i cmd status
    observe (.cmdDone i cmd.node status)
    run r.calls
  | _, _ => return

-- ================================================= the engine's context

/-- The owner of a transfer. -/
inductive MpSlot where
  | file | piv | bio
  deriving DecidableEq, Repr

/-- `&TO_FILE(pd)->mp` and its siblings, read. -/
def OsdpPd.mp (p : OsdpPd) : MpSlot → Multipart
  | .file => (p.file.getD {}).mp
  | .piv => (p.piv.getD {}).mp
  | .bio => (p.bio.getD {}).mp

/-- `&TO_FILE(pd)->mp` and its siblings, written. -/
def OsdpPd.setMp (p : OsdpPd) (slot : MpSlot) (m : Multipart) : OsdpPd :=
  match slot with
  | .file => { p with file := p.file.map fun f => { f with mp := m } }
  | .piv => { p with piv := p.piv.map fun v => { v with mp := m } }
  | .bio => { p with bio := p.bio.map fun b => { b with mp := m } }

/-- The staging buffer a transfer is bound to. -/
def OsdpPd.staging (p : OsdpPd) : MpSlot → Bytes
  | .file => []
  | .piv => (p.piv.getD {}).data
  | .bio => (p.bio.getD {}).data

/-- Store into the staging buffer of a transfer. -/
def OsdpPd.setStaging (p : OsdpPd) (slot : MpSlot) (d : Bytes) : OsdpPd :=
  match slot with
  | .file => p
  | .piv => { p with piv := p.piv.map fun v => { v with data := d } }
  | .bio => { p with bio := p.bio.map fun b => { b with data := d } }

/-- Read the engine context of a slot. -/
def getMp (i : Nat) (slot : MpSlot) : OsdpM Multipart := do
  return (← getPd i).mp slot

/-- Change the engine context of a slot. -/
def updMp (i : Nat) (slot : MpSlot) (f : Multipart → Multipart) :
    OsdpM Unit :=
  updPd i fun p => p.setMp slot (f (p.mp slot))

/-- `osdp_mp_is_active`. -/
def Multipart.isActive (m : Multipart) : Bool :=
  m.state == .inprog || m.state == .wait

-- ======================================================== notifications

/-- `engine_status`. -/
def engineStatus (tearingDown : Bool) : MpOutcome → CompletionStatus
  | .ok | .okRebooting => if tearingDown then .aborted else .ok
  | _ => if tearingDown then .aborted else .failed

/-- `mp_deliver_notification`. -/
def mpDeliverNotification (i : Nat) (phase : MpPhase) (g : MpProgress) :
    OsdpM Unit := do
  let p ← getPd i
  if p.flags.enableNotif then
    if p.flags.pdMode then
      let _ ← callCommandCallback env run i (.notification (.mp phase g))
    else
      cpDispatchEvent env run i (.notification (.mp phase g))

/-- `osdp_mp_pd_notify`: tell the application, and on a CP hand back the
command whose transfer has ended. -/
def osdpMpPdNotify (i : Nat) (phase : MpPhase) (g : MpProgress) :
    OsdpM Unit := do
  mpDeliverNotification env run i phase g
  let p ← getPd i
  if phase = .done ∧ ¬ p.flags.pdMode ∧ p.engineCmd.isSome ∧
      g.msgType = p.engineCmdMpType then
    updPd i fun p => { p with engineCmd := none }
    let s ← get
    cpCompleteCmd env run i p.engineCmd
      (engineStatus s.tearingDown g.outcome)

/-- `mp_emit`. -/
def mpEmit (i : Nat) (slot : MpSlot) (phase : MpPhase) : OsdpM Unit := do
  let m ← getMp i slot
  match m.eventCb, m.msgType with
  | true, some msg =>
    osdpMpPdNotify env run i phase
      ⟨msg, m.objectId, m.total, m.offset, m.doneOutcome⟩
  | _, _ => return

-- ============================================================== headers

/-- `OSDP_MP_HDR_SIZE`. -/
def mpHdrSize : MpWidth → Nat
  | .w16 => 6
  | .w32 => 10

/-- The bytes of a TOTAL or OFFSET field. -/
def mpWide : MpWidth → Nat
  | .w16 => 2
  | .w32 => 4

/-- `osdp_mp_hdr_write`. -/
def osdpMpHdrWrite (w : MpWidth) (total offset dataLen : Nat) : Bytes :=
  writeLe (mpWide w) total ++ writeLe (mpWide w) offset ++ writeLe 2 dataLen

/-- `osdp_mp_hdr_read`: total, offset and data length. -/
def osdpMpHdrRead (w : MpWidth) (buf : Bytes) : Option (Nat × Nat × Nat) :=
  if buf.length < mpHdrSize w then none
  else
    let n := mpWide w
    some (readLe n buf, readLe n (buf.drop n), readLe 2 (buf.drop (2 * n)))

-- ======================================================= life cycle

/-- `osdp_mp_tx_init`; a transfer of nothing is refused. -/
def osdpMpTxInit (i : Nat) (slot : MpSlot) (total : Nat) (w : MpWidth) :
    OsdpM Bool := do
  if total = 0 then
    return false
  updMp i slot fun m =>
    { m with
      width := w, total := total, offset := 0, lastLen := 0
      startEmitted := false, state := .inprog }
  return true

/-- `osdp_mp_rx_init`. -/
def osdpMpRxInit (i : Nat) (slot : MpSlot) (w : MpWidth) (total : Nat) :
    OsdpM Unit :=
  updMp i slot fun m =>
    { m with
      width := w, total := total, offset := 0, lastLen := 0, lastOff := 0
      startEmitted := false, state := .inprog }

/-- `osdp_mp_emit_start`. -/
def osdpMpEmitStart (i : Nat) (slot : MpSlot) : OsdpM Unit := do
  let m ← getMp i slot
  if !m.startEmitted then
    updMp i slot fun m => { m with startEmitted := true }
    mpEmit env run i slot .start

/-- `osdp_mp_finish`: the one place a transfer ends. -/
def osdpMpFinish (i : Nat) (slot : MpSlot) (outcome : MpOutcome) :
    OsdpM Unit := do
  let m ← getMp i slot
  if m.state = .done ∨ m.state = .idle then
    return
  updMp i slot fun m => { m with doneOutcome := outcome, state := .done }
  mpEmit env run i slot .done

-- ============================================================== sending

/-- The read hook of a transfer: a byte count, negative on failure. -/
def mpRead (i : Nat) (slot : MpSlot) (size offset : Nat) :
    OsdpM (Int × Bytes) := do
  let p ← getPd i
  match (p.mp slot).binding with
  | .unbound => throw .outOfBounds
  | .fileOps =>
    let s ← get
    observe (.file i (.read size offset))
    return env.fileOps.readFile s.log size offset
  | .buffer len =>
    if offset ≥ len then
      return (0, [])
    let n := min size (len - offset)
    return (n, ((p.staging slot).drop offset).take n)

/-- `osdp_mp_tx_build_ex`: the next fragment, its prefix included. -/
def osdpMpTxBuildEx (i : Nat) (slot : MpSlot) (maxLen : Int) (pfx : Bytes) :
    OsdpM (Option Bytes) := do
  let m ← getMp i slot
  let skip := if m.offset = 0 then pfx else []
  let avail := maxLen - mpHdrSize m.width - skip.length
  let remaining := m.total - m.offset
  if avail < 0 ∨ (avail = 0 ∧ remaining > 0) then
    return none
  let (n, data) ← mpRead env i slot (min avail.toNat remaining) m.offset
  if n < 0 then
    return none
  if n = 0 then
    updMp i slot fun m => { m with lastLen := 0, state := .wait }
    return some (osdpMpHdrWrite m.width m.total m.offset 0)
  let n := n.toNat
  updMp i slot fun m => { m with lastLen := n, state := .inprog }
  return some
    (osdpMpHdrWrite m.width m.total m.offset n ++ skip ++
      (data ++ zeros n).take n)

/-- `osdp_mp_tx_build_idle`. -/
def osdpMpTxBuildIdle (i : Nat) (slot : MpSlot) : OsdpM Bytes := do
  updMp i slot fun m => { m with lastLen := 0 }
  let m ← getMp i slot
  return osdpMpHdrWrite m.width m.total m.offset 0

/-- `osdp_mp_tx_commit`. -/
def osdpMpTxCommit (i : Nat) (slot : MpSlot) : OsdpM Unit := do
  let m ← getMp i slot
  updMp i slot fun m =>
    { m with offset := m.offset + m.lastLen, lastLen := 0 }
  if m.lastLen > 0 ∧ m.offset + m.lastLen < m.total then
    mpEmit env run i slot .progress

-- ============================================================ receiving

/-- `enum osdp_mp_rc`. -/
inductive MpRc where
  | more | done | earlyTerm | err | retry
  deriving DecidableEq, Repr

/-- `enum osdp_mp_rx_status`. -/
inductive MpRxStatus where
  | ok | retry | abort
  deriving DecidableEq, Repr

/-- The write hook of a transfer: `file_mp_write` behind the file
operations, `mp_buf_write` into a staging buffer. -/
def mpWrite (i : Nat) (slot : MpSlot) (data : Bytes) (offset : Nat) :
    OsdpM MpRxStatus := do
  let p ← getPd i
  match (p.mp slot).binding with
  | .unbound => throw .outOfBounds
  | .fileOps =>
    let s ← get
    observe (.file i (.write data offset))
    if env.fileOps.writeFile s.log data offset ≠ data.length then
      updPd i fun p =>
        { p with file := p.file.map fun f => { f with writeFailed := true } }
      return .abort
    return .ok
  | .buffer len =>
    if offset ≥ len ∨ data.length > len - offset then
      return .abort
    updPd i fun p =>
      p.setStaging slot (writeAt (p.staging slot) offset data)
    return .ok

/-- `osdp_mp_rx_consume_ex`: the verdict, and the prefix of a first
fragment. -/
def osdpMpRxConsumeEx (i : Nat) (slot : MpSlot) (buf : Bytes)
    (pfxLen : Nat) : OsdpM (MpRc × Bytes) := do
  let m ← getMp i slot
  match osdpMpHdrRead m.width buf with
  | none => return (.err, zeros pfxLen)
  | some (total, off, dlen) =>
    let hdr := mpHdrSize m.width
    let skip := if off = 0 then pfxLen else 0
    if buf.length < hdr + skip + dlen then
      return (.err, zeros pfxLen)
    let pfx := if skip = 0 then zeros pfxLen else (buf.drop hdr).take skip
    -- the first frame fixes the length, every later one must agree
    let fresh := m.offset = 0 ∧ m.lastLen = 0 ∧ m.total = 0
    if ¬ fresh ∧ total ≠ m.total then
      return (.err, pfx)
    let curTotal := if fresh then total else m.total
    let tooLong := match m.binding with
      | .buffer len => decide (curTotal > len)
      | _ => false
    if tooLong then
      return (.err, pfx)
    if off ≥ curTotal ∧ dlen = 0 then
      updMp i slot fun m => { m with total := curTotal }
      return (.earlyTerm, pfx)
    if off > m.offset ∨ dlen > curTotal - off then
      return (.err, pfx)
    if dlen > 0 then
      let st ← mpWrite env i slot ((buf.drop (hdr + skip)).take dlen) off
      if st = .retry then
        return (.retry, pfx)
      if st ≠ .ok then
        return (.err, pfx)
    updMp i slot fun m =>
      { m with total := curTotal, lastOff := off, lastLen := dlen }
    return (if dlen ≥ curTotal - off then .done else .more, pfx)

/-- `osdp_mp_rx_commit`. -/
def osdpMpRxCommit (i : Nat) (slot : MpSlot) : OsdpM Unit := do
  let m ← getMp i slot
  let stop := m.lastOff + m.lastLen
  updMp i slot fun m =>
    { m with offset := max m.offset stop, lastLen := 0 }
  if m.lastLen > 0 ∧ stop > m.offset ∧ stop < m.total then
    mpEmit env run i slot .progress

-- =========================================================== scheduling

/-- What a reply fragment came to. -/
inductive FragResult where
  | unexpected
  | more
  | complete (ev : OsdpEvent)
  deriving DecidableEq, Repr

/-- `enum osdp_mp_action`, as `osdp_mp_tx_next` chooses it. -/
inductive MpAction where
  | data | wait | done
  deriving DecidableEq, Repr

/-- `osdp_mp_tx_next`. -/
def osdpMpTxNext (m : Multipart) (now : Int) : MpAction :=
  if !m.isActive then .done
  else if m.waitTimeMs ≠ 0 ∧ now - m.tstamp < m.waitTimeMs then .wait
  else .data

end LibOsdp
