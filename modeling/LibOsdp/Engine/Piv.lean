/-
The smartcard commands that span packets (osdp_piv.c): PIVDATA, GENAUTH
and CRAUTH.  A command leg from CP to PD is followed by a reply leg whose
fragments the CP pulls with polls.

`phase` alone says whether an operation is live; the engine's own state
is re-armed for each leg.
-/
import LibOsdp.Engine.Multipart

namespace LibOsdp

open Lib

variable (env : Env) (run : List ApiCall → OsdpM Unit)

abbrev pivDataMaxLen : Nat := 256
abbrev pivOpTimeoutMs : Int := 10000

/-- `piv_families`, by wire command. -/
def familyByWireCmd (wireCmd : Nat) : Option PivFamily :=
  if wireCmd = cmdPivdata then some .pivdata
  else if wireCmd = cmdGenauth then some .genauth
  else if wireCmd = cmdCrauth then some .crauth
  else none

/-- The event a family's reply surfaces as. -/
def pivEvent (m : MpMsg) (length : Nat) (data : Bytes) : OsdpEvent :=
  match m with
  | .genauth => .genauthr length data
  | .crauth => .crauthr length data
  | _ => .pivdatar length data

/-- `piv_cmd_pfx_len`. -/
def pivCmdPfxLen (v : OsdpPiv) : Nat :=
  match v.family with
  | some .pivdata => 0
  | _ => 2

/-- The context, as C reads it through a pointer that may be null. -/
def OsdpPd.pivD (p : OsdpPd) : OsdpPiv := p.piv.getD {}

/-- Change the context. -/
def updPiv (i : Nat) (f : OsdpPiv → OsdpPiv) : OsdpM Unit :=
  updPd i fun p => { p with piv := p.piv.map f }

/-- `piv_get`: allocate the context on first use. -/
def pivGet (i : Nat) : OsdpM Unit :=
  updPd i fun p => { p with piv := some p.pivD }

/-- `piv_op_reset`.  C also clears `mp_msg`; the family stays here, since
every reader of it looks at the phase first. -/
def pivOpReset (i : Nat) : OsdpM Unit :=
  updPiv i fun v => { v with phase := .idle, mp := {} }

/-- `piv_op_setup`. -/
def pivOpSetup (i : Nat) (f : PivFamily) (objectId : Nat) : OsdpM Unit := do
  let now ← osdpMillisNow
  updPiv i fun v =>
    { v with
      family := some f
      startEmitted := false
      tstamp := now
      mp := { eventCb := true, msgType := some f.mpMsg, objectId := objectId } }
  osdpMpRxInit i .piv .w16 0
  updPiv i fun v => { v with phase := .cmd }

/-- `piv_emit_start`: one START for both legs. -/
def pivEmitStart (i : Nat) : OsdpM Unit := do
  let p ← getPd i
  if !p.pivD.startEmitted then
    updPiv i fun v => { v with startEmitted := true }
    osdpMpEmitStart env run i .piv

/-- `osdp_piv_is_active`. -/
def osdpPivIsActive (p : OsdpPd) : Bool :=
  p.piv.isSome && p.pivD.phase != .idle

/-- `TO_PIV(pd)->wire_cmd`. -/
def pivWireCmd (p : OsdpPd) : Nat := (p.pivD.family.map (·.wireCmd)).getD 0

/-- `TO_PIV(pd)->wire_reply`. -/
def pivWireReply (p : OsdpPd) : Nat :=
  (p.pivD.family.map (·.wireReply)).getD 0

/-- `osdp_piv_owns_cmd`. -/
def osdpPivOwnsCmd (p : OsdpPd) (cmdId : Nat) : Bool :=
  osdpPivIsActive p && pivWireCmd p == cmdId

/-- `osdp_piv_request_cancel`. -/
def osdpPivRequestCancel (i : Nat) (msg : MpMsg) : OsdpM Bool := do
  let p ← getPd i
  if !osdpPivIsActive p || (p.pivD.family.map (·.mpMsg)) != some msg then
    return false
  updMp i .piv fun m => { m with cancelReq := true }
  return true

/-- `osdp_piv_abort`. -/
def osdpPivAbort (i : Nat) : OsdpM Unit := do
  let p ← getPd i
  if osdpPivIsActive p then
    pivEmitStart env run i
    osdpMpFinish env run i .piv .aborted
    pivOpReset i

-- =============================================================== CP role

/-- `osdp_piv_cp_get_command`: zero for nothing to send. -/
def osdpPivCpGetCommand (i : Nat) : OsdpM Nat := do
  let p ← getPd i
  if !osdpPivIsActive p then
    return 0
  let now ← osdpMillisNow
  if (p.mp .piv).cancelReq ∨ now - p.pivD.tstamp > pivOpTimeoutMs then
    osdpPivAbort env run i
    return cmdAbort
  return if p.pivD.phase = .cmd then pivWireCmd p else cmdPoll

/-- `osdp_piv_cp_cmd_build`: the data block of the command. -/
def osdpPivCpCmdBuild (i : Nat) (maxLen : Int) : OsdpM (Option Bytes) := do
  let p ← getPd i
  let v := p.pivD
  if p.piv.isNone ∨ v.phase ≠ .cmd ∨ p.cmdId ≠ pivWireCmd p then
    return none
  if p.cmdId = cmdPivdata then
    if maxLen < 5 then
      return none
    return some ((v.req.oid ++ zeros 3).take 3 ++ [v.req.element, v.req.offset])
  match ← osdpMpTxBuildEx env i .piv (maxLen - 1 - mpScReserve)
      [v.algorithm, v.key] with
  | none => return none
  | some frag =>
    pivEmitStart env run i
    return some frag

/-- `piv_cp_reply_begin`. -/
def pivCpReplyBegin (i : Nat) : OsdpM Unit := do
  updMp i .piv fun m => { m with binding := .buffer pivDataMaxLen }
  osdpMpRxInit i .piv .w16 0
  pivEmitStart env run i
  let now ← osdpMillisNow
  updPiv i fun v => { v with tstamp := now, phase := .reply }

/-- `piv_cp_cmd_leg_done`. -/
def pivCpCmdLegDone (i : Nat) : OsdpM Bool := do
  let m ← getMp i .piv
  if m.total = 0 ∨ !m.isActive then
    return true
  osdpMpTxCommit env run i .piv
  let now ← osdpMillisNow
  updPiv i fun v => { v with tstamp := now }
  let m ← getMp i .piv
  return decide (m.offset ≥ m.total)

/-- `osdp_piv_cp_cmd_acked`. -/
def osdpPivCpCmdAcked (i : Nat) : OsdpM Unit := do
  let p ← getPd i
  if p.piv.isSome ∧ p.pivD.phase = .cmd ∧ p.cmdId = pivWireCmd p then
    if ← pivCpCmdLegDone env run i then
      pivCpReplyBegin env run i

/-- The verdict half of `osdp_piv_cp_reply_consume`. -/
def pivCpVerdict (i : Nat) (rc : MpRc) : OsdpM FragResult := do
  match rc with
  | .more =>
    osdpMpRxCommit env run i .piv
    let now ← osdpMillisNow
    updPiv i fun v => { v with tstamp := now }
    return .more
  | .done =>
    osdpMpRxCommit env run i .piv
    let p ← getPd i
    let total := (p.mp .piv).total
    let msg := (p.pivD.family.map (·.mpMsg)).getD .piv
    return .complete (pivEvent msg total (p.pivD.data.take total))
  | _ =>
    osdpPivAbort env run i
    return .more

/-- `osdp_piv_cp_reply_consume`. -/
def osdpPivCpReplyConsume (i : Nat) (buf : Bytes) : OsdpM FragResult := do
  let p ← getPd i
  if p.piv.isNone ∨ p.replyId ≠ pivWireReply p then
    return .unexpected
  if p.pivD.phase = .cmd ∧ p.cmdId = pivWireCmd p then
    let _ ← pivCpCmdLegDone env run i
    pivCpReplyBegin env run i
  else if p.pivD.phase ≠ .reply then
    return .unexpected
  let (rc, _) ← osdpMpRxConsumeEx env i .piv buf 0
  pivCpVerdict env run i rc

/-- `osdp_piv_cp_reply_finish`. -/
def osdpPivCpReplyFinish (i : Nat) : OsdpM Unit := do
  osdpMpFinish env run i .piv .ok
  pivOpReset i

-- =============================================================== PD role

/-- `osdp_piv_pd_open`: false where the C function returns -1. -/
def osdpPivPdOpen (i wireCmd objectId : Nat) : OsdpM Bool := do
  pivGet i
  match familyByWireCmd wireCmd with
  | none => return false
  | some f =>
    osdpPivAbort env run i
    pivOpSetup i f objectId
    return true

/-- What a command fragment came to. -/
inductive CmdFrag where
  | malformed
  | more
  | complete (cmd : OsdpCmd)
  deriving DecidableEq, Repr

/-- The verdict half of `osdp_piv_pd_cmd_frag`. -/
def pivPdFragVerdict (i off : Nat) (rc : MpRc) (pfx : Bytes) :
    OsdpM CmdFrag := do
  match rc with
  | .more | .done =>
    if off = 0 then
      updPiv i fun v =>
        { v with
          algorithm := byteAt pfx 0
          key := byteAt pfx 1
          mp := { v.mp with objectId := (byteAt pfx 1).toNat } }
    osdpMpRxCommit env run i .piv
    let now ← osdpMillisNow
    updPiv i fun v => { v with tstamp := now }
    if rc = .more then
      return .more
    let p ← getPd i
    let v := p.pivD
    let total := v.mp.total
    let auth : AuthArgs :=
      ⟨v.algorithm, v.key, UInt16.ofNat total, v.data.take total⟩
    match v.family with
    | some .crauth => return .complete (.crauth auth)
    | _ => return .complete (.genauth auth)
  | .earlyTerm =>
    osdpPivAbort env run i
    return .more
  | _ =>
    osdpPivAbort env run i
    return .malformed

/-- `osdp_piv_pd_cmd_frag`. -/
def osdpPivPdCmdFrag (i wireCmd : Nat) (buf : Bytes) : OsdpM CmdFrag := do
  match osdpMpHdrRead .w16 buf with
  | none => return .malformed
  | some (total, off, _) =>
    if off = 0 then
      if total = 0 ∨ total > pivDataMaxLen then
        return .malformed
      if !(← osdpPivPdOpen env run i wireCmd 0) then
        return .malformed
      updMp i .piv fun m => { m with binding := .buffer pivDataMaxLen }
      osdpMpRxInit i .piv .w16 total
      pivEmitStart env run i
    else
      let p ← getPd i
      if p.piv.isNone ∨ p.pivD.phase ≠ .cmd ∨ pivWireCmd p ≠ wireCmd ∨
          !(p.mp .piv).isActive then
        return .malformed
    let p ← getPd i
    let (rc, pfx) ← osdpMpRxConsumeEx env i .piv buf (pivCmdPfxLen p.pivD)
    pivPdFragVerdict env run i off rc pfx

/-- `osdp_piv_pd_reply_pending`. -/
def osdpPivPdReplyPending (p : OsdpPd) : Bool :=
  let m := p.mp .piv
  p.piv.isSome && p.pivD.phase == .reply && m.isActive &&
    decide (m.offset < m.total)

/-- `osdp_piv_pd_reply_id`. -/
def osdpPivPdReplyId (p : OsdpPd) : Nat := pivWireReply p

/-- The seed of `osdp_piv_pd_reply_build`: length and bytes of the
application's reply, if this is the first fragment. -/
def pivSeed (i : Nat) (length : Nat) (data : Bytes) : OsdpM Bool := do
  let p ← getPd i
  if p.pivD.phase ≠ .cmd ∨ length = 0 ∨ length > pivDataMaxLen then
    return false
  updPiv i fun v => { v with data := writeAt v.data 0 (data.take length) }
  updMp i .piv fun m => { m with binding := .buffer length }
  let _ ← osdpMpTxInit i .piv length .w16
  osdpMpEmitStart env run i .piv
  updPiv i fun v => { v with phase := .reply }
  return true

/-- One fragment of a running reply, built and committed. -/
def pivPdFragment (i : Nat) (maxLen : Int) : OsdpM (Option Bytes) := do
  match ← osdpMpTxBuildEx env i .piv (maxLen - mpScReserve) [] with
  | none =>
    osdpPivAbort env run i
    return none
  | some frag =>
    osdpMpTxCommit env run i .piv
    let now ← osdpMillisNow
    updPiv i fun v => { v with tstamp := now }
    let m ← getMp i .piv
    if m.offset ≥ m.total then
      osdpMpFinish env run i .piv .ok
      pivOpReset i
    return some frag

/-- `osdp_piv_pd_reply_build`. -/
def osdpPivPdReplyBuild (i : Nat) (seed : Option (Nat × Bytes))
    (maxLen : Int) : OsdpM (Option Bytes) := do
  let p ← getPd i
  if p.piv.isNone then
    return none
  match seed with
  | some (length, data) =>
    if !(← pivSeed env run i length data) then
      return none
  | none =>
    if !osdpPivPdReplyPending p then
      return none
  pivPdFragment env run i maxLen

end LibOsdp
