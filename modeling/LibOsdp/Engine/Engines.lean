/-
The three engines of a PD taken together (osdp_common.c), and the calls
that start a transfer on a CP, each of which must first see that no other
engine is in the middle of one.
-/
import LibOsdp.Engine.File
import LibOsdp.Engine.Piv
import LibOsdp.Engine.Bio

namespace LibOsdp

open Lib

variable (env : Env) (run : List ApiCall → OsdpM Unit)

/-- `osdp_engines_abort`. -/
def osdpEnginesAbort (i : Nat) : OsdpM Unit := do
  osdpFileTxAbort env run i
  osdpPivAbort env run i
  osdpBioAbort env run i

/-- `osdp_mp_engine_busy`. -/
def osdpMpEngineBusy (p : OsdpPd) : Bool :=
  osdpFileTxIsActive p || osdpPivIsActive p || osdpBioIsActive p

/-- `osdp_file_tx_command`: start sending a file.  False where the C
function returns -1. -/
def osdpFileTxCommand (i fileId : Nat) (flags : UInt32) : OsdpM Bool := do
  let p ← getPd i
  if p.file.isNone || (p.file.getD {}).inTerminal then
    return false
  if osdpFileTxIsActive p || osdpMpEngineBusy p then
    return false
  let s ← get
  observe (.file i (.open fileId 0))
  let (ret, size) := env.fileOps.openFile s.log fileId 0
  if ret < 0 then
    return false
  if size = 0 then
    observe (.file i .close)
    return false
  fileStateReset i
  updFile i fun f =>
    { f with
      flags := flags
      fileId := fileId
      isOpen := true
      mp :=
        { f.mp with msgType := some .fileTransfer, objectId := fileId } }
  let _ ← osdpMpTxInit i .file size .w32
  return true

/-- The challenge a GENAUTH or CRAUTH command carries, staged. -/
def pivSubmitAuth (i : Nat) (f : PivFamily) (auth : AuthArgs) :
    OsdpM Bool := do
  let n := auth.length.toNat
  if n = 0 ∨ n > pivDataMaxLen then
    return false
  pivOpSetup i f auth.key.toNat
  updPiv i fun v =>
    { v with
      algorithm := auth.algorithm
      key := auth.key
      data := writeAt v.data 0 (auth.data.take n) }
  updMp i .piv fun m => { m with binding := .buffer n }
  let _ ← osdpMpTxInit i .piv n .w16
  return true

/-- `osdp_piv_cp_submit`: start a smartcard operation.  False where the C
function returns -1. -/
def osdpPivCpSubmit (i : Nat) (cmd : OsdpCmd) : OsdpM Bool := do
  pivGet i
  let p ← getPd i
  if p.pivD.phase ≠ .idle || osdpMpEngineBusy p then
    return false
  match cmd with
  | .pivdata req =>
    updPiv i fun v => { v with req := req }
    pivOpSetup i .pivdata req.element.toNat
    return true
  | .genauth auth => pivSubmitAuth i .genauth auth
  | .crauth auth => pivSubmitAuth i .crauth auth
  | _ => return false

end LibOsdp
