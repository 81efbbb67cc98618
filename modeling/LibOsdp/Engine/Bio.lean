/-
Biometric reads whose template spans packets (osdp_bio.c).

The first reply is an ordinary REPLY_BIOREADR whose length field carries
the total; when its data falls short of that, the rest follows as
fragments on poll cycles.  Header and fragment header have the same
width, which is what lets the first fragment ride the engine.
-/
import LibOsdp.Engine.Multipart

namespace LibOsdp

open Lib

variable (env : Env) (run : List ApiCall → OsdpM Unit)

abbrev bioreadrMaxTemplateLen : Nat := 256
abbrev bioOpTimeoutMs : Int := 10000

/-- `REPLY_BIOREADR_DATA_LEN`. -/
abbrev replyBioreadrDataLen : Nat := 6

/-- The context, as C reads it through a pointer that may be null. -/
def OsdpPd.bioD (p : OsdpPd) : OsdpBio := p.bio.getD {}

/-- Change the context. -/
def updBio (i : Nat) (f : OsdpBio → OsdpBio) : OsdpM Unit :=
  updPd i fun p => { p with bio := p.bio.map f }

/-- `bio_get`: allocate the context on first use. -/
def bioGet (i : Nat) : OsdpM Unit :=
  updPd i fun p => { p with bio := some p.bioD }

/-- `bio_op_reset`. -/
def bioOpReset (i : Nat) : OsdpM Unit :=
  updBio i fun b => { b with active := false, mp := {} }

/-- `bio_emit_start`. -/
def bioEmitStart (i : Nat) : OsdpM Unit := do
  let p ← getPd i
  if !p.bioD.startEmitted then
    updBio i fun b => { b with startEmitted := true }
    osdpMpEmitStart env run i .bio

/-- `osdp_bio_is_active`. -/
def osdpBioIsActive (p : OsdpPd) : Bool := p.bio.isSome && p.bioD.active

/-- `osdp_bio_owns_cmd`. -/
def osdpBioOwnsCmd (p : OsdpPd) (cmdId : Nat) : Bool :=
  osdpBioIsActive p && cmdId == cmdBioread

/-- `osdp_bio_request_cancel`. -/
def osdpBioRequestCancel (i : Nat) : OsdpM Bool := do
  let p ← getPd i
  if !osdpBioIsActive p then
    return false
  updMp i .bio fun m => { m with cancelReq := true }
  return true

/-- `osdp_bio_abort`. -/
def osdpBioAbort (i : Nat) : OsdpM Unit := do
  let p ← getPd i
  if osdpBioIsActive p then
    bioEmitStart env run i
    osdpMpFinish env run i .bio .aborted
    bioOpReset i

/-- `bio_op_open`. -/
def bioOpOpen (i : Nat) (reader : UInt8) : OsdpM Unit := do
  osdpBioAbort env run i
  let now ← osdpMillisNow
  updBio i fun b =>
    { b with
      startEmitted := false
      tstamp := now
      mp :=
        { eventCb := true, msgType := some .bioread
          objectId := reader.toNat } }

-- =============================================================== PD role

/-- `osdp_bio_pd_reply_pending`. -/
def osdpBioPdReplyPending (p : OsdpPd) : Bool :=
  let m := p.mp .bio
  osdpBioIsActive p && m.isActive && decide (m.offset < m.total)

/-- `bio_write_std_header`. -/
def bioStdHeader (b : OsdpBio) (total : Nat) : Bytes :=
  [b.reader, b.status, b.type, b.quality] ++ writeLe 2 total

/-- One fragment of a running reply, built and committed. -/
def bioPdFragment (i : Nat) (maxLen : Int) : OsdpM (Option Bytes) := do
  let first := (← getMp i .bio).offset = 0
  match ← osdpMpTxBuildEx env i .bio (maxLen - mpScReserve) [] with
  | none =>
    osdpBioAbort env run i
    return none
  | some frag =>
    let p ← getPd i
    let frag := if first then
        writeAt frag 0 (bioStdHeader p.bioD (p.mp .bio).total)
      else frag
    osdpMpTxCommit env run i .bio
    let now ← osdpMillisNow
    updBio i fun b => { b with tstamp := now }
    let m ← getMp i .bio
    if m.offset ≥ m.total then
      osdpMpFinish env run i .bio .ok
      bioOpReset i
    return some frag

/-- `osdp_bio_pd_reply_build`. -/
def osdpBioPdReplyBuild (i : Nat) (seed : Option BioReadr) (maxLen : Int) :
    OsdpM (Option Bytes) := do
  match seed with
  | some r =>
    bioGet i
    if r.length > bioreadrMaxTemplateLen then
      return none
    updBio i fun b =>
      { b with
        reader := r.reader, status := r.status, type := r.type
        quality := r.quality }
    let avail := maxLen - replyBioreadrDataLen - mpScReserve
    if (r.length : Int) ≤ avail then
      let p ← getPd i
      return some (bioStdHeader p.bioD r.length ++ r.data.take r.length)
    bioOpOpen env run i r.reader
    updBio i fun b => { b with data := writeAt b.data 0 (r.data.take r.length) }
    updMp i .bio fun m => { m with binding := .buffer r.length }
    let _ ← osdpMpTxInit i .bio r.length .w16
    bioEmitStart env run i
    updBio i fun b => { b with active := true }
    bioPdFragment env run i maxLen
  | none =>
    let p ← getPd i
    if !osdpBioPdReplyPending p then
      return none
    bioPdFragment env run i maxLen

-- =============================================================== CP role

/-- `osdp_bio_cp_get_command`: zero for nothing to send. -/
def osdpBioCpGetCommand (i : Nat) : OsdpM Nat := do
  let p ← getPd i
  if !osdpBioIsActive p then
    return 0
  let now ← osdpMillisNow
  if (p.mp .bio).cancelReq ∨ now - p.bioD.tstamp > bioOpTimeoutMs then
    osdpBioAbort env run i
    return cmdAbort
  return cmdPoll

/-- `bio_cp_fill_event`. -/
def bioEvent (b : OsdpBio) (length : Nat) (data : Bytes) : OsdpEvent :=
  .bioreadr ⟨b.reader, b.status, b.type, b.quality, length, data⟩

/-- The verdict half of `osdp_bio_cp_reply_consume`. -/
def bioCpVerdict (i : Nat) (rc : MpRc) : OsdpM FragResult := do
  match rc with
  | .more =>
    osdpMpRxCommit env run i .bio
    let now ← osdpMillisNow
    updBio i fun b => { b with tstamp := now }
    return .more
  | .done =>
    osdpMpRxCommit env run i .bio
    let p ← getPd i
    let total := (p.mp .bio).total
    return .complete (bioEvent p.bioD total (p.bioD.data.take total))
  | _ =>
    osdpBioAbort env run i
    return .more

/-- `osdp_bio_cp_reply_consume` on the first fragment, a standard
REPLY_BIOREADR. -/
def bioCpFirstFragment (i : Nat) (buf : Bytes) : OsdpM FragResult := do
  if buf.length < replyBioreadrDataLen then
    return .unexpected
  bioGet i
  updBio i fun b =>
    { b with
      reader := byteAt buf 0, status := byteAt buf 1
      type := byteAt buf 2, quality := byteAt buf 3 }
  let total := readLe 2 (buf.drop 4)
  let data := buf.drop replyBioreadrDataLen
  if total > bioreadrMaxTemplateLen ∨ data.length > total then
    return .unexpected
  let p ← getPd i
  if data.length = total then
    updBio i fun b => { b with active := false }
    return .complete (bioEvent p.bioD total data)
  bioOpOpen env run i p.bioD.reader
  updMp i .bio fun m => { m with binding := .buffer bioreadrMaxTemplateLen }
  osdpMpRxInit i .bio .w16 total
  bioEmitStart env run i
  updBio i fun b => { b with active := true }
  let (rc, _) ← osdpMpRxConsumeEx env i .bio
    (osdpMpHdrWrite .w16 total 0 data.length ++ data) 0
  bioCpVerdict env run i rc

/-- `osdp_bio_cp_reply_consume`. -/
def osdpBioCpReplyConsume (i : Nat) (buf : Bytes) : OsdpM FragResult := do
  let p ← getPd i
  if !osdpBioIsActive p then
    bioCpFirstFragment env run i buf
  else
    let (rc, _) ← osdpMpRxConsumeEx env i .bio buf 0
    bioCpVerdict env run i rc

/-- `osdp_bio_cp_reply_finish`. -/
def osdpBioCpReplyFinish (i : Nat) : OsdpM Unit := do
  let p ← getPd i
  if osdpBioIsActive p then
    osdpMpFinish env run i .bio .ok
    bioOpReset i

end LibOsdp
