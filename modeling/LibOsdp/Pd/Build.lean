/-
Replies on the PD (osdp_pd.c, `pd_build_reply` to `pd_send_reply`).

The reply that is built is the one `reply_id` names, whatever put it
there.  A reply that carries application data is matched with the active
event first; one that cannot be built becomes a NAK with code RECORD, in
the packet only: `reply_id` keeps its value.

# Building has effects

`osdp_CCRYPT` draws a random number and derives the session keys,
`osdp_RMAC_I` brings the secure channel up, and the multi-part replies
move their transfers on, all before the packet is known to fit or to be
sent.
-/
import LibOsdp.Pd.Decode

namespace LibOsdp

open Lib

variable (env : Env) (run : List ApiCall → OsdpM Unit)

-- ===================================================== backing events

/-- `reply_backing_event_type(id) >= 0`. -/
def replyNeedsEvent (id : Nat) : Bool :=
  match id with
  | replyOstatr | replyIstatr | replyLstatr | replyRstatr | replyKeypad
  | replyRaw | replyMfgrep | replyMfgstatr | replyMfgerrr | replyBioreadr
  | replyBiomatchr => true
  | _ => false

/-- The event is of type `reply_backing_event_type(id)`. -/
def eventBacks (id : Nat) (ev : OsdpEvent) : Bool :=
  match id, ev with
  | replyOstatr, .status _ | replyIstatr, .status _ => true
  | replyLstatr, .status _ | replyRstatr, .status _ => true
  | replyKeypad, .keypress .. => true
  | replyRaw, .cardread .. => true
  | replyMfgrep, .mfgrep .. => true
  | replyMfgstatr, .mfgstatr .. => true
  | replyMfgerrr, .mfgerrr .. => true
  | replyBioreadr, .bioreadr .. => true
  | replyBiomatchr, .biomatchr .. => true
  | _, _ => false

/-- `pd_engine_reply_pending`. -/
def pdEngineReplyPending (p : OsdpPd) (id : Nat) : Bool :=
  (id == replyBioreadr && osdpBioPdReplyPending p) ||
    (osdpPivPdReplyPending p && id == osdpPivPdReplyId p)

/-- The reply has nothing to be built from. -/
def replyUnbacked (p : OsdpPd) (id : Nat) (ev : Option OsdpEvent) : Bool :=
  replyNeedsEvent id && !(ev.any (eventBacks id)) &&
    !pdEngineReplyPending p id

-- ========================================================= data blocks

/-- The data block of REPLY_PDID. -/
def pdidBytes (id : PdId) : Bytes :=
  writeLe 3 id.vendorCode.toNat ++
    [byteOf id.model.toNat 0, byteOf id.version.toNat 0] ++
    writeLe 4 id.serialNumber.toNat ++ writeBe 3 id.firmwareVersion.toNat

/-- The data block of REPLY_PDCAP: the capabilities announced, as many as
fit. -/
def pdcapBytes (p : OsdpPd) : List Nat → Int → Bytes
  | [], _ => []
  | fc :: rest, room =>
    if (p.cap fc).functionCode ≠ fc then pdcapBytes p rest room
    else if room < 3 then []
    else
      [UInt8.ofNat fc, (p.cap fc).complianceLevel, (p.cap fc).numItems] ++
        pdcapBytes p rest (room - 3)

/-- The capability codes there are. -/
def capCodes : List Nat := List.range' 1 (capSentinel - 1)

/-- The wire code of a card format. -/
def cardFormatCode : CardFormat → UInt8
  | .rawUnspecified => 0
  | .rawWiegand => 1
  | .ascii => 2
  | .reserved code => code

/-- A sub-reader number as the byte it is sent as. -/
def readerByte (n : Int) : UInt8 := UInt8.ofNat (n % 256).toNat

/-- The data block of a reply built from an event. -/
def eventReplyBytes (p : OsdpPd) (id : Nat) (maxLen : Int) :
    OsdpEvent → Option Bytes
  | .keypress readerNo n data =>
    ifFits maxLen ([readerByte readerNo, UInt8.ofNat n] ++ fieldBytes data n)
  | .cardread readerNo format n data =>
    ifFits maxLen
      ([readerByte readerNo, cardFormatCode format] ++ writeLe 2 n ++
        fieldBytes data ((n + 7) / 8))
  | .mfgrep vendorCode n data =>
    ifFits maxLen (writeLe 3 vendorCode.toNat ++ fieldBytes data n)
  | .status r => statusReportBytes p id r maxLen
  | .mfgstatr n data | .mfgerrr n data => ifFits maxLen (fieldBytes data n)
  | .bioreadr r =>
    if r.length > bioreadrMaxTemplateLen then none
    else
      ifFits maxLen
        ([r.reader, r.status, r.type, r.quality] ++ writeLe 2 r.length ++
          fieldBytes r.data r.length)
  | .biomatchr reader status score => ifFits maxLen [reader, status, score]
  | _ => none

/-- The event that seeds a smartcard reply: one of the family the PD was
asked for. -/
def pivSeedOf (p : OsdpPd) (ev : Option OsdpEvent) : Option (Nat × Bytes) :=
  if p.piv.isNone then none
  else
    match ev, p.pivD.family with
    | some (.pivdatar n d), some .pivdata => some (n, d)
    | some (.genauthr n d), some .genauth => some (n, d)
    | some (.crauthr n d), some .crauth => some (n, d)
    | _, _ => none

/-- REPLY_CCRYPT: a fresh random number, the session keys, and the proof
that the PD holds the key. -/
def buildCcrypt (i : Nat) (smb : Option Nat) (maxLen : Int) :
    OsdpM (Option Bytes) := do
  match smb with
  | none => return none
  | some smb =>
    if maxLen < 32 then
      return none
    let r ← osdpFillRandom env 8
    updPd i fun p => { p with sc := { p.sc with pdRandom := r } }
    osdpComputeSessionKeys env i
    updPd i fun p => { p with sc := osdpComputePdCryptogram env p.sc }
    let p ← getPd i
    writeBuf .tx smb [3, 0x12, if p.flags.scUseScbkd then 0 else 1]
    return some (p.sc.pdClientUid ++ p.sc.pdRandom ++ p.sc.pdCryptogram)

/-- REPLY_RMAC_I: the initial MAC, and the channel is up. -/
def buildRmacI (i : Nat) (smb : Option Nat) (maxLen : Int) :
    OsdpM (Option Bytes) := do
  match smb with
  | none => return none
  | some smb =>
    if maxLen < 16 then
      return none
    updPd i fun p => { p with sc := osdpComputeRmacI env p.sc }
    let p ← getPd i
    writeBuf .tx smb [3, 0x14, 1]
    scActivate i
    notifyScStatus env run i
    let now ← osdpMillisNow
    updPd i fun p => { p with scTstamp := now }
    return some p.sc.rMac

/-- REPLY_BIOREADR: one packet, or a fragment of a transfer. -/
def buildBioreadr (i : Nat) (ev : Option OsdpEvent) (maxLen : Int) :
    OsdpM (Option Bytes) := do
  let p ← getPd i
  if p.flags.bioreadrMp then
    let seed := match ev with
      | some (.bioreadr r) => some r
      | _ => none
    osdpBioPdReplyBuild env run i seed maxLen
  else
    match ev with
    | some ev => return eventReplyBytes p replyBioreadr maxLen ev
    | none => throw .outOfBounds

/-- The `switch` of `pd_build_reply`: the data block behind the id byte,
or nothing where the C case leaves an error. -/
def pdBuildCases (i id : Nat) (ev : Option OsdpEvent) (smb : Option Nat)
    (maxLen : Int) : OsdpM (Option Bytes) := do
  let p ← getPd i
  match id with
  | replyAck | replyBusy => return some []
  | replyPdid => return ifFits maxLen (pdidBytes p.id)
  | replyPdcap => return some (pdcapBytes p capCodes maxLen)
  | replyCom =>
    return ifFits maxLen
      (p.pending.headD 0 ::
        writeLe 4 (readLe 4 (p.pending.drop 4)))
  | replyNak => return ifFits maxLen [p.nakCode]
  | replyOstatr | replyIstatr | replyLstatr | replyRstatr | replyKeypad
  | replyRaw | replyMfgrep | replyMfgstatr | replyMfgerrr
  | replyBiomatchr => return ev.bind (eventReplyBytes p id maxLen)
  | replyPivdatar | replyGenauthr | replyCrauthr =>
    osdpPivPdReplyBuild env run i (pivSeedOf p ev) maxLen
  | replyBioreadr => buildBioreadr env run i ev maxLen
  | replyFtstat => osdpFileCmdStatBuild env run i maxLen
  | replyXrd => return osdpTrsReplyBuild p.trs.mode ev (maxLen - 1)
  | replyCcrypt => buildCcrypt env i smb maxLen
  | replyRmacI => buildRmacI env run i smb maxLen
  | _ => throw .bug

-- ========================================================== the packet

/-- Hand the active event back to the application. -/
def pdCompleteActive (i : Nat) (status : CompletionStatus) : OsdpM Unit := do
  let p ← getPd i
  if p.activeEvent.isSome then
    pdCompleteEvent env run p.activeEvent status
    updPd i fun p => { p with activeEvent := none }

/-- The block type of a reply of `len` bytes, once that is final. -/
def pdPickBlockType (i : Nat) (smb : Option Nat) (len : Nat) : OsdpM Unit := do
  match smb with
  | none => return
  | some smb =>
    let p ← getPd i
    let buf ← readBuf .tx
    if scs14 < (byteAt buf (smb + 1)).toNat ∧ p.flags.scActive then
      writeBuf .tx smb [2, if len > 1 then 0x18 else 0x16]

/-- The end of `pd_build_reply`: the data block, or a NAK instead. -/
def pdFinishReply (i off : Nat) (smb : Option Nat) (maxLen : Int)
    (body : Option Bytes) : OsdpM Int := do
  match body with
  | some data =>
    writeBuf .tx (off + 1) data
    pdPickBlockType i smb (data.length + 1)
    return (data.length + 1 : Nat)
  | none =>
    if maxLen < 1 then
      return pdErrGeneric
    writeBuf .tx off [UInt8.ofNat replyNak, nakRecord]
    pdCompleteActive env run i .failed
    pdPickBlockType i smb 2
    return 2

/-- The data block of the reply `p` is to give, unless that lacks the
event it would be built from. -/
def pdBuildData (i : Nat) (p : OsdpPd) (smb : Option Nat) (maxLen : Int) :
    OsdpM (Option Bytes) := do
  let ev := p.activeEvent.map (·.event)
  if replyUnbacked p p.replyId ev then
    return none
  pdBuildCases env run i p.replyId ev smb maxLen

/-- `pd_build_reply`, on the PD `p` it starts from. -/
def pdBuildBody (i size : Nat) (p : OsdpPd) : OsdpM Int := do
  let buf ← readBuf .tx
  let off := osdpPhyPacketGetDataOffset p buf
  let smb := osdpPhyPacketGetSmb p buf
  if size ≤ off then
    return pdErrGeneric
  let maxLen : Int := (size - off - 1 : Nat)
  writeBuf .tx off [UInt8.ofNat p.replyId]
  let body ← pdBuildData env run i p smb maxLen
  pdFinishReply env run i off smb maxLen body

/-- `pd_build_reply`. -/
def pdBuildReply (i size : Nat) : OsdpM Int := do
  let p ← getPd i
  observe (.build i p.replyId p.flags.scActive)
  pdBuildBody env run i size p

/-- `pd_build_reply_packet`. -/
def pdBuildReplyPacket (i : Nat) : OsdpM Int := do
  let p ← getPd i
  let size := getTxBufSize p
  updPd i fun p => { p with packetBuf := .tx }
  let hdr ← osdpPhyPacketInit i size
  if hdr < 0 then
    return pdErrGeneric
  pdStage i hdr.toNat
  let len ← pdBuildReply env run i size
  if len ≤ 0 then
    return pdErrGeneric
  let total := hdr.toNat + len.toNat
  pdStage i total
  let done ← osdpPhyFinalizePacket env i total size
  if done < 0 then
    return pdErrGeneric
  pdStaged i done.toNat
  return pdErrNone

/-- `pd_send_reply`. -/
def pdSendReply (i : Nat) : OsdpM Int := do
  let p ← getPd i
  let ret ← osdpPhySendPacket env i p.packetBufLen
  if ret = errPktWaitTx then
    return pdErrRetrySend
  updPd i fun p => { p with replyPrebuilt := false, packetBufLen := 0 }
  if ret < 0 then
    return pdErrGeneric
  updPd i fun p => { p with lastTxLen := ret.toNat, lastCmdId := p.cmdId }
  return pdErrNone

end LibOsdp
