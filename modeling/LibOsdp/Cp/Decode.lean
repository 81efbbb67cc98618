/-
Replies on the CP (osdp_cp.c, `cp_decode_response` and what it calls).

Every case of the C `switch` is a function of its own that takes the data
block behind the reply id and returns the case's `ret`; `cpErrGeneric` is
a `break` before the reply was found well formed.

# Before the data is looked at

`reply_id` is stored first of all.  A reply that then turns out to be
malformed leaves it behind, and the state machine reads it after an error
just as after a success.
-/
import LibOsdp.Cp.Build

namespace LibOsdp

open Lib

variable (env : Env) (run : List ApiCall → OsdpM Unit)

-- ======================================================= notifications

/-- What the CP's `notify_*` functions share. -/
def cpNotify (i : Nat) (n : Notification) : OsdpM Unit := do
  let p ← getPd i
  if p.flags.enableNotif then
    cpDispatchEvent env run i (.notification n)

/-- `notify_pd_status`. -/
def cpNotifyPdStatus (i : Nat) (online : Bool) : OsdpM Unit :=
  cpNotify env run i (.pdStatus online)

/-- `notify_pd_id`. -/
def cpNotifyPdId (i : Nat) : OsdpM Unit := do
  let p ← getPd i
  cpNotify env run i (.pdId p.id)

/-- `notify_trs_status`. -/
def cpNotifyTrsStatus (i : Nat) (status : TrsSessionStatus) : OsdpM Unit :=
  cpNotify env run i (.trsStatus status)

/-- `notify_sc_status`. -/
def cpNotifyScStatus (i : Nat) : OsdpM Unit := do
  let p ← getPd i
  cpNotify env run i (.scStatus p.flags.scActive p.flags.scUseScbkd)

-- ================================================ replies about the PD

/-- `cp_pd_declared_crc`. -/
def cpPdDeclaredCrc (p : OsdpPd) : Bool :=
  let c := p.cap capCheckCharacterSupport
  c.functionCode == capCheckCharacterSupport && c.complianceLevel &&& 1 != 0

/-- REPLY_NAK. -/
def decodeNakReply (i : Nat) (data : Bytes) : OsdpM Int := do
  if data.length ≠ 1 then
    return cpErrGeneric
  updPd i fun p => p.setNak (byteAt data 0)
  let p ← getPd i
  if p.nakCode = nakMsgChk ∧ p.cmdId ≠ cmdXwr ∧ p.flags.cpUseCrc then
    if !cpPdDeclaredCrc p then
      updPd i fun p => { p with flags := { p.flags with cpUseCrc := false } }
      return cpErrRetryCmd
    if p.phyRetryCount < cmdMaxRetries then
      return cpErrRetryCmd
  return cpErrNone

/-- The identity in REPLY_PDID. -/
def pdidOf (data : Bytes) : PdId where
  vendorCode := UInt32.ofNat (readLe 3 data)
  model := UInt32.ofNat (byteAt data 3).toNat
  version := UInt32.ofNat (byteAt data 4).toNat
  serialNumber := UInt32.ofNat (readLe 4 (data.drop 5))
  firmwareVersion := UInt32.ofNat (readBe 3 (data.drop 9))

/-- REPLY_PDID. -/
def decodePdid (i : Nat) (data : Bytes) : OsdpM Int := do
  if data.length ≠ 12 then
    return cpErrGeneric
  let prev ← getPd i
  updPd i fun p => { p with id := pdidOf data }
  if prev.id ≠ pdidOf data then
    cpNotifyPdId env run i
  return cpErrNone

/-- The capabilities in REPLY_PDCAP, up to the first unknown one. -/
def capsOf (cap : Nat → PdCap) : Bytes → Nat → PdCap
  | fc :: level :: items :: rest =>
    if fc.toNat ≥ capSentinel then cap
    else
      capsOf
        (fun k => if k = fc.toNat then ⟨fc.toNat, level, items⟩ else cap k)
        rest
  | _ => cap

/-- `cap[fc].compliance_level & 1`. -/
def OsdpPd.capBit (p : OsdpPd) (fc : Nat) : Bool :=
  (p.cap fc).complianceLevel &&& 1 != 0

/-- What the capabilities just stored change elsewhere in the PD. -/
def applyCaps (p : OsdpPd) : OsdpPd :=
  let rx := p.cap capReceiveBuffersize
  let crc := p.cap capCheckCharacterSupport
  { p with
    peerRxSize :=
      if rx.functionCode = capReceiveBuffersize then
        rx.complianceLevel.toNat + 256 * rx.numItems.toNat
      else p.peerRxSize
    flags :=
      { p.flags with
        scCapable := p.capBit capCommunicationSecurity
        cpUseCrc :=
          if crc.functionCode = capCheckCharacterSupport then
            p.capBit capCheckCharacterSupport
          else p.flags.cpUseCrc
        trsCapable := p.capBit capSmartCardSupport } }

/-- REPLY_PDCAP. -/
def decodePdcap (i : Nat) (data : Bytes) : OsdpM Int := do
  if data.length % 3 ≠ 0 then
    return cpErrGeneric
  updPd i fun p => applyCaps { p with cap := capsOf p.cap data }
  return cpErrNone

/-- REPLY_COM. -/
def decodeCom (i : Nat) (data : Bytes) : OsdpM Int := do
  if data.length ≠ 5 then
    return cpErrGeneric
  updPd i fun p =>
    { p with
      address := (byteAt data 0).toNat
      baudRate := UInt32.ofNat (readLe 4 (data.drop 1)) }
  return cpErrNone

-- ======================================= replies the application is told

/-- Hand the application an event, if the reply held one. -/
def decodeEvent (i : Nat) (ev : Option OsdpEvent) : OsdpM Int := do
  match ev with
  | none => return cpErrGeneric
  | some ev =>
    cpDispatchEvent env run i ev
    return cpErrNone

/-- The same, and the presence scan stays out of the way for a while. -/
def decodeActivity (i : Nat) (ev : Option OsdpEvent) : OsdpM Int := do
  let ret ← decodeEvent env run i ev
  if ret = cpErrNone then
    let now ← osdpMillisNow
    updPd i fun p => { p with trs := osdpTrsScanNoteActivity now p.trs }
  return ret

/-- A status report as long as the capability announces. -/
def statusEvent (p : OsdpPd) (type : StatusType) (cap : Nat)
    (data : Bytes) : Option OsdpEvent :=
  if data.length ≠ (p.cap cap).numItems.toNat ∨ data.length > 64 then none
  else some (.status ⟨type, data.length, data⟩)

/-- REPLY_LSTATR. -/
def lstatrEvent (data : Bytes) : Option OsdpEvent :=
  if data.length ≠ 2 then none else some (.status ⟨.local, 2, data⟩)

/-- REPLY_KEYPAD. -/
def keypadEvent (data : Bytes) : Option OsdpEvent :=
  let n := (byteAt data 1).toNat
  if data.length < 2 ∨ n ≠ data.length - 2 ∨ n > 64 then none
  else some (.keypress (byteAt data 0).toNat n (data.drop 2))

/-- A card format off the wire. -/
def cardFormatOf (b : UInt8) : CardFormat :=
  match b.toNat with
  | 0 => .rawUnspecified
  | 1 => .rawWiegand
  | 2 => .ascii
  | _ => .reserved b

/-- REPLY_RAW. -/
def rawEvent (data : Bytes) : Option OsdpEvent :=
  let bits := readLe 2 (data.drop 2)
  let n := (bits + 7) / 8
  if data.length < 4 ∨ n ≠ data.length - 4 ∨ n > 64 then none
  else
    some (.cardread (byteAt data 0).toNat (cardFormatOf (byteAt data 1)) bits
      (data.drop 4))

/-- REPLY_MFGREP. -/
def mfgrepEvent (data : Bytes) : Option OsdpEvent :=
  let n := data.length - 3
  if data.length < 3 ∨ n > 128 then none
  else some (.mfgrep (UInt32.ofNat (readLe 3 data)) n (data.drop 3))

/-- REPLY_MFGSTATR and REPLY_MFGERRR. -/
def mfgstatEvent (error : Bool) (data : Bytes) : Option OsdpEvent :=
  if data.length > 128 then none
  else if error then some (.mfgerrr data.length data)
  else some (.mfgstatr data.length data)

/-- REPLY_BIOREADR in one packet. -/
def bioreadrEvent (data : Bytes) : Option OsdpEvent :=
  let n := readLe 2 (data.drop 4)
  if data.length < replyBioreadrDataLen ∨
      n ≠ data.length - replyBioreadrDataLen ∨ n > bioreadrMaxTemplateLen then
    none
  else
    some (.bioreadr
      ⟨byteAt data 0, byteAt data 1, byteAt data 2, byteAt data 3, n,
        data.drop replyBioreadrDataLen⟩)

/-- REPLY_BIOMATCHR. -/
def biomatchrEvent (data : Bytes) : Option OsdpEvent :=
  if data.length ≠ 3 then none
  else some (.biomatchr (byteAt data 0) (byteAt data 1) (byteAt data 2))

-- ============================================ replies to the engines

/-- REPLY_ACK. -/
def decodeAck (i : Nat) (data : Bytes) : OsdpM Int := do
  if data.length ≠ 0 then
    return cpErrGeneric
  osdpPivCpCmdAcked env run i
  return cpErrNone

/-- A reply fragment of a smartcard operation. -/
def decodePivReply (i : Nat) (data : Bytes) : OsdpM Int := do
  match ← osdpPivCpReplyConsume env run i data with
  | .unexpected => return cpErrGeneric
  | .more => return cpErrNone
  | .complete ev =>
    cpDispatchEvent env run i ev
    osdpPivCpReplyFinish env run i
    return cpErrNone

/-- REPLY_BIOREADR. -/
def decodeBioreadr (i : Nat) (data : Bytes) : OsdpM Int := do
  let p ← getPd i
  if !p.flags.bioreadrMp then
    decodeEvent env run i (bioreadrEvent data)
  else
    match ← osdpBioCpReplyConsume env run i data with
    | .unexpected => return cpErrGeneric
    | .more => return cpErrNone
    | .complete ev =>
      cpDispatchEvent env run i ev
      osdpBioCpReplyFinish env run i
      return cpErrNone

/-- REPLY_FTSTAT. -/
def decodeFtstat (i : Nat) (data : Bytes) : OsdpM Int := do
  if ← osdpFileCmdStatDecode env run i data then
    return cpErrNone
  return cpErrGeneric

/-- REPLY_XRD with no session open: a card sighting is for the
application, anything else is dropped. -/
def decodeXrdOutside (i : Nat) (act : TrsReplyAction) : OsdpM Int := do
  match act with
  | .dispatch r@(.cardInfo ..) | .dispatch r@(.cardPresent ..) =>
    cpDispatchEvent env run i (.trs r)
    return cpErrNone
  | _ => return cpErrNone

/-- `trs_set_reply_error`. -/
def trsSetReplyError (i : Nat) (error : Bool) : OsdpM Unit :=
  updPd i fun p => { p with trs := { p.trs with replyError := error } }

/-- REPLY_XRD inside a session. -/
def decodeXrdInside (i : Nat) (act : TrsReplyAction) : OsdpM Int := do
  match act with
  | .malformed => return cpErrGeneric
  | .quiet =>
    trsSetReplyError i false
    return cpErrNone
  | .dispatch r =>
    trsSetReplyError i false
    cpDispatchEvent env run i (.trs r)
    return cpErrNone
  | .dispatchError r =>
    trsSetReplyError i true
    cpDispatchEvent env run i (.trs r)
    return cpErrNone

/-- REPLY_XRD. -/
def decodeXrd (i : Nat) (data : Bytes) : OsdpM Int := do
  let p ← getPd i
  let now ← osdpMillisNow
  let (t, act) := osdpTrsReplyDecode now data p.trs
  updPd i fun p => { p with trs := t }
  if p.flags.trsActive then decodeXrdInside env run i act
  else decodeXrdOutside env run i act

-- ========================================================== handshake

/-- What REPLY_CCRYPT carries, taken over. -/
def takeCcrypt (data : Bytes) (sc : OsdpSecureChannel) : OsdpSecureChannel :=
  { sc with
    pdClientUid := data.take 8
    pdRandom := (data.drop 8).take 8
    pdCryptogram := (data.drop 16).take 16 }

/-- REPLY_CCRYPT. -/
def decodeCcrypt (i : Nat) (data : Bytes) : OsdpM Int := do
  let p ← getPd i
  if p.flags.scActive ∨ p.cmdId ≠ cmdChlng ∨ data.length ≠ 32 then
    return cpErrGeneric
  updPd i fun p => { p with sc := takeCcrypt data p.sc }
  osdpComputeSessionKeys env i
  let p ← getPd i
  if !osdpVerifyPdCryptogram env p.sc then
    return cpErrApp
  return cpErrNone

/-- REPLY_RMAC_I. -/
def decodeRmacI (i : Nat) (data : Bytes) : OsdpM Int := do
  let p ← getPd i
  if p.flags.scActive ∨ p.cmdId ≠ cmdScrypt ∨ data.length ≠ 16 then
    return cpErrGeneric
  updPd i fun p => { p with sc := { p.sc with rMac := data } }
  return cpErrNone

-- ======================================================== the decoder

/-- The `switch` of `cp_decode_response`, on the data block behind the
reply id. -/
def cpDecodeCases (i id : Nat) (data : Bytes) : OsdpM Int := do
  let p ← getPd i
  match id with
  | replyAck => decodeAck env run i data
  | replyNak => decodeNakReply i data
  | replyPdid => decodePdid env run i data
  | replyPdcap => decodePdcap i data
  | replyOstatr =>
    decodeEvent env run i (statusEvent p .output capOutputControl data)
  | replyIstatr =>
    decodeEvent env run i
      (statusEvent p .input capContactStatusMonitoring data)
  | replyLstatr => decodeEvent env run i (lstatrEvent data)
  | replyRstatr =>
    decodeEvent env run i (statusEvent p .reader capReaders data)
  | replyCom => decodeCom i data
  | replyKeypad => decodeActivity env run i (keypadEvent data)
  | replyRaw => decodeActivity env run i (rawEvent data)
  | replyFmt => return cpErrNone
  | replyBusy =>
    return if data.length ≠ 0 then cpErrGeneric else cpErrRetryCmd
  | replyPivdatar | replyGenauthr | replyCrauthr =>
    decodePivReply env run i data
  | replyMfgrep => decodeEvent env run i (mfgrepEvent data)
  | replyMfgstatr => decodeEvent env run i (mfgstatEvent false data)
  | replyMfgerrr => decodeEvent env run i (mfgstatEvent true data)
  | replyBioreadr => decodeBioreadr env run i data
  | replyBiomatchr => decodeEvent env run i (biomatchrEvent data)
  | replyFtstat => decodeFtstat env run i data
  | replyXrd => decodeXrd env run i data
  | replyCcrypt => decodeCcrypt env i data
  | replyRmacI => decodeRmacI i data
  | _ => return cpErrUnknown

/-- `cp_decode_response`. -/
def cpDecodeResponse (i : Nat) (payload : Bytes) : OsdpM Int := do
  let id := (byteAt payload 0).toNat
  updPd i fun p => { p with replyId := id }
  cpDecodeCases env run i id payload.tail

end LibOsdp
