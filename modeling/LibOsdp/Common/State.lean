/-
The library's state (osdp_common.h: `struct osdp`, `struct osdp_pd` and
what hangs off it), the environment it runs in, and the monad its
functions are written in.

# What the state holds

`OsdpPd` is `struct osdp_pd` field for field, for both roles.  Left out
are the fields only logging, metrics and packet tracing read (`name`,
`metrics`, `packet_scan_skip`, `packet_capture_ctx`), the back pointers
(`osdp_ctx`, `idx`: a device is named by its index into `Osdp.pd`) and
the callback pointers, which live in `Env`.  The anonymous union of
`nak_code`, `keyset_pending` and `comset_pending` is its sixteen bytes,
so writing one member is visible through the others exactly as in C.

The receive ring is a list of at most `rxRbSize - 1` bytes; the packet
buffers are whole buffers, stale bytes included, since the decoder reads
some fields before it has checked that the frame reaches that far.

# What the environment decides

Everything the library cannot know (what the application's callbacks
return and which calls they make, whether the channel takes a packet,
what the file operations yield) is a function of the history of the run.
`Osdp.log` is that history, newest first: quantifying over such functions
is quantifying over every behaviour of the environment.  Bytes from the
line, the clock and the application's own calls are inputs of the run.

A run ends at a `Fault`: an assertion or `BUG()` that fires, an access
outside the object it is made in, or a callback nesting deeper than the
run was given room for.
-/
import LibOsdp.Common.Types
import LibOsdp.Lib.BlockCipher

namespace LibOsdp

-- =========================================================== components

/-- `pd->flags`, one Boolean per PD_FLAG bit the modelled code tests. -/
structure PdFlags where
  scCapable : Bool := false
  skipSeqCheck : Bool := false
  scUseScbkd : Bool := false
  scActive : Bool := false
  pdMode : Bool := false
  pktSkipMark : Bool := false
  pktHasMark : Bool := false
  scDisabled : Bool := false
  pktBroadcast : Bool := false
  cpUseCrc : Bool := false
  online : Bool := false
  trsCapable : Bool := false
  trsActive : Bool := false
  scEstablished : Bool := false
  tamper : Bool := false
  power : Bool := false
  rTamper : Bool := false
  enforceSecure : Bool := false
  installMode : Bool := false
  ignoreUsr : Bool := false
  enableNotif : Bool := false
  allowEmptyEdb : Bool := false
  bioreadrMp : Bool := false
  deriving DecidableEq, Repr

def zeros (n : Nat) : Bytes := List.replicate n 0

/-- `struct osdp_secure_channel`. -/
structure OsdpSecureChannel where
  scbk : Bytes := zeros 16
  sEnc : Bytes := zeros 16
  sMac1 : Bytes := zeros 16
  sMac2 : Bytes := zeros 16
  rMac : Bytes := zeros 16
  cMac : Bytes := zeros 16
  cpRandom : Bytes := zeros 8
  pdRandom : Bytes := zeros 8
  pdClientUid : Bytes := zeros 8
  cpCryptogram : Bytes := zeros 16
  pdCryptogram : Bytes := zeros 16
  deriving DecidableEq, Repr

/-- `struct osdp_pd_cap`; the function code is the index it is stored at
once the code has been announced. -/
structure PdCap where
  functionCode : Nat := 0
  complianceLevel : UInt8 := 0
  numItems : UInt8 := 0
  deriving DecidableEq, Repr

/-- `enum osdp_mp_state`. -/
inductive MpState where
  | idle | inprog | wait | done
  deriving DecidableEq, Repr

/-- `enum osdp_mp_width`. -/
inductive MpWidth where
  | w16 | w32
  deriving DecidableEq, Repr

/-- Where a transfer's bytes live: nowhere yet, behind the file
operations, or in the owner's staging buffer of the given length. -/
inductive MpBinding where
  | unbound
  | fileOps
  | buffer (len : Nat)
  deriving DecidableEq, Repr

/-- `struct osdp_multipart`.  Both roles register `osdp_mp_pd_notify` as
the event callback; `eventCb` says whether that has happened. -/
structure Multipart where
  state : MpState := .idle
  width : MpWidth := .w16
  total : Nat := 0
  offset : Nat := 0
  lastLen : Nat := 0
  lastOff : Nat := 0
  binding : MpBinding := .unbound
  eventCb : Bool := false
  msgType : Option MpMsg := none
  objectId : Nat := 0
  doneOutcome : MpOutcome := .ok
  startEmitted : Bool := false
  cancelReq : Bool := false
  waitTimeMs : Int := 0
  tstamp : Int := 0
  deriving DecidableEq, Repr

/-- `struct osdp_file`; `flags` is the three wire flags kept in it. -/
structure OsdpFile where
  flags : UInt32 := 0
  fileId : Nat := 0
  mp : Multipart := {}
  isOpen : Bool := false
  keepAlivePending : Bool := false
  writeFailed : Bool := false
  finalizeTstamp : Int := 0
  errors : Nat := 0
  inTerminal : Bool := false
  deriving DecidableEq, Repr

/-- `enum osdp_piv_phase`. -/
inductive PivPhase where
  | idle | cmd | reply
  deriving DecidableEq, Repr

/-- A row of `piv_families`. -/
inductive PivFamily where
  | pivdata | genauth | crauth
  deriving DecidableEq, Repr

/-- `mp_msg` of a row. -/
def PivFamily.mpMsg : PivFamily → MpMsg
  | .pivdata => .piv
  | .genauth => .genauth
  | .crauth => .crauth

/-- `wire_cmd` of a row. -/
def PivFamily.wireCmd : PivFamily → Nat
  | .pivdata => cmdPivdata
  | .genauth => cmdGenauth
  | .crauth => cmdCrauth

/-- `wire_reply` of a row. -/
def PivFamily.wireReply : PivFamily → Nat
  | .pivdata => replyPivdatar
  | .genauth => replyGenauthr
  | .crauth => replyCrauthr

/-- `struct osdp_piv`. -/
structure OsdpPiv where
  phase : PivPhase := .idle
  family : Option PivFamily := none
  startEmitted : Bool := false
  algorithm : UInt8 := 0
  key : UInt8 := 0
  req : PivRequest := ⟨zeros 3, 0, 0⟩
  tstamp : Int := 0
  mp : Multipart := {}
  data : Bytes := zeros 256
  deriving DecidableEq, Repr

/-- `struct osdp_bio`; `active` is `phase != OSDP_BIO_IDLE`. -/
structure OsdpBio where
  active : Bool := false
  startEmitted : Bool := false
  reader : UInt8 := 0
  status : UInt8 := 0
  type : UInt8 := 0
  quality : UInt8 := 0
  tstamp : Int := 0
  mp : Multipart := {}
  data : Bytes := zeros 256
  deriving DecidableEq, Repr

/-- `enum trs_state_e`. -/
inductive TrsState where
  | setMode | xmit | disconnectCard | teardown | done
  deriving DecidableEq, Repr

/-- `enum trs_scan_support_e`. -/
inductive TrsScanSupport where
  | unknown | yes | no
  deriving DecidableEq, Repr

/-- `pd->trs.scan`. -/
structure TrsScan where
  enabled : Bool := false
  holding : Bool := false
  asking : Bool := false
  asked : Bool := false
  declined : Bool := false
  support : TrsScanSupport := .unknown
  lastStatus : TrsCardStatus := .unknown
  mode0DwellMs : Int := 0
  mode1DwellMs : Int := 0
  holdMs : Int := 0
  backoffMs : Int := 0
  tstamp : Int := 0
  probeTstamp : Int := 0
  holdTstamp : Int := 0
  askTstamp : Int := 0
  deriving DecidableEq, Repr

/-- `struct osdp_trs`. -/
structure OsdpTrs where
  state : TrsState := .setMode
  mode : UInt8 := 0
  failed : Bool := false
  bandOpen : Bool := false
  stopPending : Bool := false
  replyError : Bool := false
  probe : Bool := false
  scan : TrsScan := {}
  deriving DecidableEq, Repr

/-- `enum osdp_cp_phy_state_e`. -/
inductive CpPhyState where
  | idle | sendCmd | sendCmdWait | replyWait | wait | retryCmd | done | err
  deriving DecidableEq, Repr

/-- `enum osdp_cp_state_e`. -/
inductive CpState where
  | init | capdet | scChlng | scScrypt | setScbk | online | offline
  | disabled | trsSetup | trsRun
  deriving DecidableEq, Repr

/-- `pd->request`, one Boolean per CP_REQ bit. -/
structure CpRequest where
  restartSc : Bool := false
  linkReset : Bool := false
  offline : Bool := false
  disable : Bool := false
  enable : Bool := false
  trsOpen : Bool := false
  trsScan : Bool := false
  deriving DecidableEq, Repr

/-- The buffer `pd->packet_buf` points at. -/
inductive BufRef where
  | tx | rx
  deriving DecidableEq, Repr

-- ================================================================ the PD

/-- `struct osdp_pd`. -/
structure OsdpPd where
  flags : PdFlags := {}
  baudRate : UInt32 := 0
  address : Nat := 0
  seqNumber : Int := 0
  id : PdId := {}
  cap : Nat → PdCap := fun _ => {}
  state : CpState := .init
  phyState : CpPhyState := .idle
  phyRetryCount : Nat := 0
  phyTxSeq : Nat := 0
  waitMs : Int := 0
  tstamp : Int := 0
  scTstamp : Int := 0
  phyTstamp : Int := 0
  respTimeoutMs : Int := 0
  request : CpRequest := {}
  peerRxSize : Nat := 0
  rxRb : Bytes := []
  packetBuf : BufRef := .tx
  packetLen : Nat := 0
  packetBufLen : Nat := 0
  replyPrebuilt : Bool := false
  lastTxLen : Nat := 0
  lastCmdId : Nat := 0
  cmdId : Nat := 0
  replyId : Nat := 0
  /-- the union of `nak_code`, `keyset_pending` and `comset_pending` -/
  pending : Bytes := zeros 16
  cmdQueue : List SubmittedCmd := []
  eventQueue : List SubmittedEvent := []
  activeCmd : Option SubmittedCmd := none
  activeEvent : Option SubmittedEvent := none
  engineCmd : Option SubmittedCmd := none
  engineCmdMpType : MpMsg := .fileTransfer
  sc : OsdpSecureChannel := {}
  file : Option OsdpFile := none
  piv : Option OsdpPiv := none
  bio : Option OsdpBio := none
  trs : OsdpTrs := {}

/-- The file operations an application registers, as it sees them. -/
inductive FileOp where
  | open (id size : Nat)
  | read (size offset : Nat)
  | write (data : Bytes) (offset : Nat)
  | close
  | finalize
  deriving DecidableEq, Repr

/-- What a run makes observable, and the points the claims about it speak
of.  Entries name the PD they are about. -/
inductive Obs where
  /-- the PD looks for a command; opens an exchange -/
  | receive (pd : Nat)
  /-- a frame passed `osdp_phy_check_packet` -/
  | frame (pd : Nat) (bytes : Bytes)
  /-- a payload was handed to the command or reply decoder -/
  | decoded (pd : Nat) (payload : Bytes) (scActive : Bool)
  /-- the decoder's verdict on that payload -/
  | verdict (pd : Nat) (payload : Bytes) (ret : Int)
  /-- the PD app's command callback ran -/
  | command (pd : Nat) (cmd : OsdpCmd) (ret : Int)
  /-- the CP app's event callback ran -/
  | event (pd : Nat) (ev : OsdpEvent)
  /-- a packet carrying this id is being built -/
  | build (pd id : Nat) (scActive : Bool)
  /-- the stored retransmit cache was put on the line -/
  | resent (pd : Nat) (bytes : Bytes)
  /-- the channel was asked to take a packet, and answered -/
  | sent (pd : Nat) (bytes : Bytes) (ret : Int)
  /-- random bytes were drawn, from this position of the source on -/
  | random (start : Nat) (bytes : Bytes)
  /-- session keys were derived, `scbkd` tells from which key; the channel
  as it is then -/
  | sessionKeys (pd : Nat) (scbkd : Bool) (sc : OsdpSecureChannel)
  /-- the CP entered SC_CHLNG with this `cp_random` -/
  | challenged (pd : Nat) (cpRandom : Bytes)
  /-- the secure channel came up -/
  | scActivated (pd : Nat)
  /-- the stored SCBK was overwritten -/
  | keyCommit (pd : Nat) (key : Bytes)
  /-- a submit call took ownership of a command -/
  | accepted (pd node : Nat)
  /-- the command completion callback ran -/
  | cmdDone (pd node : Nat) (status : CompletionStatus)
  /-- the event completion callback ran -/
  | evDone (node : Nat) (status : CompletionStatus)
  /-- a registered file operation ran -/
  | file (pd : Nat) (op : FileOp)
  deriving DecidableEq, Repr

/-- `struct osdp`, the channel it owns, and the history of the run. -/
structure Osdp where
  numPd : Nat := 1
  tearingDown : Bool := false
  running : Bool := false
  isSealed : Bool := false
  currentPd : Nat := 0
  pd : Nat → OsdpPd
  txBuf : Bytes := zeros packetBufSize
  rxBuf : Bytes := zeros packetBufSize
  /-- `rx_buf` is `tx_buf` (CP role) -/
  rxIsTx : Bool := false
  /-- the clock, as `osdp_millis_now` reads it during this call -/
  now : Int := 0
  /-- bytes the channel has received and not yet handed over -/
  line : Bytes := []
  /-- random bytes drawn so far -/
  drawn : Nat := 0
  log : List Obs := []

-- ======================================================== environment

/-- The `flags` of `osdp_cp_modify_flag`; `other` stands for every bit it
does not take. -/
structure CpFlagMask where
  enforceSecure : Bool := false
  ignUnsolicited : Bool := false
  enableNotification : Bool := false
  allowEmptyEdb : Bool := false
  other : Bool := false
  deriving DecidableEq, Repr

/-- `struct osdp_trs_scan_params`; zero asks for the default. -/
structure TrsScanParams where
  mode0DwellMs : Nat := 0
  mode1DwellMs : Nat := 0
  holdMs : Nat := 0
  deriving DecidableEq, Repr

/-- The calls a callback may make back into the library. -/
inductive ApiCall where
  | pdSubmitEvent (ev : SubmittedEvent)
  | pdFlushEvents
  | cpSubmitCommand (pd : Nat) (cmd : SubmittedCmd)
  | cpCancel (pd : Nat) (what : MpMsg)
  | cpFlushCommands (pd : Nat)
  | cpModifyFlag (pd : Nat) (flags : CpFlagMask) (doSet : Bool)
  | cpDisablePd (pd : Nat)
  | cpEnablePd (pd : Nat)
  | cpTrsScanEnable (pd : Nat) (params : TrsScanParams)
  | cpTrsScanDisable (pd : Nat)
  deriving Repr

/-- What an application's callback does: the value it returns, its edit
of the command it was handed, and the calls it makes before returning. -/
structure AppReply where
  ret : Int := 0
  edit : OsdpCmd → OsdpCmd := id
  calls : List ApiCall := []

/-- The operations of `struct osdp_file_ops`; each sees the history. -/
structure FileOps where
  openFile : List Obs → Nat → Nat → Int × Nat
  readFile : List Obs → Nat → Nat → Int × Bytes
  writeFile : List Obs → Bytes → Nat → Int
  closeFile : List Obs → Int
  finalize : Option (List Obs → Bool × MpOutcome × Nat)

/-- Everything outside the library. -/
structure Env where
  /-- the AES back end -/
  cipher : Lib.BlockCipher
  /-- `crc16_itu_t(0x1D0F, ..)` of the utils submodule -/
  crc16 : Bytes → UInt16
  /-- the random bytes, in the order they are drawn -/
  rand : Nat → UInt8
  /-- OPT_OSDP_SKIP_MARK_BYTE -/
  skipMarkByte : Bool := false
  /-- the channel has a `flush` -/
  channelFlush : Bool := false
  channelSend : List Obs → Bytes → Int
  commandCallback : Option (List Obs → OsdpCmd → AppReply) := none
  eventCompletion :
    Option (List Obs → SubmittedEvent → CompletionStatus → AppReply) := none
  eventCallback : Option (List Obs → Nat → OsdpEvent → AppReply) := none
  commandCompletion :
    Option (List Obs → Nat → SubmittedCmd → CompletionStatus → AppReply)
      := none
  fileOps : FileOps

-- ============================================================= the monad

/-- How a run can end other than by returning. -/
inductive Fault where
  | bug
  | assertion
  | outOfBounds
  | nesting
  deriving DecidableEq, Repr

abbrev OsdpM := EStateM Fault Osdp

/-- `osdp_to_pd(ctx, i)`, read. -/
def getPd (i : Nat) : OsdpM OsdpPd := fun s => .ok (s.pd i) s

/-- The state after PD `i` was changed by `f`. -/
def Osdp.updPd (s : Osdp) (i : Nat) (f : OsdpPd → OsdpPd) : Osdp :=
  { s with pd := fun j => if j = i then f (s.pd i) else s.pd j }

/-- `osdp_to_pd(ctx, i)`, written. -/
def updPd (i : Nat) (f : OsdpPd → OsdpPd) : OsdpM Unit :=
  fun s => .ok () (s.updPd i f)

/-- Append to the history of the run. -/
def observe (o : Obs) : OsdpM Unit :=
  fun s => .ok () { s with log := o :: s.log }

/-- `osdp_millis_now()`. -/
def osdpMillisNow : OsdpM Int := fun s => .ok s.now s

/-- `osdp_millis_since(last)`. -/
def osdpMillisSince (last : Int) : OsdpM Int := fun s => .ok (s.now - last) s

/-- `assert(c)`. -/
def assertC (c : Bool) : OsdpM Unit :=
  if c then pure () else throw .assertion

@[simp] theorem updPd_pd_same (s : Osdp) (i : Nat) (f : OsdpPd → OsdpPd) :
    (s.updPd i f).pd i = f (s.pd i) := by
  simp [Osdp.updPd]

@[simp] theorem updPd_pd_ne (s : Osdp) {i j : Nat} (f : OsdpPd → OsdpPd)
    (h : j ≠ i) : (s.updPd i f).pd j = s.pd j := by
  simp [Osdp.updPd, h]

/-- Two updates of one PD are one. -/
theorem updPd_updPd (s : Osdp) (i : Nat) (f g : OsdpPd → OsdpPd) :
    (s.updPd i f).updPd i g = s.updPd i (g ∘ f) := by
  simp only [Osdp.updPd, if_true, Function.comp]
  congr 1
  funext j
  split <;> rfl

@[simp] theorem updPd_log (s : Osdp) (i : Nat) (f : OsdpPd → OsdpPd) :
    (s.updPd i f).log = s.log := rfl

-- =========================================================== small reads

/-- Sixteen bytes always, whatever the caller had. -/
def OsdpPd.nakCode (p : OsdpPd) : UInt8 := p.pending.headD 0

/-- `pd->nak_code = c`: byte 0 of the union. -/
def OsdpPd.setNak (p : OsdpPd) (c : UInt8) : OsdpPd :=
  { p with pending := p.pending.set 0 c }

/-- `sc_is_capable`. -/
def OsdpPd.scIsCapable (p : OsdpPd) : Bool :=
  p.flags.scCapable && !p.flags.scDisabled

/-- `get_tx_buf_size`. -/
def getTxBufSize (p : OsdpPd) : Nat :=
  if p.peerRxSize = 0 then packetBufSize
  else min packetBufSize p.peerRxSize

/-- `pd->reply_id = REPLY_NAK; pd->nak_code = c`. -/
def OsdpPd.nak (p : OsdpPd) (c : UInt8) : OsdpPd :=
  { p.setNak c with replyId := replyNak }

end LibOsdp
