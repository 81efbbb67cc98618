/-
Packets (osdp_phy.c): how one is started, finished, queued on the
channel, and taken apart again.

# Layout

`[mark] SOM address len_lsb len_msb control [SCB ..] id data [MAC] check`

The mark byte is not part of the packet, so `finalizePacket` and
`decodePacket` work on the bytes from SOM on and are pure: the transmit
buffer, the receive buffer and the flags are handled by the `OsdpM`
functions around them, which bear the C functions' names.

# What decoding trusts

`decodePacket` computes the payload length from the first byte of the
security block, which nothing has validated, and returns it through the
same `Int` as its error codes; so `osdpPhyDecodePacket` can return any
negative number for a frame it meant to accept.  It also compares a MAC
for block types SCS_15 and up only.
-/
import LibOsdp.Sc.Sc

namespace LibOsdp

open Lib

abbrev pktMark : UInt8 := 0xFF
abbrev pktSom : UInt8 := 0x53

/-- `sizeof(struct osdp_packet_header)`. -/
abbrev pktHdrLen : Nat := 5

variable (env : Env)

-- ======================================================= header fields

/-- `control & PKT_CONTROL_SQN`. -/
def ctrlSqn (c : UInt8) : Nat := (c &&& 0x03).toNat

/-- `control & PKT_CONTROL_CRC`. -/
def ctrlCrc (c : UInt8) : Bool := c &&& 0x04 != 0

/-- `control & PKT_CONTROL_SCB`. -/
def ctrlScb (c : UInt8) : Bool := c &&& 0x08 != 0

/-- The control byte of a packet, from SOM on. -/
def pktControl (pkt : Bytes) : UInt8 := byteAt pkt 4

/-- `pkt->data[k]`. -/
def pktData (pkt : Bytes) (k : Nat) : UInt8 := byteAt pkt (pktHdrLen + k)

/-- The number of check bytes the control byte announces. -/
def checkLen (c : UInt8) : Nat := if ctrlCrc c then 2 else 1

/-- `packet_has_mark`, as the length it adds. -/
def OsdpPd.markLen (p : OsdpPd) : Nat := if p.flags.pktHasMark then 1 else 0

/-- `osdp_compute_checksum`. -/
def osdpComputeChecksum (msg : Bytes) : UInt8 :=
  msg.foldl (fun acc b => acc - b) 0

/-- The check bytes of a packet. -/
def checkBytes (c : UInt8) (pkt : Bytes) : Bytes :=
  if ctrlCrc c then writeLe 2 (env.crc16 pkt).toNat
  else [osdpComputeChecksum pkt]

/-- `phy_get_next_seq_number`. -/
def phyGetNextSeqNumber (p : OsdpPd) : Int :=
  if p.seqNumber + 1 > 3 then 1 else p.seqNumber + 1

/-- `phy_rollback_seq_number`. -/
def phyRollbackSeqNumber (p : OsdpPd) : OsdpPd :=
  { p with
    seqNumber := if p.seqNumber - 1 < 1 then 3 else p.seqNumber - 1 }

/-- `osdp_phy_in_sc_handshake`. -/
def osdpPhyInScHandshake (isReply : Bool) (id : Nat) : Bool :=
  if isReply then id == replyCcrypt || id == replyRmacI
  else id == cmdChlng || id == cmdScrypt

/-- `osdp_phy_packet_get_data_offset`, in the buffer with its mark. -/
def osdpPhyPacketGetDataOffset (p : OsdpPd) (buf : Bytes) : Nat :=
  let pkt := buf.drop p.markLen
  p.markLen + pktHdrLen +
    if ctrlScb (pktControl pkt) then (pktData pkt 0).toNat else 0

/-- `osdp_phy_packet_get_smb`: the security block's offset, if any. -/
def osdpPhyPacketGetSmb (p : OsdpPd) (buf : Bytes) : Option Nat :=
  if ctrlScb (pktControl (buf.drop p.markLen)) then
    some (p.markLen + pktHdrLen)
  else none

-- ========================================================= data blocks

/-- The id of a payload. -/
def payloadId (payload : Bytes) : Nat := (byteAt payload 0).toNat

/-- The first `n` bytes of an array member that holds `d`. -/
def fieldBytes (d : Bytes) (n : Nat) : Bytes := (d ++ zeros n).take n

@[simp] theorem length_fieldBytes (d : Bytes) (n : Nat) :
    (fieldBytes d n).length = n := by
  simp [fieldBytes, zeros]

/-- An array filled to the end is read as it is. -/
theorem fieldBytes_self {d : Bytes} {n : Nat} (h : d.length = n) :
    fieldBytes d n = d := by
  rw [fieldBytes, ← h, List.take_left' rfl]

/-- The data block, if there is room for it. -/
def ifFits (maxLen : Int) (data : Bytes) : Option Bytes :=
  if maxLen < data.length then none else some data

-- ============================================================= buffers

/-- The buffer a reference names; the CP has one for both directions. -/
def Osdp.buf (s : Osdp) (ref : BufRef) : Bytes :=
  if ref = .tx ∨ s.rxIsTx then s.txBuf else s.rxBuf

/-- Read a packet buffer. -/
def readBuf (ref : BufRef) : OsdpM Bytes := fun s => .ok (s.buf ref) s

/-- Store into a packet buffer. -/
def writeBuf (ref : BufRef) (off : Nat) (data : Bytes) : OsdpM Unit := fun s =>
  if ref = .tx ∨ s.rxIsTx then
    .ok () { s with txBuf := writeAt s.txBuf off data }
  else .ok () { s with rxBuf := writeAt s.rxBuf off data }

-- ======================================================== transmission

/-- The control byte `osdp_phy_packet_init` writes.  A busy PD answers on
sequence 0 in a plain packet. -/
def initControl (p : OsdpPd) (id : Nat) : UInt8 :=
  let busy := p.flags.pdMode && id == replyBusy
  let sqn : UInt8 :=
    if busy then 0 else UInt8.ofNat (phyGetNextSeqNumber p).toNat
  let crc : UInt8 := if p.flags.pdMode || p.flags.cpUseCrc then 0x04 else 0
  let scb : UInt8 :=
    if busy then 0
    else if p.flags.scActive || osdpPhyInScHandshake p.flags.pdMode id then
      0x08
    else 0
  sqn ||| crc ||| scb

/-- The security block `osdp_phy_packet_init` starts: type SCS_15 when
the channel is up, SCS_11 for a handshake message, none otherwise.  The
third byte of a handshake block is left for the message's own code. -/
def initScb (p : OsdpPd) (id : Nat) : Bytes :=
  if p.flags.pdMode && id == replyBusy then []
  else if p.flags.scActive then [2, 0x15]
  else if osdpPhyInScHandshake p.flags.pdMode id then [3, 0x11]
  else []

/-- `scb_len` of `osdp_phy_packet_init`. -/
def initScbLen (p : OsdpPd) (id : Nat) : Nat :=
  if p.flags.pdMode && id == replyBusy then 0
  else if p.flags.scActive then 2
  else if osdpPhyInScHandshake p.flags.pdMode id then 3
  else 0

/-- PKT_HAS_MARK, set or cleared. -/
def phySetMark (i : Nat) (mark : Bool) : OsdpM Unit :=
  updPd i fun p => { p with flags := { p.flags with pktHasMark := mark } }

/-- The end of `osdp_phy_packet_init`: a broadcast is for one packet, and
the sequence number sent is remembered. -/
def phyPacketStarted (i : Nat) (control : UInt8) : OsdpM Unit :=
  updPd i fun p =>
    { p with
      flags := { p.flags with pktBroadcast := false }
      phyTxSeq := ctrlSqn control }

/-- A PD answers with a mark byte if it was addressed with one. -/
def writesMark (p : OsdpPd) : Bool :=
  if p.flags.pdMode then p.flags.pktHasMark else !p.flags.pktSkipMark

/-- The id of the message to send. -/
def txId (p : OsdpPd) : Nat := if p.flags.pdMode then p.replyId else p.cmdId

/-- The address byte to send. -/
def txAddr (p : OsdpPd) : UInt8 :=
  let addr : UInt8 := if p.flags.pktBroadcast then 0x7F
    else UInt8.ofNat p.address &&& 0x7F
  if p.flags.pdMode then addr ||| 0x80 else addr

/-- The header and the start of the security block. -/
def phyWriteHeader (i : Nat) (p : OsdpPd) : OsdpM Unit := do
  let base := if writesMark p then 1 else 0
  let control := initControl p (txId p)
  writeBuf .tx base [pktSom, txAddr p]
  writeBuf .tx (base + 4) (control :: initScb p (txId p))
  phyPacketStarted i control

/-- `osdp_phy_packet_init`, on the transmit buffer. -/
def osdpPhyPacketInit (i maxLen : Nat) : OsdpM Int := do
  if maxLen < minimumPacketSize then
    return errPktFmt
  let p ← getPd i
  if writesMark p then
    writeBuf .tx 0 [pktMark]
    phySetMark i true
  phyWriteHeader i p
  let q ← getPd i
  return (q.markLen + pktHdrLen + initScbLen q (txId p) : Nat)

/-- The length field, filled in. -/
def setPktLen (pkt : Bytes) (len : Nat) : Bytes :=
  writeAt pkt 2 [byteOf len 0, byteOf len 1]

/-- The block type asks for the data to be encrypted. -/
def encryptedType (t : Nat) : Bool := t == scs17 || t == scs18

/-- Where the data block starts: past the security block and the id. -/
def sealedOff (pkt : Bytes) : Nat := pktHdrLen + (pktData pkt 0).toNat + 1

/-- Encrypt what follows the id byte, where the block type asks for it. -/
def encryptPayload (p : OsdpPd) (pkt : Bytes) : Bytes :=
  if encryptedType (pktData pkt 1).toNat then
    pkt.take (sealedOff pkt) ++
      osdpEncryptData env (!p.flags.pdMode) p.sc (pkt.drop (sealedOff pkt))
  else pkt

/-- The packet goes out with a MAC. -/
def macOnTx (p : OsdpPd) (pkt : Bytes) : Bool :=
  p.flags.scActive && ctrlScb (pktControl pkt) &&
    decide (scs15 ≤ (pktData pkt 1).toNat)

/-- The padded data block alone exceeds `max_len`. -/
def padTooLong (pkt : Bytes) (maxLen : Nat) : Bool :=
  encryptedType (pktData pkt 1).toNat &&
    decide (padLen (pkt.length - sealedOff pkt + 1) > maxLen)

/-- The check bytes appended, where they still fit. -/
def appendCheck (pkt : Bytes) (maxLen : Nat) : Option Bytes :=
  let n := checkLen (pktControl pkt)
  if pkt.length + n > maxLen then none
  else some (pkt ++ checkBytes env (pktControl pkt) pkt)

/-- `osdp_phy_finalize_packet` on the bytes from SOM on, `maxLen` already
less the mark: the channel afterwards, and the finished packet if it
fits.  The MAC chain advances before the check bytes are found not to
fit. -/
def finalizePacket (p : OsdpPd) (pkt : Bytes) (maxLen : Nat) :
    OsdpSecureChannel × Option Bytes :=
  let n := checkLen (pktControl pkt)
  if macOnTx p pkt then
    if padTooLong pkt maxLen then (p.sc, none)
    else
      let q := encryptPayload env p pkt
      if q.length + 4 > maxLen then (p.sc, none)
      else
        let q := setPktLen q (q.length + n + 4)
        let sc := osdpComputeMac env (!p.flags.pdMode) q p.sc
        let mac := if p.flags.pdMode then sc.rMac else sc.cMac
        (sc, appendCheck env (q ++ mac.take 4) maxLen)
  else (p.sc, appendCheck env (setPktLen pkt (pkt.length + n)) maxLen)

/-- The padded data block is stored past the end of the buffer, before
anything has compared its position with the buffer's size. -/
def sealOverruns (p : OsdpPd) (pkt : Bytes) (maxLen : Nat) : Bool :=
  macOnTx p pkt && !padTooLong pkt maxLen &&
    decide (p.markLen + (encryptPayload env p pkt).length > packetBufSize)

/-- The channel once `pkt` is sealed. -/
def phySealChannel (i : Nat) (pkt : Bytes) (maxLen : Nat) : OsdpM Unit :=
  updPd i fun p => { p with sc := (finalizePacket env p pkt maxLen).1 }

/-- `osdp_phy_finalize_packet`, on the first `len` bytes of the transmit
buffer. -/
def osdpPhyFinalizePacket (i len maxLen : Nat) : OsdpM Int := do
  if len ≤ pktHdrLen then
    return errPktFmt
  let p ← getPd i
  let buf ← readBuf .tx
  let m := p.markLen
  if m = 1 ∧ byteAt buf 0 ≠ pktMark then
    return errPktFmt
  let pkt := (buf.take len).drop m
  if byteAt pkt 0 ≠ pktSom then
    return errPktFmt
  if sealOverruns env p pkt (maxLen - m) then
    throw .outOfBounds
  phySealChannel env i pkt (maxLen - m)
  match (finalizePacket env p pkt (maxLen - m)).2 with
  | none => return errPktFmt
  | some q =>
    writeBuf .tx m q
    return (m + q.length : Nat)

/-- `osdp_channel_send`. -/
def osdpChannelSend (i : Nat) (data : Bytes) : OsdpM Int := fun s =>
  let ret := env.channelSend s.log data
  .ok ret
    { s with
      line := if env.channelFlush then [] else s.line
      log := .sent i data ret :: s.log }

/-- `osdp_phy_send_packet`. -/
def osdpPhySendPacket (i len : Nat) : OsdpM Int := do
  let p ← getPd i
  let buf ← readBuf p.packetBuf
  let ret ← osdpChannelSend env i (buf.take len)
  if ret = 0 then
    return errPktWaitTx
  if ret < 0 ∨ ret ≠ len then
    return errPktBuild
  return len

/-- `osdp_phy_progress_sequence`. -/
def osdpPhyProgressSequence (i : Nat) : OsdpM Unit :=
  updPd i fun p => { p with seqNumber := phyGetNextSeqNumber p }

end LibOsdp
