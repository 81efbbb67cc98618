/-
Reception (osdp_phy.c): from bytes on the line to a checked frame, and
from a checked frame to a payload.

# Loops

The C loops over received bytes are recursions over the lists they
consume: `scanSom` is the hunt for a packet start, `channelReceive` the
64-byte reads.  A read returns what the line holds, up to its size.

# The frame buffer

`phyDecode` sees the whole packet buffer from SOM on, not just the frame:
the security block's second and third byte are read before anything has
checked that the frame is long enough to have them.
-/
import LibOsdp.Phy.Packet

namespace LibOsdp

open Lib

variable (env : Env)

-- ============================================================= reception

/-- `osdp_rb_push_buf` into the receive ring, which holds one byte less
than its size. -/
def osdpRbPushBuf (rb data : Bytes) : Bytes :=
  rb ++ data.take (rxRbSize - 1 - rb.length)

/-- `osdp_channel_receive` with at most `fuel` reads: the ring, what stays
on the line, and the number of bytes taken (-1 when the ring overran). -/
def channelReceive : Nat → Bytes → Bytes → Int → Bytes × Bytes × Int
  | 0, rb, line, total => (rb, line, total)
  | fuel + 1, rb, line, total =>
    let chunk := line.take 64
    if chunk = [] then (rb, line, total)
    else
      let rb' := osdpRbPushBuf rb chunk
      let rest := line.drop 64
      if rb'.length ≠ rb.length + chunk.length then (rb', rest, -1)
      else if chunk.length = 64 then
        channelReceive fuel rb' rest (total + chunk.length)
      else (rb', rest, total + chunk.length)

/-- `osdp_channel_receive`. -/
def osdpChannelReceive (i : Nat) : OsdpM Int := fun s =>
  let r := channelReceive (s.line.length + 1) (s.pd i).rxRb s.line 0
  let s := { s with line := r.2.1 }
  .ok r.2.2 (s.updPd i fun p => { p with rxRb := r.1 })

/-- The hunt for SOM in `phy_check_header`: whether a mark byte stood in
front of it, and the ring behind it. -/
def scanSom (prev : UInt8) : Bytes → Option (Bool × Bytes)
  | [] => none
  | b :: rest =>
    if b = pktSom then some (prev == pktMark, rest) else scanSom b rest

/-- `phy_validate_header`, on the buffered bytes: the mark flag it leaves
and its result. -/
def phyValidateHeader (p : OsdpPd) (buf : Bytes) (bufLen maxLen : Nat) :
    Bool × Int :=
  if bufLen < pktHdrLen then (p.flags.pktHasMark, errPktWait)
  else
    let marked := byteAt buf 0 == pktMark && byteAt buf 1 == pktSom
    if !marked && byteAt buf 0 != pktSom then
      (p.flags.pktHasMark, errPktFmt)
    else
      let mark := if marked then 1 else 0
      let pkt := buf.drop mark
      let pktLen := (byteAt pkt 3).toNat * 256 + (byteAt pkt 2).toNat
      if pktLen + mark > maxLen ∨ pktLen < pktHdrLen + 1 then
        (marked, errPktFmt)
      else
        let fromPd := byteAt pkt 1 &&& 0x80 != 0
        if p.flags.pdMode = fromPd then (marked, errPktSkip)
        else (marked, (pktLen + mark : Nat))

/-- The position of the next SOM at or after `k`. -/
def findSom (l : Bytes) (k : Nat) : Option Nat :=
  let n := ((l.drop k).takeWhile (· ≠ pktSom)).length
  if k + n < l.length then some (k + n) else none

/-- `phy_rescan_packet_buf`, on the bytes buffered so far: what stays in
the buffer, and the mark flag. -/
def phyRescanPacketBuf (mark : Bool) (cur : Bytes) : Bytes × Bool :=
  match findSom cur (if mark then 2 else 1) with
  | none => ([], mark)
  | some k =>
    if byteAt cur (k - 1) = pktMark then (pktMark :: cur.drop k, true)
    else (cur.drop k, false)

/-- The first half of `phy_check_header`: make sure a packet start is in
the buffer.  False when the ring ran dry first. -/
def phyFindStart (i : Nat) : OsdpM Bool := do
  let p ← getPd i
  if p.packetBufLen ≠ 0 then
    return true
  match scanSom 0 p.rxRb with
  | none =>
    updPd i fun p => { p with rxRb := [] }
    return false
  | some (marked, rest) =>
    let start := if marked then [pktMark, pktSom] else [pktSom]
    writeBuf p.packetBuf 0 start
    updPd i fun p => { p with rxRb := rest, packetBufLen := start.length }
    return true

/-- `osdp_rb_pop_buf` of at most `n` bytes into the packet buffer, behind
what it holds already. -/
def phyTopUp (i n : Nat) : OsdpM Unit := do
  let p ← getPd i
  let got := p.rxRb.take n
  writeBuf p.packetBuf p.packetBufLen got
  updPd i fun p =>
    { p with
      rxRb := p.rxRb.drop n
      packetBufLen := p.packetBufLen + got.length }

/-- The middle of `phy_check_header`: enough bytes for a header. -/
def phyFillHeader (i : Nat) : OsdpM Unit := do
  let p ← getPd i
  let buf ← readBuf p.packetBuf
  let need := pktHdrLen + if byteAt buf 0 = pktMark then 1 else 0
  if p.packetBufLen < need then
    phyTopUp i (need - p.packetBufLen)

/-- The end of `phy_check_header`: a header that is none is searched for
another packet start. -/
def phyJudgeHeader (i : Nat) : OsdpM Int := do
  let p ← getPd i
  let buf ← readBuf p.packetBuf
  let (mark, ret) := phyValidateHeader p buf p.packetBufLen packetBufSize
  phySetMark i mark
  if ret = errPktFmt then
    let (cur, mark) := phyRescanPacketBuf mark (buf.take p.packetBufLen)
    writeBuf p.packetBuf 0 cur
    updPd i fun p => { p with packetBufLen := cur.length }
    phySetMark i mark
    return errPktWait
  return ret

/-- `phy_check_header`. -/
def phyCheckHeader (i : Nat) : OsdpM Int := do
  if !(← phyFindStart i) then
    return errPktNoData
  phyFillHeader i
  phyJudgeHeader i

-- ======================================================== frame checks

/-- The integrity check of `phy_check_packet`: the frame, mark excluded,
ends in the check bytes of what precedes them. -/
def phyIntegrityOk (frame : Bytes) : Bool :=
  let c := pktControl frame
  let n := frame.length - checkLen c
  frame.drop n == checkBytes env c (frame.take n)

/-- The length byte of the security block, as the bytes it takes. -/
def scbLen (pkt : Bytes) : Nat :=
  if ctrlScb (pktControl pkt) then (pktData pkt 0).toNat else 0

/-- `pd_addr` of `phy_check_packet`. -/
def frameAddr (frame : Bytes) : Nat := (byteAt frame 1 &&& 0x7F).toNat

/-- The sequence number and busy rules at the end of `phy_check_packet`:
a frame out of sequence is answered with a NAK. -/
def phyCheckSequence (i : Nat) (frame : Bytes) : OsdpM Int := do
  let p ← getPd i
  if phyGetNextSeqNumber p ≠ ctrlSqn (pktControl frame) ∧
      ¬ p.flags.skipSeqCheck then
    updPd i fun p => p.nak nakSeqNum
    return errPktNack
  return errPktNone

/-- A frame with sequence number zero: the CP restarts communication, and
with that session, cache and card mode are gone. -/
def phyRestart (i : Nat) : OsdpM Unit := do
  updPd i fun p => { p with seqNumber := -1, lastTxLen := 0 }
  scDeactivate i
  updPd i fun p => { p with trs := { p.trs with mode := 0 } }

/-- The reply to a repeated command, from the cache; false when the
cache has none for it and is dropped. -/
def phyResend (i : Nat) (frame rest : Bytes) : OsdpM Bool := do
  let p ← getPd i
  if p.markLen + pktHdrLen + scbLen frame ≥ packetBufSize then
    throw .outOfBounds
  if (pktData rest (scbLen frame)).toNat = p.lastCmdId then
    let buf ← readBuf .tx
    observe (.resent i (buf.take p.lastTxLen))
    let _ ← osdpChannelSend env i (buf.take p.lastTxLen)
    return true
  updPd i fun p => { p with lastTxLen := 0 }
  return false

/-- The end of `phy_check_packet` on a PD. -/
def phyAcceptPd (i : Nat) (frame : Bytes) : OsdpM Int := do
  if frameAddr frame = 0x7F then
    updPd i fun p => { p with flags := { p.flags with pktBroadcast := true } }
  phyCheckSequence i frame

/-- `phy_check_packet` on a PD, past the address check.  `rest` is the
buffer the frame lies in, from SOM on. -/
def phyCheckPacketPd (i : Nat) (frame rest : Bytes) : OsdpM Int := do
  let sqn := ctrlSqn (pktControl frame)
  let p ← getPd i
  if sqn = 0 then
    phyRestart i
  else if (sqn : Int) = p.seqNumber then
    if p.lastTxLen > 0 then
      if ← phyResend env i frame rest then
        return errPktSkip
    updPd i phyRollbackSeqNumber
  phyAcceptPd i frame

/-- A busy reply: sequence zero, plain, and nothing but the id. -/
def isBusyFrame (frame : Bytes) : Bool :=
  let c := pktControl frame
  ctrlSqn c == 0 && frame.length - checkLen c == 6 &&
    (pktData frame 0).toNat == replyBusy && !ctrlScb c

/-- `phy_check_packet` on a CP, past the address check. -/
def phyCheckPacketCp (i : Nat) (frame : Bytes) : OsdpM Int := do
  if isBusyFrame frame then
    return errPktBusy
  phyCheckSequence i frame

/-- `phy_check_packet`: `pkt` is the buffer from SOM on and `len` the
length of the frame in it. -/
def phyCheckPacket (i : Nat) (pkt : Bytes) (len : Nat) : OsdpM Int := do
  let frame := pkt.take len
  if !phyIntegrityOk env frame then
    return errPktFmt
  let p ← getPd i
  if frameAddr frame ≠ p.address ∧ frameAddr frame ≠ 0x7F then
    return if p.flags.pdMode then errPktSkip else errPktCheck
  if p.flags.pdMode then phyCheckPacketPd env i frame pkt
  else phyCheckPacketCp i frame

/-- New bytes off the channel; a PD notes when they began to arrive. -/
def phyReceive (i : Nat) : OsdpM Unit := do
  let got ← osdpChannelReceive i
  let p ← getPd i
  let now ← osdpMillisNow
  if p.flags.pdMode ∧ p.packetBufLen = 0 ∧ got > 0 then
    updPd i fun p => { p with tstamp := now }

/-- The rest of a frame whose length is known. -/
def phyComplete (i : Nat) : OsdpM Int := do
  let p ← getPd i
  if p.packetBufLen > p.packetLen then
    return errPktFmt
  phyTopUp i (p.packetLen - p.packetBufLen)
  let p ← getPd i
  return if p.packetBufLen ≠ p.packetLen then errPktWait else errPktNone

/-- The first half of `osdp_phy_check_packet`: bytes from the line until a
whole frame lies in the packet buffer. -/
def phyAssemble (i : Nat) : OsdpM Int := do
  phyReceive i
  let p ← getPd i
  if p.packetLen = 0 then
    let ret ← phyCheckHeader i
    if ret < 0 then
      return ret
    updPd i fun p => { p with packetLen := ret.toNat }
  phyComplete i

/-- `osdp_phy_check_packet`. -/
def osdpPhyCheckPacket (i : Nat) : OsdpM Int := do
  let err ← phyAssemble i
  if err ≠ errPktNone then
    return err
  let p ← getPd i
  let buf ← readBuf p.packetBuf
  observe (.frame i ((buf.take p.packetLen).drop p.markLen))
  phyCheckPacket env i (buf.drop p.markLen) (p.packetLen - p.markLen)

-- ============================================================= decoding

/-- What a decode leaves: the PD, the buffer from SOM on, the number the C
function returns, and the payload when that number is positive. -/
structure DecodeResult where
  pd : OsdpPd
  pkt : Bytes
  len : Int
  payload : Bytes

/-- Refuse the frame, leaving a NAK with this code behind. -/
def decodeNak (p : OsdpPd) (pkt : Bytes) (code : UInt8) : DecodeResult :=
  ⟨p.nak code, pkt, errPktNack, []⟩

/-- Refuse the frame and drop the session with it. -/
def decodeDropSc (p : OsdpPd) (pkt : Bytes) : DecodeResult :=
  decodeNak
    { p with flags := { p.flags with scActive := false }, lastTxLen := 0 }
    pkt nakScCond

/-- `is_install_mode(pd) && pkt->data[2] == 0` on a CP-to-PD handshake
block: the peer asks for SCBK-D. -/
def selectsScbkd (p : OsdpPd) (pkt : Bytes) : Bool :=
  let t := (pktData pkt 1).toNat
  (t == scs11 || t == scs13) && p.flags.installMode && pktData pkt 2 == 0

/-- The plaintext ACK a CP tolerates in answer to its KEYSET. -/
def plainKeysetAck (p : OsdpPd) (pkt : Bytes) : Bool :=
  !p.flags.pdMode && p.cmdId == cmdKeyset &&
    (pktData pkt 0).toNat == replyAck && !p.flags.enforceSecure

/-- The bytes of the frame in front of the MAC, and the MAC they carry. -/
def macSplit (pkt : Bytes) (frameLen : Nat) : Bytes × Bytes :=
  let off := frameLen - checkLen (pktControl pkt) - 4
  (pkt.take off, (pkt.drop off).take 4)

/-- The PD once the MAC over an accepted frame was computed. -/
def phyComputeMac (p : OsdpPd) (pkt : Bytes) (frameLen : Nat) : OsdpPd :=
  { p with
    sc := osdpComputeMac env p.flags.pdMode (macSplit pkt frameLen).1 p.sc }

/-- The MAC the frame ends in is the one just computed. -/
def macMatches (p : OsdpPd) (pkt : Bytes) (frameLen : Nat) : Bool :=
  let sc := (phyComputeMac env p pkt frameLen).sc
  (if p.flags.pdMode then sc.cMac else sc.rMac).take 4
    == (macSplit pkt frameLen).2

/-- The decrypt step of `osdp_phy_decode_packet`: `len` bytes at `off`,
the id byte first. -/
def decodeDecrypt (p : OsdpPd) (pkt : Bytes) (off : Nat) (len : Int) :
    Except Fault DecodeResult :=
  let n := len - 1
  if n.tmod 16 ≠ 0 then .ok (decodeDropSc p pkt)
  else if n < 0 then .error .outOfBounds
  else
    let data := (pkt.drop (off + 1)).take n.toNat
    let isCmd := p.flags.pdMode
    match osdpDecryptData env p.flags.allowEmptyEdb isCmd p.sc data with
    | none =>
      let raw := cbcDecrypt env.cipher p.sc.sEnc (dataIv isCmd p.sc)
        (data.length / 16) data
      .ok (decodeDropSc p (writeAt pkt (off + 1) raw))
    | some text =>
      let clear := text ++ zeros (data.length - text.length)
      .ok
        ⟨p, writeAt pkt (off + 1) clear, (text.length + 1 : Nat),
          byteAt pkt off :: text⟩

/-- The end of `osdp_phy_decode_packet`, once the frame may be accepted:
`macd` says that the block carries a MAC. -/
def decodeAccept (p : OsdpPd) (pkt : Bytes) (frameLen off : Nat)
    (len : Int) (macd : Bool) : Except Fault DecodeResult :=
  if !macd then .ok ⟨p, pkt, len, (pkt.drop off).take len.toNat⟩
  else
    let q := phyComputeMac env p pkt frameLen
    if !macMatches env p pkt frameLen then .ok (decodeDropSc q pkt)
    else if encryptedType (pktData pkt 1).toNat then
      decodeDecrypt env q pkt off (len - 4)
    else .ok ⟨q, pkt, len - 4, (pkt.drop off).take (len - 4).toNat⟩

/-- The code of the NAK a frame is refused with before its payload is
looked at: by its security block, or for lack of one. -/
def frameRefusal (p : OsdpPd) (pkt : Bytes) : Option UInt8 :=
  let t := (pktData pkt 1).toNat
  if ctrlScb (pktControl pkt) then
    if p.flags.pdMode ∧ ¬ p.scIsCapable then some nakScUnsup
    else if t < scs11 ∨ scs18 < t then some nakScCond
    else if ¬ p.flags.scActive ∧ scs14 < t then some nakScCond
    else none
  else if p.flags.scActive ∧ ¬ plainKeysetAck p pkt then some nakScCond
  else none

/-- The peer's choice of SCBK-D, taken. -/
def takeSelector (p : OsdpPd) (pkt : Bytes) : OsdpPd :=
  if ctrlScb (pktControl pkt) ∧ selectsScbkd p pkt then
    { p with flags := { p.flags with scUseScbkd := true } }
  else p

/-- The frame carries a MAC to be checked. -/
def carriesMac (p : OsdpPd) (pkt : Bytes) : Bool :=
  ctrlScb (pktControl pkt) && p.flags.scActive &&
    decide (scs15 ≤ (pktData pkt 1).toNat)

/-- What header, security block and check bytes leave of a frame; the
block's length is what its own first byte says, so this may be
negative. -/
def payloadRoom (pkt : Bytes) (frameLen : Nat) : Int :=
  frameLen - checkLen (pktControl pkt) - pktHdrLen - scbLen pkt

/-- `osdp_phy_decode_packet`, on the buffer from SOM on. -/
def phyDecode (p : OsdpPd) (pkt : Bytes) (frameLen : Nat) :
    Except Fault DecodeResult :=
  match frameRefusal p pkt with
  | some code => .ok (decodeNak p pkt code)
  | none =>
    decodeAccept env (takeSelector p pkt) pkt frameLen
      (pktHdrLen + scbLen pkt) (payloadRoom pkt frameLen)
      (carriesMac p pkt)

/-- `osdp_phy_decode_packet`: the number it returns and the payload. -/
def osdpPhyDecodePacket (i : Nat) : OsdpM (Int × Bytes) := do
  let p ← getPd i
  let buf ← readBuf p.packetBuf
  match phyDecode env p (buf.drop p.markLen) (p.packetBufLen - p.markLen) with
  | .error f => throw f
  | .ok r =>
    writeBuf p.packetBuf p.markLen r.pkt
    updPd i fun _ => r.pd
    return (r.len, r.payload)

/-- `osdp_phy_state_reset`. -/
def osdpPhyStateReset (i : Nat) (isError : Bool) : OsdpM Unit := do
  updPd i fun p =>
    { p with
      packetBufLen := 0
      packetLen := 0
      phyState := .idle
      packetBuf := .rx }
  if isError then
    updPd i fun p =>
      { p with
        phyRetryCount := 0
        phyTxSeq := 0
        lastTxLen := 0
        seqNumber := -1
        rxRb := [] }
    if env.channelFlush then
      modify fun s => { s with line := [] }

end LibOsdp
