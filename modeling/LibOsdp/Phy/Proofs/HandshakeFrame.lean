/-
The frames of a handshake.

# Three bytes more

The four messages of a handshake have a security block of three bytes: its
length, its type, and the key selector.  They carry no MAC and are not
encrypted, whatever the channel is at either end, so what the other end
reads is the data block as it was laid (`hs_round_trip`).

# The selector

A CP that works from the default key says so in the third byte, and a PD
that is being installed takes that over as it decodes the frame.  Nothing
else of the PD changes (`hsTaken`).
-/
import LibOsdp.Phy.Proofs.Intake
import LibOsdp.Phy.Proofs.RoundTrip

namespace LibOsdp

open Lib

-- ================================================================== bytes

/-- A handshake message before it is finished. -/
def hsPacket (head : Bytes) (type sel : UInt8) (payload : Bytes) : Bytes :=
  head ++ ([3, type, sel] ++ payload)

/-- The type of a handshake block. -/
def hsType (type : UInt8) : Bool :=
  decide (scs11 ≤ type.toNat) && decide (type.toNat ≤ scs14)

theorem hsType_bounds {type : UInt8} (h : hsType type = true) :
    scs11 ≤ type.toNat ∧ type.toNat ≤ scs14 := by
  unfold hsType at h
  rw [Bool.and_eq_true, decide_eq_true_iff, decide_eq_true_iff] at h
  exact h

/-- The PD once it has decoded a handshake block. -/
def hsTaken (type sel : UInt8) (p : OsdpPd) : OsdpPd :=
  if (type.toNat == scs11 || type.toNat == scs13) && p.flags.installMode &&
      sel == 0 then
    { p with flags := { p.flags with scUseScbkd := true } }
  else p

section Frame

variable {env env' : Env} {p r : OsdpPd} {head payload q : Bytes}
variable {type sel : UInt8} {sc : OsdpSecureChannel} {maxLen : Nat}

/-- Taking a handshake frame apart. -/
theorem phyDecode_handshake (env : Env) (r : OsdpPd) (sel : UInt8)
    (payload rest : Bytes) {chk : Bytes}
    (hhead : head.length = 5) (hctl : ctrlScb (pktControl head) = true)
    (htype : hsType type = true)
    (hcap : r.flags.pdMode = true → r.scIsCapable = true)
    (hchk : chk.length = checkLen (pktControl head)) :
    let buf := hsPacket head type sel payload ++ chk ++ rest
    phyDecode env r buf (hsPacket head type sel payload ++ chk).length
      = .ok ⟨hsTaken type sel r, buf, payload.length, payload⟩ := by
  intro buf
  have hbuf : buf = head ++ ([3, type, sel] ++ payload ++ chk ++ rest) := by
    show head ++ ([3, type, sel] ++ payload) ++ chk ++ rest = _
    simp only [List.append_assoc]
  have hcontrol : pktControl buf = pktControl head := by
    rw [hbuf]
    exact byteAt_append _ (by rw [hhead]; decide)
  have hdrop : buf.drop 5 = 3 :: type :: sel :: (payload ++ chk ++ rest) := by
    rw [hbuf, List.drop_left' hhead]
    simp only [List.append_assoc, List.cons_append, List.nil_append]
  have hdata (k : Nat) : pktData buf k
      = byteAt (3 :: type :: sel :: (payload ++ chk ++ rest)) k := by
    show byteAt buf (5 + k) = _
    rw [← byteAt_drop, hdrop]
  have hzero : pktData buf 0 = 3 := hdata 0
  have hone : pktData buf 1 = type := hdata 1
  have htwo : pktData buf 2 = sel := hdata 2
  obtain ⟨hlow, hhigh⟩ := hsType_bounds htype
  have href : frameRefusal r buf = none := by
    unfold frameRefusal
    dsimp only
    rw [hcontrol, hctl, hone, if_pos rfl]
    rw [if_neg fun h => h.2 (hcap h.1)]
    rw [if_neg fun h => h.elim (Nat.not_lt.mpr hlow)
      (Nat.not_lt.mpr (Nat.le_trans hhigh (by decide)))]
    rw [if_neg fun h => Nat.not_lt.mpr hhigh h.2]
  have htaken : takeSelector r buf = hsTaken type sel r := by
    unfold takeSelector selectsScbkd hsTaken
    dsimp only
    rw [hcontrol, hctl, hone, htwo]
    simp only [true_and]
  have hmac : carriesMac r buf = false := by
    unfold carriesMac
    rw [hone, decide_eq_false (Nat.not_le.mpr (Nat.lt_succ_of_le hhigh)),
      Bool.and_false]
  have hscb : scbLen buf = 3 := by
    unfold scbLen
    rw [hcontrol, hctl, hzero]
    rfl
  have hroom : payloadRoom buf (hsPacket head type sel payload ++ chk).length
      = payload.length := by
    unfold payloadRoom hsPacket
    rw [hscb, hcontrol, List.length_append, List.length_append,
      List.length_append, hhead, hchk]
    show ((5 + (3 + payload.length) + _ : Nat) : Int) - _ - 5 - 3 = _
    omega
  have hpay : (buf.drop (pktHdrLen + 3)).take payload.length = payload := by
    show (buf.drop (5 + 3)).take payload.length = payload
    rw [← List.drop_drop, hdrop]
    show (payload ++ chk ++ rest).take payload.length = payload
    rw [List.append_assoc]
    exact List.take_left' rfl
  unfold phyDecode
  rw [href]
  dsimp only
  rw [hmac, hscb, hroom, htaken]
  unfold decodeAccept
  rw [if_pos (by rfl), Int.toNat_natCast, hpay]

/-- A handshake message goes round: the other side reads it to the byte,
and may take the key selector over. -/
theorem hs_round_trip (hcrc : env.crc16 = env'.crc16)
    (hcap : r.flags.pdMode = true → r.scIsCapable = true)
    (hhead : head.length = 5) (hctl : ctrlScb (pktControl head) = true)
    (htype : hsType type = true) (hmax : maxLen < 65536)
    (h : finalizePacket env p (hsPacket head type sel payload) maxLen
      = (sc, some q)) :
    sc = p.sc ∧ lengthField q = q.length ∧ phyIntegrityOk env' q = true ∧
      ∀ rest, ∃ pkt, phyDecode env' r (q ++ rest) q.length
        = .ok ⟨hsTaken type sel r, pkt, payload.length, payload⟩ := by
  have hone : pktData (head ++ ([3, type, sel] ++ payload)) 1 = type := by
    show byteAt _ (5 + 1) = type
    rw [← byteAt_drop, List.drop_left' hhead]
    rfl
  have hmac : macOnTx p (head ++ ([3, type, sel] ++ payload)) = false := by
    unfold macOnTx
    rw [hone, decide_eq_false (Nat.not_le.mpr
      (Nat.lt_succ_of_le (hsType_bounds htype).2)), Bool.and_false]
  obtain ⟨hsc, hlen, hok, front, hfront, hfc, hq, hchk⟩ :=
    plain_frame hcrc hhead hmac hmax h
  refine ⟨hsc, hlen, hok, fun rest => ⟨q ++ rest, ?_⟩⟩
  have hread := phyDecode_handshake env' r sel payload rest hfront
    (by rw [hfc]; exact hctl) htype hcap hchk
  rw [hq]
  exact hread

end Frame

-- ============================================================== in memory

/-- A handshake message in the transmit buffer: header, block, id and
data. -/
structure HsReady (i : Nat) (t : Osdp) (type sel : UInt8) (payload : Bytes) :
    Prop where
  laid : Laid i t payload (dataPos i t + payload.length)
  packet : ∃ head, head.length = 5 ∧ ctrlScb (pktControl head) = true ∧
    packetOf i t (dataPos i t + payload.length)
      = hsPacket head type sel payload

/-- A store and then one right in front of it are one. -/
theorem writeAt_before {buf x y : Bytes} {off : Nat}
    (h : off + x.length ≤ buf.length) :
    writeAt (writeAt buf (off + x.length) y) off x
      = writeAt buf off (x ++ y) := by
  have htake : (buf.take (off + x.length)).length = off + x.length := by
    rw [List.length_take]
    omega
  have hfront : (writeAt buf (off + x.length) y).take off
      = buf.take off := by
    unfold writeAt
    rw [List.append_assoc, List.take_append_of_le_length (by omega),
      List.take_take, Nat.min_eq_left (Nat.le_add_right _ _)]
  have hback : (writeAt buf (off + x.length) y).drop (off + x.length)
      = y ++ buf.drop (off + (x ++ y).length) := by
    unfold writeAt
    rw [List.append_assoc, List.drop_left' htake, List.length_append,
      Nat.add_assoc]
  show (writeAt buf (off + x.length) y).take off ++ x ++
    (writeAt buf (off + x.length) y).drop (off + x.length) = _
  rw [hfront, hback]
  unfold writeAt
  simp only [List.append_assoc]

section Memory

variable {env env' : Env} {i j size : Nat} {s t u w : Osdp}
variable {type sel id : UInt8} {data payload : Bytes} {done : Int}

/-- The stores of both builders, on a packet whose block was begun: the
id, the block, and the data behind them. -/
theorem hsReady_of_stores {hdr : Nat} (hl : Laid i s [] hdr)
    (hctl : ctrlScb (byteAt s.txBuf ((s.pd i).markLen + 4)) = true)
    (hpos : dataPos i s = (s.pd i).markLen + 5 + 3)
    (hm : (t.pd i).markLen = (s.pd i).markLen)
    (htx : t.txBuf = writeAt (writeAt (writeAt s.txBuf (dataPos i s) [id])
      ((s.pd i).markLen + 5) [3, type, sel]) (dataPos i s + 1) data) :
    HsReady i t type sel (id :: data) ∧ dataPos i t = dataPos i s := by
  let m := (s.pd i).markLen
  let block : Bytes := [3, type, sel] ++ id :: data
  have hfit : m + 5 + 3 ≤ s.txBuf.length := by
    have hstop := hl.stop
    have hroom := hl.room
    rw [List.length_nil, hpos] at hstop
    omega
  have hin : m + 5 ≤ s.txBuf.length := by omega
  have hall : t.txBuf = writeAt s.txBuf (m + 5) block := by
    rw [htx, hpos]
    rw [show writeAt (writeAt s.txBuf (m + 5 + 3) [id]) (m + 5)
        [3, type, sel] = writeAt s.txBuf (m + 5) ([3, type, sel] ++ [id])
      from writeAt_before (x := [3, type, sel]) hfit]
    exact writeAt_writeAt ([3, type, sel] ++ [id]) data hin
  have hbefore (k : Nat) (hk : k < m + 5) :
      byteAt t.txBuf k = byteAt s.txBuf k := by
    rw [hall]
    exact byteAt_writeAt_lt _ hin hk
  have hctlt : byteAt t.txBuf (m + 4) = byteAt s.txBuf (m + 4) :=
    hbefore _ (by omega)
  have hthree : byteAt t.txBuf (m + 5) = 3 := by
    rw [hall]
    exact byteAt_written (k := 0) hin (Nat.zero_lt_succ _)
  have hpost : dataPos i t = m + 5 + 3 := by
    rw [dataPos_eq, hm, hctlt, if_pos hctl]
    rw [show m + pktHdrLen = m + 5 from rfl, hthree]
    rfl
  have htotal : dataPos i t + (id :: data).length
      = m + 5 + block.length := by
    rw [hpost]
    show m + 5 + 3 + (data.length + 1) = m + 5 + (data.length + 1 + 3)
    omega
  have htake : t.txBuf.take (dataPos i t + (id :: data).length)
      = s.txBuf.take (m + 5) ++ block := by
    rw [htotal, hall]
    exact take_writeAt hin
  have hlen : (s.txBuf.take (m + 5)).length = m + 5 := by
    rw [List.length_take]
    omega
  have hpacket : packetOf i t (dataPos i t + (id :: data).length)
      = hsPacket ((s.txBuf.take (m + 5)).drop m) type sel (id :: data) := by
    show (t.txBuf.take _).drop (t.pd i).markLen = _
    rw [htake, hm, List.drop_append_of_le_length (by rw [hlen]; omega)]
    rfl
  refine ⟨⟨⟨fun e => ?_, ?_, rfl, ?_, fun _ => ?_, ?_⟩, _, ?_, ?_,
    hpacket⟩, ?_⟩
  · rw [hm] at e
    rw [hbefore 0 (by omega)]
    exact hl.mark e
  · rw [hm, hbefore _ (by omega)]
    exact hl.som
  · rw [htotal, hall]
    exact stop_le_length_writeAt _ hin
  · rw [hm, hthree]
    decide
  · rw [htake, hpost, ← List.drop_drop, List.drop_left' hlen]
    rfl
  · rw [List.length_drop, hlen]
    omega
  · show ctrlScb (byteAt _ 4) = true
    rw [byteAt_drop, byteAt_take (by omega)]
    exact hctl
  · rw [hpost, hpos]

/-- A handshake frame arrives: the other end of the line finds its check
bytes right and reads this payload from it, whatever lies behind it
there. -/
structure HsArrives (env' : Env) (j : Nat) (frame : Bytes) (type sel : UInt8)
    (payload : Bytes) (w : Osdp) : Prop where
  length : lengthField frame = frame.length
  intact : phyIntegrityOk env' frame = true
  reads : ∀ rest, FrameHeld j w frame rest →
    ∃ v, osdpPhyDecodePacket env' j w = .ok (payload.length, payload) v ∧
      v.pd j = hsTaken type sel (w.pd j) ∧ v.log = w.log

/-- A handshake message that is ready, once finished, arrives. -/
theorem HsReady.arrives (h : HsReady i t type sel payload)
    (hne : payload ≠ []) (hcrc : env.crc16 = env'.crc16)
    (hcap : (w.pd j).flags.pdMode = true → (w.pd j).scIsCapable = true)
    (htype : hsType type = true) (hsize : size ≤ packetBufSize)
    (hfin : osdpPhyFinalizePacket env i (dataPos i t + payload.length) size t
      = .ok done u) (hge : 0 ≤ done) :
    HsArrives env' j (frameOf i u done.toNat) type sel payload w ∧
      u.pd i = t.pd i := by
  obtain ⟨head, hhead, hctl, hpkt⟩ := h.packet
  obtain ⟨sc, hseal, hupd⟩ := finalize_frame h.laid hne hfin hge
  rw [hpkt] at hseal
  have hmax : size - (t.pd i).markLen < 65536 := by
    have : packetBufSize = 256 := rfl
    omega
  obtain ⟨rfl, hlen, hok, hread⟩ :=
    hs_round_trip hcrc hcap hhead hctl htype hmax hseal
  refine ⟨⟨hlen, hok, fun rest hw => ?_⟩, hupd⟩
  obtain ⟨pkt, hdec⟩ := hread rest
  exact osdpPhyDecodePacket_held hw hdec

end Memory

end LibOsdp
