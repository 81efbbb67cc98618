/-
Where the bytes of a packet under construction lie.

# Three steps

`osdp_phy_packet_init` writes the header and the start of the security
block, the builders write the data block behind it, and
`osdp_phy_finalize_packet` turns the first `total` bytes of the buffer
into a packet.  They agree on where the data block starts only through
the buffer: the builders read the offset back from the control byte and
the first byte of the security block.

`Laid` is what holds between the steps: the buffer starts with a header,
and the bytes from the data offset up to `total` are the data block.
`laid_init` begins it with an empty block, `Laid.extend` is the builders'
part, and `finalize_laid` says what the last step makes of it.
-/
import LibOsdp.Phy.Proofs.Bounds
import LibOsdp.Phy.Proofs.Footprint

namespace LibOsdp

open Lib

-- ================================================================ header

/-- A PD once a packet was started on it. -/
@[grind] def startedPd (p : OsdpPd) : OsdpPd :=
  { p with
    flags :=
      { p.flags with
        pktHasMark := p.flags.pktHasMark || writesMark p
        pktBroadcast := false }
    phyTxSeq := ctrlSqn (initControl p (txId p)) }

/-- The position of the start of message. -/
def somPos (p : OsdpPd) : Nat := if writesMark p then 1 else 0

/-- The buffer once the header of `p`'s packet was written into it. -/
def headerBuf (p : OsdpPd) (buf : Bytes) : Bytes :=
  writeAt
    (writeAt (if writesMark p then writeAt buf 0 [pktMark] else buf)
      (somPos p) [pktSom, txAddr p])
    (somPos p + 4) (initControl p (txId p) :: initScb p (txId p))

/-- The header goes into the buffer, and the PD is told. -/
theorem phyWriteHeader_ok {i : Nat} {p : OsdpPd} {s t : Osdp}
    (h : phyWriteHeader i p s = .ok () t) :
    t.txBuf = writeAt (writeAt s.txBuf (somPos p) [pktSom, txAddr p])
        (somPos p + 4) (initControl p (txId p) :: initScb p (txId p)) ∧
      t.pd i =
        { s.pd i with
          flags := { (s.pd i).flags with pktBroadcast := false }
          phyTxSeq := ctrlSqn (initControl p (txId p)) } := by
  obtain ⟨_, u, hu, h⟩ := bind_ok.mp h
  obtain ⟨_, v, hv, h⟩ := bind_ok.mp h
  cases hu
  cases hv
  obtain rfl := updPd_ok.mp h
  exact ⟨rfl, updPd_pd_same _ _ _⟩

theorem osdpPhyPacketInit_ok {i size : Nat} {hdr : Int} {s t : Osdp}
    (h : osdpPhyPacketInit i size s = .ok hdr t) :
    size < minimumPacketSize ∧ hdr = errPktFmt ∧ t = s ∨
      minimumPacketSize ≤ size ∧ t.pd i = startedPd (s.pd i) ∧
        t.txBuf = headerBuf (s.pd i) s.txBuf ∧
        hdr = ((t.pd i).markLen + pktHdrLen +
          initScbLen (s.pd i) (txId (s.pd i)) : Nat) := by
  unfold osdpPhyPacketInit at h
  split at h
  · next hsize =>
    obtain ⟨rfl, rfl⟩ := pure_ok.mp h
    exact .inl ⟨hsize, rfl, rfl⟩
  · next hsize =>
    refine .inr ⟨Nat.not_lt.mp hsize, ?_⟩
    obtain ⟨p, u, hg, h⟩ := bind_ok.mp h
    obtain ⟨rfl, rfl⟩ := getPd_ok.mp hg
    -- what is left once the mark byte has been seen to
    have hrest {v : Osdp} (h : (do
        phyWriteHeader i (s.pd i)
        let q ← getPd i
        return ((q.markLen + pktHdrLen +
          initScbLen q (txId (s.pd i)) : Nat) : Int)) v = .ok hdr t)
        (hpd : v.pd i =
          { s.pd i with
            flags :=
              { (s.pd i).flags with
                pktHasMark :=
                  (s.pd i).flags.pktHasMark || writesMark (s.pd i) } })
        (hbuf : v.txBuf =
          if writesMark (s.pd i) then writeAt s.txBuf 0 [pktMark]
          else s.txBuf) :
        t.pd i = startedPd (s.pd i) ∧
          t.txBuf = headerBuf (s.pd i) s.txBuf ∧
          hdr = ((t.pd i).markLen + pktHdrLen +
            initScbLen (s.pd i) (txId (s.pd i)) : Nat) := by
      obtain ⟨_, w, hw, h⟩ := bind_ok.mp h
      obtain ⟨q, x, hg, h⟩ := bind_ok.mp h
      obtain ⟨rfl, rfl⟩ := getPd_ok.mp hg
      obtain ⟨rfl, rfl⟩ := pure_ok.mp h
      obtain ⟨htx, hx⟩ := phyWriteHeader_ok hw
      rw [hpd] at hx
      have hx : w.pd i = startedPd (s.pd i) := hx
      refine ⟨hx, ?_, ?_⟩
      · rw [htx, hbuf]
        rfl
      · rw [hx]
        rfl
    by_cases hm : writesMark (s.pd i) = true
    · rw [if_pos hm] at h
      obtain ⟨_, u, hu, h⟩ := bind_ok.mp h
      obtain ⟨_, v, hv, h⟩ := bind_ok.mp h
      cases hu
      obtain rfl := updPd_ok.mp hv
      refine hrest h ?_ ?_
      · rw [updPd_pd_same, hm, Bool.or_true]
      · rw [if_pos hm]
        rfl
    · rw [if_neg hm] at h
      refine hrest h ?_ ?_
      · rw [Bool.eq_false_iff.mpr hm, Bool.or_false]
      · rw [if_neg hm]

/-- A PD answers the way it was addressed; a CP that writes no mark bytes
has none in its flags either. -/
def MarkAgrees (p : OsdpPd) : Prop :=
  writesMark p = false → p.flags.pktHasMark = false

theorem markAgrees_pd {p : OsdpPd} (h : p.flags.pdMode = true) :
    MarkAgrees p := by
  intro e
  unfold writesMark at e
  rwa [if_pos h] at e

theorem markLen_startedPd {p : OsdpPd} (h : MarkAgrees p) :
    (startedPd p).markLen = somPos p := by
  show (if p.flags.pktHasMark || writesMark p then 1 else 0) = somPos p
  unfold somPos
  cases hm : writesMark p with
  | true => rw [Bool.or_true]
  | false => rw [h hm, Bool.or_false]

theorem somPos_le (p : OsdpPd) : somPos p ≤ 1 := by
  unfold somPos
  split <;> omega

theorem length_initScb_le (p : OsdpPd) (id : Nat) :
    (initScb p id).length ≤ 2 := by
  unfold initScb
  split
  · exact Nat.zero_le _
  · split
    · exact Nat.le_refl _
    · split
      · exact Nat.le_refl _
      · exact Nat.zero_le _

/-- Sequence number and check bit leave the security bit alone: it is set
exactly where a block is started. -/
theorem ctrlScb_initControl (p : OsdpPd) (id : Nat) :
    ctrlScb (initControl p id) = decide (initScbLen p id ≠ 0) := by
  have hseq : (phyGetNextSeqNumber p).toNat ≤ 3 := by
    unfold phyGetNextSeqNumber
    split <;> omega
  unfold initControl initScbLen
  generalize (phyGetNextSeqNumber p).toNat = n at hseq ⊢
  have hn : n = 0 ∨ n = 1 ∨ n = 2 ∨ n = 3 := by omega
  cases (p.flags.pdMode && id == replyBusy) <;>
    cases p.flags.scActive <;>
    cases osdpPhyInScHandshake p.flags.pdMode id <;>
    cases (p.flags.pdMode || p.flags.cpUseCrc) <;>
    rcases hn with rfl | rfl | rfl | rfl <;> rfl

/-- The first byte of the block is its length. -/
theorem byteAt_initScb {p : OsdpPd} {id : Nat} (h : initScbLen p id ≠ 0) :
    (initScb p id).length = 2 ∧
      (byteAt (initScb p id) 0).toNat = initScbLen p id := by
  unfold initScbLen at h ⊢
  unfold initScb
  split at h
  · exact absurd rfl h
  · next hb =>
    rw [if_neg hb, if_neg hb]
    split
    · exact ⟨rfl, rfl⟩
    · next ha =>
      rw [if_neg ha] at h
      split at h
      · next hs =>
        rw [if_pos hs, if_pos hs]
        exact ⟨rfl, rfl⟩
      · exact absurd rfl h

/-- Under the channel, the block is two bytes long and of type SCS_15. -/
theorem initScb_active {p : OsdpPd} {id : Nat}
    (ha : p.flags.scActive = true) (hne : initScbLen p id ≠ 0) :
    initScbLen p id = 2 ∧ initScb p id = [2, 0x15] := by
  unfold initScbLen at hne ⊢
  unfold initScb
  split at hne
  · exact absurd rfl hne
  · next hb =>
    rw [if_neg hb, if_pos ha, if_neg hb, if_pos ha]
    exact ⟨rfl, rfl⟩

theorem two_le_initScbLen {p : OsdpPd} {id : Nat}
    (h : initScbLen p id ≠ 0) : 2 ≤ initScbLen p id := by
  unfold initScbLen at h ⊢
  split at h
  · exact absurd rfl h
  · next hb =>
    rw [if_neg hb]
    split at h
    · next ha => rw [if_pos ha]
    · next ha =>
      rw [if_neg ha]
      split at h
      · next hs =>
        rw [if_pos hs]
        decide
      · exact absurd rfl h

section Header

variable {p : OsdpPd} {buf : Bytes}

/-- The mark byte takes the place of another. -/
theorem length_markedBuf (h : 8 ≤ buf.length) :
    (if writesMark p then writeAt buf 0 [pktMark] else buf).length
      = buf.length := by
  split
  · exact length_writeAt (show 0 + 1 ≤ buf.length by omega)
  · rfl

theorem length_headerBuf (h : 8 ≤ buf.length) :
    (headerBuf p buf).length = buf.length := by
  have hm := somPos_le p
  have hs := length_initScb_le p (txId p)
  have hmark := length_markedBuf (p := p) h
  have hsom : (writeAt (if writesMark p then writeAt buf 0 [pktMark] else buf)
      (somPos p) [pktSom, txAddr p]).length = buf.length := by
    rw [length_writeAt, hmark]
    rw [hmark]
    show somPos p + 2 ≤ buf.length
    omega
  unfold headerBuf
  rw [length_writeAt, hsom]
  rw [hsom, List.length_cons]
  omega

/-- A byte in front of the control byte. -/
theorem byteAt_headerBuf_lt {k : Nat} (h : 8 ≤ buf.length)
    (hk : k < somPos p + 2) :
    byteAt (headerBuf p buf) k =
      if k < somPos p then pktMark else byteAt [pktSom, txAddr p]
        (k - somPos p) := by
  have hm := somPos_le p
  have hs := length_initScb_le p (txId p)
  have hmark := length_markedBuf (p := p) h
  have hsom : somPos p + [pktSom, txAddr p].length ≤
      (if writesMark p then writeAt buf 0 [pktMark] else buf).length := by
    rw [hmark]
    show somPos p + 2 ≤ _
    omega
  unfold headerBuf
  rw [byteAt_writeAt_ne _ (.inl (by omega))]
  · by_cases hlt : k < somPos p
    · rw [if_pos hlt, byteAt_writeAt_ne hsom (.inl hlt)]
      unfold somPos at hlt
      split at hlt
      · next hw =>
        rw [if_pos hw, show k = 0 + 0 by omega,
          byteAt_writeAt (show 0 + [pktMark].length ≤ buf.length by
            simp; omega) (by decide)]
        rfl
      · omega
    · rw [if_neg hlt]
      obtain ⟨d, rfl⟩ := Nat.exists_eq_add_of_le (Nat.not_lt.mp hlt)
      rw [byteAt_writeAt hsom (by simp; omega), Nat.add_sub_cancel_left]
  · rw [length_writeAt hsom, hmark, List.length_cons]
    omega

/-- The control byte, and the security block behind it. -/
theorem byteAt_headerBuf_ge {k : Nat} (h : 8 ≤ buf.length)
    (hk : k < (initScb p (txId p)).length + 1) :
    byteAt (headerBuf p buf) (somPos p + 4 + k)
      = byteAt (initControl p (txId p) :: initScb p (txId p)) k := by
  have hm := somPos_le p
  have hs := length_initScb_le p (txId p)
  have hlen := length_headerBuf (p := p) h
  unfold headerBuf at hlen ⊢
  refine byteAt_writeAt ?_ (by rw [List.length_cons]; exact hk)
  have hmark := length_markedBuf (p := p) h
  rw [length_writeAt (by rw [hmark]; show somPos p + 2 ≤ _; omega), hmark,
    List.length_cons]
  omega

end Header

-- ================================================================== laid

/-- Where the data block of the packet in the transmit buffer starts. -/
def dataPos (i : Nat) (s : Osdp) : Nat :=
  osdpPhyPacketGetDataOffset (s.pd i) s.txBuf

theorem dataPos_eq (i : Nat) (s : Osdp) :
    dataPos i s = (s.pd i).markLen + pktHdrLen +
      if ctrlScb (byteAt s.txBuf ((s.pd i).markLen + 4)) then
        (byteAt s.txBuf ((s.pd i).markLen + pktHdrLen)).toNat
      else 0 := by
  show (s.pd i).markLen + pktHdrLen +
    (if ctrlScb (byteAt (s.txBuf.drop (s.pd i).markLen) 4) then
      (byteAt (s.txBuf.drop (s.pd i).markLen) pktHdrLen).toNat else 0) = _
  rw [byteAt_drop, byteAt_drop]

/-- The transmit buffer starts with a header for PD `i`, and the bytes
from the data offset up to `total` are this data block. -/
structure Laid (i : Nat) (s : Osdp) (block : Bytes) (total : Nat) :
    Prop where
  mark : (s.pd i).markLen = 1 → byteAt s.txBuf 0 = pktMark
  som : byteAt s.txBuf (s.pd i).markLen = pktSom
  stop : total = dataPos i s + block.length
  room : total ≤ s.txBuf.length
  scb : ctrlScb (byteAt s.txBuf ((s.pd i).markLen + 4)) = true →
    2 ≤ (byteAt s.txBuf ((s.pd i).markLen + 5)).toNat
  block_eq : (s.txBuf.take total).drop (dataPos i s) = block

/-- A packet that was started has no data yet. -/
theorem laid_init {i size : Nat} {hdr : Int} {s t : Osdp}
    (h : osdpPhyPacketInit i size s = .ok hdr t) (hok : 0 ≤ hdr)
    (hroom : packetBufSize ≤ s.txBuf.length) (hm : MarkAgrees (s.pd i)) :
    Laid i t [] hdr.toNat ∧ t.pd i = startedPd (s.pd i) ∧
      t.txBuf.length = s.txBuf.length ∧
      byteAt t.txBuf ((t.pd i).markLen + 4)
        = initControl (s.pd i) (txId (s.pd i)) ∧
      (initScbLen (s.pd i) (txId (s.pd i)) ≠ 0 →
        byteAt t.txBuf ((t.pd i).markLen + 6)
          = byteAt (initScb (s.pd i) (txId (s.pd i))) 1) ∧
      dataPos i t = (t.pd i).markLen + 5 +
        initScbLen (s.pd i) (txId (s.pd i)) := by
  have hbuf : 8 ≤ s.txBuf.length := Nat.le_trans (by decide) hroom
  rcases osdpPhyPacketInit_ok h with ⟨-, rfl, -⟩ | ⟨-, hpd, htx, rfl⟩
  · exact absurd hok (by decide)
  · have hmark : (t.pd i).markLen = somPos (s.pd i) := by
      rw [hpd, markLen_startedPd hm]
    have hle := somPos_le (s.pd i)
    have hctl : byteAt t.txBuf ((t.pd i).markLen + 4)
        = initControl (s.pd i) (txId (s.pd i)) := by
      rw [htx, hmark]
      exact byteAt_headerBuf_ge (k := 0) hbuf (by omega)
    have hscb (k : Nat) (hk : k < 2)
        (hne : initScbLen (s.pd i) (txId (s.pd i)) ≠ 0) :
        byteAt t.txBuf ((t.pd i).markLen + 5 + k)
          = byteAt (initScb (s.pd i) (txId (s.pd i))) k := by
      have hlen := (byteAt_initScb hne).1
      have hget := byteAt_headerBuf_ge (k := k + 1) hbuf
        (show k + 1 < (initScb (s.pd i) (txId (s.pd i))).length + 1 by omega)
      rw [htx, hmark, show somPos (s.pd i) + 5 + k
        = somPos (s.pd i) + 4 + (k + 1) by omega, hget, byteAt_succ]
    have hpos : dataPos i t = (t.pd i).markLen + pktHdrLen +
        initScbLen (s.pd i) (txId (s.pd i)) := by
      rw [dataPos_eq, hctl, ctrlScb_initControl]
      by_cases hne : initScbLen (s.pd i) (txId (s.pd i)) = 0
      · rw [hne]
        rfl
      · rw [if_pos (decide_eq_true hne)]
        have hfirst := hscb 0 (by decide) hne
        rw [Nat.add_zero] at hfirst
        rw [show (t.pd i).markLen + pktHdrLen = (t.pd i).markLen + 5 from rfl,
          hfirst, (byteAt_initScb hne).2]
    have hlong : initScbLen (s.pd i) (txId (s.pd i)) ≤ 3 := by
      unfold initScbLen
      split
      · omega
      · split
        · omega
        · split <;> omega
    have hlen : t.txBuf.length = s.txBuf.length := by
      rw [htx, length_headerBuf hbuf]
    refine ⟨⟨fun e => ?_, ?_, ?_, ?_, fun e => ?_, ?_⟩, hpd, hlen, hctl,
      fun hne => hscb 1 (by decide) hne, hpos⟩
    · rw [htx, byteAt_headerBuf_lt hbuf (by omega), if_pos (by omega)]
    · rw [htx, hmark, byteAt_headerBuf_lt hbuf (by omega),
        if_neg (by omega), Nat.sub_self]
      rfl
    · rw [hpos]
      rfl
    · rw [hlen, hmark, show pktHdrLen = 5 from rfl]
      have : 256 ≤ s.txBuf.length := hroom
      omega
    · rw [hctl, ctrlScb_initControl, decide_eq_true_iff] at e
      have hfirst := hscb 0 (by decide) e
      rw [Nat.add_zero] at hfirst
      rw [hfirst, (byteAt_initScb e).2]
      exact two_le_initScbLen e
    · rw [hpos, Int.toNat_natCast]
      exact List.drop_of_length_le (List.length_take_le _ _)

section Extend

variable {i : Nat} {s t : Osdp} {block : Bytes} {total : Nat}

/-- The data block is behind the header and the security block. -/
theorem dataPos_ge (i : Nat) (s : Osdp) :
    (s.pd i).markLen + 5 ≤ dataPos i s ∧
      (ctrlScb (byteAt s.txBuf ((s.pd i).markLen + 4)) = true →
        dataPos i s = (s.pd i).markLen + 5 +
          (byteAt s.txBuf ((s.pd i).markLen + 5)).toNat) := by
  rw [dataPos_eq]
  refine ⟨Nat.le_add_right _ _, fun e => ?_⟩
  rw [if_pos e]

/-- What the offset is read from is the same, and so is the offset. -/
theorem dataPos_congr (hm : (t.pd i).markLen = (s.pd i).markLen)
    (hctl : byteAt t.txBuf ((s.pd i).markLen + 4)
      = byteAt s.txBuf ((s.pd i).markLen + 4))
    (hscb : ctrlScb (byteAt s.txBuf ((s.pd i).markLen + 4)) = true →
      byteAt t.txBuf ((s.pd i).markLen + 5)
        = byteAt s.txBuf ((s.pd i).markLen + 5)) :
    dataPos i t = dataPos i s := by
  rw [dataPos_eq, dataPos_eq, hm, hctl]
  by_cases e : ctrlScb (byteAt s.txBuf ((s.pd i).markLen + 4)) = true
  · rw [if_pos e, if_pos e,
      show (s.pd i).markLen + pktHdrLen = (s.pd i).markLen + 5 from rfl,
      hscb e]
  · rw [if_neg e, if_neg e]

/-- A builder's part: the data block, stored where the offset says. -/
theorem Laid.extend {data : Bytes} {hdr : Nat} (h : Laid i s [] hdr)
    (hm : (t.pd i).markLen = (s.pd i).markLen)
    (htx : t.txBuf = writeAt s.txBuf (dataPos i s) data) :
    Laid i t data (dataPos i s + data.length) ∧
      dataPos i t = dataPos i s := by
  obtain ⟨hge, hsec⟩ := dataPos_ge i s
  have hle := markLen_le (s.pd i)
  have hfit : dataPos i s ≤ s.txBuf.length := by
    have hstop := h.stop
    have hroom := h.room
    rw [List.length_nil] at hstop
    omega
  have hbefore (k : Nat) (hk : k < dataPos i s) :
      byteAt t.txBuf k = byteAt s.txBuf k := by
    rw [htx]
    exact byteAt_writeAt_lt data hfit hk
  have hscb (e : ctrlScb (byteAt s.txBuf ((s.pd i).markLen + 4)) = true) :
      byteAt t.txBuf ((s.pd i).markLen + 5)
        = byteAt s.txBuf ((s.pd i).markLen + 5) := by
    refine hbefore _ ?_
    have := hsec e
    have := h.scb e
    omega
  have hpos : dataPos i t = dataPos i s :=
    dataPos_congr hm (hbefore _ (by omega)) hscb
  refine ⟨⟨fun e => ?_, ?_, ?_, ?_, fun e => ?_, ?_⟩, hpos⟩
  · rw [hbefore _ (by omega)]
    exact h.mark (hm ▸ e)
  · rw [hm, hbefore _ (by omega)]
    exact h.som
  · rw [hpos]
  · rw [htx]
    exact stop_le_length_writeAt data hfit
  · rw [hm, hbefore _ (by omega)] at e
    rw [hm, hscb e]
    exact h.scb e
  · rw [hpos, htx]
    exact slice_writeAt data hfit

/-- The final block type, where the block is two bytes long. -/
theorem Laid.retype {type : UInt8} (h : Laid i s block total)
    (hm : (t.pd i).markLen = (s.pd i).markLen)
    (hctl : ctrlScb (byteAt s.txBuf ((s.pd i).markLen + 4)) = true)
    (hlen : byteAt s.txBuf ((s.pd i).markLen + 5) = 2)
    (htx : t.txBuf = writeAt s.txBuf ((s.pd i).markLen + 5) [2, type]) :
    Laid i t block total ∧ dataPos i t = dataPos i s ∧
      byteAt t.txBuf ((s.pd i).markLen + 6) = type := by
  obtain ⟨hge, hsec⟩ := dataPos_ge i s
  have hle := markLen_le (s.pd i)
  have hpos2 : dataPos i s = (s.pd i).markLen + 7 := by
    rw [hsec hctl, hlen]
    rfl
  have hstop := h.stop
  have hroom := h.room
  have hfit : (s.pd i).markLen + 5 + [2, type].length ≤ s.txBuf.length := by
    show (s.pd i).markLen + 7 ≤ _
    omega
  have hbefore (k : Nat) (hk : k < (s.pd i).markLen + 5) :
      byteAt t.txBuf k = byteAt s.txBuf k := by
    rw [htx]
    exact byteAt_writeAt_ne hfit (.inl hk)
  have hfirst : byteAt t.txBuf ((s.pd i).markLen + 5) = 2 := by
    have hget := byteAt_writeAt (k := 0) hfit (by simp)
    rw [Nat.add_zero] at hget
    rw [htx, hget]
    rfl
  have hpos : dataPos i t = dataPos i s :=
    dataPos_congr hm (hbefore _ (by omega)) fun _ => by rw [hfirst, hlen]
  have htype : byteAt t.txBuf ((s.pd i).markLen + 6) = type := by
    rw [htx]
    exact byteAt_writeAt (k := 1) hfit (by simp)
  refine ⟨⟨fun e => ?_, ?_, ?_, ?_, fun _ => ?_, ?_⟩, hpos, htype⟩
  · rw [hbefore _ (by omega)]
    exact h.mark (hm ▸ e)
  · rw [hm, hbefore _ (by omega)]
    exact h.som
  · rw [hpos]
    exact hstop
  · rw [htx, length_writeAt hfit]
    exact hroom
  · rw [hm, hfirst]
    decide
  · -- the block is behind the store
    have hcut : (t.txBuf.take total).drop (dataPos i s)
        = (s.txBuf.take total).drop (dataPos i s) := by
      rw [List.drop_take, List.drop_take, htx,
        drop_writeAt (by show (s.pd i).markLen + 7 ≤ _; omega) (by omega)]
    rw [hpos, hcut]
    exact h.block_eq

/-- Nothing of the packet changed. -/
theorem Laid.congr (h : Laid i s block total)
    (hm : (t.pd i).markLen = (s.pd i).markLen)
    (htx : t.txBuf = s.txBuf) :
    Laid i t block total ∧ dataPos i t = dataPos i s := by
  have hpos : dataPos i t = dataPos i s :=
    dataPos_congr hm (by rw [htx]) fun _ => by rw [htx]
  refine ⟨⟨?_, ?_, ?_, ?_, ?_, ?_⟩, hpos⟩
  · rw [hm, htx]
    exact h.mark
  · rw [hm, htx]
    exact h.som
  · rw [hpos]
    exact h.stop
  · rw [htx]
    exact h.room
  · rw [hm, htx]
    exact h.scb
  · rw [hpos, htx]
    exact h.block_eq

end Extend

-- ============================================================== finished

/-- The packet the first `total` bytes of the transmit buffer make. -/
def packetOf (i : Nat) (s : Osdp) (total : Nat) : Bytes :=
  (s.txBuf.take total).drop (s.pd i).markLen

/-- The channel of PD `i` once the packet is sealed. -/
def sealedOn (env : Env) (i total size : Nat) (s : Osdp) : Osdp :=
  s.updPd i fun p =>
    { p with
      sc := (finalizePacket env p (packetOf i s total)
        (size - (s.pd i).markLen)).1 }

section Finish

variable (env : Env) {i : Nat} {s : Osdp} {block : Bytes} {total : Nat}

/-- Any byte of the packet is one of the buffer. -/
theorem byteAt_packetOf {k : Nat} (h : (s.pd i).markLen + k < total) :
    byteAt (packetOf i s total) k = byteAt s.txBuf ((s.pd i).markLen + k) := by
  unfold packetOf
  rw [byteAt_drop, byteAt_take h]

theorem Laid.length_packetOf (h : Laid i s block total) :
    (packetOf i s total).length = total - (s.pd i).markLen := by
  unfold packetOf
  rw [List.length_drop, List.length_take, Nat.min_eq_left h.room]

/-- Behind the header, and the whole security block, is the data block:
not past the packet's end, as long as there is one. -/
theorem Laid.sealedOff (h : Laid i s block total) (hne : block ≠ [])
    (hctl : ctrlScb (pktControl (packetOf i s total)) = true) :
    LibOsdp.sealedOff (packetOf i s total)
        = dataPos i s - (s.pd i).markLen + 1 ∧
      LibOsdp.sealedOff (packetOf i s total)
        ≤ (packetOf i s total).length ∧
      8 ≤ (packetOf i s total).length := by
  obtain ⟨hge, hsec⟩ := dataPos_ge i s
  have hpos : 0 < block.length := List.length_pos_of_ne_nil hne
  have hstop := h.stop
  have hctl' : ctrlScb (byteAt s.txBuf ((s.pd i).markLen + 4)) = true := by
    have hctl : ctrlScb (byteAt (packetOf i s total) 4) = true := hctl
    rwa [byteAt_packetOf (by omega)] at hctl
  have hscb := h.scb hctl'
  have hsec := hsec hctl'
  have hoff : LibOsdp.sealedOff (packetOf i s total)
      = dataPos i s - (s.pd i).markLen + 1 := by
    show 5 + (byteAt (packetOf i s total) 5).toNat + 1 = _
    rw [byteAt_packetOf (by omega)]
    omega
  rw [hoff, h.length_packetOf]
  omega

/-- What the last step makes of a packet that was laid. -/
theorem finalize_laid (h : Laid i s block total) (hne : block ≠ [])
    (size : Nat) :
    osdpPhyFinalizePacket env i total size s =
      if sealOverruns env (s.pd i) (packetOf i s total)
          (size - (s.pd i).markLen) then .error .outOfBounds s
      else
        match (finalizePacket env (s.pd i) (packetOf i s total)
          (size - (s.pd i).markLen)).2 with
        | none => .ok errPktFmt (sealedOn env i total size s)
        | some q =>
          .ok ((s.pd i).markLen + q.length : Nat)
            { sealedOn env i total size s with
              txBuf := writeAt s.txBuf (s.pd i).markLen q } := by
  obtain ⟨hge, -⟩ := dataPos_ge i s
  have hpos : 0 < block.length := List.length_pos_of_ne_nil hne
  have hstop := h.stop
  have hsom : byteAt (packetOf i s total) 0 = pktSom := by
    rw [byteAt_packetOf (by omega)]
    exact h.som
  have hread : s.buf .tx = s.txBuf := by
    simp [Osdp.buf]
  have hhdr : ¬ total ≤ pktHdrLen := by
    show ¬ total ≤ 5
    omega
  have hmark : ¬ ((s.pd i).markLen = 1 ∧ byteAt s.txBuf 0 ≠ pktMark) :=
    fun hc => hc.2 (h.mark hc.1)
  unfold osdpPhyFinalizePacket
  rw [if_neg hhdr]
  show (do
    if (s.pd i).markLen = 1 ∧ byteAt (s.buf .tx) 0 ≠ pktMark then
      return errPktFmt
    if byteAt (((s.buf .tx).take total).drop (s.pd i).markLen) 0 ≠ pktSom then
      return errPktFmt
    if sealOverruns env (s.pd i)
        (((s.buf .tx).take total).drop (s.pd i).markLen)
        (size - (s.pd i).markLen) then
      throw .outOfBounds
    phySealChannel env i (((s.buf .tx).take total).drop (s.pd i).markLen)
      (size - (s.pd i).markLen)
    match (finalizePacket env (s.pd i)
        (((s.buf .tx).take total).drop (s.pd i).markLen)
        (size - (s.pd i).markLen)).2 with
    | none => return errPktFmt
    | some q =>
      writeBuf .tx (s.pd i).markLen q
      return (((s.pd i).markLen + q.length : Nat) : Int) : OsdpM Int) s = _
  rw [hread, show (s.txBuf.take total).drop (s.pd i).markLen
    = packetOf i s total from rfl, if_neg hmark, if_neg (by simp [hsom])]
  by_cases hover : sealOverruns env (s.pd i) (packetOf i s total)
      (size - (s.pd i).markLen) = true
  · rw [if_pos hover, if_pos hover]
    rfl
  · rw [if_neg hover, if_neg hover]
    cases (finalizePacket env (s.pd i) (packetOf i s total)
      (size - (s.pd i).markLen)).2 with
    | none => rfl
    | some q => rfl

/-- Behind the length field, sealing a packet changes nothing up to the
id. -/
theorem byteAt_finalizePacket {p : OsdpPd} {pkt q : Bytes} {maxLen k : Nat}
    (h : (finalizePacket env p pkt maxLen).2 = some q)
    (hoff : macOnTx p pkt = true →
      LibOsdp.sealedOff pkt ≤ pkt.length ∧ k < LibOsdp.sealedOff pkt)
    (hk : 4 ≤ k) (hlen : k < pkt.length) :
    k < q.length ∧ byteAt q k = byteAt pkt k := by
  have hcheck {x : Bytes} (hx : appendCheck env x maxLen = some q)
      (hkx : k < x.length) : k < q.length ∧ byteAt q k = byteAt x k := by
    unfold appendCheck at hx
    dsimp only at hx
    split at hx
    · cases hx
    · obtain rfl := Option.some.inj hx
      refine ⟨?_, byteAt_append _ hkx⟩
      rw [List.length_append]
      omega
  unfold finalizePacket at h
  dsimp only at h
  split at h
  · next hmac =>
    obtain ⟨hoff, hks⟩ := hoff hmac
    have hsix := sealedOff_ge pkt
    have hlong := length_encryptPayload_ge env (p := p) hoff
    split at h
    · cases h
    · split at h
      · cases h
      · have hset (n : Nat) :
            (setPktLen (encryptPayload env p pkt) n).length
              = (encryptPayload env p pkt).length :=
          length_setPktLen n (by omega)
        obtain ⟨hin, hbyte⟩ :=
          hcheck h (by rw [List.length_append, hset]; omega)
        refine ⟨hin, ?_⟩
        rw [hbyte, byteAt_append _ (by rw [hset]; omega),
          byteAt_setPktLen _ (by omega) hk, byteAt_encryptPayload env hoff hks]
  · obtain ⟨hin, hbyte⟩ :=
      hcheck h (by rw [length_setPktLen _ (by omega)]; omega)
    refine ⟨hin, ?_⟩
    rw [hbyte, byteAt_setPktLen _ (by omega) hk]

/-- The length of the data block once it is encrypted and padded: nothing
is done to an empty one. -/
def sealedLen (pkt : Bytes) : Nat :=
  if encryptedType (pktData pkt 1).toNat then
    LibOsdp.sealedOff pkt + padLen (pkt.length - LibOsdp.sealedOff pkt + 1)
  else pkt.length

/-- The length of the finished packet, from SOM on. -/
def finishedLen (p : OsdpPd) (pkt : Bytes) : Nat :=
  if macOnTx p pkt then sealedLen pkt + 4 + checkLen (pktControl pkt)
  else pkt.length + checkLen (pktControl pkt)

theorem length_encryptPayload {p : OsdpPd} {pkt : Bytes}
    (hr : p.sc.rMac.length = 16) (hc : p.sc.cMac.length = 16)
    (h : LibOsdp.sealedOff pkt ≤ pkt.length) :
    (encryptPayload env p pkt).length = sealedLen pkt := by
  obtain ⟨a, d, rfl, ha⟩ := split_sealedOff h
  unfold sealedLen
  rw [encryptPayload_append env ha]
  split
  · rw [List.length_append, length_osdpEncryptData env hr hc, ← ha,
      List.length_append, Nat.add_sub_cancel_left]
  · rfl

/-- The outcome of a step that makes a packet of this length where it
fits, and nothing elsewhere. -/
def FitsAt (maxLen n : Nat) (res : Option Bytes) : Prop :=
  (∃ q, res = some q ∧ q.length = n) ∧ n ≤ maxLen ∨
    res = none ∧ maxLen < n

theorem appendCheck_fits (pkt : Bytes) (maxLen : Nat) :
    FitsAt maxLen (pkt.length + checkLen (pktControl pkt))
      (appendCheck env pkt maxLen) := by
  unfold appendCheck
  dsimp only
  by_cases hlong : pkt.length + checkLen (pktControl pkt) > maxLen
  · rw [if_pos hlong]
    exact .inr ⟨rfl, hlong⟩
  · rw [if_neg hlong]
    refine .inl ⟨⟨_, rfl, ?_⟩, Nat.not_lt.mp hlong⟩
    rw [List.length_append, length_checkBytes]

theorem macPacket_fits {p : OsdpPd} (hr : p.sc.rMac.length = 16)
    (hc : p.sc.cMac.length = 16) {q : Bytes} (maxLen : Nat)
    (hq : 5 ≤ q.length) :
    FitsAt maxLen (q.length + 4 + checkLen (pktControl q))
      (macPacket env p q maxLen) := by
  unfold macPacket
  dsimp only
  by_cases hfit : q.length + 4 > maxLen
  · rw [if_pos hfit]
    exact .inr ⟨rfl, by omega⟩
  · rw [if_neg hfit]
    have hlen :=
      length_setPktLen (q.length + checkLen (pktControl q) + 4)
        (show 4 ≤ q.length by omega)
    have hctl :=
      pktControl_setPktLen (q.length + checkLen (pktControl q) + 4) hq
    generalize setPktLen q (q.length + checkLen (pktControl q) + 4) = q'
      at hlen hctl
    have hmac := length_mac env hr hc q'
    generalize (if p.flags.pdMode then
      (osdpComputeMac env (!p.flags.pdMode) q' p.sc).rMac
      else (osdpComputeMac env (!p.flags.pdMode) q' p.sc).cMac) = mac at hmac
    have hx := appendCheck_fits env (q' ++ mac.take 4) maxLen
    have hctl' : pktControl (q' ++ mac.take 4) = pktControl q := by
      rw [← hctl]
      exact byteAt_append _ (by omega)
    have hfour : (q' ++ mac.take 4).length = q.length + 4 := by
      rw [List.length_append, List.length_take, hlen]
      omega
    rw [hctl', hfour] at hx
    exact hx

/-- A packet is finished exactly where it fits, padding, MAC and check
bytes included. -/
theorem finalizePacket_fits {p : OsdpPd} {pkt : Bytes} (maxLen : Nat)
    (hr : p.sc.rMac.length = 16) (hc : p.sc.cMac.length = 16)
    (hlen : 5 ≤ pkt.length)
    (hoff : macOnTx p pkt = true → LibOsdp.sealedOff pkt ≤ pkt.length) :
    FitsAt maxLen (finishedLen p pkt) (finalizePacket env p pkt maxLen).2 := by
  unfold finishedLen
  by_cases hmac : macOnTx p pkt = true
  · have hoff := hoff hmac
    have hsix := sealedOff_ge pkt
    have hlong := length_encryptPayload_ge env (p := p) hoff
    rw [if_pos hmac, finalizePacket_maced env maxLen hmac hoff]
    by_cases hpad : padTooLong pkt maxLen = true
    · rw [if_pos hpad]
      refine .inr ⟨rfl, ?_⟩
      unfold padTooLong at hpad
      simp only [Bool.and_eq_true, decide_eq_true_iff] at hpad
      unfold sealedLen
      rw [if_pos hpad.1]
      omega
    · have hctl : pktControl (encryptPayload env p pkt) = pktControl pkt :=
        byteAt_encryptPayload env hoff (by omega)
      rw [if_neg hpad, ← hctl, ← length_encryptPayload env hr hc hoff]
      exact macPacket_fits env hr hc maxLen (by omega)
  · rw [if_neg hmac]
    have hplain : (finalizePacket env p pkt maxLen).2
        = appendCheck env
          (setPktLen pkt (pkt.length + checkLen (pktControl pkt))) maxLen := by
      unfold finalizePacket
      dsimp only
      rw [if_neg hmac]
    have hx := appendCheck_fits env
      (setPktLen pkt (pkt.length + checkLen (pktControl pkt))) maxLen
    rw [pktControl_setPktLen _ hlen, length_setPktLen _ (by omega)] at hx
    rw [hplain]
    exact hx

end Finish

end LibOsdp
