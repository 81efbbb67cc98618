/-
Finishing a packet that was laid: its final block type, its length, and
whether it fits.

# The block type

A packet that starts under the channel gets a block of type SCS_15.  Once
the data block is known, the builders of both roles store the type again:
one value where there is something to encrypt, another where there is
only the id (`pickBlockType`).  `laid_typed` is that step together with
the store of the data block before it.

# The length

`Laid` says where the bytes lie, so the length of the finished packet is
known before it is finished, and the finalizer takes the packet exactly
where that length fits (`finalizes_laid_iff`).  Under the channel it
depends on the number of bytes in the data block and nothing else
(`sealedSpan`).
-/
import LibOsdp.Phy.Proofs.Laying

namespace LibOsdp

open Lib

section Sealing

variable {i : Nat} {s t v : Osdp} {block : Bytes} {total : Nat}

-- ============================================================ block type

/-- A packet started under the channel: a two byte block of type SCS_15.
One started without it has no block, a handshake message apart. -/
def BlockStarted (i : Nat) (s : Osdp) : Prop :=
  if (s.pd i).flags.scActive then
    ctrlScb (byteAt s.txBuf ((s.pd i).markLen + 4)) = true →
      byteAt s.txBuf ((s.pd i).markLen + 5) = 2 ∧
        byteAt s.txBuf ((s.pd i).markLen + 6) = 0x15
  else True

theorem getSmb_eq (i : Nat) (s : Osdp) :
    osdpPhyPacketGetSmb (s.pd i) s.txBuf =
      if ctrlScb (byteAt s.txBuf ((s.pd i).markLen + 4)) then
        some ((s.pd i).markLen + 5)
      else none := by
  show (if ctrlScb (byteAt (s.txBuf.drop (s.pd i).markLen) 4) then
    some ((s.pd i).markLen + pktHdrLen) else none) = _
  rw [byteAt_drop]

/-- Storing the final type of a security block, where the channel is up
and the block is no handshake's. -/
def pickBlockType (i : Nat) (smb : Option Nat) (type : UInt8) :
    OsdpM Unit := do
  match smb with
  | none => return
  | some smb =>
    let p ← getPd i
    let buf ← readBuf .tx
    if scs14 < (byteAt buf (smb + 1)).toNat ∧ p.flags.scActive then
      writeBuf .tx smb [2, type]

/-- It always succeeds. -/
theorem pickBlockType_total (i : Nat) (smb : Option Nat) (type : UInt8)
    (s : Osdp) : ∃ t, pickBlockType i smb type s = .ok () t := by
  unfold pickBlockType
  cases smb with
  | none => exact ⟨s, rfl⟩
  | some smb =>
    show ∃ t, (if scs14 < (byteAt (s.buf .tx) (smb + 1)).toNat ∧
      (s.pd i).flags.scActive then writeBuf .tx smb [2, type]
      else pure () : OsdpM Unit) s = .ok () t
    split
    · exact ⟨_, rfl⟩
    · exact ⟨_, rfl⟩

/-- The control byte is the same, and where the channel is up the block
has this type. -/
structure Retyped (i : Nat) (type : UInt8) (s t : Osdp) : Prop where
  mark : (t.pd i).markLen = (s.pd i).markLen
  pos : dataPos i t = dataPos i s
  control : byteAt t.txBuf ((s.pd i).markLen + 4)
    = byteAt s.txBuf ((s.pd i).markLen + 4)
  type : (s.pd i).flags.scActive = true →
    ctrlScb (byteAt s.txBuf ((s.pd i).markLen + 4)) = true →
    byteAt t.txBuf ((s.pd i).markLen + 6) = type

/-- Picking the block type leaves the data block. -/
theorem pickBlockType_ok {type : UInt8} (hl : Laid i s block total)
    (hb : BlockStarted i s)
    (h : pickBlockType i (osdpPhyPacketGetSmb (s.pd i) s.txBuf) type s
      = .ok () t) :
    Laid i t block total ∧ t.pd = s.pd ∧ Retyped i type s t := by
  rw [getSmb_eq] at h
  by_cases hctl : ctrlScb (byteAt s.txBuf ((s.pd i).markLen + 4)) = true
  · rw [if_pos hctl] at h
    unfold pickBlockType at h
    obtain ⟨p, u, hg, h⟩ := bind_ok.mp h
    obtain ⟨rfl, rfl⟩ := getPd_ok.mp hg
    obtain ⟨buf, u, hread, h⟩ := bind_ok.mp h
    cases hread
    have hbuf : s.buf .tx = s.txBuf := by
      simp [Osdp.buf]
    rw [hbuf] at h
    by_cases hact : (s.pd i).flags.scActive = true
    · unfold BlockStarted at hb
      rw [if_pos hact] at hb
      obtain ⟨hlen, htype⟩ := hb hctl
      rw [if_pos ⟨by rw [show (s.pd i).markLen + 5 + 1
        = (s.pd i).markLen + 6 from rfl, htype]; decide, hact⟩] at h
      cases h
      obtain ⟨hl', hpos, hty⟩ := hl.retype (t := { s with
        txBuf := writeAt s.txBuf ((s.pd i).markLen + 5) [2, type] })
        rfl hctl hlen rfl
      refine ⟨hl', rfl, rfl, hpos, ?_, fun _ _ => hty⟩
      have hroom := hl.room
      have hstop := hl.stop
      obtain ⟨-, hsec⟩ := dataPos_ge i s
      have hsec := hsec hctl
      exact byteAt_writeAt_lt _ (by omega) (by omega)
    · rw [if_neg fun hc => hact hc.2] at h
      obtain ⟨-, rfl⟩ := pure_ok.mp h
      exact ⟨hl, rfl, rfl, rfl, rfl, fun e => absurd e hact⟩
  · rw [if_neg hctl] at h
    obtain ⟨-, rfl⟩ := pure_ok.mp h
    exact ⟨hl, rfl, rfl, rfl, rfl, fun _ e => absurd e hctl⟩

-- ============================================================== the block

/-- What sealing a packet reads of the PD. -/
@[grind] def sealView (p : OsdpPd) :
    OsdpSecureChannel × Bool × Bool × Bool :=
  (p.sc, p.flags.scActive, p.flags.pdMode, p.flags.pktHasMark)

/-- Without another mark byte the packet starts at the same place. -/
theorem markLen_of_sealView {p q : OsdpPd} (h : sealView p = sealView q) :
    p.markLen = q.markLen := by
  have e := congrArg (fun v => v.2.2.2) h
  have e : p.flags.pktHasMark = q.flags.pktHasMark := e
  unfold OsdpPd.markLen
  rw [e]

/-- Starting a packet changes none of it, where the mark byte agrees with
the flag already. -/
theorem sealView_startedPd {p : OsdpPd}
    (h : p.flags.pktHasMark = writesMark p) :
    sealView (startedPd p) = sealView p := by
  show (p.sc, p.flags.scActive, p.flags.pdMode,
    p.flags.pktHasMark || writesMark p) = sealView p
  rw [← h, Bool.or_self]
  rfl

/-- Starting a reply changes none of it. -/
theorem sealView_started {p : OsdpPd} (h : p.flags.pdMode = true) :
    sealView (startedPd p) = sealView p := by
  have hm : writesMark p = p.flags.pktHasMark := if_pos h
  exact sealView_startedPd hm.symm

/-- A large enough buffer takes a header. -/
theorem osdpPhyPacketInit_total {size : Nat} (i : Nat) (s : Osdp)
    (h : minimumPacketSize ≤ size) :
    ∃ hdr t, osdpPhyPacketInit i size s = .ok hdr t ∧ 0 ≤ hdr := by
  unfold osdpPhyPacketInit
  rw [if_neg (Nat.not_lt.mpr h)]
  rw [bind_eq (m := getPd i) (s := s) rfl]
  split
  · exact ⟨_, _, rfl, Int.natCast_nonneg _⟩
  · exact ⟨_, _, rfl, Int.natCast_nonneg _⟩

/-- A packet that was started under the channel has its block begun, with
whatever was changed since. -/
theorem blockStarted_init {size : Nat} {hdr : Int} {u : Osdp}
    (h : osdpPhyPacketInit i size s = .ok hdr t) (hok : 0 ≤ hdr)
    (hroom : packetBufSize ≤ s.txBuf.length) (hm : MarkAgrees (s.pd i))
    (hact : (u.pd i).flags.scActive = (s.pd i).flags.scActive)
    (hmark : (u.pd i).markLen = (t.pd i).markLen)
    (htx : u.txBuf = t.txBuf) : BlockStarted i u := by
  obtain ⟨hl, -, -, hctl, htype, hpos⟩ := laid_init h hok hroom hm
  unfold BlockStarted
  rw [hact]
  by_cases ha : (s.pd i).flags.scActive = true
  · rw [if_pos ha]
    intro e
    rw [hmark, htx] at e ⊢
    have hsec := (dataPos_ge i t).2 e
    rw [hctl, ctrlScb_initControl, decide_eq_true_iff] at e
    obtain ⟨hlen, hscb⟩ := initScb_active (p := s.pd i) ha e
    refine ⟨?_, ?_⟩
    · apply UInt8.toNat_inj.mp
      rw [hlen] at hpos
      show (byteAt t.txBuf ((t.pd i).markLen + 5)).toNat = 2
      omega
    · rw [htype e, hscb]
      rfl
  · rw [if_neg ha]
    exact trivial

/-- Storing a data block behind a header, and picking its type: `v` is
the state in between. -/
theorem laid_typed {hdr : Nat} {type : UInt8} (hl : Laid i s [] hdr)
    (hb : BlockStarted i s) (hpd : sealView (v.pd i) = sealView (s.pd i))
    (htx : v.txBuf = writeAt s.txBuf (dataPos i s) block)
    (h : pickBlockType i (osdpPhyPacketGetSmb (s.pd i) s.txBuf) type v
      = .ok () t) :
    Laid i t block (dataPos i s + block.length) ∧ Retyped i type s t ∧
      t.pd = v.pd := by
  have hm : (v.pd i).markLen = (s.pd i).markLen := markLen_of_sealView hpd
  obtain ⟨hlv, hpos⟩ := hl.extend hm htx
  obtain ⟨hge, hsec⟩ := dataPos_ge i s
  have hfit : dataPos i s ≤ s.txBuf.length := by
    have hstop := hl.stop
    have hroom := hl.room
    rw [List.length_nil] at hstop
    omega
  have hbefore (k : Nat) (hk : k < dataPos i s) :
      byteAt v.txBuf k = byteAt s.txBuf k := by
    rw [htx]
    exact byteAt_writeAt_lt block hfit hk
  have hctl : byteAt v.txBuf ((s.pd i).markLen + 4)
      = byteAt s.txBuf ((s.pd i).markLen + 4) := hbefore _ (by omega)
  have hact : (v.pd i).flags.scActive = (s.pd i).flags.scActive :=
    congrArg (fun v => v.2.1) hpd
  have hsmb : osdpPhyPacketGetSmb (s.pd i) s.txBuf
      = osdpPhyPacketGetSmb (v.pd i) v.txBuf := by
    rw [getSmb_eq, getSmb_eq, hm, hctl]
  have hbv : BlockStarted i v := by
    unfold BlockStarted at hb ⊢
    rw [hact]
    by_cases ha : (s.pd i).flags.scActive = true
    · rw [if_pos ha] at hb ⊢
      intro e
      rw [hm, hctl] at e
      have hlen : dataPos i s = (s.pd i).markLen + 7 := by
        rw [hsec e, (hb e).1]
        rfl
      rw [hm, hbefore _ (by omega), hbefore _ (by omega)]
      exact hb e
    · rw [if_neg ha]
      exact trivial
  rw [hsmb] at h
  obtain ⟨hlt, htv, hty⟩ := pickBlockType_ok hlv hbv h
  refine ⟨hlt, ⟨?_, ?_, ?_, fun ha e => ?_⟩, htv⟩
  · rw [hty.mark, hm]
  · rw [hty.pos, hpos]
  · rw [← hm, hty.control, hm, hctl]
  · rw [← hm]
    exact hty.type (hact.trans ha) (by rw [hm, hctl]; exact e)

-- ============================================================= finishing

/-- The finalizer takes the packet. -/
def Finalizes (env : Env) (i size total : Nat) (t : Osdp) : Prop :=
  ∃ done u, osdpPhyFinalizePacket env i total size t = .ok done u ∧ 0 ≤ done

/-- A packet that was laid has room for its id, and for a whole security
block if it has one. -/
theorem Laid.five_le (hl : Laid i t block total) (hne : block ≠ []) :
    5 ≤ (packetOf i t total).length := by
  obtain ⟨hge, -⟩ := dataPos_ge i t
  have hpos : 0 < block.length := List.length_pos_of_ne_nil hne
  have hstop := hl.stop
  rw [hl.length_packetOf]
  omega

/-- Where a MAC is due, the data block starts inside the packet. -/
theorem Laid.off_le (hl : Laid i t block total) (hne : block ≠ [])
    (hmac : macOnTx (t.pd i) (packetOf i t total) = true) :
    LibOsdp.sealedOff (packetOf i t total)
      ≤ (packetOf i t total).length := by
  unfold macOnTx at hmac
  simp only [Bool.and_eq_true] at hmac
  exact (hl.sealedOff hne hmac.1.2).2.1

/-- A packet that was laid is finished exactly where it fits, and has the
length foreseen. -/
theorem finalizes_laid_iff (env : Env) {size : Nat}
    (hl : Laid i t block total) (hne : block ≠ [])
    (hsize : size ≤ packetBufSize) (hr : (t.pd i).sc.rMac.length = 16)
    (hc : (t.pd i).sc.cMac.length = 16) :
    (Finalizes env i size total t ↔
      (t.pd i).markLen + finishedLen (t.pd i) (packetOf i t total) ≤ size) ∧
    ∀ done u, osdpPhyFinalizePacket env i total size t = .ok done u →
      0 ≤ done →
      done = ((t.pd i).markLen +
        finishedLen (t.pd i) (packetOf i t total) : Nat) := by
  have hfive := hl.five_le hne
  have hfits := finalizePacket_fits env (size - (t.pd i).markLen) hr hc
    (p := t.pd i) hfive fun hmac => hl.off_le hne hmac
  have hlong : 5 ≤ finishedLen (t.pd i) (packetOf i t total) := by
    unfold finishedLen
    split
    · next hmac =>
      have henc := length_encryptPayload_ge env (p := t.pd i)
        (hl.off_le hne hmac)
      have hsix := sealedOff_ge (packetOf i t total)
      rw [length_encryptPayload env hr hc (hl.off_le hne hmac)] at henc
      omega
    · omega
  have hvalue (done : Int) (u : Osdp)
      (hok : osdpPhyFinalizePacket env i total size t = .ok done u)
      (hpos : 0 ≤ done) :
      (t.pd i).markLen + finishedLen (t.pd i) (packetOf i t total) ≤ size ∧
        done = ((t.pd i).markLen +
          finishedLen (t.pd i) (packetOf i t total) : Nat) := by
    rw [finalize_laid env hl hne size] at hok
    split at hok
    · cases hok
    · rcases hfits with ⟨⟨q, hq, hqlen⟩, hle⟩ | ⟨hnone, -⟩
      · rw [hq] at hok
        cases hok
        rw [hqlen]
        exact ⟨by omega, rfl⟩
      · rw [hnone] at hok
        cases hok
        exact absurd hpos (by decide)
  refine ⟨⟨fun ⟨done, u, hok, hpos⟩ => (hvalue done u hok hpos).1,
    fun hle => ?_⟩, fun done u hok hpos => (hvalue done u hok hpos).2⟩
  have hover : sealOverruns env (t.pd i) (packetOf i t total)
      (size - (t.pd i).markLen) = false := by
    unfold sealOverruns
    by_cases hmac : macOnTx (t.pd i) (packetOf i t total) = true
    · have henc := length_encryptPayload env hr hc (hl.off_le hne hmac)
      have hfar : ¬ (t.pd i).markLen + (encryptPayload env (t.pd i)
          (packetOf i t total)).length > packetBufSize := by
        rw [henc]
        unfold finishedLen at hle
        rw [if_pos hmac] at hle
        omega
      rw [decide_eq_false hfar, Bool.and_false]
    · rw [Bool.eq_false_iff.mpr hmac, Bool.false_and, Bool.false_and]
  unfold Finalizes
  rw [finalize_laid env hl hne size, if_neg (by simp [hover])]
  rcases hfits with ⟨⟨q, hq, -⟩, -⟩ | ⟨-, hlt⟩
  · rw [hq]
    exact ⟨_, _, rfl, Int.natCast_nonneg _⟩
  · omega

/-- Finishing a packet leaves what stands behind its length field, up to
the id. -/
theorem finalized_head {size : Nat} {done : Int} {u : Osdp}
    (hl : Laid i t block total) (hne : block ≠ [])
    (h : osdpPhyFinalizePacket env i total size t = .ok done u)
    (hge : 0 ≤ done) :
    (u.pd i).markLen = (t.pd i).markLen ∧
      ∀ k, 4 ≤ k → (t.pd i).markLen + k ≤ dataPos i t →
        byteAt u.txBuf ((t.pd i).markLen + k)
          = byteAt t.txBuf ((t.pd i).markLen + k) := by
  have hpos : 0 < block.length := List.length_pos_of_ne_nil hne
  have hstop := hl.stop
  have hroom := hl.room
  have hlen := hl.length_packetOf
  rw [finalize_laid env hl hne size] at h
  split at h
  · cases h
  · split at h
    · cases h
      exact absurd hge (by decide)
    · next q hq =>
      cases h
      refine ⟨?_, fun k hk hle => ?_⟩
      · show ((sealedOn env i total size t).pd i).markLen = _
        unfold sealedOn
        rw [updPd_pd_same]
        rfl
      · have hbyte : k < q.length ∧
            byteAt q k = byteAt (packetOf i t total) k := by
          refine byteAt_finalizePacket env hq (fun hmac => ?_) hk (by omega)
          unfold macOnTx at hmac
          simp only [Bool.and_eq_true] at hmac
          obtain ⟨hoff, hin, -⟩ := hl.sealedOff hne hmac.1.2
          exact ⟨hin, by omega⟩
        show byteAt (writeAt t.txBuf (t.pd i).markLen q) _ = _
        rw [byteAt_written (by omega) hbyte.1, hbyte.2,
          byteAt_packetOf (by omega)]

/-- The check bytes are a CRC, unless a CP was set up to use checksums. -/
theorem ctrlCrc_initControl_eq (p : OsdpPd) (id : Nat) :
    ctrlCrc (initControl p id) = (p.flags.pdMode || p.flags.cpUseCrc) := by
  have hseq : (phyGetNextSeqNumber p).toNat ≤ 3 := by
    unfold phyGetNextSeqNumber
    split <;> omega
  unfold initControl
  generalize (phyGetNextSeqNumber p).toNat = n at hseq ⊢
  have hn : n = 0 ∨ n = 1 ∨ n = 2 ∨ n = 3 := by omega
  cases (p.flags.pdMode && id == replyBusy) <;>
    cases p.flags.scActive <;>
    cases osdpPhyInScHandshake p.flags.pdMode id <;>
    cases (p.flags.pdMode || p.flags.cpUseCrc) <;>
    rcases hn with rfl | rfl | rfl | rfl <;> rfl

-- ============================================================== the span

/-- The length, `mark` bytes in front included, of the packet a data
block of `n` bytes makes under the channel: header, security block and
id, the padded data if there are any, MAC and `check` bytes. -/
def sealedSpan (mark check n : Nat) : Nat :=
  mark + 12 + check + if n > 1 then padLen n else 0

/-- A packet under the channel that was laid, with its block type final:
something to encrypt means an encrypting type. -/
structure Sealable (i : Nat) (t : Osdp) (block : Bytes) : Prop where
  laid : Laid i t block (dataPos i t + block.length)
  active : (t.pd i).flags.scActive = true
  scb : ctrlScb (byteAt t.txBuf ((t.pd i).markLen + 4)) = true
  pos : dataPos i t = (t.pd i).markLen + 7
  late : scs15 ≤ (byteAt t.txBuf ((t.pd i).markLen + 6)).toNat
  type : encryptedType (byteAt t.txBuf ((t.pd i).markLen + 6)).toNat
    = decide (1 < block.length)

/-- Once finished it is as long as its span says. -/
theorem Sealable.finishedLen_eq (h : Sealable i t block) (hne : block ≠ []) :
    (t.pd i).markLen +
        finishedLen (t.pd i) (packetOf i t (dataPos i t + block.length))
      = sealedSpan (t.pd i).markLen
        (checkLen (byteAt t.txBuf ((t.pd i).markLen + 4))) block.length := by
  have hlen : 0 < block.length := List.length_pos_of_ne_nil hne
  have hpos := h.pos
  have hcontrol : pktControl (packetOf i t (dataPos i t + block.length))
      = byteAt t.txBuf ((t.pd i).markLen + 4) := byteAt_packetOf (by omega)
  have htype : pktData (packetOf i t (dataPos i t + block.length)) 1
      = byteAt t.txBuf ((t.pd i).markLen + 6) :=
    byteAt_packetOf (k := 6) (by omega)
  have hmac : macOnTx (t.pd i)
      (packetOf i t (dataPos i t + block.length)) = true := by
    unfold macOnTx
    rw [h.active, hcontrol, h.scb, htype, decide_eq_true h.late]
    rfl
  obtain ⟨hoff, -, -⟩ := h.laid.sealedOff hne (by rw [hcontrol]; exact h.scb)
  have hplen := h.laid.length_packetOf
  have hsealed : sealedLen (packetOf i t (dataPos i t + block.length))
      = 8 + if block.length > 1 then padLen block.length else 0 := by
    unfold sealedLen
    rw [htype, h.type, hoff, hplen, hpos]
    by_cases hn : 1 < block.length
    · rw [if_pos (decide_eq_true hn), if_pos hn,
        show (t.pd i).markLen + 7 + block.length - (t.pd i).markLen -
          ((t.pd i).markLen + 7 - (t.pd i).markLen + 1) + 1
            = block.length by omega]
      omega
    · rw [if_neg (by simp [hn]), if_neg hn]
      omega
  unfold finishedLen sealedSpan
  rw [if_pos hmac, hsealed, hcontrol]
  omega

/-- It is finished exactly where its span fits. -/
theorem Sealable.finalizes_iff {env : Env} {size : Nat}
    (h : Sealable i t block) (hne : block ≠ [])
    (hsize : size ≤ packetBufSize) (hr : (t.pd i).sc.rMac.length = 16)
    (hc : (t.pd i).sc.cMac.length = 16) :
    Finalizes env i size (dataPos i t + block.length) t ↔
      sealedSpan (t.pd i).markLen
        (checkLen (byteAt t.txBuf ((t.pd i).markLen + 4))) block.length
          ≤ size := by
  rw [(finalizes_laid_iff env h.laid hne hsize hr hc).1,
    h.finishedLen_eq hne]

-- ========================================================= short packets

/-- Finishing a packet adds this much at most: the padding with its end
marker, the MAC and the check bytes. -/
def sealMax : Nat := 22

theorem finishedLen_le {p : OsdpPd} {pkt : Bytes}
    (h : macOnTx p pkt = true → LibOsdp.sealedOff pkt ≤ pkt.length) :
    finishedLen p pkt ≤ pkt.length + sealMax := by
  have hcheck := checkLen_le (pktControl pkt)
  unfold finishedLen sealedLen padLen sealMax
  by_cases hmac : macOnTx p pkt = true
  · have hoff := h hmac
    rw [if_pos hmac]
    split <;> omega
  · rw [if_neg hmac]
    omega

/-- A packet that leaves that much room is finished, whatever it is. -/
theorem finalizes_short (env : Env) {size : Nat} (hl : Laid i t block total)
    (hne : block ≠ []) (hsize : size ≤ packetBufSize)
    (hr : (t.pd i).sc.rMac.length = 16) (hc : (t.pd i).sc.cMac.length = 16)
    (hfits : total + sealMax ≤ size) : Finalizes env i size total t := by
  refine (finalizes_laid_iff env hl hne hsize hr hc).1.mpr ?_
  have hle := finishedLen_le (p := t.pd i) (hl.off_le hne)
  have hlen := hl.length_packetOf
  obtain ⟨hge, -⟩ := dataPos_ge i t
  have hstop := hl.stop
  omega

/-- A security block is three bytes at most when a packet starts. -/
theorem initScbLen_le (p : OsdpPd) (id : Nat) : initScbLen p id ≤ 3 := by
  unfold initScbLen
  split
  · omega
  · split
    · omega
    · split <;> omega

-- ====================================================== negotiated sizes

/-- A packet size no packet can be started in.  Zero means that none was
announced. -/
def Mutes (size : Nat) : Prop := 0 < size ∧ size < minimumPacketSize

instance (size : Nat) : Decidable (Mutes size) :=
  inferInstanceAs (Decidable (_ ∧ _))

theorem getTxBufSize_le (p : OsdpPd) : getTxBufSize p ≤ packetBufSize := by
  unfold getTxBufSize
  split
  · exact Nat.le_refl _
  · exact Nat.min_le_left _ _

/-- The sizes that leave room for a packet are the others. -/
theorem minimumPacketSize_le_iff (p : OsdpPd) :
    minimumPacketSize ≤ getTxBufSize p ↔ ¬ Mutes p.peerRxSize := by
  have hmin : minimumPacketSize = 128 := rfl
  have hmax : packetBufSize = 256 := rfl
  unfold getTxBufSize Mutes
  split <;> omega

end Sealing

end LibOsdp
