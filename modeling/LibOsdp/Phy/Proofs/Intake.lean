/-
What one call of `osdp_phy_check_packet` takes in.

# The receive side

Collecting a frame reads and writes four things: the filled part of the
packet buffer, the length of the frame once its header is known, the
ring, and the mark flag.  `RxSide` is these four, and the functions on it
are the ones of the framer with nothing else in sight.  That they are the
same is `assemble_ok`: the bytes on the line go into the ring, and the
receive side becomes what `RxSide.assemble` makes of it.

# Headers

Whatever starts in the packet buffer starts with SOM, or with a mark byte
and SOM.  So a buffer is `startBytes m` and what follows, and everything
a header is judged by stands at the same places of what follows: the
address first, the length behind it.  A header that is refused is
searched for the next SOM in the way the ring is (`rescan_eq`).
-/
import LibOsdp.Phy.Framer
import LibOsdp.Common.Frame

namespace LibOsdp

open Lib

-- ============================================================== the view

/-- The receive side of a PD: what the packet buffer is filled with, the
length of the frame being collected (zero while its header is not there),
the ring, and the mark flag. -/
structure RxSide where
  buf : Bytes := []
  len : Nat := 0
  ring : Bytes := []
  mark : Bool := false
  deriving DecidableEq, Repr

/-- The receive side of PD `i`. -/
def Osdp.rx (s : Osdp) (i : Nat) : RxSide :=
  let p := s.pd i
  ⟨(s.buf p.packetBuf).take p.packetBufLen, p.packetLen, p.rxRb,
    p.flags.pktHasMark⟩

/-- What the scan puts into the packet buffer. -/
def startBytes (m : Bool) : Bytes :=
  if m then [pktMark, pktSom] else [pktSom]

/-- `osdp_rb_pop_buf` of at most `n` bytes behind the buffered ones. -/
def RxSide.topUp (r : RxSide) (n : Nat) : RxSide :=
  { r with buf := r.buf ++ r.ring.take n, ring := r.ring.drop n }

/-- The scan for a packet start. -/
def RxSide.findStart (r : RxSide) : Option RxSide :=
  if r.buf ≠ [] then some r
  else
    match scanSom 0 r.ring with
    | none => none
    | some (m, rest) => some { r with buf := startBytes m, ring := rest }

/-- Enough bytes for a header. -/
def RxSide.fillHeader (r : RxSide) : RxSide :=
  r.topUp (pktHdrLen + (if byteAt r.buf 0 = pktMark then 1 else 0)
    - r.buf.length)

/-- `phy_validate_header`: it looks at the role and the mark flag only. -/
def judgeHeader (pdMode mark : Bool) (buf : Bytes) : Bool × Int :=
  phyValidateHeader { flags := { pdMode := pdMode, pktHasMark := mark } }
    buf buf.length packetBufSize

/-- The rest of a frame whose length is known. -/
def RxSide.complete (r : RxSide) : Int × RxSide :=
  if r.len < r.buf.length then (errPktFmt, r)
  else
    let t := r.topUp (r.len - r.buf.length)
    (if t.buf.length ≠ t.len then errPktWait else errPktNone, t)

/-- The header's verdict, and what follows from it. -/
def RxSide.takeHeader (pdMode : Bool) (r : RxSide) : Int × RxSide :=
  let v := judgeHeader pdMode r.mark r.buf
  if v.2 = errPktFmt then
    let c := phyRescanPacketBuf v.1 r.buf
    (errPktWait, { r with buf := c.1, mark := c.2 })
  else if v.2 < 0 then (v.2, { r with mark := v.1 })
  else { r with mark := v.1, len := v.2.toNat }.complete

/-- One call, short of the checks on a whole frame. -/
def RxSide.assemble (pdMode : Bool) (r : RxSide) : Int × RxSide :=
  if r.len = 0 then
    match r.findStart with
    | none => (errPktNoData, { r with ring := [] })
    | some t => t.fillHeader.takeHeader pdMode
  else r.complete

-- ============================================================= the ring

/-- Bytes that fit the ring are all taken off the line. -/
theorem channelReceive_all {fuel : Nat} {rb line : Bytes} {total : Int}
    (hfuel : line.length < fuel)
    (hfit : rb.length + line.length ≤ rxRbSize - 1) :
    channelReceive fuel rb line total
      = (rb ++ line, [], total + line.length) := by
  induction fuel generalizing rb line total with
  | zero => omega
  | succ fuel ih =>
    unfold channelReceive
    have htake : (line.take 64).length = min 64 line.length :=
      List.length_take
    by_cases hnil : line.take 64 = []
    · have hline : line = [] := by
        rw [hnil] at htake
        apply List.eq_nil_of_length_eq_zero
        simp only [List.length_nil] at htake
        omega
      subst hline
      simp
    · have hpush : osdpRbPushBuf rb (line.take 64) = rb ++ line.take 64 := by
        unfold osdpRbPushBuf
        rw [List.take_of_length_le]
        omega
      simp only [hnil, if_false, hpush, List.length_append, ne_eq,
        not_true_eq_false]
      by_cases hfull : (line.take 64).length = 64
      · rw [if_pos hfull, ih]
        · rw [List.append_assoc, List.take_append_drop]
          simp only [List.length_drop, Prod.mk.injEq, true_and]
          omega
        · rw [List.length_drop]
          omega
        · rw [List.length_append, List.length_drop]
          omega
      · rw [if_neg hfull]
        have hshort : line.length < 64 := by omega
        rw [List.take_of_length_le (by omega),
          List.drop_of_length_le (by omega)]

-- ============================================================ the buffer

/-- The state after a store into a packet buffer. -/
def Osdp.write (s : Osdp) (ref : BufRef) (off : Nat) (data : Bytes) :
    Osdp :=
  if ref = .tx ∨ s.rxIsTx then
    { s with txBuf := writeAt s.txBuf off data }
  else { s with rxBuf := writeAt s.rxBuf off data }

theorem writeBuf_eq (ref : BufRef) (off : Nat) (data : Bytes) (s : Osdp) :
    writeBuf ref off data s = .ok () (s.write ref off data) := by
  unfold writeBuf Osdp.write
  split <;> rfl

@[simp] theorem write_pd (s : Osdp) (ref : BufRef) (off : Nat)
    (data : Bytes) : (s.write ref off data).pd = s.pd := by
  unfold Osdp.write
  split <;> rfl

@[simp] theorem write_line (s : Osdp) (ref : BufRef) (off : Nat)
    (data : Bytes) : (s.write ref off data).line = s.line := by
  unfold Osdp.write
  split <;> rfl

theorem write_buf (s : Osdp) (ref : BufRef) (off : Nat) (data : Bytes) :
    (s.write ref off data).buf ref = writeAt (s.buf ref) off data := by
  unfold Osdp.write Osdp.buf
  by_cases h : ref = .tx ∨ s.rxIsTx
  · simp only [if_pos h]
  · simp only [if_neg h]

/-- What stands in front of the end of a store. -/
theorem take_writeAt {b d : Bytes} {off : Nat} (h : off ≤ b.length) :
    (writeAt b off d).take (off + d.length) = b.take off ++ d := by
  have hlen : (b.take off ++ d).length = off + d.length := by
    simp only [List.length_append, List.length_take]
    omega
  unfold writeAt
  rw [← hlen, List.take_left' rfl]

-- ======================================================= the refinement

/-- PD `i` is in the given role, its packet buffer holds what it says it
is filled with, and its receive side is `r`. -/
structure TakesIn (i : Nat) (pdMode : Bool) (s : Osdp) (r : RxSide) :
    Prop where
  room : (s.pd i).packetBufLen ≤ (s.buf (s.pd i).packetBuf).length
  mode : (s.pd i).flags.pdMode = pdMode
  side : s.rx i = r

section Refinement

variable {i : Nat} {pdMode : Bool} {s t : Osdp} {r : RxSide}

theorem TakesIn.buf (h : TakesIn i pdMode s r) :
    (s.buf (s.pd i).packetBuf).take (s.pd i).packetBufLen = r.buf :=
  congrArg RxSide.buf h.side

theorem TakesIn.ring (h : TakesIn i pdMode s r) : (s.pd i).rxRb = r.ring :=
  congrArg RxSide.ring h.side

theorem TakesIn.len (h : TakesIn i pdMode s r) :
    (s.pd i).packetLen = r.len :=
  congrArg RxSide.len h.side

theorem TakesIn.mark (h : TakesIn i pdMode s r) :
    (s.pd i).flags.pktHasMark = r.mark :=
  congrArg RxSide.mark h.side

theorem TakesIn.filled (h : TakesIn i pdMode s r) :
    (s.pd i).packetBufLen = r.buf.length := by
  have hlen := congrArg List.length h.buf
  have hroom := h.room
  rw [List.length_take] at hlen
  omega

/-- Bytes are stored behind the first `off` buffered ones, and end what
the buffer is filled with. -/
theorem TakesIn.store {off : Nat} {d : Bytes} {f : OsdpPd → OsdpPd}
    (h : TakesIn i pdMode s r) (hoff : off ≤ r.buf.length)
    (hfill : (f (s.pd i)).packetBufLen = off + d.length)
    (href : (f (s.pd i)).packetBuf = (s.pd i).packetBuf)
    (hmode : (f (s.pd i)).flags.pdMode = (s.pd i).flags.pdMode) :
    TakesIn i pdMode ((s.write (s.pd i).packetBuf off d).updPd i f)
      ⟨r.buf.take off ++ d, (f (s.pd i)).packetLen, (f (s.pd i)).rxRb,
        (f (s.pd i)).flags.pktHasMark⟩ := by
  have hfilled := h.filled
  have hroom := h.room
  have hpd : ((s.write (s.pd i).packetBuf off d).updPd i f).pd i
      = f (s.pd i) := by
    rw [updPd_pd_same, write_pd]
  have hbuf : ((s.write (s.pd i).packetBuf off d).updPd i f).buf
      (s.pd i).packetBuf
      = writeAt (s.buf (s.pd i).packetBuf) off d :=
    write_buf s (s.pd i).packetBuf off d
  have hin : off ≤ (s.buf (s.pd i).packetBuf).length := by omega
  have htake := take_writeAt (d := d) hin
  refine ⟨?_, ?_, ?_⟩
  · have hlen := congrArg List.length htake
    simp only [List.length_take, List.length_append] at hlen
    rw [hpd, href, hfill, hbuf]
    omega
  · rw [hpd, hmode, h.mode]
  · unfold Osdp.rx
    simp only [hpd]
    rw [href, hfill, hbuf, htake, ← h.buf, List.take_take,
      Nat.min_eq_left (by omega)]

/-- The PD changes, its buffer does not. -/
theorem TakesIn.upd {f : OsdpPd → OsdpPd} (h : TakesIn i pdMode s r)
    (hfill : (f (s.pd i)).packetBufLen = (s.pd i).packetBufLen)
    (href : (f (s.pd i)).packetBuf = (s.pd i).packetBuf)
    (hmode : (f (s.pd i)).flags.pdMode = (s.pd i).flags.pdMode) :
    TakesIn i pdMode (s.updPd i f)
      { r with
        len := (f (s.pd i)).packetLen
        ring := (f (s.pd i)).rxRb
        mark := (f (s.pd i)).flags.pktHasMark } := by
  have hbuf : (s.updPd i f).buf = s.buf := rfl
  refine ⟨?_, ?_, ?_⟩
  · rw [updPd_pd_same, href, hfill, hbuf]
    exact h.room
  · rw [updPd_pd_same, hmode, h.mode]
  · unfold Osdp.rx
    simp only [updPd_pd_same]
    rw [href, hfill, hbuf, h.buf]

/-- `phy_top_up` moves bytes from the ring into the buffer. -/
theorem topUp_ok (h : TakesIn i pdMode s r) (n : Nat) :
    ∃ t, phyTopUp i n s = .ok () t ∧ TakesIn i pdMode t (r.topUp n) ∧
      t.line = s.line := by
  have hstore := @TakesIn.store i pdMode s r r.buf.length (r.ring.take n)
    (fun p =>
      { p with
        rxRb := p.rxRb.drop n
        packetBufLen := p.packetBufLen + (r.ring.take n).length })
    h
    (Nat.le_refl _) (by rw [h.filled]) rfl rfl
  refine ⟨_, bind_ok.mpr ⟨_, _, getPd_ok.mpr ⟨rfl, rfl⟩,
    bind_ok.mpr ⟨_, _, writeBuf_eq _ _ _ _, updPd_ok.mpr rfl⟩⟩, ?_, ?_⟩
  · rw [h.filled, h.ring]
    rw [List.take_of_length_le (Nat.le_refl _), h.len, h.mark, h.ring]
      at hstore
    exact hstore
  · exact write_line _ _ _ _

/-- `phy_find_start`, when there is a packet start. -/
theorem findStart_some (h : TakesIn i pdMode s r) {r' : RxSide}
    (hr : r.findStart = some r') :
    ∃ t, phyFindStart i s = .ok true t ∧ TakesIn i pdMode t r' ∧
      t.line = s.line := by
  unfold RxSide.findStart at hr
  by_cases hbuf : r.buf = []
  · rw [if_neg (not_not.mpr hbuf)] at hr
    have hzero : (s.pd i).packetBufLen = 0 := by
      rw [h.filled, hbuf, List.length_nil]
    cases hscan : scanSom 0 r.ring with
    | none =>
      rw [hscan] at hr
      cases hr
    | some mr =>
      obtain ⟨m, rest⟩ := mr
      rw [hscan] at hr
      cases hr
      have hstore := @TakesIn.store i pdMode s r 0 (startBytes m)
        (fun p =>
          { p with rxRb := rest, packetBufLen := (startBytes m).length })
        h
        (Nat.zero_le _) (Nat.zero_add _).symm rfl rfl
      refine ⟨((s.write (s.pd i).packetBuf 0 (startBytes m)).updPd i fun p =>
        { p with rxRb := rest, packetBufLen := (startBytes m).length }),
        ?_, ?_, write_line _ _ _ _⟩
      · refine bind_ok.mpr ⟨_, _, getPd_ok.mpr ⟨rfl, rfl⟩, ?_⟩
        rw [if_neg (not_not.mpr hzero), h.ring, hscan]
        exact bind_ok.mpr ⟨(), _, writeBuf_eq _ _ (startBytes m) _,
          bind_ok.mpr ⟨(), _, updPd_ok.mpr rfl, rfl⟩⟩
      · rw [h.len, h.mark] at hstore
        exact hstore
  · rw [if_pos hbuf] at hr
    cases hr
    have hfull : (s.pd i).packetBufLen ≠ 0 := by
      rw [h.filled]
      exact fun hc => hbuf (List.eq_nil_of_length_eq_zero hc)
    refine ⟨s, ?_, h, rfl⟩
    refine bind_ok.mpr ⟨_, _, getPd_ok.mpr ⟨rfl, rfl⟩, ?_⟩
    rw [if_pos hfull]
    rfl

/-- `phy_find_start`, when there is none: the ring is empty then. -/
theorem findStart_none (h : TakesIn i pdMode s r)
    (hr : r.findStart = none) :
    ∃ t, phyFindStart i s = .ok false t ∧
      TakesIn i pdMode t { r with ring := [] } ∧ t.line = s.line := by
  unfold RxSide.findStart at hr
  by_cases hbuf : r.buf = []
  · rw [if_neg (not_not.mpr hbuf)] at hr
    have hzero : (s.pd i).packetBufLen = 0 := by
      rw [h.filled, hbuf, List.length_nil]
    cases hscan : scanSom 0 r.ring with
    | some mr =>
      rw [hscan] at hr
      cases hr
    | none =>
      have hupd := h.upd (f := fun p => { p with rxRb := [] }) rfl rfl rfl
      refine ⟨s.updPd i fun p => { p with rxRb := [] }, ?_, ?_, rfl⟩
      · refine bind_ok.mpr ⟨_, _, getPd_ok.mpr ⟨rfl, rfl⟩, ?_⟩
        rw [if_neg (not_not.mpr hzero), h.ring, hscan]
        exact bind_ok.mpr ⟨(), _, updPd_ok.mpr rfl, rfl⟩
      · rw [h.len, h.mark] at hupd
        exact hupd
  · rw [if_pos hbuf] at hr
    cases hr

/-- A packet start that was found is in the buffer. -/
theorem findStart_buf {r' : RxSide} (hr : r.findStart = some r') :
    r'.buf ≠ [] := by
  unfold RxSide.findStart at hr
  by_cases hbuf : r.buf = []
  · rw [if_neg (not_not.mpr hbuf)] at hr
    cases hscan : scanSom 0 r.ring with
    | none =>
      rw [hscan] at hr
      cases hr
    | some mr =>
      rw [hscan] at hr
      cases hr
      unfold startBytes
      split <;> exact List.cons_ne_nil _ _
  · rw [if_pos hbuf] at hr
    cases hr
    exact hbuf

/-- `phy_fill_header`, on a buffer that is not empty. -/
theorem fillHeader_ok (h : TakesIn i pdMode s r) (hne : r.buf ≠ []) :
    ∃ t, phyFillHeader i s = .ok () t ∧ TakesIn i pdMode t r.fillHeader ∧
      t.line = s.line := by
  have hfirst : byteAt (s.buf (s.pd i).packetBuf) 0 = byteAt r.buf 0 := by
    have hpos := List.length_pos_iff.mpr hne
    have hfilled := h.filled
    rw [← h.buf]
    unfold byteAt
    rw [List.getD_eq_getElem?_getD, List.getD_eq_getElem?_getD,
      List.getElem?_take_of_lt (by omega)]
  let need := pktHdrLen + if byteAt r.buf 0 = pktMark then 1 else 0
  by_cases hneed : r.buf.length < need
  · obtain ⟨t, ht, hr, hline⟩ := topUp_ok h (need - r.buf.length)
    refine ⟨t, ?_, hr, hline⟩
    refine bind_ok.mpr ⟨_, _, getPd_ok.mpr ⟨rfl, rfl⟩,
      bind_ok.mpr ⟨s.buf (s.pd i).packetBuf, s, rfl, ?_⟩⟩
    rw [hfirst, h.filled, if_pos hneed]
    exact ht
  · refine ⟨s, ?_, ?_, rfl⟩
    · refine bind_ok.mpr ⟨_, _, getPd_ok.mpr ⟨rfl, rfl⟩,
        bind_ok.mpr ⟨s.buf (s.pd i).packetBuf, s, rfl, ?_⟩⟩
      rw [hfirst, h.filled, if_neg hneed]
      rfl
    · have hsame : r.fillHeader = r := by
        show r.topUp (need - r.buf.length) = r
        rw [Nat.sub_eq_zero_of_le (by omega)]
        unfold RxSide.topUp
        rw [List.take_zero, List.drop_zero, List.append_nil]
      rw [hsame]
      exact h

/-- `phy_validate_header` sees the buffered bytes only. -/
theorem judgeHeader_eq (h : TakesIn i pdMode s r) :
    phyValidateHeader (s.pd i) (s.buf (s.pd i).packetBuf)
      (s.pd i).packetBufLen packetBufSize = judgeHeader pdMode r.mark r.buf := by
  have hbyte (k : Nat) (hk : k < r.buf.length) :
      byteAt (s.buf (s.pd i).packetBuf) k = byteAt r.buf k := by
    rw [← h.buf]
    unfold byteAt
    rw [List.getD_eq_getElem?_getD, List.getD_eq_getElem?_getD,
      List.getElem?_take_of_lt (by rw [h.filled]; exact hk)]
  have hdrop (b : Bytes) (n k : Nat) : byteAt (b.drop n) k = byteAt b (n + k) := by
    unfold byteAt
    rw [List.getD_eq_getElem?_getD, List.getD_eq_getElem?_getD,
      List.getElem?_drop]
  unfold judgeHeader phyValidateHeader
  rw [h.filled, h.mode, h.mark]
  by_cases hshort : r.buf.length < pktHdrLen
  · simp only [if_pos hshort]
  · simp only [if_neg hshort, hdrop]
    have h5 : 5 ≤ r.buf.length := by
      simp only [pktHdrLen] at hshort
      omega
    rw [hbyte 0 (by omega), hbyte 1 (by omega)]
    by_cases hm : (byteAt r.buf 0 == pktMark && byteAt r.buf 1 == pktSom)
      = true
    · simp only [hm, if_true]
      rw [hbyte (1 + 3) (by omega), hbyte (1 + 2) (by omega),
        hbyte (1 + 1) (by omega)]
    · simp only [hm, Bool.false_eq_true, if_false]
      rw [hbyte (0 + 3) (by omega), hbyte (0 + 2) (by omega),
        hbyte (0 + 1) (by omega)]

/-- The rest of a frame. -/
theorem complete_ok (h : TakesIn i pdMode s r) :
    ∃ t, phyComplete i s = .ok r.complete.1 t ∧
      TakesIn i pdMode t r.complete.2 ∧ t.line = s.line := by
  unfold RxSide.complete
  by_cases hlong : r.len < r.buf.length
  · rw [if_pos hlong]
    refine ⟨s, ?_, h, rfl⟩
    refine bind_ok.mpr ⟨_, _, getPd_ok.mpr ⟨rfl, rfl⟩, ?_⟩
    rw [if_pos (by rw [h.filled, h.len]; exact hlong)]
    rfl
  · rw [if_neg hlong]
    obtain ⟨t, ht, hr, hline⟩ := topUp_ok h (r.len - r.buf.length)
    refine ⟨t, ?_, hr, hline⟩
    refine bind_ok.mpr ⟨_, _, getPd_ok.mpr ⟨rfl, rfl⟩, ?_⟩
    rw [if_neg (by rw [h.filled, h.len]; exact hlong)]
    refine bind_ok.mpr ⟨(), t, ?_, ?_⟩
    · rw [h.filled, h.len]
      exact ht
    · refine bind_ok.mpr ⟨_, _, getPd_ok.mpr ⟨rfl, rfl⟩, ?_⟩
      rw [hr.filled, hr.len]
      rfl

/-- The mark flag is set. -/
theorem setMark_ok (h : TakesIn i pdMode s r) (m : Bool) :
    ∃ t, phySetMark i m s = .ok () t ∧
      TakesIn i pdMode t { r with mark := m } ∧ t.line = s.line ∧
      (t.pd i).packetBuf = (s.pd i).packetBuf := by
  have hmark := h.upd
    (f := fun p => { p with flags := { p.flags with pktHasMark := m } })
    rfl rfl rfl
  rw [h.len, h.ring] at hmark
  exact ⟨_, updPd_ok.mpr rfl, hmark, rfl, by rw [updPd_pd_same]⟩

/-- The buffer is filled anew. -/
theorem refill_ok (h : TakesIn i pdMode s r) (cur : Bytes) :
    ∃ t, updPd i (fun p => { p with packetBufLen := cur.length })
        (s.write (s.pd i).packetBuf 0 cur) = .ok () t ∧
      TakesIn i pdMode t { r with buf := cur } ∧ t.line = s.line := by
  have hstore := @TakesIn.store i pdMode s r 0 cur
    (fun p => { p with packetBufLen := cur.length }) h
    (Nat.zero_le _) (Nat.zero_add _).symm rfl rfl
  rw [h.len, h.ring, h.mark] at hstore
  exact ⟨_, updPd_ok.mpr rfl, hstore, write_line _ _ _ _⟩

/-- A header that is none is searched for another packet start. -/
theorem judgeHeader_fmt {m m' : Bool} {cur : Bytes}
    (h : TakesIn i pdMode s r)
    (hv : judgeHeader pdMode r.mark r.buf = (m, errPktFmt))
    (hc : phyRescanPacketBuf m r.buf = (cur, m')) :
    ∃ t, phyJudgeHeader i s = .ok errPktWait t ∧
      TakesIn i pdMode t { r with buf := cur, mark := m' } ∧
      t.line = s.line := by
  obtain ⟨u, hu, hur, huline, href⟩ := setMark_ok h m
  obtain ⟨v, hv', hvr, hvline⟩ := refill_ok hur cur
  obtain ⟨t, ht, htr, htline, -⟩ := setMark_ok hvr m'
  refine ⟨t, ?_, htr, by rw [htline, hvline, huline]⟩
  refine bind_ok.mpr ⟨_, _, getPd_ok.mpr ⟨rfl, rfl⟩,
    bind_ok.mpr ⟨s.buf (s.pd i).packetBuf, s, rfl, ?_⟩⟩
  rw [judgeHeader_eq h, hv]
  refine bind_ok.mpr ⟨(), u, hu, ?_⟩
  dsimp only
  rw [if_pos rfl, h.buf, hc, ← href]
  refine bind_ok.mpr ⟨(), _, writeBuf_eq _ _ _ _, ?_⟩
  refine bind_ok.mpr ⟨(), v, hv', ?_⟩
  exact bind_ok.mpr ⟨(), t, ht, rfl⟩

/-- Any other verdict is passed on. -/
theorem judgeHeader_pass {m : Bool} {ret : Int}
    (h : TakesIn i pdMode s r)
    (hv : judgeHeader pdMode r.mark r.buf = (m, ret))
    (hret : ret ≠ errPktFmt) :
    ∃ t, phyJudgeHeader i s = .ok ret t ∧
      TakesIn i pdMode t { r with mark := m } ∧ t.line = s.line := by
  obtain ⟨t, ht, htr, htline, -⟩ := setMark_ok h m
  refine ⟨t, ?_, htr, htline⟩
  refine bind_ok.mpr ⟨_, _, getPd_ok.mpr ⟨rfl, rfl⟩,
    bind_ok.mpr ⟨s.buf (s.pd i).packetBuf, s, rfl, ?_⟩⟩
  rw [judgeHeader_eq h, hv]
  refine bind_ok.mpr ⟨(), t, ht, ?_⟩
  dsimp only
  rw [if_neg hret]
  rfl

/-- The length of the frame is known. -/
theorem setLen_ok (h : TakesIn i pdMode s r) (n : Nat) :
    ∃ t, updPd i (fun p => { p with packetLen := n }) s = .ok () t ∧
      TakesIn i pdMode t { r with len := n } ∧ t.line = s.line := by
  have hlen := h.upd (f := fun p => { p with packetLen := n }) rfl rfl rfl
  rw [h.ring, h.mark] at hlen
  exact ⟨_, updPd_ok.mpr rfl, hlen, rfl⟩

/-- What is read off the line goes into the ring. -/
theorem phyReceive_takes (h : TakesIn i pdMode s r) :
    let c := channelReceive (s.line.length + 1) r.ring s.line 0
    ∃ t, phyReceive i s = .ok () t ∧
      TakesIn i pdMode t { r with ring := c.1 } ∧ t.line = c.2.1 ∧
      t.buf = s.buf := by
  intro c
  let q := ({ s with line := c.2.1 } : Osdp).updPd i fun p =>
    { p with rxRb := c.1 }
  have hrecv : osdpChannelReceive i s = .ok c.2.2 q := by
    unfold osdpChannelReceive
    rw [h.ring]
  have hring : TakesIn i pdMode q { r with ring := c.1 } := by
    have hclear : TakesIn i pdMode { s with line := c.2.1 } r :=
      ⟨h.room, h.mode, h.side⟩
    have hupd := hclear.upd (f := fun p => { p with rxRb := c.1 })
      rfl rfl rfl
    rw [hclear.len, hclear.mark] at hupd
    exact hupd
  have hstamp := hring.upd (f := fun p => { p with tstamp := s.now })
    rfl rfl rfl
  rw [hring.len, hring.ring, hring.mark] at hstamp
  have hrun (x : Osdp) (hx : (do
      let p ← getPd i
      let now ← osdpMillisNow
      if p.flags.pdMode ∧ p.packetBufLen = 0 ∧ c.2.2 > 0 then
        updPd i fun p => { p with tstamp := now }) q = .ok () x) :
      phyReceive i s = .ok () x :=
    bind_ok.mpr ⟨_, _, hrecv, hx⟩
  by_cases hnew : (q.pd i).flags.pdMode ∧ (q.pd i).packetBufLen = 0 ∧
      c.2.2 > 0
  · refine ⟨_, hrun _ ?_, hstamp, rfl, rfl⟩
    refine bind_ok.mpr ⟨q.pd i, q, rfl, bind_ok.mpr ⟨s.now, q, rfl, ?_⟩⟩
    rw [if_pos hnew]
    rfl
  · refine ⟨q, hrun _ ?_, hring, rfl, rfl⟩
    refine bind_ok.mpr ⟨q.pd i, q, rfl, bind_ok.mpr ⟨s.now, q, rfl, ?_⟩⟩
    rw [if_neg hnew]
    rfl

/-- Everything that is on the line goes into the ring, if it fits. -/
theorem phyReceive_ok (h : TakesIn i pdMode s r)
    (hfit : r.ring.length + s.line.length ≤ rxRbSize - 1) :
    ∃ t, phyReceive i s = .ok () t ∧
      TakesIn i pdMode t { r with ring := r.ring ++ s.line } ∧
      t.line = [] := by
  have hall := @channelReceive_all (s.line.length + 1) r.ring
    s.line 0 (Nat.lt_succ_self s.line.length) hfit
  obtain ⟨t, ht, htr, hline, -⟩ := phyReceive_takes h
  rw [hall] at htr hline
  exact ⟨t, ht, htr, hline⟩

/-- What follows once a packet start is in the buffer. -/
theorem takeHeader_ok (h : TakesIn i pdMode s r) :
    ∃ t, (do
        let ret ← phyJudgeHeader i
        if ret < 0 then
          return ret
        updPd i fun p => { p with packetLen := ret.toNat }
        phyComplete i) s
      = .ok (r.takeHeader pdMode).1 t ∧
      TakesIn i pdMode t (r.takeHeader pdMode).2 ∧ t.line = s.line := by
  rcases hv : judgeHeader pdMode r.mark r.buf with ⟨m, ret⟩
  unfold RxSide.takeHeader
  simp only [hv]
  by_cases hfmt : ret = errPktFmt
  · subst hfmt
    rcases hc : phyRescanPacketBuf m r.buf with ⟨cur, m'⟩
    obtain ⟨t, ht, htr, hline⟩ := judgeHeader_fmt h hv hc
    rw [if_pos rfl]
    exact ⟨t, bind_ok.mpr ⟨errPktWait, t, ht, rfl⟩, htr, hline⟩
  · rw [if_neg hfmt]
    obtain ⟨u, hu, hur, huline⟩ := judgeHeader_pass h hv hfmt
    by_cases hneg : ret < 0
    · rw [if_pos hneg]
      refine ⟨u, bind_ok.mpr ⟨ret, u, hu, ?_⟩, hur, huline⟩
      rw [if_pos hneg]
      rfl
    · rw [if_neg hneg]
      obtain ⟨v, hv', hvr, hvline⟩ := setLen_ok hur ret.toNat
      obtain ⟨t, ht, htr, htline⟩ := complete_ok hvr
      refine ⟨t, bind_ok.mpr ⟨ret, u, hu, ?_⟩, htr,
        by rw [htline, hvline, huline]⟩
      rw [if_neg hneg]
      exact bind_ok.mpr ⟨(), v, hv', ht⟩

/-- One call, short of the checks on a whole frame, is `assemble` on the
ring as the reads left it. -/
theorem assemble_takes {u : Osdp} {q : RxSide}
    (hu : phyReceive i s = .ok () u) (hur : TakesIn i pdMode u q) :
    ∃ t, phyAssemble i s = .ok (q.assemble pdMode).1 t ∧
      TakesIn i pdMode t (q.assemble pdMode).2 ∧ t.line = u.line := by
  have hrun (c : Int) (x : Osdp) (hx : (do
      let p ← getPd i
      if p.packetLen = 0 then
        let ret ← phyCheckHeader i
        if ret < 0 then
          return ret
        updPd i fun p => { p with packetLen := ret.toNat }
      phyComplete i) u = .ok c x) : phyAssemble i s = .ok c x :=
    bind_ok.mpr ⟨(), u, hu, hx⟩
  unfold RxSide.assemble
  by_cases hlen : q.len = 0
  · rw [if_pos hlen]
    cases hstart : q.findStart with
    | none =>
      obtain ⟨v, hv, hvr, hvline⟩ := findStart_none hur hstart
      refine ⟨v, hrun _ _ ?_, hvr, hvline⟩
      refine bind_ok.mpr ⟨_, _, getPd_ok.mpr ⟨rfl, rfl⟩, ?_⟩
      rw [if_pos (by rw [hur.len]; exact hlen)]
      refine bind_ok.mpr ⟨errPktNoData, v, ?_, rfl⟩
      exact bind_ok.mpr ⟨false, v, hv, rfl⟩
    | some q' =>
      obtain ⟨v, hv, hvr, hvline⟩ := findStart_some hur hstart
      obtain ⟨w, hw, hwr, hwline⟩ := fillHeader_ok hvr
        (findStart_buf hstart)
      obtain ⟨t, ht, htr, htline⟩ := takeHeader_ok hwr
      refine ⟨t, hrun _ _ ?_, htr, by rw [htline, hwline, hvline]⟩
      refine bind_ok.mpr ⟨_, _, getPd_ok.mpr ⟨rfl, rfl⟩, ?_⟩
      rw [if_pos (by rw [hur.len]; exact hlen)]
      obtain ⟨ret, x, hx, ht⟩ := bind_ok.mp ht
      refine bind_ok.mpr ⟨ret, x, ?_, ht⟩
      exact bind_ok.mpr ⟨true, v, hv, bind_ok.mpr ⟨(), w, hw, hx⟩⟩
  · rw [if_neg hlen]
    obtain ⟨t, ht, htr, htline⟩ := complete_ok hur
    refine ⟨t, hrun _ _ ?_, htr, htline⟩
    refine bind_ok.mpr ⟨_, _, getPd_ok.mpr ⟨rfl, rfl⟩, ?_⟩
    rw [if_neg (by rw [hur.len]; exact hlen)]
    exact ht

/-- One call, short of the checks on a whole frame, is `assemble` on the
bytes in the ring and on the line, if they fit the ring. -/
theorem assemble_ok (h : TakesIn i pdMode s r)
    (hfit : r.ring.length + s.line.length ≤ rxRbSize - 1) :
    ∃ t, phyAssemble i s
        = .ok (({ r with ring := r.ring ++ s.line } : RxSide).assemble
            pdMode).1 t ∧
      TakesIn i pdMode t
        (({ r with ring := r.ring ++ s.line } : RxSide).assemble pdMode).2 ∧
      t.line = [] := by
  obtain ⟨u, hu, hur, huline⟩ := phyReceive_ok h hfit
  obtain ⟨t, ht, htr, htline⟩ := assemble_takes hu hur
  exact ⟨t, ht, htr, htline.trans huline⟩

end Refinement

end LibOsdp
