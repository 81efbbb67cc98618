/-
Two multi-part engines on the ends of a channel.

The sender builds fragments of a payload, of whatever size its limits and
its source allow, and each of them may be delivered once, again, later or
never (`Link.Step`).  The sender commits a fragment when the receiver has
taken and committed it; that is what the acknowledgements and replies of
the protocols above the engines come to.

# The refinement

A fragment is a slice of the payload behind a header that says which
(`fragmentOf`), and the receiver reads the slice back off the header
(`osdpMpHdrRead_write`).  So a link is a `Transfer` in other clothes
(`Refines`, `refines_step`), and what holds of a transfer holds of it.

# The width of DATA_LEN

It is 16 bits in either header.  Behind a 16-bit TOTAL no fragment is
longer than that; behind a 32-bit one the limit has to see to it.  A
fragment of 65536 bytes says it has none: the receiver takes it for a
keep-alive, and the sender is ahead of it from then on.
-/
import LibOsdp.Engine.Fragment
import LibOsdp.Lib.Transfer

namespace LibOsdp

open Lib

-- ================================================================ headers

theorem length_osdpMpHdrWrite (w : MpWidth) (total off dlen : Nat) :
    (osdpMpHdrWrite w total off dlen).length = mpHdrSize w := by
  cases w <;> simp [osdpMpHdrWrite, mpHdrSize, mpWide]

/-- A header is read back as it was written, with the data length cut to
its field. -/
theorem osdpMpHdrRead_write {w : MpWidth} {total off : Nat}
    (htotal : total < 256 ^ mpWide w) (hoff : off < 256 ^ mpWide w)
    (dlen : Nat) (rest : Bytes) :
    osdpMpHdrRead w (osdpMpHdrWrite w total off dlen ++ rest)
      = some (total, off, dlen % 65536) := by
  have hlen : ¬ (osdpMpHdrWrite w total off dlen ++ rest).length
      < mpHdrSize w := by
    rw [List.length_append, length_osdpMpHdrWrite]
    omega
  have hdrop (n v : Nat) (l : Bytes) : (writeLe n v ++ l).drop n = l := by
    exact List.drop_left' (length_writeLe n v)
  unfold osdpMpHdrRead
  rw [if_neg hlen]
  unfold osdpMpHdrWrite
  have hsnd : (writeLe (mpWide w) total ++ writeLe (mpWide w) off ++
      writeLe 2 dlen ++ rest).drop (mpWide w)
        = writeLe (mpWide w) off ++ (writeLe 2 dlen ++ rest) := by
    simp only [List.append_assoc, hdrop]
  have hthd : (writeLe (mpWide w) total ++ writeLe (mpWide w) off ++
      writeLe 2 dlen ++ rest).drop (2 * mpWide w)
        = writeLe 2 dlen ++ rest := by
    rw [Nat.two_mul, ← List.drop_drop, hsnd, hdrop]
  simp only [hsnd, hthd]
  rw [List.append_assoc, List.append_assoc, readLe_writeLe_of_lt htotal,
    readLe_writeLe_of_lt hoff, readLe_writeLe]
  rfl

-- ============================================================== fragments

section Fragments

variable (payload pfx : Bytes) (w : MpWidth)

/-- The bytes of a slice. -/
def sliceOf (x : Slice) : Bytes := (payload.drop x.off).take x.len

/-- The fragment that carries a slice: a prefix goes with the first one,
and nothing but the header with an empty one. -/
def fragmentOf (x : Slice) : Bytes :=
  osdpMpHdrWrite w payload.length x.off x.len ++
    if x.len = 0 then []
    else (if x.off = 0 then pfx else []) ++ sliceOf payload x

/-- A slice of the payload whose header says what it is. -/
structure Fits (x : Slice) : Prop where
  inside : x.stop ≤ payload.length
  short : x.len < 65536

variable {payload pfx w} {x : Slice}

theorem length_sliceOf (h : x.stop ≤ payload.length) :
    (sliceOf payload x).length = x.len := by
  have h : x.off + x.len ≤ payload.length := h
  unfold sliceOf
  rw [List.length_take, List.length_drop]
  omega

theorem hdrRead_fragmentOf (hw : payload.length < 256 ^ mpWide w)
    (h : Fits payload x) :
    osdpMpHdrRead w (fragmentOf payload pfx w x)
      = some (payload.length, x.off, x.len) := by
  have hoff : x.off < 256 ^ mpWide w := by
    have hstop : x.off + x.len ≤ payload.length := h.inside
    omega
  unfold fragmentOf
  rw [osdpMpHdrRead_write hw hoff, Nat.mod_eq_of_lt h.short]

/-- A slice's bytes are the payload's. -/
theorem getElem?_sliceOf {k : Nat} {b : UInt8} (hoff : x.off ≤ k)
    (h : (sliceOf payload x)[k - x.off]? = some b) :
    payload[k]? = some b := by
  unfold sliceOf at h
  rw [List.getElem?_take] at h
  split at h
  · rw [List.getElem?_drop, Nat.add_sub_cancel' hoff] at h
    exact h
  · cases h

end Fragments

-- ================================================================ the link

/-- Two engines and the channel between them. -/
structure Link where
  tx : Multipart
  rx : Multipart
  /-- the fragment the sender built last -/
  built : Option Bytes
  /-- every fragment it has built -/
  net : List Bytes
  /-- the fragment the receiver took last and has not committed -/
  held : Option Bytes
  /-- every fragment it has committed -/
  acked : List Bytes
  mem : Cells UInt8

/-- A source of the payload: any count up to what is asked for, and that
many of its bytes. -/
def SourceOf (payload : Bytes) (read : MpSource) : Prop :=
  ∀ size off, off + size ≤ payload.length →
    0 ≤ (read size off).1 ∧ (read size off).1 ≤ size ∧
      (read size off).2.take (read size off).1.toNat
        = sliceOf payload ⟨off, (read size off).1.toNat⟩

/-- A sink stores bytes where they belong, all of them if it says so. -/
def SinkOf (write : MpSink (Cells UInt8)) : Prop :=
  ∀ data off mem,
    (∀ k, (write data off mem).2 k = mem k ∨
      off ≤ k ∧ data[k - off]? = some ((write data off mem).2 k)) ∧
    ((write data off mem).1 = .ok → ∀ k, off ≤ k → k < off + data.length →
      data[k - off]? = some ((write data off mem).2 k))

/-- A step of either side, and the verdict where it is the receiver's on a
fragment.  `ok` says how many bytes a fragment may carry. -/
inductive Link.Step (payload pfx : Bytes) (ok : Nat → Prop) :
    Link → Option MpRc → Link → Prop where
  | build (s : Link) (maxLen : Int) (read : MpSource) (frame : Bytes)
      (m : Multipart) (source : SourceOf payload read)
      (built : s.tx.txBuildEx maxLen pfx read = (some frame, m))
      (limit : ok m.lastLen) :
      Step payload pfx ok s none
        { s with tx := m, built := some frame, net := frame :: s.net }
  | idle (s : Link) :
      Step payload pfx ok s none
        { s with
          tx := s.tx.txBuildIdle.2
          built := some s.tx.txBuildIdle.1
          net := s.tx.txBuildIdle.1 :: s.net }
  | commit (s : Link)
      (ack : s.tx.lastLen = 0 ∨ ∃ f, s.built = some f ∧ f ∈ s.acked) :
      Step payload pfx ok s none { s with tx := s.tx.txCommit }
  | consume (s : Link) (frame : Bytes) (write : MpSink (Cells UInt8))
      (rc : MpRc) (m : Multipart) (mem : Cells UInt8)
      (flight : frame ∈ s.net) (sink : SinkOf write)
      (consumed : s.rx.rxConsumeEx frame pfx.length write s.mem
        = (rc, m, mem)) :
      Step payload pfx ok s (some rc)
        { s with
          rx := m, mem := mem
          held := if rc = .more ∨ rc = .done then some frame else s.held }
  | rxCommit (s : Link) :
      Step payload pfx ok s none
        { s with
          rx := s.rx.rxCommit
          held := none
          acked := s.held.toList ++ s.acked }

/-- Both engines set up, the receiver with a total of which it has been
told, or zero. -/
structure Link.Start (payload : Bytes) (w : MpWidth) (hint : Nat)
    (s : Link) : Prop where
  tx : ∃ m, s.tx = Multipart.txInit m payload.length w
  rx : ∃ m, s.rx = Multipart.rxInit m w hint
  built : s.built = none
  net : s.net = []
  held : s.held = none
  acked : s.acked = []

-- ============================================================= one fragment

section Consume

variable {payload pfx : Bytes} {w : MpWidth} {x : Slice}
variable {m m' : Multipart} {mem mem' : Cells UInt8} {rc : MpRc}
variable {write : MpSink (Cells UInt8)}

/-- What a sink does with a slice's bytes. -/
theorem SinkOf.fills (h : SinkOf write) (mem : Cells UInt8) :
    Fills payload mem (write (sliceOf payload x) x.off mem).2 := by
  intro k
  rcases (h (sliceOf payload x) x.off mem).1 k with e | ⟨hoff, e⟩
  · exact .inl e
  · exact .inr (getElem?_sliceOf hoff e)

theorem SinkOf.written (h : SinkOf write) (hx : x.stop ≤ payload.length)
    (hok : (write (sliceOf payload x) x.off mem).1 = .ok) :
    Filled payload (write (sliceOf payload x) x.off mem).2 x.off x.len := by
  intro k hlo hhi
  have hk := (h (sliceOf payload x) x.off mem).2 hok k hlo
  rw [length_sliceOf hx] at hk
  exact getElem?_sliceOf hlo (hk hhi)

/-- What the receiver makes of the fragment of a slice. -/
inductive Takes (payload : Bytes) (x : Slice) (m : Multipart)
    (mem : Cells UInt8) : MpRc → Multipart → Cells UInt8 → Prop where
  | refused (rc : MpRc) (mem' : Cells UInt8) (fills : Fills payload mem mem')
      (rc_ne : ¬ (rc = .more ∨ rc = .done)) :
      Takes payload x m mem rc m mem'
  | ended : Takes payload x m mem .earlyTerm
      { m with total := payload.length } mem
  | taken (rc : MpRc) (mem' : Cells UInt8) (gapless : x.off ≤ m.offset)
      (fills : Fills payload mem mem')
      (written : Filled payload mem' x.off x.len)
      (rc_eq : rc = .more ∨ rc = .done)
      (whole : rc = .done → payload.length ≤ x.stop) :
      Takes payload x m mem rc
        { m with
          total := payload.length, lastOff := x.off, lastLen := x.len } mem'

theorem takes_of_rxTake (hx : x.stop ≤ payload.length) (hs : SinkOf write)
    (hfix : m.fresh ∨ m.total = payload.length)
    (h : m.rxTake payload.length x.off (sliceOf payload x) write mem
      = (rc, m', mem')) :
    Takes payload x m mem rc m' mem' := by
  have hcur : (if m.fresh then payload.length else m.total)
      = payload.length := by
    split
    · rfl
    · next hno => exact hfix.resolve_left hno
  unfold Multipart.rxTake at h
  rw [hcur, length_sliceOf hx] at h
  simp only at h
  split at h
  · cases h
    exact .refused _ _ (.refl _ _) (by decide)
  split at h
  · cases h
    exact .ended
  split at h
  · cases h
    exact .refused _ _ (.refl _ _) (by decide)
  next hgap =>
  -- what the write came to, if there was one
  have hstored : Fills payload mem (if x.len > 0 then
        write (sliceOf payload x) x.off mem else (.ok, mem)).2 ∧
      ((if x.len > 0 then write (sliceOf payload x) x.off mem
        else (.ok, mem)).1 = .ok →
        Filled payload (if x.len > 0 then
          write (sliceOf payload x) x.off mem else (.ok, mem)).2
          x.off x.len) := by
    split
    · exact ⟨hs.fills mem, hs.written hx⟩
    · next hzero =>
      have hz : x.len = 0 := by omega
      rw [hz]
      exact ⟨.refl _ _, fun _ => .nil _ _ _⟩
  generalize (if x.len > 0 then write (sliceOf payload x) x.off mem
    else (.ok, mem)) = stored at h hstored
  split at h
  · cases h
    exact .refused _ _ hstored.1 (by decide)
  split at h
  · cases h
    exact .refused _ _ hstored.1 (by decide)
  next hok =>
  cases h
  refine .taken _ _ (by omega) hstored.1 (hstored.2 (not_not.mp hok)) ?_ ?_
  · split
    · exact .inr rfl
    · exact .inl rfl
  · intro hdone
    split at hdone
    · next hlen =>
      show payload.length ≤ x.off + x.len
      omega
    · cases hdone

theorem takes_of_consume (hw : payload.length < 256 ^ mpWide w)
    (hx : Fits payload x) (hs : SinkOf write) (hm : m.width = w)
    (h : m.rxConsumeEx (fragmentOf payload pfx w x) pfx.length write mem
      = (rc, m', mem')) :
    Takes payload x m mem rc m' mem' := by
  unfold Multipart.rxConsumeEx at h
  rw [hm, hdrRead_fragmentOf hw hx] at h
  simp only at h
  generalize hskip : (if x.off = 0 then pfx.length else 0) = skip at h
  split at h
  · cases h
    exact .refused _ _ (.refl _ _) (by decide)
  next hlong =>
  split at h
  · cases h
    exact .refused _ _ (.refl _ _) (by decide)
  next hfix =>
  have hfix : m.fresh ∨ m.total = payload.length := by
    by_cases hf : m.fresh
    · exact .inl hf
    · refine .inr (Decidable.byContradiction fun hne => hfix ⟨hf, ?_⟩)
      exact fun e => hne e.symm
  -- the data behind header and prefix are the slice
  have hdata : ((fragmentOf payload pfx w x).drop
      (mpHdrSize w + skip)).take x.len = sliceOf payload x := by
    by_cases hz : x.len = 0
    · unfold sliceOf
      rw [hz, List.take_zero, List.take_zero]
    · unfold fragmentOf
      rw [if_neg hz, ← List.append_assoc, List.drop_left']
      · rw [List.take_of_length_le]
        exact Nat.le_of_eq (length_sliceOf hx.inside)
      · rw [List.length_append, length_osdpMpHdrWrite, ← hskip]
        split <;> rfl
  rw [hdata] at h
  exact takes_of_rxTake hx.inside hs hfix h

end Consume

-- ============================================================ the refinement

/-- What the sender builds is the fragment of a slice at its offset. -/
theorem txBuildEx_some {payload pfx frame : Bytes} {m m' : Multipart}
    {maxLen : Int} {read : MpSource} (hread : SourceOf payload read)
    (htotal : m.total = payload.length) (hoff : m.offset ≤ payload.length)
    (h : m.txBuildEx maxLen pfx read = (some frame, m')) :
    ∃ n, m.offset + n ≤ payload.length ∧
      frame = fragmentOf payload pfx m.width ⟨m.offset, n⟩ ∧
      m'.lastLen = n ∧ m'.offset = m.offset ∧ m'.total = m.total ∧
      m'.width = m.width := by
  unfold Multipart.txBuildEx at h
  simp only at h
  generalize hskip : (if m.offset = 0 then pfx else []) = skip at h
  split at h
  · cases h
  generalize hsize : min (maxLen - mpHdrSize m.width - skip.length).toNat
    (m.total - m.offset) = size at h
  have hroom : m.offset + size ≤ payload.length := by
    rw [← hsize, htotal]
    omega
  obtain ⟨hpos, hle, hdata⟩ := hread size m.offset hroom
  split at h
  · cases h
  split at h
  · cases h
    refine ⟨0, hoff, ?_, rfl, rfl, rfl, rfl⟩
    show osdpMpHdrWrite m.width m.total m.offset 0 =
      osdpMpHdrWrite m.width payload.length m.offset 0 ++ []
    rw [List.append_nil, htotal]
  · next hneg hzero =>
    cases h
    have hn : m.offset + (read size m.offset).1.toNat ≤ payload.length := by
      omega
    refine ⟨_, hn, ?_, rfl, rfl, rfl, rfl⟩
    have hlen : (read size m.offset).1.toNat
        ≤ (read size m.offset).2.length := by
      have e := congrArg List.length hdata
      have hstop : Slice.stop ⟨m.offset, (read size m.offset).1.toNat⟩
          ≤ payload.length := hn
      rw [List.length_take, length_sliceOf hstop] at e
      exact Nat.le_trans (Nat.le_of_eq e.symm) (Nat.min_le_right _ _)
    unfold fragmentOf
    have hne : ¬ (read size m.offset).1.toNat = 0 := by omega
    rw [if_neg hne, List.take_append_of_le_length hlen, hdata, htotal,
      List.append_assoc, ← hskip]

/-- A link as a transfer. -/
structure Refines (payload pfx : Bytes) (w : MpWidth) (s : Link)
    (a : Transfer UInt8) : Prop where
  sent : a.sent = s.tx.offset
  last : a.last = s.tx.lastLen
  got : a.got = s.rx.offset
  held : a.held = ⟨s.rx.lastOff, s.rx.lastLen⟩
  mem : a.mem = s.mem
  txTotal : s.tx.total = payload.length
  txWidth : s.tx.width = w
  rxTotal : s.rx.total = payload.length ∨
    s.rx.offset = 0 ∧ s.rx.lastLen = 0
  rxWidth : s.rx.width = w
  short : ∀ x, a.offered x → x.len < 65536
  built : s.tx.lastLen ≠ 0 →
    s.built = some (fragmentOf payload pfx w ⟨s.tx.offset, s.tx.lastLen⟩) ∧
      a.offered ⟨s.tx.offset, s.tx.lastLen⟩
  net : ∀ f ∈ s.net, ∃ x, a.offered x ∧ f = fragmentOf payload pfx w x
  heldFrame : ∀ f, s.held = some f → osdpMpHdrRead w f
    = some (payload.length, s.rx.lastOff, s.rx.lastLen)
  acked : ∀ f ∈ s.acked, ∃ x : Slice,
    osdpMpHdrRead w f = some (payload.length, x.off, x.len) ∧ a.acked x

section Refinement

variable {payload pfx : Bytes} {w : MpWidth} {hint : Nat}
variable {ok : Nat → Prop} {s t : Link} {a : Transfer UInt8}
variable {rc : Option MpRc}

/-- The transfer a link starts as. -/
def startOf (s : Link) : Transfer UInt8 where
  sent := 0
  last := 0
  offered _ := False
  got := 0
  held := ⟨0, 0⟩
  acked _ := False
  mem := s.mem

theorem Link.Start.refines (pfx : Bytes) (h : s.Start payload w hint) :
    (startOf s).Fresh ∧ Refines payload pfx w s (startOf s) := by
  obtain ⟨m, hm⟩ := h.tx
  obtain ⟨m', hm'⟩ := h.rx
  refine ⟨⟨rfl, rfl, rfl, rfl, fun _ h => h, fun _ h => h⟩, ?_⟩
  constructor
  · rw [hm]; rfl
  · rw [hm]; rfl
  · rw [hm']; rfl
  · rw [hm']; rfl
  · rfl
  · rw [hm]; rfl
  · rw [hm]; rfl
  · rw [hm']; exact .inr ⟨rfl, rfl⟩
  · rw [hm']; rfl
  · exact fun _ h => h.elim
  · rw [hm]; exact fun h => (h rfl).elim
  · rw [h.net]; exact fun _ h => (List.not_mem_nil h).elim
  · rw [h.held]; exact fun _ h => by cases h
  · rw [h.acked]; exact fun _ h => (List.not_mem_nil h).elim

/-- The sender offers a slice with every fragment it builds. -/
theorem refines_offer {m : Multipart} {frame : Bytes} {n : Nat}
    (hr : Refines payload pfx w s a) (hn : n < 65536)
    (hframe : frame = fragmentOf payload pfx w ⟨s.tx.offset, n⟩)
    (hlast : m.lastLen = n) (hoff : m.offset = s.tx.offset)
    (htotal : m.total = s.tx.total) (hwidth : m.width = s.tx.width) :
    Refines payload pfx w
      { s with tx := m, built := some frame, net := frame :: s.net }
      { a with
        last := n, offered := fun x => x = ⟨a.sent, n⟩ ∨ a.offered x } := by
  have hsent : a.sent = m.offset := hr.sent.trans hoff.symm
  refine
    { hr with
      sent := hsent, last := hlast.symm
      txTotal := htotal.trans hr.txTotal, txWidth := hwidth.trans hr.txWidth
      short := fun x hx => ?_, built := fun _ => ?_, net := fun f hf => ?_ }
  · rcases hx with rfl | hx
    · exact hn
    · exact hr.short x hx
  · rw [hlast, hoff]
    exact ⟨congrArg some hframe, .inl (by rw [hr.sent])⟩
  · rcases List.mem_cons.mp hf with rfl | hf
    · exact ⟨⟨a.sent, n⟩, .inl rfl, by rw [hr.sent]; exact hframe⟩
    · obtain ⟨x, hx, e⟩ := hr.net f hf
      exact ⟨x, .inr hx, e⟩

/-- A slice that is in flight. -/
theorem Refines.fits (hr : Refines payload pfx w s a)
    (hi : a.Inv payload) {x : Slice} (hx : a.offered x) : Fits payload x :=
  ⟨hi.offered x hx, hr.short x hx⟩

/-- What a step of the link comes to. -/
structure StepsTo (payload pfx : Bytes) (w : MpWidth) (a : Transfer UInt8)
    (t : Link) (rc : Option MpRc) (b : Transfer UInt8) : Prop where
  step : b = a ∨ Transfer.Step payload a b
  refines : Refines payload pfx w t b
  done : rc = some .done →
    t.rx.total = payload.length ∧ payload.length ≤ b.held.stop

/-- The receiver's steps on a fragment. -/
theorem refines_consume {frame : Bytes} {write : MpSink (Cells UInt8)}
    {rc : MpRc} {m : Multipart} {mem : Cells UInt8}
    (hw : payload.length < 256 ^ mpWide w)
    (hr : Refines payload pfx w s a) (hi : a.Inv payload)
    (hflight : frame ∈ s.net) (hs : SinkOf write)
    (h : s.rx.rxConsumeEx frame pfx.length write s.mem = (rc, m, mem)) :
    ∃ b, StepsTo payload pfx w a
      { s with
        rx := m, mem := mem
        held := if rc = .more ∨ rc = .done then some frame else s.held }
      (some rc) b := by
  obtain ⟨x, hx, rfl⟩ := hr.net frame hflight
  have hfits := hr.fits hi hx
  have htakes := takes_of_consume hw hfits hs hr.rxWidth h
  have hmem := hr.mem
  cases htakes with
  | refused _ _ fills rc_ne =>
    refine ⟨{ a with mem := mem }, .inr (.refuse a mem (hmem ▸ fills)), ?_,
      fun e => ?_⟩
    · rw [if_neg rc_ne]
      exact { hr with mem := rfl }
    · cases e
      exact (rc_ne (.inr rfl)).elim
  | ended =>
    refine ⟨a, .inl rfl, ?_, fun e => by cases e⟩
    rw [if_neg (by decide)]
    exact { hr with rxTotal := .inl rfl }
  | taken _ _ gapless fills written rc_eq whole =>
    refine ⟨{ a with held := x, mem := mem },
      .inr (.take a x mem hx (hr.got ▸ gapless) (hmem ▸ fills) written), ?_,
      fun e => ?_⟩
    · rw [if_pos rc_eq]
      refine
        { hr with
          held := rfl, mem := rfl, rxTotal := .inl rfl
          heldFrame := fun f hf => ?_ }
      cases hf
      exact hdrRead_fragmentOf hw hfits
    · cases e
      exact ⟨rfl, whole rfl⟩

/-- Every step of the link is one of the transfer, or none. -/
theorem refines_step (hw : payload.length < 256 ^ mpWide w)
    (hok : w = .w16 ∨ ∀ n, ok n → n < 65536)
    (hr : Refines payload pfx w s a) (hi : a.Inv payload)
    (h : Link.Step payload pfx ok s rc t) :
    ∃ b, StepsTo payload pfx w a t rc b := by
  have hoff : s.tx.offset ≤ payload.length := by
    rw [← hr.sent]
    exact Nat.le_trans hi.behind hi.bounded
  cases h with
  | build maxLen read frame m source built limit =>
    obtain ⟨n, hn, hframe, hlast, hmo, hmt, hmw⟩ :=
      txBuildEx_some source hr.txTotal hoff built
    have hshort : n < 65536 := by
      rcases hok with rfl | hok
      · have h16 : payload.length < 65536 := hw
        omega
      · exact hok n (hlast ▸ limit)
    rw [hr.txWidth] at hframe
    exact ⟨_, .inr (.offer a n (hr.sent ▸ hn)),
      refines_offer hr hshort hframe hlast hmo hmt hmw, fun e => by cases e⟩
  | idle =>
    have hframe : s.tx.txBuildIdle.1
        = fragmentOf payload pfx w ⟨s.tx.offset, 0⟩ := by
      show osdpMpHdrWrite s.tx.width s.tx.total s.tx.offset 0 =
        osdpMpHdrWrite w payload.length s.tx.offset 0 ++ []
      rw [List.append_nil, hr.txWidth, hr.txTotal]
    exact ⟨_, .inr (.offer a 0 (hr.sent ▸ hoff)),
      refines_offer hr (by decide) hframe rfl rfl rfl rfl,
      fun e => by cases e⟩
  | commit ack =>
    have hack : a.last = 0 ∨ a.acked ⟨a.sent, a.last⟩ := by
      rw [hr.last, hr.sent]
      by_cases hz : s.tx.lastLen = 0
      · exact .inl hz
      · obtain ⟨f, hf, hmem⟩ := ack.resolve_left hz
        obtain ⟨hbuilt, hoffered⟩ := hr.built hz
        obtain ⟨x, hread, hx⟩ := hr.acked f hmem
        have e : f = fragmentOf payload pfx w
            ⟨s.tx.offset, s.tx.lastLen⟩ := by
          rw [hf] at hbuilt
          exact Option.some.inj hbuilt
        rw [e, hdrRead_fragmentOf hw (hr.fits hi hoffered)] at hread
        simp only [Option.some.injEq, Prod.mk.injEq, true_and] at hread
        rw [hread.1, hread.2]
        exact .inr hx
    refine ⟨_, .inr (.commit a hack), ?_, fun e => by cases e⟩
    refine
      { hr with
        sent := ?_, last := rfl, built := fun h => (h rfl).elim }
    show a.sent + a.last = s.tx.offset + s.tx.lastLen
    rw [hr.sent, hr.last]
  | consume frame write rc m mem flight sink consumed =>
    exact refines_consume hw hr hi flight sink consumed
  | rxCommit =>
    refine ⟨_, .inr (.ack a), ?_, fun e => by cases e⟩
    refine
      { hr with
        got := ?_, held := ?_, rxTotal := ?_, heldFrame := fun f hf => ?_
        acked := fun f hf => ?_ }
    · show max a.got a.held.stop
        = max s.rx.offset (s.rx.lastOff + s.rx.lastLen)
      rw [hr.got, hr.held]
      rfl
    · show (⟨a.held.off, 0⟩ : Slice) = ⟨s.rx.lastOff, 0⟩
      rw [hr.held]
    · rcases hr.rxTotal with e | ⟨e, e'⟩
      · exact .inl e
      · refine .inr ⟨?_, rfl⟩
        have hgap := hi.gapless
        rw [hr.held, hr.got, e] at hgap
        have hgap : s.rx.lastOff ≤ 0 := hgap
        show max s.rx.offset (s.rx.lastOff + s.rx.lastLen) = 0
        omega
    · cases hf
    · rcases List.mem_append.mp hf with hf | hf
      · have hheld : s.held = some f := Option.mem_toList.mp hf
        exact ⟨a.held, by rw [hr.held]; exact hr.heldFrame f hheld, .inl rfl⟩
      · obtain ⟨x, hread, hx⟩ := hr.acked f hf
        exact ⟨x, hread, .inr hx⟩

-- =============================================================== results

/-- A run of the link. -/
abbrev Link.Run (payload pfx : Bytes) (ok : Nat → Prop) :
    Link → Link → Prop :=
  Relation.ReflTransGen fun s t => ∃ rc, Link.Step payload pfx ok s rc t

/-- A run of the link is one of a transfer. -/
theorem refines_run {s₀ : Link} (hw : payload.length < 256 ^ mpWide w)
    (hok : w = .w16 ∨ ∀ n, ok n → n < 65536)
    (hstart : s₀.Start payload w hint) (hrun : Link.Run payload pfx ok s₀ s) :
    ∃ a, a.Inv payload ∧ Refines payload pfx w s a := by
  induction hrun with
  | refl =>
    obtain ⟨hfresh, hr⟩ := hstart.refines pfx
    exact ⟨_, hfresh.inv, hr⟩
  | tail _ hstep ih =>
    obtain ⟨a, hi, hr⟩ := ih
    obtain ⟨rc, hstep⟩ := hstep
    obtain ⟨b, hb⟩ := refines_step hw hok hr hi hstep
    refine ⟨b, ?_, hb.refines⟩
    rcases hb.step with rfl | h
    · exact hi
    · exact hi.step h

/-- Where the two ends stand: what the receiver has committed is the
payload's, within its total, and the sender has committed no more. -/
structure Link.Sound (payload : Bytes) (s : Link) : Prop where
  committed : ∀ k < s.rx.offset, payload[k]? = some (s.mem k)
  bounded : s.rx.offset ≤ s.rx.total
  within : s.tx.offset ≤ s.tx.total
  behind : s.tx.offset ≤ s.rx.offset

/-- What a step does to the two ends: neither goes back, and the receiver
says DONE only with the whole payload written. -/
structure Link.Advances (payload : Bytes) (s t : Link) (rc : Option MpRc) :
    Prop where
  rx : s.rx.offset ≤ t.rx.offset
  tx : s.tx.offset ≤ t.tx.offset
  done : rc = some .done → t.rx.total = payload.length ∧
    ∀ k < payload.length, payload[k]? = some (t.mem k)

theorem Refines.sound (hr : Refines payload pfx w s a)
    (hi : a.Inv payload) : s.Sound payload where
  committed k hk := by
    have h := hi.committed k (Nat.zero_le k)
      (by rw [Nat.zero_add, hr.got]; exact hk)
    rwa [hr.mem] at h
  bounded := by
    rcases hr.rxTotal with e | ⟨e, -⟩
    · rw [e, ← hr.got]
      exact hi.bounded
    · rw [e]
      exact Nat.zero_le _
  within := by
    rw [hr.txTotal, ← hr.sent]
    exact Nat.le_trans hi.behind hi.bounded
  behind := by
    rw [← hr.sent, ← hr.got]
    exact hi.behind

theorem StepsTo.advances {b : Transfer UInt8}
    (hr : Refines payload pfx w s a) (hi : a.Inv payload)
    (h : StepsTo payload pfx w a t rc b) : s.Advances payload t rc := by
  have hmove : a.sent ≤ b.sent ∧ a.got ≤ b.got := by
    rcases h.step with rfl | h
    · exact ⟨Nat.le_refl _, Nat.le_refl _⟩
    · exact h.forward
  have hib : b.Inv payload := by
    rcases h.step with rfl | h
    · exact hi
    · exact hi.step h
  refine ⟨?_, ?_, fun e => ?_⟩
  · rw [← hr.got, ← h.refines.got]
    exact hmove.2
  · rw [← hr.sent, ← h.refines.sent]
    exact hmove.1
  · obtain ⟨htotal, hend⟩ := h.done e
    refine ⟨htotal, fun k hk => ?_⟩
    have hwhole := hib.whole hend k (Nat.zero_le k)
      (by rw [Nat.zero_add]; exact hk)
    rwa [h.refines.mem] at hwhole

end Refinement

/-- However fragments are built, delivered, lost, repeated and sent again,
as long as none carries more than DATA_LEN can say: the receiver's bytes up
to its offset are the payload's, its offset stays within its total and never
goes back, the sender's never passes it, and DONE is said only when the
whole payload is written. -/
theorem mp_reassembly (w : MpWidth) (payload pfx : Bytes) (hint : Nat)
    (ok : Nat → Prop) (s₀ s : Link)
    (hfits : payload.length < 256 ^ mpWide w)
    (hok : w = .w16 ∨ ∀ n, ok n → n < 65536)
    (hstart : s₀.Start payload w hint)
    (hrun : Link.Run payload pfx ok s₀ s) :
    s.Sound payload ∧
      ∀ rc t, Link.Step payload pfx ok s rc t → s.Advances payload t rc := by
  obtain ⟨a, hi, hr⟩ := refines_run hfits hok hstart hrun
  refine ⟨hr.sound hi, fun rc t hstep => ?_⟩
  obtain ⟨b, hb⟩ := refines_step hfits hok hr hi hstep
  exact hb.advances hr hi

-- ========================================================= concrete ends

/-- A source that gives all that is asked for. -/
def wholeSource (payload : Bytes) : MpSource :=
  fun size off => (size, sliceOf payload ⟨off, size⟩)

theorem sourceOf_wholeSource (payload : Bytes) :
    SourceOf payload (wholeSource payload) := by
  intro size off h
  have hlen : (sliceOf payload ⟨off, size⟩).length = size := length_sliceOf h
  refine ⟨Int.natCast_nonneg size, Int.le_refl _, ?_⟩
  show (sliceOf payload ⟨off, size⟩).take (size : Int).toNat
    = sliceOf payload ⟨off, (size : Int).toNat⟩
  rw [Int.toNat_natCast, List.take_of_length_le (Nat.le_of_eq hlen)]

/-- A memory that takes all it is given. -/
def wholeSink : MpSink (Cells UInt8) := fun data off mem =>
  (.ok, fun k =>
    if off ≤ k ∧ k < off + data.length then data.getD (k - off) 0
    else mem k)

theorem sinkOf_wholeSink : SinkOf wholeSink := by
  intro data off mem
  have hin (k : Nat) (hlo : off ≤ k) (hhi : k < off + data.length) :
      data[k - off]? = some ((wholeSink data off mem).2 k) := by
    have hk : k - off < data.length := by omega
    show data[k - off]? = some (if off ≤ k ∧ k < off + data.length then
      data.getD (k - off) 0 else mem k)
    rw [if_pos ⟨hlo, hhi⟩, List.getD_eq_getElem?_getD,
      List.getElem?_eq_getElem hk]
    rfl
  refine ⟨fun k => ?_, fun _ => hin⟩
  by_cases h : off ≤ k ∧ k < off + data.length
  · exact .inr ⟨h.1, hin k h.1 h.2⟩
  · exact .inl (if_neg h)

/-- A link that has just been set up, with no hint to the receiver. -/
def linkFor (payload : Bytes) (w : MpWidth) : Link where
  tx := Multipart.txInit {} payload.length w
  rx := Multipart.rxInit {} w 0
  built := none
  net := []
  held := none
  acked := []
  mem := fun _ => 0

theorem linkFor_start (payload : Bytes) (w : MpWidth) :
    (linkFor payload w).Start payload w 0 :=
  ⟨⟨{}, rfl⟩, ⟨{}, rfl⟩, rfl, rfl, rfl, rfl⟩

/-- Two bytes of three behind their prefix: taken, committed on both sides,
and delivered once more. -/
theorem mp_reassembly_fragment :
    ∃ s, Link.Run [1, 2, 3] [9] (fun n => n < 65536)
        (linkFor [1, 2, 3] .w16) s ∧
      (s.tx.offset = 2 ∧ s.rx.offset = 2 ∧ s.rx.lastLen = 2) ∧
      s.Sound [1, 2, 3] := by
  have hbuild := @Link.Step.build [1, 2, 3] [9] (fun n => n < 65536)
    (linkFor [1, 2, 3] .w16) 9 (wholeSource [1, 2, 3]) _ _
    (sourceOf_wholeSource _) rfl (by decide)
  have hrun : ∃ s, Link.Run [1, 2, 3] [9] (fun n => n < 65536)
      (linkFor [1, 2, 3] .w16) s ∧
      (s.tx.offset = 2 ∧ s.rx.offset = 2 ∧ s.rx.lastLen = 2) := by
    refine ⟨_, .head ⟨_, hbuild⟩ (.head ⟨_, .consume _ _ wholeSink .more _ _
      List.mem_cons_self sinkOf_wholeSink rfl⟩ (.head ⟨_, .rxCommit _⟩
      (.head ⟨_, .commit _ (.inr ⟨_, rfl, List.mem_cons_self⟩)⟩
      (.single ⟨_, .consume _ _ wholeSink .more _ _
      List.mem_cons_self sinkOf_wholeSink rfl⟩)))), rfl, rfl, rfl⟩
  obtain ⟨s, hrun, hat⟩ := hrun
  exact ⟨s, hrun, hat, (mp_reassembly .w16 [1, 2, 3] [9] 0 _ _ s (by decide)
    (.inl rfl) (linkFor_start _ _) hrun).1⟩

/-- A payload sent in one fragment whose length is cut to nothing: the
receiver takes the fragment and commits nothing, the sender commits it
all. -/
theorem truncated_run (payload : Bytes) (hpos : 0 < payload.length)
    (hcut : payload.length % 65536 = 0)
    (hfits : payload.length < 256 ^ mpWide .w32) :
    ∃ s, Link.Run payload [] (fun _ => True) (linkFor payload .w32) s ∧
      s.tx.offset = payload.length ∧ s.rx.offset = 0 := by
  generalize hn : payload.length = n at hpos hcut hfits ⊢
  have hbuild : (linkFor payload .w32).tx.txBuildEx ((n : Int) + 10) []
        (wholeSource payload)
      = (some (osdpMpHdrWrite .w32 n 0 n ++
          (sliceOf payload ⟨0, n⟩ ++ zeros n).take n),
        { (linkFor payload .w32).tx with
          lastLen := n, state := .inprog }) := by
    have hne : n ≠ 0 := by omega
    have hneg : ¬ (n : Int) < 0 := by omega
    simp [Multipart.txBuildEx, linkFor, Multipart.txInit, mpHdrSize, hn,
      wholeSource, hne, hneg]
  generalize (sliceOf payload ⟨0, n⟩ ++ zeros n).take n = data at hbuild
  have hread : osdpMpHdrRead .w32 (osdpMpHdrWrite .w32 n 0 n ++ data)
      = some (n, 0, 0) := by
    rw [osdpMpHdrRead_write hfits (by decide), hcut]
  have hconsume : (linkFor payload .w32).rx.rxConsumeEx
        (osdpMpHdrWrite .w32 n 0 n ++ data) 0 wholeSink
        (linkFor payload .w32).mem
      = (.more,
        { (linkFor payload .w32).rx with
          total := n, lastOff := 0, lastLen := 0 },
        (linkFor payload .w32).mem) := by
    have hlong : ¬ (osdpMpHdrWrite .w32 n 0 n ++ data).length
        < mpHdrSize .w32 := by
      rw [List.length_append, length_osdpMpHdrWrite]
      omega
    have hwidth : (linkFor payload .w32).rx.width = .w32 := rfl
    have hpos' : ¬ n ≤ 0 := by omega
    unfold Multipart.rxConsumeEx
    rw [hwidth, hread]
    simp only [if_pos, Nat.add_zero]
    rw [if_neg hlong]
    simp [Multipart.rxTake, linkFor, Multipart.rxInit, Multipart.tooLong,
      hpos']
  exact ⟨_, .head ⟨_, .build _ _ _ _ _ (sourceOf_wholeSource payload) hbuild
    trivial⟩ (.head ⟨_, .consume _ _ wholeSink .more _ _
    List.mem_cons_self sinkOf_wholeSink hconsume⟩ (.head ⟨_, .rxCommit _⟩
    (.single ⟨_, .commit _ (.inr ⟨_, rfl, List.mem_cons_self⟩)⟩))),
    Nat.zero_add n, rfl⟩

/-- With no bound on what a fragment carries, one of 65536 bytes puts the
sender ahead of the receiver. -/
theorem mp_truncated_length :
    ∃ s, Link.Run (List.replicate 65536 0) [] (fun _ => True)
        (linkFor (List.replicate 65536 0) .w32) s ∧
      (s.tx.offset = 65536 ∧ s.rx.offset = 0) ∧
      ¬ s.Sound (List.replicate 65536 0) := by
  have hlen : (List.replicate 65536 (0 : UInt8)).length = 65536 :=
    List.length_replicate
  obtain ⟨s, hrun, htx, hrx⟩ := truncated_run (List.replicate 65536 0)
    (by rw [hlen]; decide) (by rw [hlen]) (by rw [hlen]; decide)
  rw [hlen] at htx
  refine ⟨s, hrun, ⟨htx, hrx⟩, fun hs => ?_⟩
  have hbehind := hs.behind
  rw [htx, hrx] at hbehind
  omega

-- ====================================================== staging buffers

section Buffer

variable {env : Env} {i : Nat} {slot : MpSlot} {s : Osdp} {len : Nat}

/-- `mp_buf_read`. -/
theorem mpSource_buffer (hb : ((s.pd i).mp slot).binding = .buffer len)
    (size off : Nat) :
    mpSource env i slot s size off =
      if off ≥ len then (0, [])
      else (((min size (len - off) : Nat) : Int),
        (((s.pd i).staging slot).drop off).take (min size (len - off))) := by
  have hrun : mpRead env i slot size off s =
      .ok (if off ≥ len then (0, [])
        else (((min size (len - off) : Nat) : Int),
          (((s.pd i).staging slot).drop off).take
            (min size (len - off)))) s := by
    refine bind_ok.mpr ⟨s.pd i, s, getPd_ok.mpr ⟨rfl, rfl⟩, ?_⟩
    rw [hb]
    by_cases h : off ≥ len
    · simp only [if_pos h]
      rfl
    · simp only [if_neg h]
      rfl
  unfold mpSource
  rw [hrun]

/-- The staging buffer of an engine is a source of what it holds. -/
theorem sourceOf_buffer {total : Nat}
    (hb : ((s.pd i).mp slot).binding = .buffer len) (htotal : total ≤ len) :
    SourceOf (((s.pd i).staging slot).take total)
      (mpSource env i slot s) := by
  intro size off hroom
  rw [List.length_take] at hroom
  rw [mpSource_buffer hb]
  split
  · refine ⟨Int.le_refl _, Int.natCast_nonneg size, rfl⟩
  · next hoff =>
    have hmin : min size (len - off) = size := by omega
    rw [hmin]
    refine ⟨Int.natCast_nonneg size, Int.le_refl _, ?_⟩
    show ((((s.pd i).staging slot).drop off).take size).take
        (size : Int).toNat
      = ((((s.pd i).staging slot).take total).drop off).take
        (size : Int).toNat
    rw [Int.toNat_natCast, List.take_take, Nat.min_self, List.drop_take,
      List.take_take]
    congr 1
    omega

theorem staging_setStaging {p : OsdpPd} (hs : p.hasMp slot)
    (hslot : slot ≠ .file) (d : Bytes) :
    (p.setStaging slot d).staging slot = d := by
  cases slot with
  | file => exact (hslot rfl).elim
  | piv =>
    obtain ⟨v, hv⟩ := Option.isSome_iff_exists.mp hs
    simp [OsdpPd.setStaging, OsdpPd.staging, hv]
  | bio =>
    obtain ⟨v, hv⟩ := Option.isSome_iff_exists.mp hs
    simp [OsdpPd.setStaging, OsdpPd.staging, hv]

/-- The cells of a staging buffer. -/
def cellsOf (slot : MpSlot) (p : OsdpPd) : Cells UInt8 :=
  fun k => (p.staging slot).getD k 0

/-- `mp_buf_write`, on the cells of a buffer of `len` bytes. -/
def bufferSink (len : Nat) : MpSink (Cells UInt8) := fun data off mem =>
  if off ≥ len ∨ data.length > len - off then (.abort, mem)
  else wholeSink data off mem

theorem sinkOf_bufferSink (len : Nat) : SinkOf (bufferSink len) := by
  intro data off mem
  unfold bufferSink
  split
  · exact ⟨fun _ => .inl rfl, fun e => by cases e⟩
  · exact sinkOf_wholeSink data off mem

/-- The write hook of a staging buffer. -/
theorem mpSink_buffer (hs : (s.pd i).hasMp slot) (hslot : slot ≠ .file)
    (hb : ((s.pd i).mp slot).binding = .buffer len)
    (hlen : ((s.pd i).staging slot).length = len) (data : Bytes)
    (off : Nat) :
    ((mpSink env i slot data off s).1,
        cellsOf slot ((mpSink env i slot data off s).2.pd i))
      = bufferSink len data off (cellsOf slot (s.pd i)) := by
  unfold bufferSink
  by_cases hbad : off ≥ len ∨ data.length > len - off
  · -- nothing is stored
    have hsink : mpSink env i slot data off s = (.abort, s) := by
      have hrun : mpWrite env i slot data off s = .ok .abort s := by
        refine bind_ok.mpr ⟨s.pd i, s, getPd_ok.mpr ⟨rfl, rfl⟩, ?_⟩
        rw [hb]
        simp only [if_pos hbad]
        rfl
      unfold mpSink
      rw [hrun]
    rw [hsink, if_pos hbad]
  · have hroom : off + data.length ≤ ((s.pd i).staging slot).length := by
      rw [hlen]
      omega
    have hsink : mpSink env i slot data off s = (.ok, s.updPd i fun p =>
        p.setStaging slot (writeAt (p.staging slot) off data)) := by
      have hrun : mpWrite env i slot data off s = .ok .ok (s.updPd i fun p =>
          p.setStaging slot (writeAt (p.staging slot) off data)) := by
        refine bind_ok.mpr ⟨s.pd i, s, getPd_ok.mpr ⟨rfl, rfl⟩, ?_⟩
        rw [hb]
        simp only [if_neg hbad]
        exact bind_ok.mpr ⟨(), _, updPd_ok.mpr rfl, rfl⟩
      unfold mpSink
      rw [hrun]
    rw [hsink, if_neg hbad]
    refine congrArg (Prod.mk MpRxStatus.ok) (funext fun k => ?_)
    unfold cellsOf
    rw [updPd_pd_same, staging_setStaging hs hslot,
      List.getD_eq_getElem?_getD, getElem?_writeAt hroom]
    split
    · rw [← List.getD_eq_getElem?_getD]
    · rw [← List.getD_eq_getElem?_getD]

/-- A fragment consumed with one memory or with what is seen of it. -/
theorem rxConsumeEx_map {μ ν : Type} {f : μ → ν} {write : MpSink μ}
    {write' : MpSink ν} {mem : μ} (m : Multipart) (buf : Bytes)
    (pfxLen : Nat)
    (h : ∀ data off, ((write data off mem).1, f (write data off mem).2)
      = write' data off (f mem)) :
    m.rxConsumeEx buf pfxLen write' (f mem) =
      ((m.rxConsumeEx buf pfxLen write mem).1,
        (m.rxConsumeEx buf pfxLen write mem).2.1,
        f (m.rxConsumeEx buf pfxLen write mem).2.2) := by
  unfold Multipart.rxConsumeEx Multipart.rxTake
  cases osdpMpHdrRead m.width buf with
  | none => rfl
  | some hdr =>
    simp only [← h]
    grind

/-- In a PD whose engine has a staging buffer, a fragment is consumed as on
the link. -/
theorem consumed_buffer {buf : Bytes} {pfxLen : Nat} {r : MpRc × Bytes}
    {t : Osdp} (hs : (s.pd i).hasMp slot) (hslot : slot ≠ .file)
    (hb : ((s.pd i).mp slot).binding = .buffer len)
    (hlen : ((s.pd i).staging slot).length = len)
    (h : osdpMpRxConsumeEx env i slot buf pfxLen s = .ok r t) :
    ((s.pd i).mp slot).rxConsumeEx buf pfxLen (bufferSink len)
        (cellsOf slot (s.pd i))
      = (r.1, (t.pd i).mp slot, cellsOf slot (t.pd i)) := by
  have hc := osdpMpRxConsumeEx_ok hs h
  have hmap := @rxConsumeEx_map Osdp (Cells UInt8)
    (fun u => cellsOf slot (u.pd i)) (mpSink env i slot) (bufferSink len) s
    ((s.pd i).mp slot) buf pfxLen (mpSink_buffer hs hslot hb hlen)
  rw [hmap, hc.rc, hc.mp]
  unfold cellsOf
  rw [hc.staging]

end Buffer

end LibOsdp
