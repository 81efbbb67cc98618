/-
What a receiver makes of one fragment.

# Refusals

A fragment is refused before anything of the engine changes: the checks
come first, the write next, and the engine moves on last (`Verdict`).  Only
the write can leave something behind in front of a refusal, and a copy
into a staging buffer stores nothing when it fails.

# A sender's frames

A reachable sender (`Sending`) lays out a frame in three places: with
data, without because its source has none, and idle.  `built_frame` brings
them to one form, header and then prefix and data or nothing at all.

The receiver goes by the offset: at offset 0 it expects the prefix.  The
sender goes by the data: a frame without any carries no prefix either.  So
a keep-alive in front of the first byte of a prefixed transfer is too
short to its receiver, and that is the only frame it refuses
(`mp_frames_delivered`).
-/
import LibOsdp.Engine.Proofs.Reassembly

namespace LibOsdp

open Lib

-- =============================================================== refusals

/-- `mp_buf_write`, into a buffer of `len` bytes. -/
def mpBufWrite (len : Nat) : MpSink Bytes := fun data off mem =>
  if off ≥ len ∨ data.length > len - off then (.abort, mem)
  else (.ok, writeAt mem off data)

/-- What comes of a fragment: the verdict, the engine and the memory. -/
inductive Verdict {μ : Type} (m : Multipart) (write : MpSink μ) (mem : μ) :
    MpRc × Multipart × μ → Prop
  /-- a check fails -/
  | refused : Verdict m write mem (.err, m, mem)
  /-- the sender has ended the transfer -/
  | ended (total : Nat) :
    Verdict m write mem (.earlyTerm, { m with total := total }, mem)
  /-- the hook wants the fragment again -/
  | again (data : Bytes) (off : Nat)
      (status : (write data off mem).1 = .retry) :
    Verdict m write mem (.retry, m, (write data off mem).2)
  /-- the hook fails -/
  | failed (data : Bytes) (off : Nat)
      (status : (write data off mem).1 ≠ .ok) :
    Verdict m write mem (.err, m, (write data off mem).2)
  /-- the fragment is taken -/
  | taken (rc : MpRc) (m' : Multipart) (mem' : μ)
      (rc_eq : rc = .more ∨ rc = .done) :
    Verdict m write mem (rc, m', mem')

section Refusals

variable {μ : Type} {m : Multipart} {write : MpSink μ} {mem : μ}

theorem verdict_rxTake (total off : Nat) (data : Bytes) :
    Verdict m write mem (m.rxTake total off data write mem) := by
  unfold Multipart.rxTake
  dsimp only
  generalize (if m.fresh then total else m.total) = cur
  by_cases hlong : m.tooLong cur = true
  · rw [if_pos hlong]
    exact .refused
  rw [if_neg hlong]
  by_cases hearly : off ≥ cur ∧ data.length = 0
  · rw [if_pos hearly]
    exact .ended cur
  rw [if_neg hearly]
  by_cases hgap : off > m.offset ∨ data.length > cur - off
  · rw [if_pos hgap]
    exact .refused
  rw [if_neg hgap]
  have hrc : (if data.length ≥ cur - off then MpRc.done else .more) = .more ∨
      (if data.length ≥ cur - off then MpRc.done else .more) = .done := by
    split
    · exact .inr rfl
    · exact .inl rfl
  by_cases hdata : data.length > 0
  · simp only [if_pos hdata]
    by_cases hretry : (write data off mem).1 = .retry
    · rw [if_pos hretry]
      exact .again data off hretry
    rw [if_neg hretry]
    by_cases hok : (write data off mem).1 ≠ .ok
    · rw [if_pos hok]
      exact .failed data off hok
    · rw [if_neg hok]
      exact .taken _ _ _ hrc
  · -- nothing to be written
    have hretry : ¬ MpRxStatus.ok = .retry := by decide
    have hok : ¬ MpRxStatus.ok ≠ .ok := by decide
    simp only [if_neg hdata, if_neg hretry, if_neg hok]
    exact .taken _ _ _ hrc

/-- Every fragment comes to one of these. -/
theorem verdict_rxConsumeEx (buf : Bytes) (pfxLen : Nat) :
    Verdict m write mem (m.rxConsumeEx buf pfxLen write mem) := by
  unfold Multipart.rxConsumeEx
  cases osdpMpHdrRead m.width buf with
  | none => exact .refused
  | some hdr =>
    obtain ⟨total, off, dlen⟩ := hdr
    dsimp only
    generalize mpHdrSize m.width + (if off = 0 then pfxLen else 0) = front
    by_cases hshort : buf.length < front + dlen
    · rw [if_pos hshort]
      exact .refused
    rw [if_neg hshort]
    by_cases hother : ¬ m.fresh ∧ total ≠ m.total
    · rw [if_pos hother]
      exact .refused
    · rw [if_neg hother]
      exact verdict_rxTake total off _

/-- A refusal leaves the engine as it was. -/
theorem Verdict.engine {q : MpRc × Multipart × μ}
    (h : Verdict m write mem q) (hrc : q.1 = .err ∨ q.1 = .retry) :
    q.2.1 = m := by
  cases h with
  | refused => rfl
  | ended total => rcases hrc with e | e <;> cases e
  | again data off status => rfl
  | failed data off status => rfl
  | taken rc m' mem' rc_eq =>
    have hrc : rc = .err ∨ rc = .retry := hrc
    rcases rc_eq with rfl | rfl <;> rcases hrc with e | e <;> cases e

/-- And the memory, if a write that fails does. -/
theorem Verdict.memory {q : MpRc × Multipart × μ}
    (hwrite : ∀ data off, (write data off mem).1 ≠ .ok →
      (write data off mem).2 = mem)
    (h : Verdict m write mem q) (hrc : q.1 = .err) : q.2.2 = mem := by
  cases h with
  | refused => rfl
  | ended total => cases hrc
  | again data off status => cases hrc
  | failed data off status => exact hwrite data off status
  | taken rc m' mem' rc_eq =>
    have hrc : rc = .err := hrc
    rcases rc_eq with rfl | rfl <;> cases hrc

/-- A copy that fails stores nothing. -/
theorem mpBufWrite_abort {len : Nat} {mem : Bytes} (data : Bytes)
    (off : Nat) (h : (mpBufWrite len data off mem).1 ≠ .ok) :
    (mpBufWrite len data off mem).2 = mem := by
  unfold mpBufWrite at h ⊢
  split
  · rfl
  · next hroom =>
    rw [if_neg hroom] at h
    exact absurd rfl h

end Refusals

/-- A fragment that a buffer-bound receiver refuses changes neither the
engine nor the buffer, and one that an ops-bound receiver wants again
does not change the engine. -/
theorem mp_refusal_traceless :
    (∀ (m : Multipart) (len : Nat) (mem buf : Bytes) (pfxLen : Nat),
      m.binding = .buffer len →
      (m.rxConsumeEx buf pfxLen (mpBufWrite len) mem).1 = .err →
      (m.rxConsumeEx buf pfxLen (mpBufWrite len) mem).2 = (m, mem)) ∧
    ∀ (μ : Type) (m : Multipart) (write : MpSink μ) (mem : μ) (buf : Bytes)
      (pfxLen : Nat), m.binding = .fileOps →
      (m.rxConsumeEx buf pfxLen write mem).1 = .retry →
      (m.rxConsumeEx buf pfxLen write mem).2.1 = m := by
  constructor
  · intro m len mem buf pfxLen _ hrc
    have hverdict : Verdict m (mpBufWrite len) mem
        (m.rxConsumeEx buf pfxLen (mpBufWrite len) mem) :=
      verdict_rxConsumeEx buf pfxLen
    have hengine := hverdict.engine (.inl hrc)
    have hmemory := hverdict.memory mpBufWrite_abort hrc
    exact Prod.ext hengine hmemory
  · intro μ m write mem buf pfxLen _ hrc
    have hverdict : Verdict m write mem
        (m.rxConsumeEx buf pfxLen write mem) :=
      verdict_rxConsumeEx buf pfxLen
    exact hverdict.engine (.inr hrc)

/-- A receiver of ten bytes that has committed none. -/
def emptyReceiver : Multipart :=
  { Multipart.rxInit {} .w16 0 with binding := .buffer 10 }

/-- A first fragment that starts at offset 4. -/
def gapFrame : Bytes := osdpMpHdrWrite .w16 10 4 2 ++ [0x11, 0x22]

/-- It is refused, and the length it declares is not taken up. -/
theorem mp_refusal_traceless_gap :
    (emptyReceiver.rxConsumeEx gapFrame 0 (mpBufWrite 10) (zeros 10)).1
        = .err ∧
      (emptyReceiver.rxConsumeEx gapFrame 0 (mpBufWrite 10) (zeros 10)).2
        = (emptyReceiver, zeros 10) ∧
      ({ emptyReceiver with binding := .fileOps }.rxConsumeEx
        (osdpMpHdrWrite .w16 10 0 2 ++ [0x11, 0x22]) 0
        (fun _ _ (mem : Bytes) => (.retry, mem)) []).2.1
          = { emptyReceiver with binding := .fileOps } :=
  ⟨by decide,
    mp_refusal_traceless.1 _ 10 _ gapFrame 0 rfl (by decide),
    mp_refusal_traceless.2 Bytes _ _ _ _ 0 rfl (by decide)⟩

/-- Inside a PD: a fragment refused by an engine with a staging buffer
leaves the engine and the buffer as they were. -/
theorem refusal_traceless_pd {env : Env} {i : Nat} {slot : MpSlot}
    {s t : Osdp} {len : Nat} {buf pfx : Bytes} {pfxLen : Nat}
    (hs : (s.pd i).hasMp slot)
    (hb : ((s.pd i).mp slot).binding = .buffer len)
    (h : osdpMpRxConsumeEx env i slot buf pfxLen s = .ok (.err, pfx) t) :
    (t.pd i).mp slot = (s.pd i).mp slot ∧
      (t.pd i).staging slot = (s.pd i).staging slot := by
  have hc := osdpMpRxConsumeEx_ok hs h
  have hverdict : Verdict ((s.pd i).mp slot) (mpSink env i slot) s
      (((s.pd i).mp slot).rxConsumeEx buf pfxLen (mpSink env i slot) s) :=
    verdict_rxConsumeEx buf pfxLen
  -- a copy that does not fit is not made
  have hwrite (data : Bytes) (off : Nat)
      (hno : (mpSink env i slot data off s).1 ≠ .ok) :
      (mpSink env i slot data off s).2 = s := by
    by_cases hbad : off ≥ len ∨ data.length > len - off
    · have hrun : mpWrite env i slot data off s = .ok .abort s := by
        refine bind_ok.mpr ⟨s.pd i, s, getPd_ok.mpr ⟨rfl, rfl⟩, ?_⟩
        rw [hb]
        simp only [if_pos hbad]
        rfl
      unfold mpSink
      rw [hrun]
    · have hrun : mpWrite env i slot data off s = .ok .ok (s.updPd i fun p =>
          p.setStaging slot (writeAt (p.staging slot) off data)) := by
        refine bind_ok.mpr ⟨s.pd i, s, getPd_ok.mpr ⟨rfl, rfl⟩, ?_⟩
        rw [hb]
        simp only [if_neg hbad]
        exact bind_ok.mpr ⟨(), _, updPd_ok.mpr rfl, rfl⟩
      unfold mpSink at hno
      rw [hrun] at hno
      exact absurd rfl hno
  have hrc := hc.rc.symm
  refine ⟨hc.mp.trans (hverdict.engine (.inl hrc)), ?_⟩
  rw [hc.staging, hverdict.memory hwrite hrc]

-- ========================================================= what is sent

/-- A source gives no more than it is asked for. -/
def AtMostAsked (read : MpSource) : Prop :=
  ∀ size off, (read size off).1 ≤ size

/-- The states of a sender of `total` bytes behind a prefix.  Parking,
cancelling and naming a transfer leave alone what a frame is made of. -/
inductive Sending (w : MpWidth) (total : Nat) (pfx : Bytes) :
    Multipart → Prop
  | start (m : Multipart) (some : 0 < total) :
    Sending w total pfx (m.txInit total w)
  | build (m : Multipart) (maxLen : Int) (read : MpSource)
      (source : AtMostAsked read) (before : Sending w total pfx m) :
    Sending w total pfx (m.txBuildEx maxLen pfx read).2
  | idle (m : Multipart) (before : Sending w total pfx m) :
    Sending w total pfx m.txBuildIdle.2
  | commit (m : Multipart) (before : Sending w total pfx m) :
    Sending w total pfx m.txCommit
  | aside (m m' : Multipart) (before : Sending w total pfx m)
      (same : (m'.width, m'.total, m'.offset, m'.lastLen)
        = (m.width, m.total, m.offset, m.lastLen)) :
    Sending w total pfx m'

/-- A frame that is built in this state, and the bytes of data in it. -/
inductive Built (pfx : Bytes) (m : Multipart) : Bytes → Nat → Prop
  | build (maxLen : Int) (read : MpSource) (source : AtMostAsked read)
      (frame : Bytes) (m' : Multipart)
      (built : m.txBuildEx maxLen pfx read = (some frame, m')) :
    Built pfx m frame m'.lastLen
  | idle : Built pfx m m.txBuildIdle.1 0

section Frames

variable {w : MpWidth} {total : Nat} {pfx frame : Bytes} {n : Nat}
variable {m m' : Multipart}

/-- What is left of the total when a fragment has been built. -/
theorem txBuildEx_left {maxLen : Int} {read : MpSource}
    (source : AtMostAsked read) :
    (m.txBuildEx maxLen pfx read).2.width = m.width ∧
      (m.txBuildEx maxLen pfx read).2.total = m.total ∧
      (m.txBuildEx maxLen pfx read).2.offset = m.offset ∧
      (m.txBuildEx maxLen pfx read).2.lastLen
        ≤ max m.lastLen (m.total - m.offset) := by
  unfold Multipart.txBuildEx
  dsimp only
  generalize (if m.offset = 0 then pfx else []) = skip
  by_cases hroom : maxLen - mpHdrSize m.width - skip.length < 0 ∨
      (maxLen - mpHdrSize m.width - skip.length = 0 ∧
        m.total - m.offset > 0)
  · rw [if_pos hroom]
    exact ⟨rfl, rfl, rfl, Nat.le_max_left _ _⟩
  rw [if_neg hroom]
  generalize hsize : min (maxLen - mpHdrSize m.width - skip.length).toNat
    (m.total - m.offset) = size
  have hle := source size m.offset
  by_cases hneg : (read size m.offset).1 < 0
  · rw [if_pos hneg]
    exact ⟨rfl, rfl, rfl, Nat.le_max_left _ _⟩
  rw [if_neg hneg]
  by_cases hzero : (read size m.offset).1 = 0
  · rw [if_pos hzero]
    exact ⟨rfl, rfl, rfl, Nat.zero_le _⟩
  · rw [if_neg hzero]
    refine ⟨rfl, rfl, rfl, ?_⟩
    show (read size m.offset).1.toNat ≤ max m.lastLen (m.total - m.offset)
    omega

/-- A sender stays within its total. -/
theorem Sending.inside (h : Sending w total pfx m) :
    m.width = w ∧ m.total = total ∧ m.offset + m.lastLen ≤ total := by
  induction h with
  | start m some => exact ⟨rfl, rfl, Nat.zero_le _⟩
  | build m maxLen read source before ih =>
    obtain ⟨hw, ht, hin⟩ := ih
    obtain ⟨hw', ht', ho', hl'⟩ := @txBuildEx_left pfx m maxLen read source
    refine ⟨hw'.trans hw, ht'.trans ht, ?_⟩
    rw [ho']
    omega
  | idle m before ih =>
    obtain ⟨hw, ht, hin⟩ := ih
    refine ⟨hw, ht, ?_⟩
    show m.offset + 0 ≤ total
    omega
  | commit m before ih => exact ⟨ih.1, ih.2.1, ih.2.2⟩
  | aside m m' before same ih =>
    simp only [Prod.mk.injEq] at same
    obtain ⟨hw, ht, ho, hl⟩ := same
    rw [hw, ht, ho, hl]
    exact ih

/-- The one form of a frame: a header, and behind it the prefix due at
this offset and the data, or nothing where there is no data. -/
theorem built_frame (h : Built pfx m frame n) :
    n ≤ m.total - m.offset ∧ ∃ rest : Bytes,
      frame = osdpMpHdrWrite m.width m.total m.offset n ++ rest ∧
      rest.length = if n = 0 then 0
        else (if m.offset = 0 then pfx.length else 0) + n := by
  cases h with
  | idle =>
    refine ⟨Nat.zero_le _, [], ?_, rfl⟩
    rw [List.append_nil]
    rfl
  | build maxLen read source frame m' built =>
    unfold Multipart.txBuildEx at built
    dsimp only at built
    have hskip : (if m.offset = 0 then pfx else []).length
        = if m.offset = 0 then pfx.length else 0 := by
      split <;> rfl
    generalize (if m.offset = 0 then pfx else []) = skip at built hskip
    rw [← hskip]
    by_cases hroom : maxLen - mpHdrSize m.width - skip.length < 0 ∨
        (maxLen - mpHdrSize m.width - skip.length = 0 ∧
          m.total - m.offset > 0)
    · rw [if_pos hroom] at built
      cases built
    rw [if_neg hroom] at built
    generalize hsize : min (maxLen - mpHdrSize m.width - skip.length).toNat
      (m.total - m.offset) = size at built
    have hle := source size m.offset
    by_cases hneg : (read size m.offset).1 < 0
    · rw [if_pos hneg] at built
      cases built
    rw [if_neg hneg] at built
    by_cases hzero : (read size m.offset).1 = 0
    · rw [if_pos hzero] at built
      cases built
      refine ⟨Nat.zero_le _, [], ?_, rfl⟩
      rw [List.append_nil]
    · rw [if_neg hzero] at built
      cases built
      dsimp only
      generalize hk : (read size m.offset).1.toNat = k
      have hpos : ¬ k = 0 := by omega
      refine ⟨by omega, _, List.append_assoc _ _ _, ?_⟩
      rw [if_neg hpos, List.length_append, List.length_take,
        List.length_append, zeros, List.length_replicate]
      omega

end Frames

-- ======================================================= what is received

/-- A receiver of the same transfer that stands where its sender does: its
length is that of the sender or not fixed yet, and its buffer, if it has
one, has room for it. -/
structure Awaits (m r : Multipart) : Prop where
  width : r.width = m.width
  offset : r.offset = m.offset
  total : r.fresh ∨ r.total = m.total
  room : r.tooLong m.total = false

/-- A sink takes whatever lies within the total. -/
def TakesWithin {μ : Type} (total : Nat) (write : MpSink μ) : Prop :=
  ∀ data off mem, 0 < data.length → off + data.length ≤ total →
    (write data off mem).1 = .ok

/-- A keep-alive moves nothing: no byte is stored, and of the engine it
changes no more than the note of the frame that came last, with the length
that frame declares. -/
structure Unmoved {μ : Type} (total : Nat) (r : Multipart) (mem : μ)
    (q : MpRc × Multipart × μ) : Prop where
  engine : q.2.1 = { r with
    total := total, lastOff := q.2.1.lastOff, lastLen := q.2.1.lastLen }
  note : q.2.1.lastLen = 0 ∨ q.2.1.lastLen = r.lastLen
  memory : q.2.2 = mem

/-- The frame is taken for what it is: data for data, a keep-alive for
one. -/
def TakenAsSent {μ : Type} (total n : Nat) (r : Multipart) (mem : μ)
    (q : MpRc × Multipart × μ) : Prop :=
  if n = 0 then q.1 ≠ .err ∧ Unmoved total r mem q
  else q.1 = .more ∨ q.1 = .done

section Delivery

variable {μ : Type} {m r : Multipart} {write : MpSink μ} {mem : μ}

/-- A fragment without data, its lengths in order. -/
theorem rxTake_empty (hr : Awaits m r) :
    (r.rxTake m.total m.offset [] write mem).1 ≠ .err ∧
      Unmoved m.total r mem (r.rxTake m.total m.offset [] write mem) := by
  have hcur : (if r.fresh then m.total else r.total) = m.total := by
    split
    · rfl
    · next hno => exact hr.total.resolve_left hno
  unfold Multipart.rxTake
  dsimp only
  rw [hcur, hr.room, ← hr.offset]
  by_cases hend : r.offset ≥ m.total ∧ ([] : Bytes).length = 0
  · rw [if_neg Bool.false_ne_true, if_pos hend]
    have hrc : MpRc.earlyTerm ≠ .err := by decide
    exact ⟨hrc, ⟨rfl, .inr rfl, rfl⟩⟩
  · have hgap : ¬ (r.offset > r.offset ∨
        ([] : Bytes).length > m.total - r.offset) := by
      rw [List.length_nil]
      omega
    have hzero : ¬ ([] : Bytes).length > 0 := Nat.lt_irrefl 0
    have hretry : ¬ MpRxStatus.ok = .retry := by decide
    have hok : ¬ MpRxStatus.ok ≠ .ok := by decide
    rw [if_neg Bool.false_ne_true, if_neg hend, if_neg hgap]
    simp only [if_neg hzero, if_neg hretry, if_neg hok]
    refine ⟨?_, ⟨rfl, .inl rfl, rfl⟩⟩
    split <;> decide

/-- A fragment of a count of bytes that fits: what of them its header
tells of is taken. -/
theorem rxTake_data (hr : Awaits m r) (hsink : TakesWithin m.total write)
    (hin : m.offset < m.total) {data : Bytes}
    (hlen : data.length ≤ m.total - m.offset) :
    (r.rxTake m.total m.offset data write mem).1 = .more ∨
      (r.rxTake m.total m.offset data write mem).1 = .done := by
  have hcur : (if r.fresh then m.total else r.total) = m.total := by
    split
    · rfl
    · next hno => exact hr.total.resolve_left hno
  have hstored : (if data.length > 0 then write data m.offset mem
      else (.ok, mem)).1 = .ok := by
    split
    · next hpos => exact hsink data m.offset mem hpos (by omega)
    · rfl
  unfold Multipart.rxTake
  dsimp only
  rw [hcur, hr.room, hr.offset]
  have hend : ¬ (m.offset ≥ m.total ∧ data.length = 0) := by omega
  have hgap : ¬ (m.offset > m.offset ∨
      data.length > m.total - m.offset) := by omega
  rw [if_neg Bool.false_ne_true, if_neg hend, if_neg hgap, hstored,
    if_neg (by decide), if_neg (by decide)]
  dsimp only
  split
  · exact .inr rfl
  · exact .inl rfl

end Delivery

/-- Every frame of a sender is taken for what it is by a receiver that
stands where the sender does, but one kind: a keep-alive in front of the
first byte of a transfer with a prefix. -/
theorem mp_frames_delivered {μ : Type} (w : MpWidth) (total : Nat)
    (pfx frame : Bytes) (n : Nat) (m r : Multipart) (write : MpSink μ)
    (mem : μ) (hfits : total < 256 ^ mpWide w)
    (hsending : Sending w total pfx m) (hbuilt : Built pfx m frame n)
    (hr : Awaits m r) (hsink : TakesWithin total write) :
    TakenAsSent total n r mem (r.rxConsumeEx frame pfx.length write mem) ↔
      ¬ (n = 0 ∧ m.offset = 0 ∧ pfx ≠ []) := by
  obtain ⟨hw, rfl, hin⟩ := hsending.inside
  obtain ⟨hn, rest, rfl, hrest⟩ := built_frame hbuilt
  have hoff : m.offset ≤ m.total := by omega
  have hread : osdpMpHdrRead r.width
      (osdpMpHdrWrite m.width m.total m.offset n ++ rest)
        = some (m.total, m.offset, n % 65536) := by
    rw [hr.width, hw]
    exact osdpMpHdrRead_write hfits (Nat.lt_of_le_of_lt hoff hfits) n rest
  have hlen : (osdpMpHdrWrite m.width m.total m.offset n ++ rest).length
      = mpHdrSize m.width + rest.length := by
    rw [List.length_append, length_osdpMpHdrWrite]
  have hagree : ¬ (¬ r.fresh ∧ m.total ≠ r.total) := by
    rintro ⟨hno, hne⟩
    exact hne (hr.total.resolve_left hno).symm
  unfold Multipart.rxConsumeEx
  rw [hread]
  dsimp only
  rw [hlen, hr.width, if_neg hagree]
  by_cases hzero : n = 0
  · subst hzero
    rw [if_pos rfl] at hrest
    have hmod : 0 % 65536 = 0 := rfl
    rw [hrest, hmod, List.take_zero]
    unfold TakenAsSent
    rw [if_pos rfl]
    by_cases hfirst : m.offset = 0 ∧ pfx ≠ []
    · -- the receiver misses the prefix
      have hpos : 0 < pfx.length := List.length_pos_of_ne_nil hfirst.2
      have hshort : mpHdrSize m.width + 0 <
          mpHdrSize m.width + (if m.offset = 0 then pfx.length else 0)
            + 0 := by
        rw [if_pos hfirst.1]
        omega
      rw [if_pos hshort]
      exact ⟨fun h => absurd rfl h.1,
        fun h => absurd ⟨rfl, hfirst⟩ h⟩
    · have hskip : (if m.offset = 0 then pfx.length else 0) = 0 := by
        by_cases hzero : m.offset = 0
        · have hnil : pfx = [] :=
            Decidable.byContradiction fun hne => hfirst ⟨hzero, hne⟩
          rw [if_pos hzero, hnil, List.length_nil]
        · rw [if_neg hzero]
      rw [hskip, if_neg (by omega)]
      exact ⟨fun _ h => hfirst h.2, fun _ => rxTake_empty hr⟩
  · rw [if_neg hzero] at hrest
    have hmod : n % 65536 ≤ n := Nat.mod_le n 65536
    have hlong : ¬ mpHdrSize m.width + rest.length <
        mpHdrSize m.width + (if m.offset = 0 then pfx.length else 0)
          + n % 65536 := by
      rw [hrest]
      omega
    unfold TakenAsSent
    rw [if_neg hzero, if_neg hlong]
    refine ⟨fun _ h => hzero h.1, fun _ => ?_⟩
    refine rxTake_data hr hsink (by omega) ?_
    rw [List.length_take]
    omega

/-- A copy into a buffer takes what lies in it. -/
theorem mpBufWrite_within (len : Nat) :
    TakesWithin len (mpBufWrite len) := by
  intro data off mem hpos hin
  unfold mpBufWrite
  rw [if_neg (by omega)]

/-- A transfer of three bytes of which nothing was sent yet. -/
def freshSender : Multipart := Multipart.txInit {} 3 .w16

/-- A receiver for it. -/
def freshReceiver : Multipart :=
  { Multipart.rxInit {} .w16 0 with binding := .buffer 3 }

theorem freshReceiver_awaits : Awaits freshSender freshReceiver :=
  ⟨rfl, rfl, .inl ⟨rfl, rfl, rfl⟩, rfl⟩

/-- Two of the bytes behind a prefix of one are taken. -/
theorem mp_frames_delivered_first :
    TakenAsSent 3 2 freshReceiver (zeros 3)
      (freshReceiver.rxConsumeEx
        (osdpMpHdrWrite .w16 3 0 2 ++ [9] ++ [1, 2]) 1 (mpBufWrite 3)
        (zeros 3)) := by
  have hsource : AtMostAsked (wholeSource [1, 2, 3]) :=
    fun size _ => Int.le_refl size
  have hbuilt : Built [9] freshSender
      (osdpMpHdrWrite .w16 3 0 2 ++ [9] ++ [1, 2]) 2 :=
    .build 9 (wholeSource [1, 2, 3]) hsource _
      { freshSender with lastLen := 2 } rfl
  exact (mp_frames_delivered .w16 3 [9] _ 2 freshSender freshReceiver
    (mpBufWrite 3) (zeros 3) (by decide) (.start {} (by decide)) hbuilt
    freshReceiver_awaits (mpBufWrite_within 3)).mpr (by decide)

/-- A keep-alive in front of them is not: the receiver takes a frame at
offset 0 to carry the prefix. -/
theorem mp_keepAlive_refused :
    Sending .w16 3 [9] freshSender ∧
      Built [9] freshSender freshSender.txBuildIdle.1 0 ∧
      Awaits freshSender freshReceiver ∧ TakesWithin 3 (mpBufWrite 3) ∧
      (freshReceiver.rxConsumeEx freshSender.txBuildIdle.1 1
        (mpBufWrite 3) (zeros 3)).1 = .err ∧
      ¬ TakenAsSent 3 0 freshReceiver (zeros 3)
        (freshReceiver.rxConsumeEx freshSender.txBuildIdle.1 1
          (mpBufWrite 3) (zeros 3)) := by
  have hrefused : (freshReceiver.rxConsumeEx freshSender.txBuildIdle.1 1
      (mpBufWrite 3) (zeros 3)).1 = .err := by decide
  exact ⟨.start {} (by decide), .idle, freshReceiver_awaits,
    mpBufWrite_within 3, hrefused, fun h => h.1 hrefused⟩

end LibOsdp
