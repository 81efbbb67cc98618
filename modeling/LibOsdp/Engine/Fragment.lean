/-
The multi-part engine by itself: what `osdp_mp_tx_*` and `osdp_mp_rx_*`
do to a `struct osdp_multipart`, with the data plane as a parameter.

`Multipart.lean` has these functions as they run inside a PD, where a hook
may be the application's file operations or a copy into a staging buffer
and a commit may raise a notification.  Here a hook is a function, so that
two engines can be put on the ends of a channel without the PDs around
them.  The theorems at the end say that the functions are the same.
-/
import LibOsdp.Common.Frame
import LibOsdp.Engine.Multipart

namespace LibOsdp

open Lib

-- ================================================================== hooks

/-- The read hook: the byte count for a size and an offset, and the
bytes. -/
abbrev MpSource := Nat → Nat → Int × Bytes

/-- The write hook: the status for bytes and an offset, and what became of
the memory behind it. -/
abbrev MpSink (μ : Type) := Bytes → Nat → μ → MpRxStatus × μ

namespace Multipart

-- ================================================================ sending

/-- `osdp_mp_tx_init`, of a total that is not zero. -/
def txInit (m : Multipart) (total : Nat) (w : MpWidth) : Multipart :=
  { m with
    width := w, total := total, offset := 0, lastLen := 0
    startEmitted := false, state := .inprog }

/-- `osdp_mp_tx_build_ex`. -/
def txBuildEx (m : Multipart) (maxLen : Int) (pfx : Bytes)
    (read : MpSource) : Option Bytes × Multipart :=
  let skip := if m.offset = 0 then pfx else []
  let avail := maxLen - mpHdrSize m.width - skip.length
  let remaining := m.total - m.offset
  if avail < 0 ∨ (avail = 0 ∧ remaining > 0) then (none, m)
  else
    let got := read (min avail.toNat remaining) m.offset
    if got.1 < 0 then (none, m)
    else if got.1 = 0 then
      (some (osdpMpHdrWrite m.width m.total m.offset 0),
        { m with lastLen := 0, state := .wait })
    else
      let n := got.1.toNat
      (some (osdpMpHdrWrite m.width m.total m.offset n ++ skip ++
          (got.2 ++ zeros n).take n),
        { m with lastLen := n, state := .inprog })

/-- `osdp_mp_tx_build_idle`. -/
def txBuildIdle (m : Multipart) : Bytes × Multipart :=
  (osdpMpHdrWrite m.width m.total m.offset 0, { m with lastLen := 0 })

/-- `osdp_mp_tx_commit`, up to the notification. -/
def txCommit (m : Multipart) : Multipart :=
  { m with offset := m.offset + m.lastLen, lastLen := 0 }

-- ============================================================== receiving

/-- `osdp_mp_rx_init`. -/
def rxInit (m : Multipart) (w : MpWidth) (total : Nat) : Multipart :=
  { m with
    width := w, total := total, offset := 0, lastLen := 0, lastOff := 0
    startEmitted := false, state := .inprog }

/-- No frame has fixed the length yet. -/
abbrev fresh (m : Multipart) : Prop :=
  m.offset = 0 ∧ m.lastLen = 0 ∧ m.total = 0

/-- A buffer-bound engine takes no more than the buffer holds. -/
def tooLong (m : Multipart) (total : Nat) : Bool :=
  match m.binding with
  | .buffer len => decide (total > len)
  | _ => false

/-- What `osdp_mp_rx_consume_ex` does with a fragment whose header and
lengths are in order. -/
def rxTake {μ : Type} (m : Multipart) (total off : Nat) (data : Bytes)
    (write : MpSink μ) (mem : μ) : MpRc × Multipart × μ :=
  let curTotal := if m.fresh then total else m.total
  let dlen := data.length
  if m.tooLong curTotal then (.err, m, mem)
  else if off ≥ curTotal ∧ dlen = 0 then
    (.earlyTerm, { m with total := curTotal }, mem)
  else if off > m.offset ∨ dlen > curTotal - off then (.err, m, mem)
  else
    let stored := if dlen > 0 then write data off mem else (.ok, mem)
    if stored.1 = .retry then (.retry, m, stored.2)
    else if stored.1 ≠ .ok then (.err, m, stored.2)
    else
      (if dlen ≥ curTotal - off then .done else .more,
        { m with total := curTotal, lastOff := off, lastLen := dlen },
        stored.2)

/-- `osdp_mp_rx_consume_ex`: the verdict, the engine and the memory. -/
def rxConsumeEx {μ : Type} (m : Multipart) (buf : Bytes) (pfxLen : Nat)
    (write : MpSink μ) (mem : μ) : MpRc × Multipart × μ :=
  match osdpMpHdrRead m.width buf with
  | none => (.err, m, mem)
  | some (total, off, dlen) =>
    let hdr := mpHdrSize m.width
    let skip := if off = 0 then pfxLen else 0
    if buf.length < hdr + skip + dlen then (.err, m, mem)
    else if ¬ m.fresh ∧ total ≠ m.total then (.err, m, mem)
    else
      m.rxTake total off ((buf.drop (hdr + skip)).take dlen) write mem

/-- `osdp_mp_rx_commit`, up to the notification. -/
def rxCommit (m : Multipart) : Multipart :=
  { m with offset := max m.offset (m.lastOff + m.lastLen), lastLen := 0 }

end Multipart

-- ============================================================ within a PD

/-- The PD has the engine of the slot. -/
def OsdpPd.hasMp (p : OsdpPd) : MpSlot → Prop
  | .file => p.file.isSome = true
  | .piv => p.piv.isSome = true
  | .bio => p.bio.isSome = true

theorem mp_setMp {p : OsdpPd} {slot : MpSlot} (h : p.hasMp slot)
    (m : Multipart) : (p.setMp slot m).mp slot = m := by
  cases slot with
  | file =>
    obtain ⟨f, hf⟩ := Option.isSome_iff_exists.mp h
    simp [OsdpPd.setMp, OsdpPd.mp, hf]
  | piv =>
    obtain ⟨f, hf⟩ := Option.isSome_iff_exists.mp h
    simp [OsdpPd.setMp, OsdpPd.mp, hf]
  | bio =>
    obtain ⟨f, hf⟩ := Option.isSome_iff_exists.mp h
    simp [OsdpPd.setMp, OsdpPd.mp, hf]

section Same

variable {env : Env} {i : Nat} {slot : MpSlot} {s t : Osdp}

theorem getMp_ok {m : Multipart} :
    getMp i slot s = .ok m t ↔ (s.pd i).mp slot = m ∧ s = t := by
  unfold getMp
  constructor
  · intro h
    obtain ⟨p, u, hp, h⟩ := bind_ok.mp h
    obtain ⟨rfl, rfl⟩ := getPd_ok.mp hp
    obtain ⟨rfl, rfl⟩ := pure_ok.mp h
    exact ⟨rfl, rfl⟩
  · rintro ⟨rfl, rfl⟩
    rfl

theorem updMp_ok {f : Multipart → Multipart} {a : Unit}
    (h : updMp i slot f s = .ok a t) (hs : (s.pd i).hasMp slot) :
    (t.pd i).mp slot = f ((s.pd i).mp slot) := by
  rw [← updPd_ok.mp h, updPd_pd_same, mp_setMp hs]

/-- The read hook of a slot, as a function. -/
def mpSource (env : Env) (i : Nat) (slot : MpSlot) (s : Osdp) : MpSource :=
  fun size off =>
    match mpRead env i slot size off s with
    | .ok r _ => r
    | .error _ _ => (-1, [])

/-- The write hook of a slot, as a function. -/
def mpSink (env : Env) (i : Nat) (slot : MpSlot) : MpSink Osdp :=
  fun data off s =>
    match mpWrite env i slot data off s with
    | .ok st t => (st, t)
    | .error _ t => (.abort, t)

/-- Reading leaves the engines as they are. -/
theorem mpRead_pd {size off : Nat} {r : Int × Bytes}
    (h : mpRead env i slot size off s = .ok r t) : t.pd = s.pd := by
  obtain ⟨p, u, hp, h⟩ := bind_ok.mp h
  obtain ⟨rfl, rfl⟩ := getPd_ok.mp hp
  cases hb : ((s.pd i).mp slot).binding with
  | unbound =>
    rw [hb] at h
    exact absurd h throw_ok
  | fileOps =>
    rw [hb] at h
    obtain ⟨s', v, hg, h⟩ := bind_ok.mp h
    obtain ⟨rfl, rfl⟩ := get_ok.mp hg
    obtain ⟨_, w, hw, h⟩ := bind_ok.mp h
    obtain ⟨-, rfl⟩ := pure_ok.mp h
    rw [← observe_ok.mp hw]
  | buffer len =>
    rw [hb] at h
    simp only at h
    split at h
    · exact (pure_ok.mp h).2 ▸ rfl
    · exact (pure_ok.mp h).2 ▸ rfl

/-- A fragment is built the same way inside a PD. -/
theorem osdpMpTxBuildEx_ok {maxLen : Int} {pfx : Bytes} {r : Option Bytes}
    (hs : (s.pd i).hasMp slot)
    (h : osdpMpTxBuildEx env i slot maxLen pfx s = .ok r t) :
    (r, (t.pd i).mp slot)
      = ((s.pd i).mp slot).txBuildEx maxLen pfx (mpSource env i slot s) := by
  obtain ⟨m, u, hm, h⟩ := bind_ok.mp h
  obtain ⟨rfl, rfl⟩ := getMp_ok.mp hm
  unfold Multipart.txBuildEx
  simp only at h ⊢
  generalize (if ((s.pd i).mp slot).offset = 0 then pfx else [])
    = skip at h ⊢
  split at h
  · next hno =>
    obtain ⟨rfl, rfl⟩ := pure_ok.mp h
    rw [if_pos hno]
  · next hyes =>
    rw [if_neg hyes]
    obtain ⟨⟨n, data⟩, u, hu, h⟩ := bind_ok.mp h
    have hread : mpSource env i slot s
        (min (maxLen - mpHdrSize ((s.pd i).mp slot).width -
          skip.length).toNat
          (((s.pd i).mp slot).total - ((s.pd i).mp slot).offset))
        ((s.pd i).mp slot).offset = (n, data) := by
      unfold mpSource
      rw [hu]
    rw [hread]
    have hpd := mpRead_pd hu
    have hu' : (u.pd i).hasMp slot := by rw [hpd]; exact hs
    simp only at h ⊢
    split at h
    · next hn =>
      obtain ⟨rfl, rfl⟩ := pure_ok.mp h
      rw [if_pos hn, hpd]
    · next hn =>
      rw [if_neg hn]
      split at h
      · next hz =>
        rw [if_pos hz]
        obtain ⟨_, v, hv, h⟩ := bind_ok.mp h
        obtain ⟨rfl, rfl⟩ := pure_ok.mp h
        rw [updMp_ok hv hu', hpd]
      · next hz =>
        rw [if_neg hz]
        obtain ⟨_, v, hv, h⟩ := bind_ok.mp h
        obtain ⟨rfl, rfl⟩ := pure_ok.mp h
        rw [updMp_ok hv hu', hpd]

theorem osdpMpTxBuildIdle_ok {r : Bytes} (hs : (s.pd i).hasMp slot)
    (h : osdpMpTxBuildIdle i slot s = .ok r t) :
    (r, (t.pd i).mp slot) = ((s.pd i).mp slot).txBuildIdle := by
  obtain ⟨_, u, hu, h⟩ := bind_ok.mp h
  obtain ⟨m, v, hm, h⟩ := bind_ok.mp h
  obtain ⟨rfl, rfl⟩ := getMp_ok.mp hm
  obtain ⟨rfl, rfl⟩ := pure_ok.mp h
  rw [updMp_ok hu hs]
  rfl

/-- A commit moves the offset, and then there may be a notification. -/
theorem osdpMpTxCommit_eq (run : List ApiCall → OsdpM Unit) :
    osdpMpTxCommit env run i slot = (do
      let m ← getMp i slot
      updMp i slot Multipart.txCommit
      if m.lastLen > 0 ∧ m.offset + m.lastLen < m.total then
        mpEmit env run i slot .progress) := rfl

theorem osdpMpRxCommit_eq (run : List ApiCall → OsdpM Unit) :
    osdpMpRxCommit env run i slot = (do
      let m ← getMp i slot
      updMp i slot Multipart.rxCommit
      if m.lastLen > 0 ∧ m.lastOff + m.lastLen > m.offset ∧
          m.lastOff + m.lastLen < m.total then
        mpEmit env run i slot .progress) := rfl

/-- What a write hook leaves alone: the engine it belongs to. -/
theorem mpWrite_mp {data : Bytes} {off : Nat} {st : MpRxStatus}
    (hs : (s.pd i).hasMp slot)
    (h : mpWrite env i slot data off s = .ok st t) :
    (t.pd i).mp slot = (s.pd i).mp slot ∧ (t.pd i).hasMp slot := by
  have hfile : (s.pd i).file = none ∨ ∃ f, (s.pd i).file = some f := by
    cases (s.pd i).file with
    | none => exact .inl rfl
    | some f => exact .inr ⟨f, rfl⟩
  obtain ⟨p, u, hp, h⟩ := bind_ok.mp h
  obtain ⟨rfl, rfl⟩ := getPd_ok.mp hp
  cases hb : ((s.pd i).mp slot).binding with
  | unbound =>
    rw [hb] at h
    exact absurd h throw_ok
  | fileOps =>
    rw [hb] at h
    obtain ⟨s', v, hg, h⟩ := bind_ok.mp h
    obtain ⟨rfl, rfl⟩ := get_ok.mp hg
    obtain ⟨_, w, hw, h⟩ := bind_ok.mp h
    have hpd : w.pd = s.pd := by rw [← observe_ok.mp hw]
    split at h
    · obtain ⟨_, x, hx, h⟩ := bind_ok.mp h
      obtain ⟨-, rfl⟩ := pure_ok.mp h
      rw [← updPd_ok.mp hx, updPd_pd_same, hpd]
      rcases hfile with e | ⟨f, e⟩ <;> cases slot <;>
        simp_all [OsdpPd.mp, OsdpPd.hasMp]
    · obtain ⟨-, rfl⟩ := pure_ok.mp h
      rw [hpd]
      exact ⟨rfl, hs⟩
  | buffer len =>
    rw [hb] at h
    simp only at h
    split at h
    · obtain ⟨-, rfl⟩ := pure_ok.mp h
      exact ⟨rfl, hs⟩
    · obtain ⟨_, x, hx, h⟩ := bind_ok.mp h
      obtain ⟨-, rfl⟩ := pure_ok.mp h
      rw [← updPd_ok.mp hx, updPd_pd_same]
      cases slot with
      | file => exact ⟨rfl, hs⟩
      | piv =>
        obtain ⟨v, hv⟩ := Option.isSome_iff_exists.mp hs
        simp [OsdpPd.setStaging, OsdpPd.mp, OsdpPd.hasMp, hv]
      | bio =>
        obtain ⟨v, hv⟩ := Option.isSome_iff_exists.mp hs
        simp [OsdpPd.setStaging, OsdpPd.mp, OsdpPd.hasMp, hv]

theorem setMp_staging {p : OsdpPd} (h : p.hasMp slot) (m : Multipart) :
    (p.setMp slot m).staging slot = p.staging slot := by
  cases slot with
  | file => rfl
  | piv =>
    obtain ⟨v, hv⟩ := Option.isSome_iff_exists.mp h
    simp [OsdpPd.setMp, OsdpPd.staging, hv]
  | bio =>
    obtain ⟨v, hv⟩ := Option.isSome_iff_exists.mp h
    simp [OsdpPd.setMp, OsdpPd.staging, hv]

/-- The engine, the memory and the history after a fragment. -/
structure Consumed (i : Nat) (slot : MpSlot) (q : MpRc × Multipart × Osdp)
    (r : MpRc × Bytes) (t : Osdp) : Prop where
  rc : r.1 = q.1
  mp : (t.pd i).mp slot = q.2.1
  staging : (t.pd i).staging slot = (q.2.2.pd i).staging slot
  log : t.log = q.2.2.log

/-- Nothing was written. -/
theorem Consumed.idle (rc : MpRc) (pfx : Bytes) :
    Consumed i slot (rc, (s.pd i).mp slot, s) (rc, pfx) s :=
  ⟨rfl, rfl, rfl, rfl⟩

/-- A write whose outcome leaves the engine as it was. -/
theorem Consumed.stored {data : Bytes} {off : Nat} {st : MpRxStatus}
    (hs : (s.pd i).hasMp slot)
    (hw : mpWrite env i slot data off s = .ok st t) (rc : MpRc)
    (pfx : Bytes) :
    Consumed i slot (rc, (s.pd i).mp slot, (mpSink env i slot data off s).2)
      (rc, pfx) t := by
  have hsink : mpSink env i slot data off s = (st, t) := by
    unfold mpSink
    rw [hw]
  rw [hsink]
  exact ⟨rfl, (mpWrite_mp hs hw).1, rfl, rfl⟩

/-- The engine moves on, after a write or without one. -/
theorem Consumed.moved {u : Osdp} {f : Multipart → Multipart}
    {a : Unit} (hu : (u.pd i).hasMp slot)
    (hmp : (u.pd i).mp slot = (s.pd i).mp slot)
    (h : updMp i slot f u = .ok a t) (rc : MpRc) (pfx : Bytes) :
    Consumed i slot (rc, f ((s.pd i).mp slot), u) (rc, pfx) t := by
  refine ⟨rfl, ?_, ?_, ?_⟩
  · rw [updMp_ok h hu, hmp]
  · rw [← updPd_ok.mp h, updPd_pd_same]
    exact setMp_staging hu _
  · rw [← updPd_ok.mp h]
    rfl

/-- A fragment is taken the same way inside a PD. -/
theorem osdpMpRxConsumeEx_ok {buf : Bytes} {pfxLen : Nat} {r : MpRc × Bytes}
    (hs : (s.pd i).hasMp slot)
    (h : osdpMpRxConsumeEx env i slot buf pfxLen s = .ok r t) :
    Consumed i slot
      (((s.pd i).mp slot).rxConsumeEx buf pfxLen (mpSink env i slot) s)
      r t := by
  obtain ⟨m, u, hm, h⟩ := bind_ok.mp h
  obtain ⟨rfl, rfl⟩ := getMp_ok.mp hm
  unfold Multipart.rxConsumeEx
  cases hh : osdpMpHdrRead ((s.pd i).mp slot).width buf with
  | none =>
    rw [hh] at h
    obtain ⟨rfl, rfl⟩ := pure_ok.mp h
    exact ⟨rfl, rfl, rfl, rfl⟩
  | some hdr =>
    obtain ⟨total, off, dlen⟩ := hdr
    rw [hh] at h
    dsimp only at h ⊢
    unfold Multipart.rxTake Multipart.fresh
    dsimp only
    generalize (if off = 0 then pfxLen else 0) = skip at h ⊢
    generalize (if skip = 0 then zeros pfxLen else
      ((buf.drop (mpHdrSize ((s.pd i).mp slot).width)).take skip)) = pfx at h
    by_cases hshort : buf.length <
        mpHdrSize ((s.pd i).mp slot).width + skip + dlen
    · rw [if_pos hshort] at h ⊢
      obtain ⟨rfl, rfl⟩ := pure_ok.mp h
      exact .idle _ _
    rw [if_neg hshort] at h ⊢
    have hdata : ((buf.drop (mpHdrSize ((s.pd i).mp slot).width
        + skip)).take dlen).length = dlen := by
      rw [List.length_take, List.length_drop]
      omega
    rw [hdata]
    generalize ((buf.drop (mpHdrSize ((s.pd i).mp slot).width
      + skip)).take dlen) = data at h ⊢
    by_cases hno : ¬ (((s.pd i).mp slot).offset = 0 ∧
        ((s.pd i).mp slot).lastLen = 0 ∧ ((s.pd i).mp slot).total = 0) ∧
        total ≠ ((s.pd i).mp slot).total
    · rw [if_pos hno] at h ⊢
      obtain ⟨rfl, rfl⟩ := pure_ok.mp h
      exact .idle _ _
    rw [if_neg hno] at h ⊢
    generalize (if ((s.pd i).mp slot).offset = 0 ∧
      ((s.pd i).mp slot).lastLen = 0 ∧ ((s.pd i).mp slot).total = 0 then
        total else ((s.pd i).mp slot).total) = cur at h ⊢
    by_cases hlong : ((s.pd i).mp slot).tooLong cur = true
    · replace h := (congrFun (if_pos hlong) s).symm.trans h
      obtain ⟨rfl, rfl⟩ := pure_ok.mp h
      rw [if_pos hlong]
      exact .idle _ _
    replace h := (congrFun (if_neg hlong) s).symm.trans h
    rw [if_neg hlong]
    split at h
    · next hearly =>
      obtain ⟨_, u, hu, h⟩ := bind_ok.mp h
      obtain ⟨rfl, rfl⟩ := pure_ok.mp h
      rw [if_pos hearly]
      exact .moved hs rfl hu _ _
    next hdata =>
    rw [if_neg hdata]
    split at h
    · next hgap =>
      obtain ⟨rfl, rfl⟩ := pure_ok.mp h
      rw [if_pos hgap]
      exact .idle _ _
    next hgapless =>
    rw [if_neg hgapless]
    split at h
    · next hpos =>
      rw [if_pos hpos]
      obtain ⟨st, u, hu, h⟩ := bind_ok.mp h
      have hsink : mpSink env i slot data off s = (st, u) := by
        unfold mpSink
        rw [hu]
      obtain ⟨hmp, hu'⟩ := mpWrite_mp hs hu
      split at h
      · next hretry =>
        obtain ⟨rfl, rfl⟩ := pure_ok.mp h
        rw [if_pos (by rw [hsink]; exact hretry)]
        exact .stored hs hu _ _
      next hret =>
      rw [if_neg (by rw [hsink]; exact hret)]
      split at h
      · next hbad =>
        obtain ⟨rfl, rfl⟩ := pure_ok.mp h
        rw [if_pos (by rw [hsink]; exact hbad)]
        exact .stored hs hu _ _
      next hok =>
      rw [if_neg (by rw [hsink]; exact hok)]
      obtain ⟨_, v, hv, h⟩ := bind_ok.mp h
      obtain ⟨rfl, rfl⟩ := pure_ok.mp h
      rw [hsink]
      exact .moved hu' hmp hv _ _
    · next hzero =>
      have hretry : ¬ MpRxStatus.ok = .retry := by decide
      have hbad : ¬ MpRxStatus.ok ≠ .ok := by decide
      rw [if_neg hzero, if_neg hretry, if_neg hbad]
      obtain ⟨_, v, hv, h⟩ := bind_ok.mp h
      obtain ⟨rfl, rfl⟩ := pure_ok.mp h
      exact .moved hs rfl hv _ _

end Same

end LibOsdp
