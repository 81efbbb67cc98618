/-
The fragments a PD sends from a staging buffer: a smartcard answer or a
biometric template that is too long for one packet.

Such a fragment can always be built: the buffer is there, and every packet
size leaves room for a header and a byte.  What can go wrong is the start
of a transfer, where the answer has to belong to the operation in hand
(`seedable`).  How long a fragment is follows from the counters alone
(`fragmentLen`).

The notifications that go with a transfer are callbacks, and the counters
have to be shown to survive them; `legView` is what has to survive.
-/
import LibOsdp.Engine.Proofs.Sizes
import LibOsdp.Engine.Proofs.Notices

namespace LibOsdp

open Lib

-- ============================================================== the counters

/-- What the next fragment of a transfer depends on. -/
@[grind] def OsdpPd.legView (p : OsdpPd) (slot : MpSlot) :
    Nat × Nat × MpWidth × MpBinding :=
  ((p.mp slot).total, (p.mp slot).offset, (p.mp slot).width,
    (p.mp slot).binding)

/-- The engines are left alone. -/
abbrev SameEngines : Osdp → Osdp → Prop :=
  Frame (fun p : OsdpPd => (p.file, p.piv, p.bio, p.flags.pdMode))
    noContext Obs.isAny

/-- How many bytes the staging buffer has from the offset on. -/
def Multipart.staged (m : Multipart) : Nat :=
  match m.binding with
  | .buffer len => len - m.offset
  | _ => 0

/-- The length of a fragment built in `room` bytes: its header, and as much
of what is left as fits. -/
def fragmentLen (m : Multipart) (room : Int) : Nat :=
  mpHdrSize m.width +
    min (min (room - mpHdrSize m.width).toNat (m.total - m.offset)) m.staged

section Staged

variable {env : Env} {run : List ApiCall → OsdpM Unit}
variable {i : Nat} {slot : MpSlot} {maxLen : Int} {s t : Osdp}

theorem mp_eq_of_legView {p q : OsdpPd} (h : p.legView slot = q.legView slot) :
    (p.mp slot).total = (q.mp slot).total ∧
      (p.mp slot).offset = (q.mp slot).offset ∧
      (p.mp slot).width = (q.mp slot).width ∧
      (p.mp slot).binding = (q.mp slot).binding :=
  ⟨congrArg (fun v => v.1) h, congrArg (fun v => v.2.1) h,
    congrArg (fun v => v.2.2.1) h, congrArg (fun v => v.2.2.2) h⟩

theorem fragmentLen_congr {p q : OsdpPd} (room : Int)
    (h : p.legView slot = q.legView slot) :
    fragmentLen (p.mp slot) room = fragmentLen (q.mp slot) room := by
  obtain ⟨ht, ho, hw, hb⟩ := mp_eq_of_legView h
  unfold fragmentLen Multipart.staged
  rw [ht, ho, hw, hb]

-- ============================================================ one fragment

/-- While something is left, a fragment is built, of the length foreseen. -/
theorem txBuildEx_staged {r : Option Bytes}
    (h : osdpMpTxBuildEx env i slot maxLen [] s = .ok r t)
    (hs : (s.pd i).hasMp slot)
    (hb : ((s.pd i).mp slot).binding ≠ .fileOps)
    (hleft : ((s.pd i).mp slot).offset < ((s.pd i).mp slot).total)
    (hroom : (mpHdrSize ((s.pd i).mp slot).width : Int) < maxLen) :
    ∃ frag, r = some frag ∧
      frag.length = fragmentLen ((s.pd i).mp slot) maxLen := by
  have hbuf : ∃ len, ((s.pd i).mp slot).binding = .buffer len := by
    cases e : ((s.pd i).mp slot).binding with
    | buffer len => exact ⟨len, rfl⟩
    | fileOps => exact absurd e hb
    | unbound =>
      obtain ⟨m, u, hm, h⟩ := bind_ok.mp h
      obtain ⟨rfl, rfl⟩ := getMp_ok.mp hm
      dsimp only at h
      rw [if_neg (by split <;> simp only [List.length_nil] <;> omega)] at h
      obtain ⟨x, v, hv, -⟩ := bind_ok.mp h
      obtain ⟨p, w, hg, hv⟩ := bind_ok.mp hv
      obtain ⟨rfl, rfl⟩ := getPd_ok.mp hg
      rw [e] at hv
      exact absurd hv throw_ok
  obtain ⟨len, hlen⟩ := hbuf
  have hr := congrArg Prod.fst (osdpMpTxBuildEx_ok hs h)
  dsimp only at hr
  unfold fragmentLen
  unfold Multipart.txBuildEx at hr
  dsimp only at hr
  rw [ite_self, List.length_nil, mpSource_buffer hlen, hlen] at hr
  generalize (s.pd i).mp slot = m at hlen hleft hroom hr
  have havail : maxLen - (mpHdrSize m.width : Int) - (0 : Nat)
      = maxLen - mpHdrSize m.width := by omega
  rw [havail, if_neg (by omega)] at hr
  generalize hsize : min (maxLen - mpHdrSize m.width : Int).toNat
    (m.total - m.offset) = size at hr
  have hpos : 0 < size := by omega
  have hst : m.staged = len - m.offset := by
    unfold Multipart.staged
    rw [hlen]
  by_cases hoff : len ≤ m.offset
  · rw [if_pos hoff, if_neg (by decide), if_pos rfl] at hr
    refine ⟨_, hr, ?_⟩
    rw [length_osdpMpHdrWrite, hst, Nat.sub_eq_zero_of_le hoff,
      Nat.min_zero, Nat.add_zero]
  · rw [if_neg hoff] at hr
    dsimp only at hr
    rw [if_neg (by omega), if_neg (by omega)] at hr
    refine ⟨_, hr, ?_⟩
    rw [List.length_append, List.length_append, length_osdpMpHdrWrite,
      List.length_nil, List.length_take, List.length_append, zeros,
      List.length_replicate, Int.toNat_natCast, hst]
    omega

-- ========================================================== notifications

section Notices

variable {V : Type} {v : OsdpPd → V}

/-- A notification leaves whatever the calls of the callbacks leave, the
command an engine was handed apart. -/
theorem frame_osdpMpPdNotify
    (hr : ∀ calls, Keeps (Frame v noContext Obs.isAny) (run calls))
    (hv : ∀ p : OsdpPd, v { p with engineCmd := none } = v p)
    (i : Nat) (phase : MpPhase) (g : MpProgress) :
    Keeps (Frame v noContext Obs.isAny)
      (osdpMpPdNotify env run i phase g) := by
  have ho (o : Obs) : Keeps (Frame v noContext Obs.isAny) (observe o) :=
    keeps_observe rfl
  have hcall (cmd : OsdpCmd) : Keeps (Frame v noContext Obs.isAny)
      (callCommandCallback env run i cmd) := by
    unfold callCommandCallback
    grind
  have hev (ev : OsdpEvent) : Keeps (Frame v noContext Obs.isAny)
      (cpDispatchEvent env run i ev) := by
    unfold cpDispatchEvent
    grind
  have hdone (c : Option SubmittedCmd) (st : CompletionStatus) :
      Keeps (Frame v noContext Obs.isAny) (cpCompleteCmd env run i c st) := by
    unfold cpCompleteCmd
    grind
  have hfree : Keeps (Frame v noContext Obs.isAny)
      (updPd i fun p => { p with engineCmd := none }) :=
    keeps_updPd hv
  unfold osdpMpPdNotify mpDeliverNotification
  grind

end Notices

-- ============================================================== the start

variable (hr : ∀ calls, Keeps SameEngines (run calls))
include hr

theorem sameEngines_osdpMpPdNotify (i : Nat) (phase : MpPhase)
    (g : MpProgress) : Keeps SameEngines (osdpMpPdNotify env run i phase g) :=
  frame_osdpMpPdNotify hr (fun _ => rfl) i phase g

/-- Telling the application that a transfer starts leaves the counters. -/
theorem leg_osdpMpEmitStart {a : Unit} (hs : (s.pd i).hasMp slot)
    (h : osdpMpEmitStart env run i slot s = .ok a t) :
    (t.pd i).legView slot = (s.pd i).legView slot ∧
      (t.pd i).hasMp slot := by
  obtain ⟨m, u, hm, h⟩ := bind_ok.mp h
  obtain ⟨rfl, rfl⟩ := getMp_ok.mp hm
  split at h
  · obtain ⟨_, v, hv, h⟩ := bind_ok.mp h
    have hmp := updMp_ok hv hs
    have hsv : (v.pd i).hasMp slot := by
      rw [← updPd_ok.mp hv, updPd_pd_same]
      cases slot <;> simpa [OsdpPd.hasMp, OsdpPd.setMp] using hs
    have hve : SameEngines v t := by
      have hn : ∀ phase g,
          Keeps SameEngines (osdpMpPdNotify env run i phase g) :=
        sameEngines_osdpMpPdNotify hr i
      have he : Keeps SameEngines (mpEmit env run i slot .start) := by
        unfold mpEmit
        grind
      exact he.of h
    have hpd := hve.pd i
    have hfile : (t.pd i).file = (v.pd i).file :=
      congrArg (fun w => w.1) hpd
    have hpiv : (t.pd i).piv = (v.pd i).piv :=
      congrArg (fun w => w.2.1) hpd
    have hbio : (t.pd i).bio = (v.pd i).bio :=
      congrArg (fun w => w.2.2.1) hpd
    have hsame : (t.pd i).mp slot = (v.pd i).mp slot := by
      unfold OsdpPd.mp
      rw [hfile, hpiv, hbio]
    have hhas : (t.pd i).hasMp slot := by
      unfold OsdpPd.hasMp at hsv ⊢
      rw [hfile, hpiv, hbio]
      exact hsv
    refine ⟨?_, hhas⟩
    unfold OsdpPd.legView
    rw [hsame, hmp]
  · obtain ⟨-, rfl⟩ := pure_ok.mp h
    exact ⟨rfl, hs⟩

-- ============================================================= smartcards

/-- The counters of a transfer of `n` bytes that is about to begin. -/
def legStart (n : Nat) : Nat × Nat × MpWidth × MpBinding :=
  (n, 0, .w16, .buffer n)

/-- An answer of `n` bytes starts a transfer: the operation it belongs to
waits for one, and it fits the staging buffer. -/
def seedable (p : OsdpPd) (n : Nat) : Bool :=
  p.piv.isSome && p.pivD.phase == .cmd && decide (0 < n) &&
    decide (n ≤ pivDataMaxLen)

theorem pivSeed_ok {n : Nat} {data : Bytes} {ok : Bool}
    (hp : (s.pd i).piv.isSome = true)
    (h : pivSeed env run i n data s = .ok ok t) :
    ok = seedable (s.pd i) n ∧
      (ok = true → (t.pd i).legView .piv = legStart n ∧
        (t.pd i).hasMp .piv) := by
  unfold pivSeed at h
  obtain ⟨p, u, hg, h⟩ := bind_ok.mp h
  obtain ⟨rfl, rfl⟩ := getPd_ok.mp hg
  unfold seedable
  rw [hp, Bool.true_and]
  split at h
  · next hno =>
    obtain ⟨rfl, rfl⟩ := pure_ok.mp h
    refine ⟨?_, fun e => absurd e Bool.false_ne_true⟩
    rcases hno with hph | hz | hl
    · rw [beq_eq_false_iff_ne.mpr hph]
      rfl
    · rw [decide_eq_false (by omega : ¬ 0 < n), Bool.and_false,
        Bool.false_and]
    · rw [decide_eq_false (by omega : ¬ n ≤ pivDataMaxLen), Bool.and_false]
  · next hyes =>
    have hph : (s.pd i).pivD.phase = .cmd := by
      by_contra e
      exact hyes (.inl e)
    obtain ⟨_, v, hv, h⟩ := bind_ok.mp h
    obtain ⟨_, w, hw, h⟩ := bind_ok.mp h
    obtain ⟨b, x, hx, h⟩ := bind_ok.mp h
    obtain ⟨_, y, hy, h⟩ := bind_ok.mp h
    obtain ⟨_, z, hz, h⟩ := bind_ok.mp h
    obtain ⟨rfl, rfl⟩ := pure_ok.mp h
    have hv' : (v.pd i).hasMp .piv := by
      rw [← updPd_ok.mp hv, updPd_pd_same]
      simpa [OsdpPd.hasMp] using hp
    have hwmp := updMp_ok hw hv'
    have hw' : (w.pd i).hasMp .piv := by
      rw [← updPd_ok.mp hw, updPd_pd_same]
      simpa [OsdpPd.hasMp, OsdpPd.setMp] using hv'
    have hxmp : (x.pd i).legView .piv = legStart n ∧
        (x.pd i).hasMp .piv := by
      unfold osdpMpTxInit at hx
      rw [if_neg (by omega)] at hx
      obtain ⟨_, x', hx', hx⟩ := bind_ok.mp hx
      obtain ⟨-, rfl⟩ := pure_ok.mp hx
      have e := updMp_ok hx' hw'
      refine ⟨?_, ?_⟩
      · unfold OsdpPd.legView
        rw [e, hwmp]
        rfl
      · rw [← updPd_ok.mp hx', updPd_pd_same]
        simpa [OsdpPd.hasMp, OsdpPd.setMp] using hw'
    obtain ⟨hleg, hhas⟩ := leg_osdpMpEmitStart hr hxmp.2 hy
    refine ⟨?_, fun _ => ⟨?_, ?_⟩⟩
    · rw [hph, decide_eq_true (by omega : 0 < n),
        decide_eq_true (by omega : n ≤ pivDataMaxLen)]
      rfl
    · rw [← hxmp.1, ← hleg, ← updPd_ok.mp hz, updPd_pd_same]
      cases e : (y.pd i).piv <;> simp [OsdpPd.legView, OsdpPd.mp, e]
    · rw [← updPd_ok.mp hz, updPd_pd_same]
      simpa [OsdpPd.hasMp] using hhas

omit hr in
/-- One fragment of an answer. -/
theorem pivPdFragment_staged {r : Option Bytes}
    (h : pivPdFragment env run i maxLen s = .ok r t)
    (hs : (s.pd i).hasMp .piv) (hb : ((s.pd i).mp .piv).binding ≠ .fileOps)
    (hleft : ((s.pd i).mp .piv).offset < ((s.pd i).mp .piv).total)
    (hroom : 26 < maxLen) :
    r.map List.length
      = some (fragmentLen ((s.pd i).mp .piv) (maxLen - mpScReserve)) := by
  unfold pivPdFragment at h
  obtain ⟨o, u, hu, h⟩ := bind_ok.mp h
  have hhdr := (mpHdrSize_bounds ((s.pd i).mp .piv).width).2
  obtain ⟨frag, rfl, hlen⟩ := txBuildEx_staged hu hs hb hleft (by
    show (_ : Int) < maxLen - 16
    omega)
  obtain ⟨_, y, hy, h⟩ := bind_ok.mp h
  obtain ⟨now, z, hz, h⟩ := bind_ok.mp h
  obtain ⟨_, y, hy, h⟩ := bind_ok.mp h
  obtain ⟨m, z, hz, h⟩ := bind_ok.mp h
  have hd : some frag = r := by
    split at h
    · obtain ⟨_, y, hy, h⟩ := bind_ok.mp h
      obtain ⟨_, z, hz, h⟩ := bind_ok.mp h
      exact (pure_ok.mp h).1
    · exact (pure_ok.mp h).1
  rw [← hd, Option.map_some, hlen]

/-- The length of a smartcard answer in `maxLen` bytes, where there is
one: a fragment of the transfer that is under way, or the first of a new
one. -/
def pivReplyLen (p : OsdpPd) (seed : Option (Nat × Bytes)) (maxLen : Int) :
    Option Nat :=
  match seed with
  | some (n, _) =>
    if seedable p n then some (6 + min (maxLen - mpScReserve - 6).toNat n)
    else none
  | none =>
    if osdpPivPdReplyPending p then
      some (fragmentLen (p.mp .piv) (maxLen - mpScReserve))
    else none

omit hr in
/-- What is left of a transfer whose answer is pending. -/
theorem pivPending_left {p : OsdpPd} (h : osdpPivPdReplyPending p = true) :
    p.hasMp .piv ∧ (p.mp .piv).offset < (p.mp .piv).total := by
  unfold osdpPivPdReplyPending at h
  simp only [Bool.and_eq_true, decide_eq_true_eq] at h
  exact ⟨h.1.1.1, h.2⟩

theorem osdpPivPdReplyBuild_staged {seed : Option (Nat × Bytes)}
    {r : Option Bytes}
    (h : osdpPivPdReplyBuild env run i seed maxLen s = .ok r t)
    (hb : ((s.pd i).mp .piv).binding ≠ .fileOps) (hroom : 26 < maxLen) :
    r.map List.length = pivReplyLen (s.pd i) seed maxLen := by
  unfold osdpPivPdReplyBuild at h
  obtain ⟨p, u, hg, h⟩ := bind_ok.mp h
  obtain ⟨rfl, rfl⟩ := getPd_ok.mp hg
  unfold pivReplyLen
  by_cases hnone : (s.pd i).piv.isNone = true
  · rw [if_pos hnone] at h
    obtain ⟨rfl, -⟩ := pure_ok.mp h
    have hsome : (s.pd i).piv.isSome = false := by
      rw [Option.isNone_iff_eq_none.mp hnone]
      rfl
    cases seed with
    | some x =>
      have hno : seedable (s.pd i) x.1 = false := by
        unfold seedable
        rw [hsome, Bool.false_and, Bool.false_and, Bool.false_and]
      obtain ⟨n, d⟩ := x
      dsimp only at hno ⊢
      rw [hno]
      rfl
    | none =>
      have hno : osdpPivPdReplyPending (s.pd i) = false := by
        unfold osdpPivPdReplyPending
        simp [hsome]
      dsimp only
      rw [hno]
      rfl
  · rw [if_neg hnone] at h
    have hp : (s.pd i).piv.isSome = true := by
      cases e : (s.pd i).piv with
      | none => exact absurd (by rw [e]; rfl) hnone
      | some v => rfl
    cases seed with
    | some x =>
      obtain ⟨n, d⟩ := x
      obtain ⟨ok, v, hv, h⟩ := bind_ok.mp h
      obtain ⟨rfl, hleg⟩ := pivSeed_ok hr hp hv
      dsimp only
      by_cases hok : seedable (s.pd i) n = true
      · rw [if_neg (by simp [hok])] at h
        rw [if_pos hok]
        obtain ⟨hleg, hhas⟩ := hleg hok
        have htotal : ((v.pd i).mp .piv).total = n :=
          congrArg (fun w => w.1) hleg
        have hoff : ((v.pd i).mp .piv).offset = 0 :=
          congrArg (fun w => w.2.1) hleg
        have hwidth : ((v.pd i).mp .piv).width = .w16 :=
          congrArg (fun w => w.2.2.1) hleg
        have hbind : ((v.pd i).mp .piv).binding = .buffer n :=
          congrArg (fun w => w.2.2.2) hleg
        have hpos : 0 < n := by
          unfold seedable at hok
          simp only [Bool.and_eq_true, decide_eq_true_eq] at hok
          exact hok.1.2
        rw [pivPdFragment_staged h hhas (by simp [hbind])
          (by rw [htotal, hoff]; exact hpos) hroom]
        unfold fragmentLen Multipart.staged
        rw [htotal, hoff, hwidth, hbind]
        congr 1
        show 6 + _ = 6 + _
        dsimp only
        rw [Nat.sub_zero]
        show 6 + min (min (maxLen - 16 - (6 : Nat)).toNat n) n = _
        rw [Nat.min_assoc, Nat.min_self]
        rfl
      · rw [if_pos (by simp [hok])] at h
        obtain ⟨rfl, -⟩ := pure_ok.mp h
        rw [if_neg hok]
        rfl
    | none =>
      dsimp only at h ⊢
      by_cases hpend : osdpPivPdReplyPending (s.pd i) = true
      · rw [if_neg (by simp [hpend])] at h
        rw [if_pos hpend]
        obtain ⟨hhas, hleft⟩ := pivPending_left hpend
        exact pivPdFragment_staged h hhas hb hleft hroom
      · rw [if_pos (by simp [hpend])] at h
        obtain ⟨rfl, -⟩ := pure_ok.mp h
        rw [if_neg hpend]
        rfl

-- ============================================================== templates

omit hr in
/-- One fragment of a template: the standard header takes the place of the
engine's in the first. -/
theorem bioPdFragment_staged {r : Option Bytes}
    (h : bioPdFragment env run i maxLen s = .ok r t)
    (hs : (s.pd i).hasMp .bio) (hb : ((s.pd i).mp .bio).binding ≠ .fileOps)
    (hleft : ((s.pd i).mp .bio).offset < ((s.pd i).mp .bio).total)
    (hroom : 26 < maxLen) :
    r.map List.length
      = some (fragmentLen ((s.pd i).mp .bio) (maxLen - mpScReserve)) := by
  unfold bioPdFragment at h
  obtain ⟨m, v, hm, h⟩ := bind_ok.mp h
  obtain ⟨rfl, rfl⟩ := getMp_ok.mp hm
  obtain ⟨o, u, hu, h⟩ := bind_ok.mp h
  have hhdr := mpHdrSize_bounds ((s.pd i).mp .bio).width
  obtain ⟨frag, rfl, hlen⟩ := txBuildEx_staged hu hs hb hleft (by
    show (_ : Int) < maxLen - 16
    omega)
  obtain ⟨p, y, hy, h⟩ := bind_ok.mp h
  dsimp only at h
  have hfrag : (if ((s.pd i).mp .bio).offset = 0 then
      writeAt frag 0 (bioStdHeader p.bioD (p.mp .bio).total)
      else frag).length = frag.length := by
    split
    · refine length_writeAt ?_
      rw [length_bioStdHeader, hlen]
      unfold fragmentLen
      omega
    · rfl
  generalize (if ((s.pd i).mp .bio).offset = 0 then
    writeAt frag 0 (bioStdHeader p.bioD (p.mp .bio).total)
    else frag) = f at h hfrag
  obtain ⟨_, y, hy, h⟩ := bind_ok.mp h
  obtain ⟨now, z, hz, h⟩ := bind_ok.mp h
  obtain ⟨_, y, hy, h⟩ := bind_ok.mp h
  obtain ⟨m', z, hz, h⟩ := bind_ok.mp h
  have hd : some f = r := by
    split at h
    · obtain ⟨_, y, hy, h⟩ := bind_ok.mp h
      obtain ⟨_, z, hz, h⟩ := bind_ok.mp h
      exact (pure_ok.mp h).1
    · exact (pure_ok.mp h).1
  rw [← hd, Option.map_some, hfrag, hlen]

/-- The length of a REPLY_BIOREADR of a PD that sends templates in parts,
where there is one. -/
def bioReplyLen (p : OsdpPd) (seed : Option BioReadr) (maxLen : Int) :
    Option Nat :=
  match seed with
  | some r =>
    if r.length > bioreadrMaxTemplateLen then none
    else if (r.length : Int) ≤ maxLen - replyBioreadrDataLen - mpScReserve then
      some (6 + min r.length r.data.length)
    else some (6 + (maxLen - mpScReserve - 6).toNat)
  | none =>
    if osdpBioPdReplyPending p then
      some (fragmentLen (p.mp .bio) (maxLen - mpScReserve))
    else none

omit hr in
theorem bioPending_left {p : OsdpPd} (h : osdpBioPdReplyPending p = true) :
    p.hasMp .bio ∧ (p.mp .bio).offset < (p.mp .bio).total := by
  unfold osdpBioPdReplyPending osdpBioIsActive at h
  simp only [Bool.and_eq_true, decide_eq_true_eq] at h
  exact ⟨h.1.1.1, h.2⟩

/-- The PD still has its biometric engine. -/
def KeepsBio (i : Nat) (s t : Osdp) : Prop :=
  (s.pd i).hasMp .bio → (t.pd i).hasMp .bio

omit hr in
instance : IsPreorder Osdp (KeepsBio i) where
  refl _ h := h
  trans _ _ _ h k e := k (h e)

omit hr in
theorem keepsBio_updBio (f : OsdpBio → OsdpBio) :
    Keeps (KeepsBio i) (updBio i f) := by
  intro s a t e hs
  rw [← updPd_ok.mp e, updPd_pd_same]
  simpa [OsdpPd.hasMp] using hs

omit hr in
theorem keepsBio_updMp (f : Multipart → Multipart) :
    Keeps (KeepsBio i) (updMp i .bio f) := by
  intro s a t e hs
  rw [← updPd_ok.mp e, updPd_pd_same]
  simpa [OsdpPd.hasMp, OsdpPd.setMp] using hs

/-- Giving up a template leaves the engine there. -/
theorem keepsBio_osdpBioAbort :
    Keeps (KeepsBio i) (osdpBioAbort env run i) := by
  have hn (phase : MpPhase) (g : MpProgress) :
      Keeps (KeepsBio i) (osdpMpPdNotify env run i phase g) := by
    refine (sameEngines_osdpMpPdNotify hr i phase g).mono fun u v h hs => ?_
    have hbio : (v.pd i).bio = (u.pd i).bio :=
      congrArg (fun w => w.2.2.1) (h.pd i)
    unfold OsdpPd.hasMp at hs ⊢
    rw [hbio]
    exact hs
  have he (phase : MpPhase) :
      Keeps (KeepsBio i) (mpEmit env run i .bio phase) := by
    unfold mpEmit
    grind
  have hu := keepsBio_updBio (i := i)
  have hm := keepsBio_updMp (i := i)
  unfold osdpBioAbort bioEmitStart osdpMpEmitStart osdpMpFinish bioOpReset
  grind

/-- A template: in one packet, or the first fragment of a transfer. -/
theorem osdpBioPdReplyBuild_staged {seed : Option BioReadr}
    {r : Option Bytes}
    (h : osdpBioPdReplyBuild env run i seed maxLen s = .ok r t)
    (hb : ((s.pd i).mp .bio).binding ≠ .fileOps) (hroom : 26 < maxLen) :
    r.map List.length = bioReplyLen (s.pd i) seed maxLen := by
  unfold osdpBioPdReplyBuild at h
  unfold bioReplyLen
  cases seed with
  | none =>
    obtain ⟨p, u, hg, h⟩ := bind_ok.mp h
    obtain ⟨rfl, rfl⟩ := getPd_ok.mp hg
    dsimp only at h ⊢
    by_cases hpend : osdpBioPdReplyPending (s.pd i) = true
    · rw [if_neg (by simp [hpend])] at h
      rw [if_pos hpend]
      obtain ⟨hhas, hleft⟩ := bioPending_left hpend
      exact bioPdFragment_staged h hhas hb hleft hroom
    · rw [if_pos (by simp [hpend])] at h
      obtain ⟨rfl, -⟩ := pure_ok.mp h
      rw [if_neg hpend]
      rfl
  | some tpl =>
    obtain ⟨_, u, hu, h⟩ := bind_ok.mp h
    dsimp only at h ⊢
    by_cases hlong : tpl.length > bioreadrMaxTemplateLen
    · rw [if_pos hlong] at h
      obtain ⟨rfl, -⟩ := pure_ok.mp h
      rw [if_pos hlong]
      rfl
    rw [if_neg hlong] at h
    rw [if_neg hlong]
    obtain ⟨_, v, hv, h⟩ := bind_ok.mp h
    have hvbio : (v.pd i).hasMp .bio := by
      refine (keepsBio_updBio _).of hv ?_
      rw [← updPd_ok.mp hu, updPd_pd_same]
      rfl
    by_cases hfit : (tpl.length : Int) ≤
        maxLen - replyBioreadrDataLen - mpScReserve
    · rw [if_pos hfit] at h
      obtain ⟨p, w, hw, h⟩ := bind_ok.mp h
      obtain ⟨rfl, -⟩ := pure_ok.mp h
      rw [if_pos hfit, Option.map_some, List.length_append,
        length_bioStdHeader, List.length_take]
    · rw [if_neg hfit] at h
      rw [if_neg hfit]
      have hfit : ¬ (tpl.length : Int) ≤ maxLen - 6 - 16 := hfit
      obtain ⟨_, w, hopen, h⟩ := bind_ok.mp h
      obtain ⟨_, x, hdata, h⟩ := bind_ok.mp h
      obtain ⟨_, y, hbind, h⟩ := bind_ok.mp h
      obtain ⟨b, z, hinit, h⟩ := bind_ok.mp h
      obtain ⟨_, a, hemit, h⟩ := bind_ok.mp h
      obtain ⟨_, c, hact, h⟩ := bind_ok.mp h
      have hwbio : (w.pd i).hasMp .bio := by
        unfold bioOpOpen at hopen
        obtain ⟨_, w₁, ha, hopen⟩ := bind_ok.mp hopen
        obtain ⟨now, w₂, hnow, hopen⟩ := bind_ok.mp hopen
        cases hnow
        exact (keepsBio_updBio _).of hopen
          ((keepsBio_osdpBioAbort hr).of ha hvbio)
      have hxbio := (keepsBio_updBio _).of hdata hwbio
      have hymp := updMp_ok hbind hxbio
      have hybio := (keepsBio_updMp _).of hbind hxbio
      have hzleg : (z.pd i).legView .bio = legStart tpl.length ∧
          (z.pd i).hasMp .bio := by
        unfold osdpMpTxInit at hinit
        rw [if_neg (by omega)] at hinit
        obtain ⟨_, z', hz', hinit⟩ := bind_ok.mp hinit
        obtain ⟨-, rfl⟩ := pure_ok.mp hinit
        refine ⟨?_, (keepsBio_updMp _).of hz' hybio⟩
        unfold OsdpPd.legView
        rw [updMp_ok hz' hybio, hymp]
        rfl
      have haleg : (a.pd i).legView .bio = legStart tpl.length ∧
          (a.pd i).hasMp .bio := by
        unfold bioEmitStart at hemit
        obtain ⟨p, z', hg, hemit⟩ := bind_ok.mp hemit
        obtain ⟨rfl, rfl⟩ := getPd_ok.mp hg
        split at hemit
        · obtain ⟨_, z', hz', hemit⟩ := bind_ok.mp hemit
          have hsame : (z'.pd i).legView .bio = (z.pd i).legView .bio := by
            rw [← updPd_ok.mp hz', updPd_pd_same]
            cases e : (z.pd i).bio <;> simp [OsdpPd.legView, OsdpPd.mp, e]
          have hhas := (keepsBio_updBio _).of hz' hzleg.2
          obtain ⟨hleg, hhas⟩ := leg_osdpMpEmitStart hr hhas hemit
          exact ⟨by rw [hleg, hsame, hzleg.1], hhas⟩
        · obtain ⟨-, rfl⟩ := pure_ok.mp hemit
          exact hzleg
      have hcleg : (c.pd i).legView .bio = legStart tpl.length ∧
          (c.pd i).hasMp .bio := by
        refine ⟨?_, (keepsBio_updBio _).of hact haleg.2⟩
        rw [← haleg.1, ← updPd_ok.mp hact, updPd_pd_same]
        cases e : (a.pd i).bio <;> simp [OsdpPd.legView, OsdpPd.mp, e]
      obtain ⟨hleg, hhas⟩ := hcleg
      have htotal : ((c.pd i).mp .bio).total = tpl.length :=
        congrArg (fun w => w.1) hleg
      have hoff : ((c.pd i).mp .bio).offset = 0 :=
        congrArg (fun w => w.2.1) hleg
      have hwidth : ((c.pd i).mp .bio).width = .w16 :=
        congrArg (fun w => w.2.2.1) hleg
      have hbind : ((c.pd i).mp .bio).binding = .buffer tpl.length :=
        congrArg (fun w => w.2.2.2) hleg
      rw [bioPdFragment_staged h hhas (by simp [hbind])
        (by rw [htotal, hoff]; omega) hroom]
      unfold fragmentLen Multipart.staged
      rw [htotal, hoff, hwidth, hbind]
      congr 1
      show 6 + min (min (maxLen - 16 - (6 : Nat)).toNat (tpl.length - 0))
        (tpl.length - 0) = 6 + (maxLen - 16 - 6).toNat
      omega

end Staged

end LibOsdp
