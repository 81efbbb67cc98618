/-
What a REPLY_PDCAP leaves in the table of capabilities.

`capsOf` stores the records of the reply one after another and stops at
the first it does not know.  `heard` is the part of the list that it
gets to, `skipped` the rest; a later record of one code replaces an
earlier one, so what counts of a part is the last record it holds
(`lastFor`).  `capsOf_eq` says that much of the table.

# From the report

`Reports` is what the table and the settings derived from it would be if
they were a function of the report: the last record of each code in the
whole list, and what a device just set up has where there is none.
`cp_caps_of_report` says exactly when a reply leaves that, and which
replies fix the derived settings whatever was there before.
-/
import LibOsdp.Common.PlainEnv
import LibOsdp.Cp.Proofs.Record

namespace LibOsdp

open Lib

-- ============================================================ the records

/-- The records of a REPLY_PDCAP. -/
def entities : Bytes → List PdCap
  | fc :: level :: items :: rest =>
    ⟨fc.toNat, level, items⟩ :: entities rest
  | _ => []

/-- The records up to the first unknown one. -/
def heard (es : List PdCap) : List PdCap :=
  es.takeWhile fun c => c.functionCode < capSentinel

/-- The first unknown record and all that follow. -/
def skipped (es : List PdCap) : List PdCap :=
  es.dropWhile fun c => c.functionCode < capSentinel

/-- The last record of a code. -/
def lastFor (f : Nat) (es : List PdCap) : Option PdCap :=
  (es.filter fun c => c.functionCode = f).getLast?

theorem heard_append_skipped (es : List PdCap) :
    heard es ++ skipped es = es :=
  List.takeWhile_append_dropWhile

/-- Of two lists the later one decides. -/
theorem lastFor_append (f : Nat) (l m : List PdCap) :
    lastFor f (l ++ m) = (lastFor f m).or (lastFor f l) := by
  unfold lastFor
  rw [List.filter_append, List.getLast?_append]

theorem lastFor_eq_none {f : Nat} {es : List PdCap} :
    lastFor f es = none ↔ ∀ c ∈ es, c.functionCode ≠ f := by
  unfold lastFor
  rw [List.getLast?_eq_none_iff, List.filter_eq_nil_iff]
  simp only [decide_eq_true_eq]

theorem lastFor_isSome {f : Nat} {es : List PdCap} :
    (∃ r, lastFor f es = some r) ↔ ∃ c ∈ es, c.functionCode = f := by
  rw [← Option.isSome_iff_exists, ← not_iff_not, Option.not_isSome_iff_eq_none,
    lastFor_eq_none]
  push Not
  rfl

/-- A record of a code carries it. -/
theorem lastFor_code {f : Nat} {es : List PdCap} {r : PdCap}
    (h : lastFor f es = some r) : r.functionCode = f := by
  have hmem := List.mem_filter.mp (List.mem_of_getLast? h)
  exact of_decide_eq_true hmem.2

/-- A record in the table is the last one heard, or what was there. -/
theorem capsOf_eq (cap : Nat → PdCap) (data : Bytes) (f : Nat) :
    capsOf cap data f = (lastFor f (heard (entities data))).getD (cap f) := by
  match data with
  | [] => rfl
  | [_] => rfl
  | [_, _] => rfl
  | fc :: level :: items :: rest =>
    by_cases hknown : fc.toNat < capSentinel
    · have hheard : heard (entities (fc :: level :: items :: rest))
          = [⟨fc.toNat, level, items⟩] ++ heard (entities rest) := by
        simp [entities, heard, hknown]
      rw [capsOf, if_neg (Nat.not_le.mpr hknown), capsOf_eq, hheard,
        lastFor_append]
      cases hlast : lastFor f (heard (entities rest)) with
      | some r => rfl
      | none =>
        show (if f = fc.toNat then _ else cap f) = _
        by_cases hf : f = fc.toNat
        · subst hf
          simp [lastFor]
        · have hne : fc.toNat ≠ f := fun e => hf e.symm
          simp [lastFor, hf, hne]
    · have hheard : heard (entities (fc :: level :: items :: rest)) = [] := by
        simp [entities, heard, hknown]
      rw [capsOf, if_pos (Nat.not_lt.mp hknown), hheard]
      rfl

-- ============================================================= the report

/-- The packet size in a record. -/
def PdCap.size (c : PdCap) : Nat :=
  c.complianceLevel.toNat + 256 * c.numItems.toNat

/-- The lowest bit of the level in a record. -/
def PdCap.bit (c : PdCap) : Bool := c.complianceLevel &&& 1 != 0

/-- The last record of a code, or the empty one. -/
def reported (es : List PdCap) (f : Nat) : PdCap := (lastFor f es).getD {}

/-- The settings derived from the capabilities. -/
def OsdpPd.derived (p : OsdpPd) : Nat × Bool × Bool × Bool :=
  (p.peerRxSize, p.flags.scCapable, p.flags.cpUseCrc, p.flags.trsCapable)

/-- The table and what is derived from it say what the report says, and
what they say of a PD just set up where it says nothing. -/
structure Reports (es : List PdCap) (p : OsdpPd) : Prop where
  cap : ∀ f < capSentinel, p.cap f = reported es f
  size : p.peerRxSize =
    ((lastFor capReceiveBuffersize es).map PdCap.size).getD 0
  sc : p.flags.scCapable = (reported es capCommunicationSecurity).bit
  crc : p.flags.cpUseCrc =
    ((lastFor capCheckCharacterSupport es).map PdCap.bit).getD true
  trs : p.flags.trsCapable = (reported es capSmartCardSupport).bit

/-- Code `f` comes out as reported: nothing of it is skipped, and where
nothing of it is heard either the table was empty there; or the last one
skipped is what was heard before, or else what was in the table. -/
def Survives (es : List PdCap) (p : OsdpPd) (f : Nat) : Prop :=
  ((∀ c ∈ skipped es, c.functionCode ≠ f) ∧
      ((∃ c ∈ heard es, c.functionCode = f) ∨ p.cap f = {})) ∨
    ∃ r, lastFor f (skipped es) = some r ∧
      (lastFor f (heard es) = some r ∨
        (∀ c ∈ heard es, c.functionCode ≠ f) ∧ p.cap f = r)

/-- A code comes out as reported exactly when it survives. -/
theorem capsOf_reported {data : Bytes} {p : OsdpPd} {f : Nat} :
    capsOf p.cap data f = reported (entities data) f ↔
      Survives (entities data) p f := by
  have hall : lastFor f (entities data)
      = (lastFor f (skipped (entities data))).or
        (lastFor f (heard (entities data))) := by
    rw [← lastFor_append, heard_append_skipped]
  rw [capsOf_eq, reported, hall, Survives, ← lastFor_eq_none,
    ← lastFor_eq_none, ← lastFor_isSome]
  cases hskip : lastFor f (skipped (entities data)) with
  | none =>
    cases lastFor f (heard (entities data)) with
    | none => simp
    | some r => simp
  | some r =>
    cases lastFor f (heard (entities data)) with
    | none => simp
    | some q => simp

/-- The table's record of a code it was told carries the code. -/
theorem reported_code {es : List PdCap} {f : Nat} (hf : f ≠ 0) :
    (reported es f).functionCode = f ↔ ∃ r, lastFor f es = some r := by
  unfold reported
  cases hlast : lastFor f es with
  | none =>
    refine iff_of_false (fun e => hf ?_) ?_
    · exact e.symm
    · rintro ⟨_, ⟨⟩⟩
  | some r => exact iff_of_true (lastFor_code hlast) ⟨r, rfl⟩

-- =========================================================== the decoding

section Decode

variable {env : Env} {run : List ApiCall → OsdpM Unit} {i : Nat}
  {payload : Bytes}

/-- A REPLY_PDCAP of the right length is stored, whatever was asked. -/
theorem decodeResponse_pdcap (hid : payloadId payload = replyPdcap)
    (hlen : payload.tail.length % 3 = 0) (s : Osdp) :
    ∃ t, cpDecodeResponse env run i payload s = .ok cpErrNone t ∧
      t.pd i = applyCaps
        { s.pd i with
          replyId := replyPdcap
          cap := capsOf (s.pd i).cap payload.tail } := by
  have hset : cpDecodeResponse env run i payload s
      = cpDecodeCases env run i replyPdcap payload.tail
        (s.updPd i fun p => { p with replyId := replyPdcap }) := by
    rw [← hid]
    rfl
  refine ⟨(s.updPd i fun p => { p with replyId := replyPdcap }).updPd i
    fun p => applyCaps { p with cap := capsOf p.cap payload.tail }, ?_, ?_⟩
  · rw [hset, (decodeCases_eq ..).2.1]
    unfold decodePdcap
    rw [if_neg (not_not.mpr hlen)]
    rfl
  · rw [updPd_pd_same, updPd_pd_same]

/-- A setting read off the table where it holds a record for it, and kept
otherwise, is the reported one or what it was. -/
theorem derived_reported {α : Type} {es : List PdCap} {f : Nat} (hf : f ≠ 0)
    (g : PdCap → α) (kept unset : α) :
    (if (reported es f).functionCode = f then g (reported es f) else kept)
        = ((lastFor f es).map g).getD unset ↔
      (∃ c ∈ es, c.functionCode = f) ∨ kept = unset := by
  rw [← lastFor_isSome]
  cases hlast : lastFor f es with
  | none =>
    have hcode : (reported es f).functionCode ≠ f := by
      rw [Ne, reported_code hf, hlast]
      rintro ⟨_, ⟨⟩⟩
    rw [if_neg hcode]
    simp
  | some r =>
    have hrep : reported es f = r := by
      rw [reported, hlast]
      rfl
    rw [hrep, if_pos (lastFor_code hlast)]
    simp

/-- What is stored is what was reported exactly when every code survives,
and the two settings that are not always derived anew are, or are as they
were set up. -/
theorem applyCaps_reports {data : Bytes} {p : OsdpPd} :
    Reports (entities data) (applyCaps { p with cap := capsOf p.cap data }) ↔
      (∀ f < capSentinel, Survives (entities data) p f) ∧
        ((∃ c ∈ entities data, c.functionCode = capReceiveBuffersize) ∨
          p.peerRxSize = 0) ∧
        ((∃ c ∈ entities data, c.functionCode = capCheckCharacterSupport) ∨
          p.flags.cpUseCrc = true) := by
  have htable : (∀ f < capSentinel,
        (applyCaps { p with cap := capsOf p.cap data }).cap f
          = reported (entities data) f) ↔
      ∀ f < capSentinel, Survives (entities data) p f :=
    forall₂_congr fun f _ => capsOf_reported
  rw [← htable]
  have hsize (hcap : capsOf p.cap data capReceiveBuffersize
        = reported (entities data) capReceiveBuffersize) :
      (applyCaps { p with cap := capsOf p.cap data }).peerRxSize
        = if (reported (entities data) capReceiveBuffersize).functionCode
            = capReceiveBuffersize then
            (reported (entities data) capReceiveBuffersize).size
          else p.peerRxSize := by
    rw [← hcap]
    rfl
  have hcrc (hcap : capsOf p.cap data capCheckCharacterSupport
        = reported (entities data) capCheckCharacterSupport) :
      (applyCaps { p with cap := capsOf p.cap data }).flags.cpUseCrc
        = if (reported (entities data) capCheckCharacterSupport).functionCode
            = capCheckCharacterSupport then
            (reported (entities data) capCheckCharacterSupport).bit
          else p.flags.cpUseCrc := by
    rw [← hcap]
    rfl
  constructor
  · intro h
    have hs := h.size
    have hc := h.crc
    rw [hsize (h.cap _ (by decide))] at hs
    rw [hcrc (h.cap _ (by decide))] at hc
    exact ⟨h.cap, (derived_reported (by decide) _ _ _).mp hs,
      (derived_reported (by decide) _ _ _).mp hc⟩
  · rintro ⟨hcap, hs, hc⟩
    refine ⟨hcap, ?_, ?_, ?_, ?_⟩
    · rw [hsize (hcap _ (by decide))]
      exact (derived_reported (by decide) _ _ _).mpr hs
    · rw [← hcap _ (by decide)]
      rfl
    · rw [hcrc (hcap _ (by decide))]
      exact (derived_reported (by decide) _ _ _).mpr hc
    · rw [← hcap _ (by decide)]
      rfl

/-- The four codes a setting is derived from. -/
def derivedCodes : List Nat :=
  [capReceiveBuffersize, capCommunicationSecurity, capCheckCharacterSupport,
    capSmartCardSupport]

/-- A PD nothing is known of, without CRC. -/
def blankPd : OsdpPd := {}

/-- A PD that announced every code, with the lowest bit set in both. -/
def fullPd : OsdpPd := { cap := fun k => ⟨k, 1, 1⟩ }

/-- The settings come out the same whatever was held before exactly when
a record of each code they are derived from is heard. -/
theorem derived_independent {data : Bytes} :
    (∀ p q : OsdpPd,
      (applyCaps { p with cap := capsOf p.cap data }).derived
        = (applyCaps { q with cap := capsOf q.cap data }).derived) ↔
      ∀ f ∈ derivedCodes,
        ∃ c ∈ heard (entities data), c.functionCode = f := by
  constructor
  · intro h f hf
    by_contra hnone
    have hkeep (cap : Nat → PdCap) : capsOf cap data f = cap f := by
      rw [capsOf_eq, lastFor_eq_none.mpr]
      · rfl
      · intro c hc e
        exact hnone ⟨c, hc, e⟩
    have hdiff := h blankPd fullPd
    simp only [OsdpPd.derived, applyCaps, OsdpPd.capBit, Prod.mk.injEq]
      at hdiff
    obtain ⟨hrx, hsc, hcrc, htrs⟩ := hdiff
    simp only [derivedCodes, List.mem_cons, List.not_mem_nil, or_false] at hf
    rcases hf with rfl | rfl | rfl | rfl
    · rw [hkeep, hkeep] at hrx
      exact absurd hrx (by decide)
    · rw [hkeep, hkeep] at hsc
      exact absurd hsc (by decide)
    · simp only [hkeep] at hcrc
      exact absurd hcrc (by decide)
    · rw [hkeep, hkeep] at htrs
      exact absurd htrs (by decide)
  · intro h p q
    have hsame (f : Nat) (hf : f ∈ derivedCodes) :
        ∃ r : PdCap, r.functionCode = f ∧
          ∀ cap, capsOf cap data f = r := by
      obtain ⟨r, hr⟩ := lastFor_isSome.mpr (h f hf)
      refine ⟨r, lastFor_code hr, fun cap => ?_⟩
      rw [capsOf_eq, hr]
      rfl
    obtain ⟨rx, hrxc, hrx⟩ := hsame capReceiveBuffersize (by decide)
    obtain ⟨sc, -, hsc⟩ := hsame capCommunicationSecurity (by decide)
    obtain ⟨crc, hcrcc, hcrc⟩ := hsame capCheckCharacterSupport (by decide)
    obtain ⟨trs, -, htrs⟩ := hsame capSmartCardSupport (by decide)
    simp only [OsdpPd.derived, applyCaps, OsdpPd.capBit, hrx, hsc, hcrc, htrs,
      hrxc, hcrcc, if_pos]

/-- **What a report comes to.**  The table and the settings are what a
REPLY_PDCAP says exactly when every code survives the first unknown
record and the settings it does not mention are as they were set up; and
they come out the same whatever the PD announced before exactly when a
record of each code they are derived from is heard. -/
theorem cp_caps_of_report (env : Env) (run : List ApiCall → OsdpM Unit)
    (i : Nat) (payload : Bytes) (hid : payloadId payload = replyPdcap)
    (hlen : payload.tail.length % 3 = 0) :
    let es := entities payload.tail
    (∀ s, ∃ t, cpDecodeResponse env run i payload s = .ok cpErrNone t ∧
      (Reports es (t.pd i) ↔
        (∀ f < capSentinel, Survives es (s.pd i) f) ∧
          ((∃ c ∈ es, c.functionCode = capReceiveBuffersize) ∨
            (s.pd i).peerRxSize = 0) ∧
          ((∃ c ∈ es, c.functionCode = capCheckCharacterSupport) ∨
            (s.pd i).flags.cpUseCrc = true))) ∧
    ((∀ s s' t t',
        cpDecodeResponse env run i payload s = .ok cpErrNone t →
        cpDecodeResponse env run i payload s' = .ok cpErrNone t' →
        (t.pd i).derived = (t'.pd i).derived) ↔
      ∀ f ∈ derivedCodes, ∃ c ∈ heard es, c.functionCode = f) := by
  intro es
  constructor
  · intro s
    obtain ⟨t, ht, hpd⟩ := decodeResponse_pdcap hid hlen s
    refine ⟨t, ht, ?_⟩
    rw [hpd]
    exact applyCaps_reports (p := { s.pd i with replyId := replyPdcap })
  · rw [← derived_independent]
    constructor
    · intro h p q
      obtain ⟨t, ht, hpd⟩ := decodeResponse_pdcap hid hlen
        ({ pd := fun _ => p } : Osdp)
      obtain ⟨t', ht', hpd'⟩ := decodeResponse_pdcap hid hlen
        ({ pd := fun _ => q } : Osdp)
      have hsame := h _ _ _ _ ht ht'
      rw [hpd, hpd'] at hsame
      exact hsame
    · intro h s s' t t' ht ht'
      obtain ⟨u, hu, hpd⟩ := decodeResponse_pdcap hid hlen s
      obtain ⟨u', hu', hpd'⟩ := decodeResponse_pdcap hid hlen s'
      obtain rfl : u = t := by
        rw [hu] at ht
        injection ht
      obtain rfl : u' = t' := by
        rw [hu'] at ht'
        injection ht'
      rw [hpd, hpd']
      exact h { s.pd i with replyId := replyPdcap }
        { s'.pd i with replyId := replyPdcap }

end Decode

/-- A list with an unknown record before the packet size. -/
def unknownFirst : Bytes :=
  [UInt8.ofNat replyPdcap, 17, 0, 0,
    UInt8.ofNat capReceiveBuffersize, 0, 2]

/-- An environment, and a PD nothing is known of. -/
def anyEnv : Env := plainEnv (knownCipher []) fun _ => 0

def blankCp : Osdp := { pd := fun _ => { flags := { cpUseCrc := true } } }

/-- Of a list with an unknown record first, nothing is left. -/
theorem cp_caps_of_report_unknown :
    let es := entities unknownFirst.tail
    (∃ t, cpDecodeResponse anyEnv (fun _ => pure ()) 0 unknownFirst blankCp
        = .ok cpErrNone t ∧
      (Reports es (t.pd 0) ↔
        (∀ f < capSentinel, Survives es (blankCp.pd 0) f) ∧
          ((∃ c ∈ es, c.functionCode = capReceiveBuffersize) ∨
            (blankCp.pd 0).peerRxSize = 0) ∧
          ((∃ c ∈ es, c.functionCode = capCheckCharacterSupport) ∨
            (blankCp.pd 0).flags.cpUseCrc = true))) :=
  (cp_caps_of_report anyEnv (fun _ => pure ()) 0 unknownFirst (by decide)
    (by decide)).1 blankCp

/-- The packet size in that list is lost. -/
theorem unknown_record_hides_size :
    ∃ t, cpDecodeResponse anyEnv (fun _ => pure ()) 0 unknownFirst blankCp
        = .ok cpErrNone t ∧
      (t.pd 0).cap capReceiveBuffersize = {} ∧ (t.pd 0).peerRxSize = 0 ∧
      reported (entities unknownFirst.tail) capReceiveBuffersize
        = ⟨capReceiveBuffersize, 0, 2⟩ ∧
      ¬ Reports (entities unknownFirst.tail) (t.pd 0) := by
  obtain ⟨t, ht, hpd⟩ : ∃ t, cpDecodeResponse anyEnv (fun _ => pure ()) 0
        unknownFirst blankCp = .ok cpErrNone t ∧
      t.pd 0 = applyCaps
        { blankCp.pd 0 with
          replyId := replyPdcap
          cap := capsOf (blankCp.pd 0).cap unknownFirst.tail } :=
    decodeResponse_pdcap (by decide) (by decide) blankCp
  have hcap : (t.pd 0).cap capReceiveBuffersize = {} := by
    rw [hpd]
    rfl
  have hsize : (t.pd 0).peerRxSize = 0 := by
    rw [hpd]
    rfl
  refine ⟨t, ht, hcap, hsize, by decide, fun h => ?_⟩
  have hreported := h.cap capReceiveBuffersize (by decide)
  rw [hcap] at hreported
  exact absurd hreported (by decide)

end LibOsdp
