/-
Adding PDs in memory: all of it, or nothing.

# The account

From the moment the new array is there until `cp_add_pd` returns, the
state of the heap is told by two things: what the array holds, and which
blocks were asked for since and are the new records' own.  `Holds` says
both; everything else in the heap is as it was.  The array starts as the
old records with zeros behind them, each round of the loop turns the first
zero record into a built one and adds its resources to the account, the
sweep behind `error` takes them off again.

# What a context is

`CpMem.Sound m l`: the array of `m` holds the records `l`, as many as it
counts, and every engine context they point to lives and belongs to one of
them only.  That is what a successful call leaves behind again.
-/
import LibOsdp.Cp.AddPd

namespace LibOsdp.Mem

open Lib

-- ================================================================= blocks

section Blocks

variable {m : CpMem} {a : Nat} {b c : CpBlock}

theorem readBlock_run (h : m.heap.cell a = some b) :
    readBlock a m = .ok b m := by
  unfold readBlock
  rw [bind_eq (m := get) (s := m) rfl, h]
  rfl

theorem writeBlock_run (h : m.heap.cell a = some b) :
    writeBlock a c m = .ok () { m with heap := m.heap.store a c } := by
  unfold writeBlock
  rw [bind_eq (readBlock_run h)]
  rfl

theorem freeBlock_run (h : m.heap.cell a = some b) :
    freeBlock a m = .ok () { m with heap := m.heap.free a } := by
  unfold freeBlock
  rw [bind_eq (readBlock_run h)]
  rfl

theorem readPds_run {l : List PdRecord} (h : m.heap.cell a = some (.pds l)) :
    readPds a m = .ok l m := by
  unfold readPds
  rw [bind_eq (readBlock_run h)]
  rfl

/-- An attempt to get a block, either way. -/
theorem tryAlloc_cases (ok : Nat → Bool) (b : CpBlock) (m : CpMem) :
    ok m.heap.next = true ∧ tryAlloc ok b m
        = .ok (some m.heap.next) { m with heap := m.heap.alloc b } ∨
      ok m.heap.next = false ∧ tryAlloc ok b m
        = .ok none { m with heap := m.heap.skip } := by
  unfold tryAlloc
  rw [bind_eq (m := get) (s := m) rfl]
  cases hok : ok m.heap.next with
  | true =>
    refine .inl ⟨rfl, ?_⟩
    rw [if_pos rfl]
    rfl
  | false =>
    refine .inr ⟨rfl, ?_⟩
    rw [if_neg Bool.false_ne_true]
    rfl

end Blocks

-- ============================================================== the account

/-- A block of a record's own, if it has it. -/
def named (o : Option Nat) (b : CpBlock) : List (Nat × CpBlock) :=
  o.toList.map fun a => (a, b)

/-- What was acquired for a record. -/
def PdRecord.resources (r : PdRecord) : List (Nat × CpBlock) :=
  named r.packetCaptureCtx .pcap ++ named r.rxRb .ring

/-- The array at `new`, of `num` records, holds `l`; beside it, the blocks
`acq` live that `base` does not have. -/
structure Holds (base : Heap CpBlock) (cur : Option PdPtr) (num new : Nat)
    (l : List PdRecord) (acq : List (Nat × CpBlock)) (m : CpMem) :
    Prop where
  pd : m.pd = some new
  numPd : m.numPd = num
  currentPd : m.currentPd = cur
  heap : Acquired base ((new, .pds l) :: acq) m.heap

section Account

variable {base : Heap CpBlock} {cur : Option PdPtr} {num new : Nat}
variable {l : List PdRecord} {acq acq' : List (Nat × CpBlock)} {m : CpMem}
variable {k : Nat} {r : PdRecord}

theorem Holds.array (h : Holds base cur num new l acq m) :
    m.heap.cell new = some (.pds l) :=
  h.heap.held (new, .pds l) List.mem_cons_self

theorem Holds.perm (h : Holds base cur num new l acq m)
    (hp : acq.Perm acq') : Holds base cur num new l acq' m :=
  ⟨h.pd, h.numPd, h.currentPd, h.heap.perm (hp.cons _)⟩

/-- Reading a record. -/
theorem Holds.readPd (h : Holds base cur num new l acq m)
    (hr : l[k]? = some r) : readPd ⟨new, k⟩ m = .ok r m := by
  unfold Mem.readPd
  rw [bind_eq (readPds_run h.array)]
  dsimp only
  rw [hr]
  rfl

/-- Writing one. -/
theorem Holds.writePd (h : Holds base cur num new l acq m)
    (hr : l[k]? = some r) (f : PdRecord → PdRecord) :
    ∃ m', writePd ⟨new, k⟩ f m = .ok () m' ∧
      Holds base cur num new (l.set k (f r)) acq m' := by
  refine ⟨{ m with heap := m.heap.store new (.pds (l.set k (f r))) }, ?_,
    h.pd, h.numPd, h.currentPd, h.heap.store _⟩
  unfold Mem.writePd
  rw [bind_eq (readPds_run h.array), bind_eq (h.readPd hr)]
  exact writeBlock_run h.array

/-- Asking for a block. -/
theorem Holds.tryAlloc (h : Holds base cur num new l acq m)
    (ok : Nat → Bool) (b : CpBlock) :
    ∃ o m', tryAlloc ok b m = .ok o m' ∧
      Holds base cur num new l (named o b ++ acq) m' ∧
      (o = none → ∃ a, ok a = false) := by
  rcases tryAlloc_cases ok b m with ⟨-, hrun⟩ | ⟨hno, hrun⟩
  · refine ⟨_, _, hrun, ⟨h.pd, h.numPd, h.currentPd, ?_⟩, fun e => ?_⟩
    · exact (h.heap.alloc b).perm (.swap _ _ _)
    · cases e
  · exact ⟨_, _, hrun, ⟨h.pd, h.numPd, h.currentPd, h.heap.skip⟩,
      fun _ => ⟨_, hno⟩⟩

/-- Giving one back. -/
theorem Holds.safeFree {o : Option Nat} {b : CpBlock}
    (h : Holds base cur num new l (named o b ++ acq) m) :
    ∃ m', safeFree o m = .ok () m' ∧ Holds base cur num new l acq m' := by
  cases o with
  | none => exact ⟨m, rfl, h⟩
  | some a =>
    have hswap : Acquired base ((a, b) :: (new, .pds l) :: acq) m.heap :=
      h.heap.perm (.swap _ _ _)
    exact ⟨_, freeBlock_run (hswap.held (a, b) List.mem_cons_self), h.pd,
      h.numPd, h.currentPd, hswap.free⟩

end Account

-- ============================================================ one new record

/-- The record of a PD that was built at `idx`, its own blocks apart. -/
def builtRecord (env : Env) (idx : Nat) (info : PdInfo) : PdRecord :=
  { name := nameField (info.name.getD (defaultName info.address))
    idx := idx
    capturePkt := info.capturePackets
    data := cpSetupDevice env { info.toCpPdInfo with fileOps := false } }

/-- A record that was just allocated. -/
abbrev zeroRecord : PdRecord := {}

/-- The sweep behind `error` finds what was acquired for the record. -/
def Sweepable (al : AllocEnv) (r : PdRecord) : Prop :=
  r.packetCaptureCtx.isSome = true → isCaptureEnabled al r = true

/-- `r` is that record, and has its ring; it has a capture only where
packets are to be captured. -/
structure Built (env : Env) (al : AllocEnv) (idx : Nat) (info : PdInfo)
    (r : PdRecord) : Prop where
  record : r = { builtRecord env idx info with
    rxRb := r.rxRb, packetCaptureCtx := r.packetCaptureCtx }
  ring : r.rxRb.isSome
  capture : Sweepable al r
  accepted : cpInfoRefused info.toCpPdInfo = false

/-- The `k`-th record of the array is `r` by now. -/
structure Halfway (al : AllocEnv) (base : Heap CpBlock)
    (cur : Option PdPtr) (num new : Nat) (l : List PdRecord)
    (acq : List (Nat × CpBlock)) (k : Nat) (r : PdRecord) (m : CpMem) :
    Prop where
  holds : Holds base cur num new (l.set k r) (r.resources ++ acq) m
  sweep : Sweepable al r
  place : k < l.length

section Build

variable {env : Env} {al : AllocEnv}
variable {base : Heap CpBlock} {cur : Option PdPtr} {num new : Nat}
variable {l : List PdRecord} {acq : List (Nat × CpBlock)} {m : CpMem}
variable {k : Nat} {r : PdRecord} {info : PdInfo}

theorem Halfway.get (h : Halfway al base cur num new l acq k r m) :
    (l.set k r)[k]? = some r :=
  List.getElem?_set_self h.place

theorem Halfway.read (h : Halfway al base cur num new l acq k r m) :
    readPd ⟨new, k⟩ m = .ok r m :=
  h.holds.readPd h.get

/-- An assignment to members that are no blocks. -/
theorem Halfway.write (h : Halfway al base cur num new l acq k r m)
    (f : PdRecord → PdRecord) (hres : (f r).resources = r.resources)
    (hsweep : Sweepable al (f r)) :
    ∃ m', writePd ⟨new, k⟩ f m = .ok () m' ∧
      Halfway al base cur num new l acq k (f r) m' := by
  obtain ⟨m', hrun, hh⟩ := h.holds.writePd h.get f
  rw [List.set_set] at hh
  exact ⟨m', hrun, hres ▸ hh, hsweep, h.place⟩

/-- The ring. -/
theorem Halfway.rxStorage (h : Halfway al base cur num new l acq k r m)
    (hring : r.rxRb = none) (hcap : r.packetCaptureCtx = none) :
    ∃ o m', cpSetupPdRxStorage al ⟨new, k⟩ m = .ok o.isSome m' ∧
      Halfway al base cur num new l acq k { r with rxRb := o } m' ∧
      (o = none → ∃ a, al.calloc a = false) := by
  have hnone : r.resources = [] := by
    unfold PdRecord.resources
    rw [hring, hcap]
    rfl
  have hholds := h.holds
  rw [hnone, List.nil_append] at hholds
  obtain ⟨o, m₁, hrun, hh, hno⟩ := hholds.tryAlloc al.calloc .ring
  obtain ⟨m₂, hrun', hh'⟩ := hh.writePd h.get fun r => { r with rxRb := o }
  rw [List.set_set] at hh'
  have hres : PdRecord.resources { r with rxRb := o } = named o .ring := by
    unfold PdRecord.resources
    rw [hcap]
    rfl
  refine ⟨o, m₂, ?_, ⟨hres ▸ hh', fun e => ?_, h.place⟩, hno⟩
  · unfold cpSetupPdRxStorage
    rw [bind_eq hrun, bind_eq hrun']
    rfl
  · rw [show PdRecord.packetCaptureCtx { r with rxRb := o } = none from hcap]
      at e
    cases e

/-- The capture. -/
theorem Halfway.captureInit (h : Halfway al base cur num new l acq k r m)
    (hcap : r.packetCaptureCtx = none)
    (hon : isCaptureEnabled al r = true) :
    ∃ o m', osdpPacketCaptureInit al ⟨new, k⟩ m = .ok () m' ∧
      Halfway al base cur num new l acq k
        { r with packetCaptureCtx := o } m' := by
  obtain ⟨o, m₁, hrun, hh, -⟩ := h.holds.tryAlloc al.pcapStart .pcap
  obtain ⟨m₂, hrun', hh'⟩ := hh.writePd h.get
    fun r => { r with packetCaptureCtx := o }
  rw [List.set_set] at hh'
  have hres : PdRecord.resources { r with packetCaptureCtx := o } ++ acq
      = named o .pcap ++ (r.resources ++ acq) := by
    unfold PdRecord.resources
    rw [hcap, List.append_assoc]
    rfl
  refine ⟨o, m₂, ?_, ⟨hres ▸ hh', fun _ => hon, h.place⟩⟩
  unfold osdpPacketCaptureInit
  rw [bind_eq hrun]
  exact hrun'

/-- The record with the key, if there is one. -/
def keyed (key : Option Bytes) (r : PdRecord) : PdRecord :=
  match key with
  | none => r
  | some key => r.setScbk key

theorem keyed_capture (key : Option Bytes) (r : PdRecord) :
    (keyed key r).packetCaptureCtx = r.packetCaptureCtx := by
  cases key <;> rfl

/-- The key. -/
theorem Halfway.key (h : Halfway al base cur num new l acq k r m)
    (key : Option Bytes) :
    ∃ m', cpSetupKey ⟨new, k⟩ key m
        = .ok (key.isSome || !r.data.flags.enforceSecure) m' ∧
      Halfway al base cur num new l acq k (keyed key r) m' := by
  cases key with
  | none =>
    exact ⟨m, bind_eq h.read, h⟩
  | some key =>
    obtain ⟨m', hrun, hh⟩ := h.write (·.setScbk key) rfl h.sweep
    exact ⟨m', bind_eq hrun, hh⟩

/-- The rest. -/
theorem Halfway.finish (h : Halfway al base cur num new l acq k r m)
    (env : Env) (hcap : r.packetCaptureCtx = none) :
    ∃ o m', cpFinishPd env al ⟨new, k⟩ m = .ok () m' ∧
      Halfway al base cur num new l acq k
        { r.setFlags fun f => { f with pktSkipMark := env.skipMarkByte } with
          packetCaptureCtx := o } m' := by
  obtain ⟨m₁, hrun, hh⟩ := h.write
    (·.setFlags fun f => { f with pktSkipMark := env.skipMarkByte }) rfl
    h.sweep
  unfold cpFinishPd
  rw [bind_eq hrun, bind_eq hh.read]
  by_cases hon : isCaptureEnabled al
      (r.setFlags fun f => { f with pktSkipMark := env.skipMarkByte }) = true
  · rw [if_pos hon]
    exact hh.captureInit hcap hon
  · rw [if_neg hon]
    have hcap' : (r.setFlags fun f => { f with
        pktSkipMark := env.skipMarkByte }).packetCaptureCtx = none := hcap
    refine ⟨none, m₁, rfl, ?_⟩
    rw [← hcap']
    exact hh

/-- The assignments of the loop make that record. -/
theorem builtRecord_eq (env : Env) (k : Nat) (info : PdInfo) (rb : Nat)
    (cap : Option Nat) :
    ({ (keyed info.scbk { ((PdRecord.begin k info {}).setFlags fun f =>
          { f with scDisabled := true, cpUseCrc := true }) with
            rxRb := some rb }).setFlags
        fun f => { f with pktSkipMark := env.skipMarkByte } with
        packetCaptureCtx := cap } : PdRecord)
      = { builtRecord env k info with
          rxRb := (keyed info.scbk { ((PdRecord.begin k info {}).setFlags
            fun f => { f with scDisabled := true, cpUseCrc := true }) with
              rxRb := some rb }).rxRb
          packetCaptureCtx := cap } := by
  obtain ⟨⟨_, _, _, _, _, _, _, _, scbk, _⟩, _, _⟩ := info
  cases scbk <;> rfl

/-- One round of the loop: whatever comes of it, the record and what was
acquired for it are accounted for. -/
theorem cpBuildPd_run (env : Env) (al : AllocEnv) (info : PdInfo)
    (h : Holds base cur num new l acq m) (hr : l[k]? = some zeroRecord) :
    ∃ ok m' r, cpBuildPd env al ⟨new, k⟩ info m = .ok ok m' ∧
      Halfway al base cur num new l acq k r m' ∧
      (ok = true → Built env al k info r) ∧
      (ok = false → cpInfoRefused info.toCpPdInfo = true ∨
        ∃ a, al.calloc a = false) := by
  have hk : k < l.length := by
    by_contra hk
    rw [List.getElem?_eq_none (Nat.not_lt.mp hk)] at hr
    cases hr
  obtain ⟨m₁, hrun₁, hh₁⟩ := h.writePd hr (·.begin k info)
  have h₁ : Halfway al base cur num new l acq k
      (PdRecord.begin k info {}) m₁ := ⟨hh₁, fun e => (by cases e), hk⟩
  unfold cpBuildPd
  rw [bind_eq hrun₁]
  by_cases hconf : initFlagsConflict info.toCpPdInfo = true
  · rw [if_pos hconf]
    refine ⟨false, m₁, _, rfl, h₁, fun e => (by cases e), fun _ => .inl ?_⟩
    unfold initFlagsConflict at hconf
    unfold cpInfoRefused
    rw [Bool.and_eq_true] at hconf ⊢
    exact ⟨hconf.1, by rw [hconf.2]; rfl⟩
  · rw [if_neg hconf]
    obtain ⟨m₂, hrun₂, h₂⟩ := h₁.write
      (·.setFlags fun f => { f with scDisabled := true, cpUseCrc := true })
      rfl h₁.sweep
    obtain ⟨rb, m₃, hrun₃, h₃, hno⟩ := h₂.rxStorage rfl rfl
    rw [bind_eq hrun₂, bind_eq hrun₃]
    cases rb with
    | none =>
      exact ⟨false, m₃, _, rfl, h₃, fun e => (by cases e),
        fun _ => .inr (hno rfl)⟩
    | some rb =>
      obtain ⟨m₄, hrun₄, h₄⟩ := h₃.key info.scbk
      have hrun₄ : cpSetupKey ⟨new, k⟩ info.scbk m₃
        = .ok (info.scbk.isSome || !info.enforceSecure) m₄ := hrun₄
      rw [if_neg (show ¬ (!(some rb).isSome) = true from Bool.false_ne_true),
        bind_eq hrun₄]
      cases hkey : info.scbk.isSome || !info.enforceSecure with
      | false =>
        refine ⟨false, m₄, _, rfl, h₄, fun e => (by cases e),
          fun _ => .inl ?_⟩
        rw [Bool.or_eq_false_iff, Bool.not_eq_false'] at hkey
        unfold cpInfoRefused
        rw [hkey.2, ← Option.not_isSome, hkey.1, Bool.not_false, Bool.or_true]
        rfl
      | true =>
        obtain ⟨cap, m₅, hrun₅, h₅⟩ :=
          h₄.finish env ((keyed_capture info.scbk _).trans rfl)
        rw [if_neg (by decide), bind_eq hrun₅]
        refine ⟨true, m₅, _, rfl, h₅, fun _ => ⟨?_, ?_, h₅.sweep, ?_⟩,
          fun e => (by cases e)⟩
        · exact builtRecord_eq env k info rb cap
        · cases info.scbk <;> rfl
        · unfold cpInfoRefused
          unfold initFlagsConflict at hconf
          cases he : info.enforceSecure with
          | false => rfl
          | true =>
            rw [he, Bool.true_and] at hconf
            rw [he, Bool.not_true, Bool.or_false] at hkey
            rw [Bool.eq_false_of_not_eq_true hconf, ← Option.not_isSome, hkey]
            rfl

-- =============================================================== the loops

/-- The records `rs` were built for `infos`, from the index `k` on. -/
def BuiltAll (env : Env) (al : AllocEnv) :
    Nat → List PdInfo → List PdRecord → Prop
  | _, [], [] => True
  | k, info :: infos, r :: rs =>
    Built env al k info r ∧ BuiltAll env al (k + 1) infos rs
  | _, _, _ => False

/-- What was acquired for the records. -/
def resources (rs : List PdRecord) : List (Nat × CpBlock) :=
  rs.flatMap PdRecord.resources

theorem get_behind (l : List PdRecord) (r : PdRecord) (z : List PdRecord) :
    (l ++ r :: z)[l.length]? = some r := by
  rw [List.getElem?_append_right (Nat.le_refl _), Nat.sub_self]
  rfl

theorem set_behind (l : List PdRecord) (r r' : PdRecord)
    (z : List PdRecord) : (l ++ r :: z).set l.length r' = l ++ r' :: z := by
  rw [List.set_append_right _ _ (Nat.le_refl _), Nat.sub_self]
  rfl

/-- The loop, from behind the records `l` on.  Whether or not it ran to
the end, the records it worked on are accounted for. -/
theorem cpBuildPds_run (env : Env) (al : AllocEnv) (infos : List PdInfo)
    (h : Holds base cur num new (l ++ List.replicate infos.length zeroRecord) acq m) :
    ∃ ok m' rs z, cpBuildPds env al ⟨new, l.length⟩ infos m
        = .ok (ok, rs.length) m' ∧
      Holds base cur num new (l ++ (rs ++ z)) (resources rs ++ acq) m' ∧
      (∀ r ∈ rs, Sweepable al r) ∧
      (ok = true → z = [] ∧ BuiltAll env al l.length infos rs) ∧
      (ok = false → (∃ info ∈ infos, cpInfoRefused info.toCpPdInfo = true) ∨
        ∃ a, al.calloc a = false) := by
  induction infos generalizing l acq m with
  | nil =>
    exact ⟨true, m, [], [], rfl, h, fun _ hr => absurd hr List.not_mem_nil,
      fun _ => ⟨rfl, trivial⟩, fun e => (by cases e)⟩
  | cons info infos ih =>
    obtain ⟨ok, m₁, r, hrun, hh, hbuilt, hfail⟩ :=
      cpBuildPd_run env al info h (get_behind l zeroRecord _)
    have hholds := hh.holds
    rw [List.length_cons, List.replicate_succ, set_behind] at hholds
    cases ok with
    | false =>
      refine ⟨false, m₁, [r], List.replicate infos.length zeroRecord, ?_, ?_, ?_,
        fun e => (by cases e), fun _ => ?_⟩
      · unfold cpBuildPds
        rw [bind_eq hrun]
        rfl
      · have hres : resources [r] = r.resources := List.append_nil _
        rw [hres]
        exact hholds
      · intro x hx
        rw [List.mem_singleton.mp hx]
        exact hh.sweep
      · rcases hfail rfl with href | hno
        · exact .inl ⟨info, List.mem_cons_self, href⟩
        · exact .inr hno
    | true =>
      have hnext : Holds base cur num new
          ((l ++ [r]) ++ List.replicate infos.length zeroRecord)
          (r.resources ++ acq) m₁ := by
        rw [List.append_assoc]
        exact hholds
      obtain ⟨ok, m₂, rs, z, hrun₂, hh₂, hsweep, hall, hfail₂⟩ := ih hnext
      have hlen : (l ++ [r]).length = l.length + 1 := by
        rw [List.length_append]
        rfl
      rw [hlen] at hrun₂ hall
      refine ⟨ok, m₂, r :: rs, z, ?_, ?_, ?_, fun e => ?_, fun e => ?_⟩
      · unfold cpBuildPds
        rw [bind_eq hrun]
        exact bind_ok.mpr ⟨_, _, hrun₂, rfl⟩
      · rw [List.append_assoc] at hh₂
        refine hh₂.perm ?_
        show (resources rs ++ (r.resources ++ acq)).Perm
          ((r.resources ++ resources rs) ++ acq)
        rw [List.append_assoc]
        exact List.perm_append_comm_assoc ..
      · intro x hx
        rcases List.mem_cons.mp hx with rfl | hx
        · exact hh.sweep
        · exact hsweep x hx
      · exact ⟨(hall e).1, hbuilt rfl, (hall e).2⟩
      · rcases hfail₂ e with ⟨x, hx, href⟩ | hno
        · exact .inl ⟨x, List.mem_cons_of_mem _ hx, href⟩
        · exact .inr hno

/-- The sweep behind `error` gives back what was acquired. -/
theorem cpReleasePdResources_run {rs z : List PdRecord}
    (hsweep : ∀ r ∈ rs, Sweepable al r)
    (h : Holds base cur num new (l ++ (rs ++ z)) (resources rs ++ acq) m) :
    ∃ m', cpReleasePdResources al ⟨new, l.length⟩ rs.length m = .ok () m' ∧
      Holds base cur num new (l ++ (rs ++ z)) acq m' := by
  induction rs generalizing l m with
  | nil => exact ⟨m, rfl, h⟩
  | cons r rs ih =>
    have hget : (l ++ (r :: rs ++ z))[l.length]? = some r := get_behind l r _
    have hread := h.readPd hget
    have hacq : resources (r :: rs) ++ acq = named r.packetCaptureCtx .pcap ++
        (named r.rxRb .ring ++ (resources rs ++ acq)) := by
      show ((named _ _ ++ named _ _) ++ resources rs) ++ acq = _
      rw [List.append_assoc, List.append_assoc]
    rw [hacq] at h
    obtain ⟨m₁, hfree₁, h₁⟩ := h.safeFree
    obtain ⟨m₂, hfree₂, h₂⟩ := h₁.safeFree
    have hmove : l ++ (r :: rs ++ z) = (l ++ [r]) ++ (rs ++ z) := by
      rw [List.append_assoc]
      rfl
    rw [hmove] at h₂
    obtain ⟨m₃, hrun, h₃⟩ :=
      ih (fun x hx => hsweep x (List.mem_cons_of_mem _ hx)) h₂
    have hlen : (l ++ [r]).length = l.length + 1 := by
      rw [List.length_append]
      rfl
    rw [hlen] at hrun
    refine ⟨m₃, ?_, by rw [hmove]; exact h₃⟩
    have hcapture : cpReleaseCapture al r m = .ok () m₁ := by
      unfold cpReleaseCapture
      by_cases hon : isCaptureEnabled al r = true
      · rw [if_pos hon]
        exact hfree₁
      · -- then there is no capture to give back
        have hnone : r.packetCaptureCtx = none := by
          cases hc : r.packetCaptureCtx with
          | none => rfl
          | some a =>
            exact absurd (hsweep r List.mem_cons_self (by rw [hc]; rfl)) hon
        rw [hnone] at hfree₁
        rw [if_neg hon]
        exact hfree₁
    rw [List.length_cons, cpReleasePdResources, bind_eq hread,
      bind_eq hcapture, bind_eq hfree₂]
    exact hrun

end Build

-- ============================================================== rebinding

/-- The argument of its callback, where there is a callback. -/
def EngineCtx.rebind (e : EngineCtx) (pd : PdPtr) : EngineCtx :=
  if e.op.mp.eventCb then e.setArg pd else e

/-- The engine in a block, rebound. -/
def CpBlock.rebind (pd : PdPtr) : CpBlock → CpBlock
  | .engine e => .engine (e.rebind pd)
  | b => b

/-- `h'` is `h` with every engine `a` rebound to `own a`. -/
structure Rebound (own : Nat → Option PdPtr) (h h' : Heap CpBlock) :
    Prop where
  cell : ∀ a, h'.cell a = match own a with
    | none => h.cell a
    | some pd => (h.cell a).map (·.rebind pd)
  next : h'.next = h.next

section Rebind

variable {base base' : Heap CpBlock} {cur : Option PdPtr} {num new : Nat}
variable {l : List PdRecord} {acq : List (Nat × CpBlock)} {m : CpMem}
variable {own own' : Nat → Option PdPtr} {h h' h'' : Heap CpBlock}
variable {pd : PdPtr} {a : Nat}

theorem rebind_op (e : EngineCtx) (pd : PdPtr) : (e.rebind pd).op = e.op := by
  unfold EngineCtx.rebind
  split <;> rfl

/-- Only the last binding counts. -/
theorem rebind_rebind (e : EngineCtx) (pd pd' : PdPtr) :
    (e.rebind pd).rebind pd' = e.rebind pd' := by
  unfold EngineCtx.rebind
  by_cases he : e.op.mp.eventCb = true
  · rw [if_pos he, if_pos he, if_pos (show (e.setArg pd).op.mp.eventCb = true
      from he)]
    rfl
  · rw [if_neg he, if_neg he]

theorem block_rebind_rebind (b : CpBlock) (pd pd' : PdPtr) :
    (b.rebind pd).rebind pd' = b.rebind pd' := by
  cases b with
  | engine e => exact congrArg CpBlock.engine (rebind_rebind e pd pd')
  | pds l => rfl
  | ring => rfl
  | pcap => rfl

theorem Rebound.refl (h : Heap CpBlock) : Rebound (fun _ => none) h h :=
  ⟨fun _ => rfl, rfl⟩

theorem Rebound.trans (hr : Rebound own h h') (hr' : Rebound own' h' h'') :
    Rebound (fun a => own' a <|> own a) h h'' := by
  refine ⟨fun a => ?_, hr'.next.trans hr.next⟩
  rw [hr'.cell a, hr.cell a]
  cases own' a with
  | none => rfl
  | some pd' =>
    cases own a with
    | none => rfl
    | some pd =>
      show ((h.cell a).map _).map _ = (h.cell a).map _
      rw [Option.map_map]
      congr 1
      funext b
      exact block_rebind_rebind b pd pd'

/-- An engine stays one. -/
theorem Rebound.engine (hr : Rebound own h h') {e : EngineCtx}
    (he : h.cell a = some (.engine e)) :
    ∃ e', h'.cell a = some (.engine e') := by
  rw [hr.cell a, he]
  cases own a with
  | none => exact ⟨e, rfl⟩
  | some pd => exact ⟨e.rebind pd, rfl⟩

/-- One round of `osdp_engines_rebind`. -/
theorem rebindEngine_run (hh : Holds base cur num new l acq m)
    (o : Option Nat) (pd : PdPtr)
    (hlive : ∀ a, o = some a → ∃ e, base.cell a = some (.engine e)) :
    ∃ m' base', rebindEngine pd o m = .ok () m' ∧
      Holds base' cur num new l acq m' ∧
      Rebound (fun a => if o = some a then some pd else none) base base' := by
  cases o with
  | none => exact ⟨m, base, rfl, hh, .refl base⟩
  | some a =>
    obtain ⟨e, he⟩ := hlive a rfl
    have hcell := hh.heap.old he
    by_cases hcb : e.op.mp.eventCb = true
    · refine ⟨{ m with heap := m.heap.store a (.engine (e.setArg pd)) },
        base.store a (.engine (e.setArg pd)), ?_,
        ⟨hh.pd, hh.numPd, hh.currentPd, hh.heap.storeOld he _⟩,
        fun x => ?_, rfl⟩
      · rw [rebindEngine, bind_eq (readBlock_run hcell)]
        dsimp only
        rw [if_pos hcb]
        exact writeBlock_run hcell
      · by_cases hx : x = a
        · rw [hx, Heap.cell_store_same he, if_pos rfl, he]
          show _ = some (CpBlock.engine (e.rebind pd))
          unfold EngineCtx.rebind
          rw [if_pos hcb]
        · rw [Heap.cell_store_ne hx, if_neg fun e => hx (Option.some.inj e).symm]
    · refine ⟨m, base, ?_, hh, fun x => ?_, rfl⟩
      · rw [rebindEngine, bind_eq (readBlock_run hcell)]
        dsimp only
        rw [if_neg hcb]
        rfl
      · by_cases hx : x = a
        · rw [hx, if_pos rfl, he]
          show _ = some (CpBlock.engine (e.rebind pd))
          unfold EngineCtx.rebind
          rw [if_neg hcb]
        · rw [if_neg fun e => hx (Option.some.inj e).symm]

/-- The loop of `osdp_engines_rebind`. -/
theorem rebindEngines_run (hh : Holds base cur num new l acq m)
    (pd : PdPtr) (os : List (Option Nat))
    (hlive : ∀ a, some a ∈ os → ∃ e, base.cell a = some (.engine e)) :
    ∃ m' base', rebindEngines pd os m = .ok () m' ∧
      Holds base' cur num new l acq m' ∧
      Rebound (fun a => if some a ∈ os then some pd else none) base base' := by
  induction os generalizing base m with
  | nil => exact ⟨m, base, rfl, hh, .refl base⟩
  | cons o os ih =>
    obtain ⟨m₁, base₁, hrun₁, h₁, hr₁⟩ := rebindEngine_run hh o pd
      fun a ha => hlive a (ha ▸ List.mem_cons_self)
    obtain ⟨m₂, base₂, hrun₂, h₂, hr₂⟩ := ih h₁ fun a ha => by
      obtain ⟨e, he⟩ := hlive a (List.mem_cons_of_mem _ ha)
      exact hr₁.engine he
    refine ⟨m₂, base₂, ?_, h₂, ?_⟩
    · rw [rebindEngines, bind_eq hrun₁]
      exact hrun₂
    · have hown : (fun a => (if some a ∈ os then some pd else none) <|>
          if o = some a then some pd else none)
          = fun a => if some a ∈ o :: os then some pd else none := by
        funext a
        by_cases hos : some a ∈ os
        · rw [if_pos hos, if_pos (List.mem_cons_of_mem _ hos)]
          rfl
        · rw [if_neg hos]
          show (if o = some a then some pd else none) = _
          by_cases ho : o = some a
          · rw [if_pos ho, if_pos (ho ▸ List.mem_cons_self)]
          · rw [if_neg ho, if_neg]
            intro hm
            exact (List.mem_cons.mp hm).elim (fun e => ho e.symm) hos
      rw [← hown]
      exact hr₁.trans hr₂

/-- The PD an engine belongs to, among the records `rs` that lie in the
block `b` from the index `k` on. -/
def ownerIn (b : Nat) : Nat → List PdRecord → Nat → Option PdPtr
  | _, [], _ => none
  | k, r :: rs, a =>
    ownerIn b (k + 1) rs a <|>
      if some a ∈ r.engines then some ⟨b, k⟩ else none

/-- The loop of `cp_add_pd` over the PDs that were there. -/
theorem cpRebindPds_run {rs z : List PdRecord}
    (hh : Holds base cur num new (l ++ (rs ++ z)) acq m)
    (hlive : ∀ r ∈ rs, ∀ a, some a ∈ r.engines →
      ∃ e, base.cell a = some (.engine e)) :
    ∃ m' base', cpRebindPds ⟨new, l.length⟩ rs.length m = .ok () m' ∧
      Holds base' cur num new (l ++ (rs ++ z)) acq m' ∧
      Rebound (ownerIn new l.length rs) base base' := by
  induction rs generalizing l base m with
  | nil => exact ⟨m, base, rfl, hh, .refl base⟩
  | cons r rs ih =>
    have hread := hh.readPd (get_behind l r (rs ++ z))
    obtain ⟨m₁, base₁, hrun₁, h₁, hr₁⟩ :=
      rebindEngines_run hh ⟨new, l.length⟩ r.engines
        (hlive r List.mem_cons_self)
    have hmove : l ++ (r :: rs ++ z) = (l ++ [r]) ++ (rs ++ z) := by
      rw [List.append_assoc]
      rfl
    rw [hmove] at h₁
    obtain ⟨m₂, base₂, hrun₂, h₂, hr₂⟩ := ih h₁ fun x hx a ha => by
      obtain ⟨e, he⟩ := hlive x (List.mem_cons_of_mem _ hx) a ha
      exact hr₁.engine he
    have hlen : (l ++ [r]).length = l.length + 1 := by
      rw [List.length_append]
      rfl
    rw [hlen] at hrun₂ hr₂
    refine ⟨m₂, base₂, ?_, by rw [hmove]; exact h₂, hr₁.trans hr₂⟩
    have hone : osdpEnginesRebind ⟨new, l.length⟩ m = .ok () m₁ := by
      unfold osdpEnginesRebind
      rw [bind_eq hread]
      exact hrun₁
    rw [List.length_cons, cpRebindPds, bind_eq hone]
    exact hrun₂

end Rebind

-- ================================================================ contexts

/-- The context `m` has the records `l`: its array holds them, and the
engines they point to live, each of them one PD's own. -/
structure CpMem.Sound (m : CpMem) (l : List PdRecord) : Prop where
  num : m.numPd = l.length
  array : l = [] ∧ m.pd = none ∨
    l ≠ [] ∧ ∃ a, m.pd = some a ∧ m.heap.cell a = some (.pds l)
  engines : ∀ r ∈ l, ∀ a, some a ∈ r.engines →
    ∃ e, m.heap.cell a = some (.engine e)
  owned : ∀ (i j : Nat) (r r' : PdRecord) (a : Nat), l[i]? = some r →
    l[j]? = some r' → some a ∈ r.engines → some a ∈ r'.engines → i = j

/-- The context is as it was, and so is every block; that attempts were
made is all that is left of the call. -/
structure Undone (m m' : CpMem) : Prop where
  pd : m'.pd = m.pd
  numPd : m'.numPd = m.numPd
  currentPd : m'.currentPd = m.currentPd
  heap : m'.heap.cell = m.heap.cell

/-- The records `l` of `m` are in the array at `new` now, as they were and
where they were, and behind them records built for `infos`.  The engines
point to the new places.  The old array is gone, every other block is what
it was, and what lives besides belongs to the new records. -/
structure Extended (env : Env) (al : AllocEnv) (m : CpMem)
    (l : List PdRecord) (infos : List PdInfo) (new : Nat)
    (rs : List PdRecord) (m' : CpMem) : Prop where
  pd : m'.pd = some new
  numPd : m'.numPd = l.length + infos.length
  currentPd : m'.currentPd = some ⟨new, 0⟩
  array : m'.heap.cell new = some (.pds (l ++ rs))
  built : BuiltAll env al l.length infos rs
  fresh : m.heap.cell new = none
  acquired : ∀ p ∈ resources rs,
    m.heap.cell p.1 = none ∧ m'.heap.cell p.1 = some p.2
  distinct : (new :: (resources rs).map Prod.fst).Nodup
  rebound : ∀ (j : Nat) (r : PdRecord) (a : Nat) (e : EngineCtx),
    l[j]? = some r → some a ∈ r.engines →
    m.heap.cell a = some (.engine e) →
    m'.heap.cell a = some (.engine (e.rebind ⟨new, j⟩))
  dropped : ∀ a, m.pd = some a → m'.heap.cell a = none
  others : ∀ a, a ≠ new → m.pd ≠ some a →
    a ∉ (resources rs).map Prod.fst → (∀ r ∈ l, some a ∉ r.engines) →
    m'.heap.cell a = m.heap.cell a

section Context

variable {env : Env} {al : AllocEnv} {m m' : CpMem} {l rs : List PdRecord}
variable {infos : List PdInfo} {new a b : Nat} {r : PdRecord}

/-- A context without PDs. -/
theorem sound_empty (h : Heap CpBlock) (cur : Option PdPtr) :
    CpMem.Sound ⟨none, 0, cur, h⟩ [] :=
  ⟨rfl, .inl ⟨rfl, rfl⟩, fun _ hr => absurd hr List.not_mem_nil,
    fun i j r r' a hi => by cases hi⟩

/-- What is nobody's engine has no owner. -/
theorem ownerIn_none {k : Nat} (hno : ∀ r ∈ rs, some a ∉ r.engines) :
    ownerIn b k rs a = none := by
  induction rs generalizing k with
  | nil => rfl
  | cons r rs ih =>
    show (ownerIn b (k + 1) rs a <|> _) = _
    rw [ih fun x hx => hno x (List.mem_cons_of_mem _ hx),
      if_neg (hno r List.mem_cons_self)]
    rfl

/-- The engine of a PD has that owner. -/
theorem ownerIn_of_get {k j : Nat} (hr : rs[j]? = some r)
    (ha : some a ∈ r.engines)
    (hone : ∀ i r', rs[i]? = some r' → some a ∈ r'.engines → i = j) :
    ownerIn b k rs a = some ⟨b, k + j⟩ := by
  induction rs generalizing j k with
  | nil => cases hr
  | cons x rs ih =>
    cases j with
    | zero =>
      obtain rfl := Option.some.inj hr
      have hnone : ownerIn b (k + 1) rs a = none := by
        have hno : ∀ y ∈ rs, some a ∉ y.engines := by
          intro y hy hmem
          obtain ⟨i, hi⟩ := List.mem_iff_getElem?.mp hy
          have e := hone (i + 1) y (by rw [List.getElem?_cons_succ]; exact hi)
            hmem
          cases e
        exact ownerIn_none hno
      show (ownerIn b (k + 1) rs a <|> _) = _
      rw [hnone, if_pos ha]
      rfl
    | succ j =>
      rw [List.getElem?_cons_succ] at hr
      have hrec : ownerIn b (k + 1) rs a = some ⟨b, k + 1 + j⟩ :=
        ih hr fun i r' hi hmem => by
          have e := hone (i + 1) r'
            (by rw [List.getElem?_cons_succ]; exact hi) hmem
          omega
      show (ownerIn b (k + 1) rs a <|> _) = _
      rw [hrec, show k + 1 + j = k + (j + 1) by omega]
      rfl

/-- `m` with another heap. -/
abbrev CpMem.on (m : CpMem) (h : Heap CpBlock) : CpMem :=
  { m with heap := h }

/-- The heap when an array is wiped and given back. -/
def wiped (h : Heap CpBlock) (a n : Nat) : Heap CpBlock :=
  (h.store a (.pds (List.replicate n {}))).free a

theorem dropArray_run {z : List PdRecord}
    (h : m.heap.cell a = some (.pds z)) :
    dropArray (some a) m = .ok () (m.on (wiped m.heap a z.length)) := by
  have hfill : fillZeros a m = .ok ()
      (m.on (m.heap.store a (.pds (List.replicate z.length {})))) := by
    unfold fillZeros
    rw [bind_eq (readPds_run h)]
    exact writeBlock_run h
  rw [dropArray, bind_eq hfill]
  exact freeBlock_run (Heap.cell_store_same h)

/-- The old records are in the new array. -/
theorem copyOld_run {n : Nat} {cur : Option PdPtr} {num : Nat}
    (hs : m.Sound l)
    (h : Holds m.heap cur num new
      (List.replicate (l.length + n) zeroRecord) [] m') :
    ∃ t, copyOld m new m' = .ok () t ∧
      Holds m.heap cur num new (l ++ List.replicate n zeroRecord) [] t := by
  unfold copyOld
  rcases hs.array with ⟨rfl, -⟩ | ⟨hne, a, hpd, hcell⟩
  · refine ⟨m', ?_, ?_⟩
    · rw [if_neg (by rw [hs.num]; exact Nat.lt_irrefl 0)]
      rfl
    · rw [List.length_nil, Nat.zero_add] at h
      exact h
  · have hpos : 0 < m.numPd := by
      rw [hs.num]
      exact List.length_pos_iff.mpr hne
    have htake : l.take m.numPd ++
        (List.replicate (l.length + n) zeroRecord).drop m.numPd
        = l ++ List.replicate n zeroRecord := by
      rw [hs.num, List.take_length, List.drop_replicate,
        Nat.add_sub_cancel_left]
    refine ⟨m'.on (m'.heap.store new (.pds _)), ?_, h.pd, h.numPd,
      h.currentPd, h.heap.store _⟩
    rw [if_pos hpos, hpd, copyPds, bind_eq (readPds_run (h.heap.old hcell)),
      bind_eq (readPds_run h.array), ← htake]
    exact writeBlock_run h.array

/-- `cp_expand_pd_array`: there is no memory and nothing happened, or the
old records are in a new array. -/
theorem cpExpandPdArray_run (al : AllocEnv) (hs : m.Sound l) (n : Nat) :
    (∃ a, al.calloc a = false) ∧
      cpExpandPdArray al n m = .ok none (m.on m.heap.skip) ∨
    ∃ m', cpExpandPdArray al n m = .ok (some m.heap.next) m' ∧
      Holds m.heap m.currentPd (m.numPd + n) m.heap.next
        (l ++ List.replicate n zeroRecord) [] m' := by
  unfold cpExpandPdArray
  rw [bind_eq (m := get) (s := m) rfl]
  rcases tryAlloc_cases al.calloc
    (.pds (List.replicate (m.numPd + n) {})) m with
    ⟨-, hrun⟩ | ⟨hno, hrun⟩
  · refine .inr ?_
    rw [bind_eq hrun]
    dsimp only
    rw [bind_eq (m := modify _) (a := ()) rfl]
    have h₁ : Holds m.heap m.currentPd (m.numPd + n) m.heap.next
        (List.replicate (l.length + n) zeroRecord) []
        ⟨some m.heap.next, m.numPd + n, m.currentPd,
          m.heap.alloc (.pds (List.replicate (m.numPd + n) {}))⟩ := by
      rw [← hs.num]
      exact ⟨rfl, rfl, rfl, (Acquired.refl m.heap).alloc _⟩
    obtain ⟨t, hcopy, ht⟩ := copyOld_run hs h₁
    rw [bind_eq hcopy]
    exact ⟨t, rfl, ht⟩
  · refine .inl ⟨⟨_, hno⟩, ?_⟩
    rw [bind_eq hrun]
    rfl

/-- Behind `error`: everything is taken back. -/
theorem cpDropPds_run {z : List PdRecord} {num : Nat} (hs : m.Sound l)
    (hsweep : ∀ r ∈ rs, Sweepable al r)
    (h : Holds m.heap m.currentPd num new (l ++ (rs ++ z)) (resources rs)
      m') :
    ∃ t, cpDropPds al m new rs.length m' = .ok () t ∧ Undone m t := by
  rw [← List.append_nil (resources rs)] at h
  obtain ⟨m₁, hrun, h₁⟩ := cpReleasePdResources_run hsweep h
  rw [← hs.num] at hrun
  have hcell : ({ m₁ with pd := m.pd, numPd := m.numPd } : CpMem).heap.cell
      new = some (.pds (l ++ (rs ++ z))) := h₁.array
  unfold cpDropPds
  rw [bind_eq hrun, bind_eq (m := modify _) (a := ()) rfl]
  exact ⟨_, dropArray_run hcell, rfl, rfl, h₁.currentPd,
    ((h₁.heap.store _).free).done⟩

/-- The end of a call that built every PD. -/
theorem cpKeepPds_run {num : Nat} (hs : m.Sound l)
    (h : Holds m.heap m.currentPd num new (l ++ rs) (resources rs) m') :
    ∃ t base, cpKeepPds m new m' = .ok () t ∧
      Holds base (some ⟨new, 0⟩) num new (l ++ rs) (resources rs) t ∧
      (∀ a, m.pd = some a → base.cell a = none) ∧
      (∀ a, m.pd ≠ some a → base.cell a = match ownerIn new 0 l a with
        | none => m.heap.cell a
        | some pd => (m.heap.cell a).map (·.rebind pd)) := by
  have h₁ : Holds m.heap (some ⟨new, 0⟩) num new ([] ++ (l ++ rs))
      (resources rs) { m' with currentPd := some ⟨new, 0⟩ } :=
    ⟨h.pd, h.numPd, rfl, h.heap⟩
  obtain ⟨m₂, base, hrun, h₂, hr⟩ := cpRebindPds_run h₁ hs.engines
  have hloop : cpRebindPds ⟨new, 0⟩ m.numPd
      { m' with currentPd := some ⟨new, 0⟩ } = .ok () m₂ := by
    rw [hs.num]
    exact hrun
  unfold cpKeepPds
  rw [bind_eq (m := modify _) (a := ()) rfl]
  rcases hs.array with ⟨rfl, hpd⟩ | ⟨hne, a, hpd, hcell⟩
  · refine ⟨m₂, base, ?_, h₂, fun a ha => ?_, fun a _ => hr.cell a⟩
    · rw [bind_eq hloop, if_neg (by rw [hs.num]; exact Nat.lt_irrefl 0)]
      rfl
    · rw [hpd] at ha
      cases ha
  · -- the old array is still in its place
    have hold : base.cell a = some (.pds l) := by
      rw [hr.cell a, hcell]
      cases ownerIn new 0 l a <;> rfl
    have hpos : 0 < m.numPd := by
      rw [hs.num]
      exact List.length_pos_iff.mpr hne
    refine ⟨m₂.on (wiped m₂.heap a l.length), wiped base a l.length, ?_,
      ⟨h₂.pd, h₂.numPd, h₂.currentPd, ?_⟩, fun x hx => ?_, fun x hx => ?_⟩
    · rw [bind_eq hloop, if_pos hpos, hpd]
      exact dropArray_run (h₂.heap.old hold)
    · exact (h₂.heap.storeOld hold _).freeOld (Heap.cell_store_same hold)
    · rw [hpd] at hx
      rw [← Option.some.inj hx]
      exact Heap.cell_free_same
    · have hne : x ≠ a := fun e => hx (e ▸ hpd)
      unfold wiped
      rw [Heap.cell_free_ne hne, Heap.cell_store_ne hne]
      exact hr.cell x

/-- None of the records that were built has an engine yet. -/
theorem BuiltAll.no_engine {k : Nat} (h : BuiltAll env al k infos rs) :
    rs.length = infos.length ∧ ∀ r ∈ rs, ∀ a, some a ∉ r.engines := by
  induction rs generalizing k infos with
  | nil =>
    cases infos with
    | nil => exact ⟨rfl, fun _ hr => absurd hr List.not_mem_nil⟩
    | cons info infos => exact h.elim
  | cons r rs ih =>
    cases infos with
    | nil => exact h.elim
    | cons info infos =>
      obtain ⟨hlen, hno⟩ := ih h.2
      refine ⟨congrArg Nat.succ hlen, fun x hx a ha => ?_⟩
      rcases List.mem_cons.mp hx with rfl | hx
      · rw [h.1.record] at ha
        have ha : some a ∈ [none, none, none] := ha
        simp at ha
      · exact hno x hx a ha

/-- None of the configurations they were built for is refused. -/
theorem BuiltAll.accepted {k : Nat} (h : BuiltAll env al k infos rs) :
    ∀ info ∈ infos, cpInfoRefused info.toCpPdInfo = false := by
  induction infos generalizing k rs with
  | nil => exact fun _ hi => absurd hi List.not_mem_nil
  | cons info infos ih =>
    cases rs with
    | nil => exact h.elim
    | cons r rs =>
      intro x hx
      rcases List.mem_cons.mp hx with rfl | hx
      · exact h.1.accepted
      · exact ih h.2 x hx

/-- An array that was extended is a context's own again. -/
theorem Extended.sound (hs : m.Sound l) (hne : infos ≠ [])
    (h : Extended env al m l infos new rs m') : m'.Sound (l ++ rs) := by
  obtain ⟨hlen, hno⟩ := h.built.no_engine
  have hold {r : PdRecord} {a : Nat} (hr : r ∈ l ++ rs)
      (ha : some a ∈ r.engines) : r ∈ l :=
    (List.mem_append.mp hr).elim id fun hr => absurd ha (hno r hr a)
  have hget {i : Nat} {r : PdRecord} {a : Nat} (hr : (l ++ rs)[i]? = some r)
      (ha : some a ∈ r.engines) : l[i]? = some r := by
    rcases Nat.lt_or_ge i l.length with hi | hi
    · rwa [List.getElem?_append_left hi] at hr
    · rw [List.getElem?_append_right hi] at hr
      exact absurd ha (hno r (List.mem_of_getElem? hr) a)
  refine ⟨?_, .inr ⟨fun e => ?_, new, h.pd, h.array⟩, fun r hr a ha => ?_,
    fun i j r r' a hr hr' ha ha' =>
      hs.owned i j r r' a (hget hr ha) (hget hr' ha') ha ha'⟩
  · rw [h.numPd, List.length_append, hlen]
  · have hnil : rs = [] := (List.append_eq_nil_iff.mp e).2
    rw [hnil] at hlen
    exact hne (List.length_eq_zero_iff.mp hlen.symm)
  · obtain ⟨e, he⟩ := hs.engines r (hold hr ha) a ha
    obtain ⟨j, hj⟩ := List.mem_iff_getElem?.mp (hold hr ha)
    exact ⟨_, h.rebound j r a e hj ha he⟩

/-- In it every engine that is active calls back with the place its PD has
now. -/
theorem Extended.points (hs : m.Sound l)
    (h : Extended env al m l infos new rs m') {j : Nat} {e : EngineCtx}
    (hr : (l ++ rs)[j]? = some r) (ha : some a ∈ r.engines)
    (he : m'.heap.cell a = some (.engine e)) (hact : e.op.active = true) :
    e.eventArg = some ⟨new, j⟩ := by
  obtain ⟨-, hno⟩ := h.built.no_engine
  have hr : l[j]? = some r := by
    rcases Nat.lt_or_ge j l.length with hj | hj
    · rwa [List.getElem?_append_left hj] at hr
    · rw [List.getElem?_append_right hj] at hr
      exact absurd ha (hno r (List.mem_of_getElem? hr) a)
  obtain ⟨e', he'⟩ := hs.engines r (List.mem_of_getElem? hr) a ha
  have hnow := h.rebound j r a e' hr ha he'
  rw [he] at hnow
  obtain rfl := CpBlock.engine.inj (Option.some.inj hnow)
  have hcb : e'.op.mp.eventCb = true := by
    rw [rebind_op] at hact
    exact e'.armed hact
  unfold EngineCtx.rebind
  rw [if_pos hcb]
  rfl

/-- Every PD was built: the account is the extended context. -/
theorem extended_of_holds {base : Heap CpBlock} {m₁ : CpMem}
    (hs : m.Sound l) (hb : BuiltAll env al l.length infos rs)
    (h : Holds m.heap m.currentPd (m.numPd + infos.length) new (l ++ rs)
      (resources rs) m₁)
    (h' : Holds base (some ⟨new, 0⟩) (m.numPd + infos.length) new (l ++ rs)
      (resources rs) m')
    (hold : ∀ a, m.pd = some a → base.cell a = none)
    (hrest : ∀ a, m.pd ≠ some a → base.cell a = match ownerIn new 0 l a with
      | none => m.heap.cell a
      | some pd => (m.heap.cell a).map (·.rebind pd)) :
    Extended env al m l infos new rs m' where
  pd := h'.pd
  numPd := by rw [h'.numPd, hs.num]
  currentPd := h'.currentPd
  array := h'.array
  built := hb
  fresh := m.heap.beyond new (h.heap.fresh _ List.mem_cons_self)
  acquired := fun p hp =>
    ⟨m.heap.beyond p.1 (h.heap.fresh p (List.mem_cons_of_mem _ hp)),
      h'.heap.held p (List.mem_cons_of_mem _ hp)⟩
  distinct := h'.heap.distinct
  rebound := by
    intro j r a e hr ha he
    have hpd : m.pd ≠ some a := by
      intro hpd
      rcases hs.array with ⟨-, hnone⟩ | ⟨-, x, hx, hcell⟩
      · rw [hnone] at hpd
        cases hpd
      · rw [hx] at hpd
        rw [Option.some.inj hpd, he] at hcell
        cases hcell
    have hown : ownerIn new 0 l a = some ⟨new, 0 + j⟩ :=
      ownerIn_of_get hr ha fun i r' hi ha' =>
        hs.owned i j r' r a hi hr ha' ha
    have hbase := hrest a hpd
    rw [hown, he, Nat.zero_add] at hbase
    exact h'.heap.old hbase
  dropped := by
    intro a ha
    rcases hs.array with ⟨-, hnone⟩ | ⟨-, x, hx, hcell⟩
    · rw [hnone] at ha
      cases ha
    · rw [hx] at ha
      rw [Option.some.inj ha] at hcell
      rw [h'.heap.others a (h.heap.old_not_mem hcell)]
      exact hold a (by rw [hx]; exact ha)
  others := by
    intro a hnew hpd hres hno
    have hbase := hrest a hpd
    rw [ownerIn_none hno] at hbase
    rw [h'.heap.others a fun hm => (List.mem_cons.mp hm).elim hnew hres]
    exact hbase

-- ================================================================== result

/-- **All or nothing.**  `cp_add_pd` comes to an end on every context and
every list of configurations, and touches no block that does not live.
Where it fails, a configuration was refused or there was no memory; the
context, its records and every block are as they were, and nothing that
was acquired is left.  Where it succeeds the old records are the front of
the new array, the new ones follow in order, and every active engine calls
back with the place its PD has now. -/
theorem cp_add_pd_all_or_nothing (env : Env) (al : AllocEnv)
    (hs : m.Sound l) (hne : infos ≠ []) :
    ∃ ok m', cpAddPd env al infos m = .ok ok m' ∧
      (ok = false → Undone m m' ∧
        ((∃ info ∈ infos, cpInfoRefused info.toCpPdInfo = true) ∨
          ∃ a, al.calloc a = false)) ∧
      (ok = true →
        (∀ info ∈ infos, cpInfoRefused info.toCpPdInfo = false) ∧
        ∃ new rs, Extended env al m l infos new rs m' ∧
          m'.Sound (l ++ rs) ∧
          ∀ (j a : Nat) (r : PdRecord) (e : EngineCtx),
            (l ++ rs)[j]? = some r → some a ∈ r.engines →
            m'.heap.cell a = some (.engine e) → e.op.active = true →
            e.eventArg = some ⟨new, j⟩) := by
  unfold cpAddPd
  rw [bind_eq (m := get) (s := m) rfl]
  rcases cpExpandPdArray_run al hs infos.length with
    ⟨hno, hrun⟩ | ⟨m₁, hrun, h₁⟩
  · rw [bind_eq hrun]
    exact ⟨false, _, rfl, fun _ => ⟨⟨rfl, rfl, rfl, rfl⟩, .inr hno⟩,
      fun e => (by cases e)⟩
  · rw [bind_eq hrun]
    dsimp only
    obtain ⟨ok, m₂, rs, z, hbuild, h₂, hsweep, hall, hfail⟩ :=
      cpBuildPds_run env al infos h₁
    rw [List.append_nil] at h₂
    rw [hs.num, bind_eq hbuild]
    cases ok with
    | false =>
      obtain ⟨t, hdrop, hundone⟩ := cpDropPds_run hs hsweep h₂
      refine ⟨false, t, ?_, fun _ => ⟨hundone, hfail rfl⟩,
        fun e => (by cases e)⟩
      exact (bind_eq hdrop).trans rfl
    | true =>
      obtain ⟨rfl, hb⟩ := hall rfl
      rw [List.append_nil] at h₂
      obtain ⟨t, base, hkeep, h₃, hold, hrest⟩ := cpKeepPds_run hs h₂
      have hext : Extended env al m l infos m.heap.next rs t :=
        extended_of_holds hs hb h₂ h₃ hold hrest
      refine ⟨true, t, ?_, fun e => (by cases e), fun _ => ⟨hb.accepted, _,
        rs, hext, hext.sound hs hne, fun j a r e => hext.points hs⟩⟩
      exact (bind_eq hkeep).trans rfl

/-- A context of one PD, whose file transfer is running. -/
def busyRecord : PdRecord := { file := some 1 }

/-- That transfer. -/
def busyFile : EngineCtx :=
  { op := .file { mp := { state := .inprog, eventCb := true } }
    eventArg := some ⟨0, 0⟩
    armed := fun _ => rfl }

def busyMem : CpMem :=
  ⟨some 0, 1, some ⟨0, 0⟩,
    (Heap.empty.alloc (.pds [busyRecord])).alloc (.engine busyFile)⟩

theorem sound_busyMem : busyMem.Sound [busyRecord] := by
  refine ⟨rfl, .inr ⟨List.cons_ne_nil _ _, 0, rfl, rfl⟩, fun r hr a ha => ?_,
    fun i j r r' a hi hj _ _ => ?_⟩
  · rw [List.mem_singleton.mp hr] at ha
    have ha : some a ∈ [some 1, none, none] := ha
    have ha : a = 1 := by simpa using ha
    exact ⟨busyFile, by rw [ha]; rfl⟩
  · have hi := (List.getElem?_eq_some_iff.mp hi).1
    have hj := (List.getElem?_eq_some_iff.mp hj).1
    have hlen : [busyRecord].length = 1 := rfl
    omega

/-- A second PD is added to it: the transfer calls back with the new
place of its PD. -/
theorem cp_add_pd_busy :
    ∃ m' new e, cpAddPd (plainEnv (knownCipher []) fun _ => 0)
        ⟨fun _ => true, fun _ => true, false⟩ [{ address := 1 }] busyMem
          = .ok true m' ∧
      m'.pd = some new ∧ new ≠ 0 ∧ m'.numPd = 2 ∧
      m'.heap.cell 1 = some (.engine e) ∧ e.eventArg = some ⟨new, 0⟩ := by
  obtain ⟨ok, m', hrun, hfail, hok⟩ := cp_add_pd_all_or_nothing
    (plainEnv (knownCipher []) fun _ => 0)
    ⟨fun _ => true, fun _ => true, false⟩ sound_busyMem
    (List.cons_ne_nil ({ address := 1 } : PdInfo) [])
  cases ok with
  | false =>
    rcases (hfail rfl).2 with ⟨info, hi, href⟩ | ⟨a, ha⟩
    · rw [List.mem_singleton.mp hi] at href
      cases href
    · cases ha
  | true =>
    obtain ⟨-, new, rs, hext, -, -⟩ := hok rfl
    have hcell := hext.rebound 0 busyRecord 1 busyFile rfl
      List.mem_cons_self rfl
    refine ⟨m', new, busyFile.rebind ⟨new, 0⟩, hrun, hext.pd, ?_,
      hext.numPd, hcell, rfl⟩
    rintro rfl
    have hdead := hext.fresh
    cases hdead

-- ============================================================== the devices

/-- What the pointer of an engine leads to. -/
def engineAt (h : Heap CpBlock) (a : Nat) : Option EngineOp :=
  match h.cell a with
  | some (.engine e) => some e.op
  | _ => none

def EngineOp.file? : EngineOp → Option OsdpFile
  | .file f => some f
  | _ => none

def EngineOp.piv? : EngineOp → Option OsdpPiv
  | .piv p => some p
  | _ => none

def EngineOp.bio? : EngineOp → Option OsdpBio
  | .bio b => some b
  | _ => none

/-- The device a record and its engines are. -/
def PdRecord.device (h : Heap CpBlock) (r : PdRecord) : OsdpPd :=
  { r.data with
    file := r.file.bind (engineAt h) |>.bind EngineOp.file?
    piv := r.piv.bind (engineAt h) |>.bind EngineOp.piv?
    bio := r.bio.bind (engineAt h) |>.bind EngineOp.bio? }

/-- The CP that `m` with the records `l` is the memory of; `s` is what of
the CP is not kept there. -/
def CpMem.view (m : CpMem) (l : List PdRecord) (s : Osdp) : Osdp :=
  { s with
    numPd := l.length
    currentPd := (m.currentPd.map PdPtr.index).getD 0
    pd := fun j =>
      match l[j]? with
      | some r => r.device m.heap
      | none => s.pd j }

/-- Moving the records leaves the devices as they are. -/
theorem Extended.device (hs : m.Sound l)
    (h : Extended env al m l infos new rs m') {j : Nat}
    (hr : l[j]? = some r) : r.device m'.heap = r.device m.heap := by
  have hat (o : Option Nat) (ho : o ∈ r.engines) :
      o.bind (engineAt m'.heap) = o.bind (engineAt m.heap) := by
    cases o with
    | none => rfl
    | some a =>
      obtain ⟨e, he⟩ := hs.engines r (List.mem_of_getElem? hr) a ho
      show engineAt m'.heap a = engineAt m.heap a
      unfold engineAt
      rw [he, h.rebound j r a e hr ho he]
      exact congrArg some (rebind_op e _)
  have hfile := hat r.file (by simp [PdRecord.engines])
  have hpiv := hat r.piv (by simp [PdRecord.engines])
  have hbio := hat r.bio (by simp [PdRecord.engines])
  unfold PdRecord.device
  rw [hfile, hpiv, hbio]

/-- A new record is the device of its configuration. -/
theorem Built.device {k : Nat} {info : PdInfo} (hb : Built env al k info r)
    (h : Heap CpBlock) :
    r.device h = cpSetupDevice env { info.toCpPdInfo with fileOps := false } := by
  rw [hb.record]
  rfl

theorem BuiltAll.get {k j : Nat} (hb : BuiltAll env al k infos rs)
    {info : PdInfo} (hi : infos[j]? = some info) :
    ∃ r, rs[j]? = some r ∧ Built env al (k + j) info r := by
  induction infos generalizing k j rs with
  | nil => cases hi
  | cons x infos ih =>
    cases rs with
    | nil => exact hb.elim
    | cons r rs =>
      cases j with
      | zero =>
        obtain rfl := Option.some.inj hi
        exact ⟨r, rfl, hb.1⟩
      | succ j =>
        obtain ⟨r', hr', hb'⟩ := ih hb.2 hi
        exact ⟨r', hr', by rwa [show k + (j + 1) = k + 1 + j by omega]⟩

/-- The memory of `cp_add_pd` is the memory of the CP that the devices
alone describe. -/
theorem cp_add_pd_refines (hs : m.Sound l)
    (h : Extended env al m l infos new rs m') (s : Osdp) :
    LibOsdp.cpAddPd env (m.view l s)
        (infos.map fun i => { i.toCpPdInfo with fileOps := false })
      = some (m'.view (l ++ rs) s) := by
  obtain ⟨hlen, -⟩ := h.built.no_engine
  unfold LibOsdp.cpAddPd
  rw [if_neg]
  · refine congrArg some ?_
    unfold CpMem.view
    rw [h.currentPd]
    congr 1
    · rw [List.length_append, List.length_map, hlen]
    · funext j
      dsimp only
      rcases Nat.lt_or_ge j l.length with hj | hj
      · rw [List.getElem?_append_left hj, List.getElem?_eq_getElem hj]
        dsimp only
        rw [h.device hs (List.getElem?_eq_getElem hj)]
        split
        · rw [if_neg (Nat.not_le.mpr hj)]
        · rfl
      · rw [List.getElem?_append_right hj, List.getElem?_map,
          List.getElem?_eq_none hj]
        cases hi : infos[j - l.length]? with
        | none =>
          have hr : rs[j - l.length]? = none := by
            rw [List.getElem?_eq_none_iff] at hi ⊢
            omega
          rw [hr]
          rfl
        | some info =>
          obtain ⟨r, hr, hb⟩ := h.built.get hi
          rw [hr]
          dsimp only [Option.map]
          rw [if_pos hj, hb.device]
  · rw [Bool.not_eq_true, List.any_eq_false]
    intro i hi
    obtain ⟨info, hinfo, rfl⟩ := List.mem_map.mp hi
    rw [Bool.not_eq_true]
    exact h.built.accepted info hinfo

end Context

end LibOsdp.Mem
