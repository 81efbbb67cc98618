/-
The PD's public interface (osdp_pd.c, exported methods) and its runs.

A run is a list of inputs: refreshes, each with the time it happens at
and the bytes that arrived since the last one, and calls the application
makes between refreshes.  Calls it makes from inside a callback come from
`Env` instead and are run by `pdRunCalls`, to the depth the run allows.
-/
import LibOsdp.Pd.Update
import LibOsdp.Common.PlainEnv

namespace LibOsdp

open Lib

variable (env : Env)

-- =============================================================== events

/-- `pd_status_report_capacity`. -/
def pdStatusReportCapacity (p : OsdpPd) : StatusType → Int
  | .input => (p.cap capContactStatusMonitoring).numItems.toNat
  | .output => (p.cap capOutputControl).numItems.toNat
  | .local => 2
  | .reader => (p.cap capReaders).numItems.toNat
  | .unlisted _ => -1

/-- The card formats `osdp_pd_submit_event` lets through. -/
def cardFormatOk (f : CardFormat) : Bool :=
  f == .rawUnspecified || f == .rawWiegand

/-- The checks of `osdp_pd_submit_event` on the event itself. -/
def eventSubmittable (p : OsdpPd) (ev : OsdpEvent) : Bool :=
  (match ev with
    | .unlisted _ => false
    | .cardread _ f _ _ => cardFormatOk f
    | .status r =>
      let cap := pdStatusReportCapacity p r.type
      decide (0 ≤ cap) && r.nrEntries == cap
    | _ => true) &&
    decide (osdpEventReaderNo ev ≤ (p.cap capReaders).numItems.toNat)

/-- `osdp_pd_submit_event`. -/
def osdpPdSubmitEvent (i : Nat) (ev : SubmittedEvent) : OsdpM Int := do
  let s ← get
  if s.tearingDown ∨ env.eventCompletion.isNone then
    return -1
  let p ← getPd i
  if !eventSubmittable p ev.event then
    return -1
  updPd i fun p => { p with eventQueue := p.eventQueue ++ [ev] }
  return 0

section Nested

variable (run : List ApiCall → OsdpM Unit)

/-- The loop of `pd_drain_queue`, on the detached queue. -/
def pdDrain (status : CompletionStatus) : List SubmittedEvent → OsdpM Unit
  | [] => return
  | ev :: rest => do
    pdCompleteEvent env run (some ev) status
    pdDrain status rest

/-- `pd_drain_queue`. -/
def pdDrainQueue (i : Nat) (status : CompletionStatus) : OsdpM Unit := do
  let p ← getPd i
  updPd i fun p => { p with eventQueue := [] }
  pdDrain env run status p.eventQueue

/-- `osdp_pd_flush_events`. -/
def osdpPdFlushEvents (i : Nat) : OsdpM Unit := do
  let s ← get
  if s.tearingDown then
    return
  modify fun s => { s with running := true }
  pdDrainQueue env run i .flushed
  modify fun t => { t with running := s.running }

/-- The context while a refresh is on. -/
def Osdp.enter (s : Osdp) : Osdp := { s with isSealed := true, running := true }

/-- `osdp_pd_refresh`. -/
def osdpPdRefresh (i : Nat) : OsdpM Unit := do
  let s ← get
  if s.tearingDown ∨ s.running then
    return
  modify Osdp.enter
  osdpPdUpdate env run i
  modify fun s => { s with running := false }

/-- `osdp_pd_teardown`, short of freeing the memory. -/
def osdpPdTeardown (i : Nat) : OsdpM Unit := do
  let s ← get
  if s.tearingDown then
    return
  modify fun s => { s with tearingDown := true }
  pdDrainQueue env run i .aborted
  let p ← getPd i
  pdCompleteEvent env run p.activeEvent .aborted
  updPd i fun p =>
    { p with activeEvent := none, sc := {}, pending := zeros 16 }

/-- A call from inside a callback. -/
def pdApiCall : ApiCall → OsdpM Unit
  | .pdSubmitEvent ev => do let _ ← osdpPdSubmitEvent env 0 ev
  | .pdFlushEvents => osdpPdFlushEvents env run 0
  | _ => return

/-- The calls of one callback, in order. -/
def pdCalls : List ApiCall → OsdpM Unit
  | [] => return
  | c :: rest => do
    pdApiCall env run c
    pdCalls rest

end Nested

/-- Callbacks may nest `n` deep. -/
def pdRunCalls : Nat → List ApiCall → OsdpM Unit
  | 0, [] => return
  | 0, _ :: _ => throw .nesting
  | n + 1, calls => pdCalls env (pdRunCalls n) calls

-- ================================================================ setup

/-- `osdp_pd_set_attributes`, the capability list. -/
def setCaps (p : OsdpPd) : List PdCap → OsdpPd
  | [] => p
  | c :: rest =>
    if c.functionCode = 0 ∨ c.functionCode ≥ capSentinel then p
    else
      setCaps
        { p with cap := fun k => if k = c.functionCode then c else p.cap k }
        rest

/-- `osdp_pd_cap`: what every PD announces. -/
def implicitCaps : List PdCap :=
  [⟨capCheckCharacterSupport, 1, 0⟩, ⟨capCommunicationSecurity, 1, 0⟩,
   ⟨capReceiveBuffersize, byteOf packetBufSize 0, byteOf packetBufSize 1⟩,
   ⟨capOsdpVersion, 2, 0⟩]

/-- `osdp_pd_info_t`, as far as a PD reads it. -/
structure PdInfo where
  address : Nat
  baudRate : UInt32 := 9600
  enforceSecure : Bool := false
  installMode : Bool := false
  enableNotification : Bool := false
  allowEmptyEdb : Bool := false
  bioreadrMultipart : Bool := false
  scbk : Option Bytes := none
  cap : List PdCap := []
  id : PdId := {}
  /-- `osdp_file_register_ops` was called for the context -/
  fileOps : Bool := false

/-- The flags `osdp_pd_setup` leaves set. -/
def pdSetupFlags (info : PdInfo) : PdFlags :=
  { enforceSecure := info.enforceSecure
    installMode := info.installMode
    enableNotif := info.enableNotification
    allowEmptyEdb := info.allowEmptyEdb
    bioreadrMp := info.bioreadrMultipart
    scDisabled := info.scbk.isNone && !info.installMode
    scCapable := true
    pktSkipMark := env.skipMarkByte
    pdMode := true }

/-- The capabilities a PD without a key takes back. -/
def dropScCap (p : OsdpPd) : OsdpPd :=
  if p.scIsCapable then p
  else
    { p with
      cap := fun k =>
        if k = capCommunicationSecurity then
          { p.cap k with complianceLevel := 0 }
        else p.cap k }

/-- The device `osdp_pd_setup` starts with. -/
def pdSetupDevice (info : PdInfo) : OsdpPd :=
  let p : OsdpPd :=
    { flags := pdSetupFlags env info
      baudRate := info.baudRate
      address := info.address
      seqNumber := -1
      id := info.id
      packetBuf := .tx
      sc := { scbk := info.scbk.getD (zeros 16) }
      file := if info.fileOps then some {} else none }
  dropScCap (setCaps (setCaps p info.cap) implicitCaps)

/-- `osdp_pd_setup`; nothing where it refuses the configuration. -/
def osdpPdSetup (info : PdInfo) : Option Osdp :=
  if info.enforceSecure && info.installMode then none
  else if info.enforceSecure && info.scbk.isNone then none
  else some { numPd := 1, pd := fun _ => pdSetupDevice env info }

/-- `osdp_pd_set_capabilities`. -/
def osdpPdSetCapabilities (i : Nat) (cap : List PdCap) : OsdpM Int := do
  let s ← get
  if s.isSealed then
    return -1
  updPd i fun p => setCaps p cap
  updPd i fun p =>
    if (p.cap capCommunicationSecurity).complianceLevel = 0 then
      { p with flags := { p.flags with scDisabled := true } }
    else p
  return 0

-- ================================================================= runs

/-- What can happen to a PD from outside. -/
inductive PdInput where
  /-- a refresh at this time, these bytes having arrived before it -/
  | refresh (now : Int) (rx : Bytes)
  | submitEvent (ev : SubmittedEvent)
  | flushEvents
  | setCapabilities (cap : List PdCap)
  | teardown

/-- Time passed, and bytes arrived. -/
def Osdp.arrive (s : Osdp) (now : Int) (rx : Bytes) : Osdp :=
  { s with now := now, line := s.line ++ rx }

/-- One input, taken. -/
def pdStep (depth : Nat) : PdInput → OsdpM Unit
  | .refresh now rx => do
    modify (·.arrive now rx)
    osdpPdRefresh env (pdRunCalls env depth) 0
  | .submitEvent ev => do
    let _ ← osdpPdSubmitEvent env 0 ev
  | .flushEvents => osdpPdFlushEvents env (pdRunCalls env depth) 0
  | .setCapabilities cap => do
    let _ ← osdpPdSetCapabilities 0 cap
  | .teardown => osdpPdTeardown env (pdRunCalls env depth) 0

/-- `PdRun ok s l t`: the inputs `l` take the PD from `s` to `t`, each of
them acceptable to `ok` in the state it arrives in. -/
inductive PdRun (depth : Nat) (ok : Osdp → PdInput → Bool) :
    Osdp → List PdInput → Osdp → Prop where
  | nil (s : Osdp) : PdRun depth ok s [] s
  | snoc {s t u : Osdp} {l : List PdInput} {x : PdInput}
      (run : PdRun depth ok s l t) (accept : ok t x = true)
      (step : pdStep env depth x t = .ok () u) :
      PdRun depth ok s (l ++ [x]) u

/-- Any input at all. -/
def anyInput (_ : Osdp) (_ : PdInput) : Bool := true

/-- The run over these inputs, if each is acceptable and none faults. -/
def pdTake (depth : Nat) (ok : Osdp → PdInput → Bool) :
    List PdInput → Osdp → Option Osdp
  | [], s => some s
  | x :: rest, s =>
    if ok s x then
      match pdStep env depth x s with
      | .ok _ t => pdTake depth ok rest t
      | .error _ _ => none
    else none

/-- A run that was taken is a run. -/
theorem PdRun.append_take {env : Env} {depth : Nat}
    {ok : Osdp → PdInput → Bool} {s t u : Osdp} {l m : List PdInput}
    (h : PdRun env depth ok s l t) (hm : pdTake env depth ok m t = some u) :
    PdRun env depth ok s (l ++ m) u := by
  induction m generalizing l t with
  | nil =>
    cases hm
    rw [List.append_nil]
    exact h
  | cons x m ih =>
    unfold pdTake at hm
    split at hm
    · next hx =>
      cases hstep : pdStep env depth x t with
      | error e v =>
        rw [hstep] at hm
        cases hm
      | ok a v =>
        rw [hstep] at hm
        have hrun := ih (.snoc h hx hstep) hm
        rwa [List.append_assoc] at hrun
    · cases hm

/-- A run that was taken from where a PD begins. -/
theorem pdRun_of_setup (env : Env) (depth : Nat)
    (ok : Osdp → PdInput → Bool) (info : PdInfo) (l : List PdInput)
    (P : Osdp → Prop) [DecidablePred P]
    (h : ((osdpPdSetup env info).bind (pdTake env depth ok l)).any
      (fun t => decide (P t)) = true) :
    ∃ s t, osdpPdSetup env info = some s ∧ PdRun env depth ok s l t ∧
      P t := by
  cases hs : osdpPdSetup env info with
  | none =>
    rw [hs] at h
    cases h
  | some s =>
    rw [hs] at h
    cases ht : pdTake env depth ok l s with
    | none =>
      rw [Option.bind_some, ht] at h
      cases h
    | some t =>
      rw [Option.bind_some, ht] at h
      exact ⟨s, t, rfl, (PdRun.nil s).append_take ht, by simpa using h⟩

end LibOsdp
