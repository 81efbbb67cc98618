/-
What a pass of the CP's state machine touches.

# Calls

`OsdpPd.sansCalls` blanks what the application can change through the
public interface, at any PD and at any moment a callback gives it:
queues, engines, a request and four flags, the marker of the band and the
parameters of the presence scan.  `CallMoves` is the class of relations
closed under such changes, and under the requests to disable a PD and to
enable one that is disabled.

# Passes

A pass on PD `i` touches the others only as a call can.  What it does to
PD `i` itself comes in three sizes, each with its class of relations:
building and decoding frames (`FrameMoves`), conducting an exchange and
choosing a command (`CoreMoves`), and moving the state machine
(`PassMoves`).  Taking bytes off the line is apart (`ReadMoves`), and so
are the entries that mark a point of the protocol (`MarkMoves`).  One
traversal of the state machine serves every instance.
-/
import LibOsdp.Cp.Api
import LibOsdp.Engine.Proofs.Notices
import LibOsdp.Phy.Proofs.Footprint

namespace LibOsdp

open Lib

-- ================================================================= calls

/-- The entries a call or the notification of a transfer makes. -/
@[grind] def Obs.isCall : Obs → Bool
  | .command _ (.notification _) _ => true
  | .event .. | .file .. | .cmdDone .. | .accepted .. => true
  | _ => false

/-- A session of the card mode without what calls may change. -/
@[grind] def OsdpTrs.sansCalls (t : OsdpTrs) : OsdpTrs :=
  { t with
    bandOpen := false
    scan :=
      { t.scan with
        enabled := false, holding := false, lastStatus := .unknown
        mode0DwellMs := 0, mode1DwellMs := 0, holdMs := 0, backoffMs := 0
        tstamp := 0 } }

/-- The flags without those calls may change. -/
@[grind] def PdFlags.sansCalls (f : PdFlags) : PdFlags :=
  { f with
    enforceSecure := false, ignoreUsr := false, enableNotif := false
    allowEmptyEdb := false }

/-- A PD without what calls may change. -/
@[grind] def OsdpPd.sansCalls (p : OsdpPd) : OsdpPd :=
  { p with
    cmdQueue := []
    engineCmd := none
    engineCmdMpType := .fileTransfer
    file := none
    piv := none
    bio := none
    request := { p.request with offline := false }
    flags := p.flags.sansCalls
    trs := p.trs.sansCalls }

/-- A preorder on states that the application's calls stay within. -/
class CallMoves (R : Osdp → Osdp → Prop) : Prop extends
    IsPreorder Osdp R where
  call : ∀ s j f, (∀ p : OsdpPd, (f p).sansCalls = p.sansCalls) →
    R s (s.updPd j f)
  enable : ∀ s j, (s.pd j).state = .disabled →
    R s (s.updPd j fun p => { p with request := p.request.put .enable true })
  disable : ∀ s j,
    R s (s.updPd j fun p => { p with request := p.request.put .disable true })
  note : ∀ s o, Obs.isCall o → R s { s with log := o :: s.log }
  running : ∀ s b, R s { s with running := b }

/-- What the engines keep, calls keep. -/
theorem sansCalls_of_sansEngines {p q : OsdpPd}
    (h : p.sansEngines = q.sansEngines) : p.sansCalls = q.sansCalls := by
  have e := congrArg OsdpPd.sansCalls h
  exact e

/-- What callbacks and engines note, calls note. -/
theorem isCall_of_isNotice {o : Obs} (h : o.isNotice) : o.isCall := by
  unfold Obs.isNotice at h
  split at h <;> first | rfl | cases h

instance {R : Osdp → Osdp → Prop} [CallMoves R] : NoticeMoves R where
  engines s i f h := CallMoves.call s i f fun p => sansCalls_of_sansEngines (h p)
  fileOp s i op := CallMoves.note s (.file i op) rfl
  notice s o h := CallMoves.note s o (isCall_of_isNotice h)
  release s i := CallMoves.call s i _ fun _ => rfl

section Calls

variable {env : Env} {run : List ApiCall → OsdpM Unit}
variable {R : Osdp → Osdp → Prop} [CallMoves R]

theorem keeps_updPd_call {i : Nat} {f : OsdpPd → OsdpPd}
    (h : ∀ p : OsdpPd, (f p).sansCalls = p.sansCalls) :
    Keeps R (updPd i f) := by
  intro s a t e
  cases e
  exact CallMoves.call s i f h

@[grind ←]
theorem keeps_observe_call {o : Obs} (h : o.isCall) :
    Keeps R (observe o) := by
  intro s a t e
  cases e
  exact CallMoves.note s o h

theorem keeps_modify_running (b : Osdp → Bool) :
    Keeps R (modify fun s => { s with running := b s } : OsdpM Unit) :=
  .modify fun s => CallMoves.running s (b s)

section Callbacks

variable (hr : ∀ calls, Keeps R (run calls))
include hr

@[grind ←]
theorem keeps_cpNotify (i : Nat) (n : Notification) :
    Keeps R (cpNotify env run i n) := by
  unfold cpNotify
  grind

@[grind ←]
theorem keeps_cpNotifyPdStatus (i : Nat) (b : Bool) :
    Keeps R (cpNotifyPdStatus env run i b) :=
  keeps_cpNotify hr i _

@[grind ←]
theorem keeps_cpNotifyTrsStatus (i : Nat) (st : TrsSessionStatus) :
    Keeps R (cpNotifyTrsStatus env run i st) :=
  keeps_cpNotify hr i _

@[grind ←]
theorem keeps_cpNotifyPdId (i : Nat) : Keeps R (cpNotifyPdId env run i) := by
  unfold cpNotifyPdId
  grind

@[grind ←]
theorem keeps_cpNotifyScStatus (i : Nat) :
    Keeps R (cpNotifyScStatus env run i) := by
  unfold cpNotifyScStatus
  grind

theorem keeps_cpDrain (i : Nat) (st : CompletionStatus)
    (l : List SubmittedCmd) : Keeps R (cpDrain env run i st l) := by
  induction l with
  | nil => exact .pure _
  | cons c rest ih =>
    unfold cpDrain
    exact .bind (keeps_cpCompleteCmd hr i (some c) st) fun _ => ih

@[grind ←]
theorem keeps_cpDrainQueue (i : Nat) (st : CompletionStatus) :
    Keeps R (cpDrainQueue env run i st) := by
  unfold cpDrainQueue
  exact .bind (keeps_getPd i) fun p =>
    .bind (keeps_updPd_call fun _ => rfl) fun _ => keeps_cpDrain hr i st _

@[grind ←]
theorem keeps_osdpCpFlushCommands (i : Nat) :
    Keeps R (osdpCpFlushCommands env run i) := by
  have hu : Keeps R (updPd i fun p =>
      { p with
        trs :=
          { p.trs with bandOpen := p.flags.trsActive && p.trs.stopPending } }) :=
    keeps_updPd_call fun _ => rfl
  unfold osdpCpFlushCommands
  refine .bind .get fun s => ?_
  split
  · exact .pure _
  · exact .bind (keeps_modify_running fun _ => true) fun _ =>
      .bind (keeps_cpDrainQueue hr i _) fun _ =>
      .bind (keeps_modify_running fun _ => s.running) fun _ => hu

end Callbacks

-- ========================================================= plain calls

@[grind ←]
theorem keeps_cpSubmitEngine (i : Nat) (cmd : SubmittedCmd) (t : MpMsg)
    (started : Bool) : Keeps R (cpSubmitEngine i cmd t started) := by
  have hu : Keeps R (cpOwnEngineCmd i cmd t) :=
    keeps_updPd_call fun _ => rfl
  unfold cpSubmitEngine
  grind

@[grind ←]
theorem keeps_cpSubmitQueued (i : Nat) (cmd : SubmittedCmd) :
    Keeps R (cpSubmitQueued i cmd) := by
  have hb (b : Bool) : Keeps R (updTrs i fun t => { t with bandOpen := b }) :=
    keeps_updPd_call fun _ => rfl
  have hq : Keeps R (updPd i fun p =>
      { p with cmdQueue := p.cmdQueue ++ [cmd] }) :=
    keeps_updPd_call fun _ => rfl
  unfold cpSubmitQueued
  refine .bind (keeps_getPd i) fun p => ?_
  dsimp only
  split
  · exact .pure _
  · split
    · exact .pure _
    · next b _ => exact .bind (hb b) fun _ => .bind hq fun _ => .pure _

@[grind ←]
theorem keeps_cpSubmitCommand (i : Nat) (cmd : SubmittedCmd) :
    Keeps R (cpSubmitCommand env i cmd) := by
  unfold cpSubmitCommand
  grind

@[grind ←]
theorem keeps_osdpCpSubmitCommand (i : Nat) (cmd : SubmittedCmd) :
    Keeps R (osdpCpSubmitCommand env i cmd) := by
  have ho : Keeps R (observe (.accepted i cmd.node)) :=
    keeps_observe_call rfl
  unfold osdpCpSubmitCommand
  refine .bind .get fun s => ?_
  split
  · exact .pure _
  · refine .bind (keeps_modify_running fun _ => true) fun _ =>
      .bind (keeps_cpSubmitCommand i cmd) fun ok =>
      .bind (keeps_modify_running fun _ => s.running) fun _ => ?_
    split
    · exact .bind ho fun _ => .pure _
    · exact .pure _

@[grind ←]
theorem keeps_osdpCpCancel (i : Nat) (what : MpMsg) :
    Keeps R (osdpCpCancel i what) := by
  unfold osdpCpCancel
  grind

@[grind ←]
theorem keeps_osdpCpModifyFlag (i : Nat) (m : CpFlagMask) (b : Bool) :
    Keeps R (osdpCpModifyFlag i m b) := by
  have hu : Keeps R (updPd i fun p => { p with flags := m.apply b p.flags }) :=
    keeps_updPd_call fun _ => rfl
  unfold osdpCpModifyFlag
  grind

@[grind ←]
theorem keeps_osdpCpDisablePd (i : Nat) : Keeps R (osdpCpDisablePd i) := by
  have hu : Keeps R (makeRequest i .disable) := by
    intro s a t e
    rw [← updPd_ok.mp e]
    exact CallMoves.disable s i
  unfold osdpCpDisablePd
  grind

@[grind ←]
theorem keeps_osdpCpEnablePd (i : Nat) : Keeps R (osdpCpEnablePd i) := by
  intro s a t h
  obtain ⟨v, s', hg, h⟩ := bind_ok.mp h
  obtain ⟨rfl, rfl⟩ := get_ok.mp hg
  obtain ⟨p, s', hp, h⟩ := bind_ok.mp h
  obtain ⟨rfl, rfl⟩ := getPd_ok.mp hp
  split at h
  · obtain ⟨-, rfl⟩ := pure_ok.mp h
    exact refl_of R _
  · next hno =>
    simp only [not_or, not_not] at hno
    obtain ⟨_, u, hu, h⟩ := bind_ok.mp h
    obtain ⟨-, rfl⟩ := pure_ok.mp h
    rw [← updPd_ok.mp hu]
    exact CallMoves.enable _ i hno.2.1

@[grind ←]
theorem keeps_osdpCpTrsScanEnable (i : Nat) (params : TrsScanParams) :
    Keeps R (osdpCpTrsScanEnable i params) := by
  unfold osdpCpTrsScanEnable
  refine .bind .get fun s => ?_
  split
  · exact .pure _
  · exact .bind (keeps_updPd_call fun _ => rfl) fun _ => .pure _

@[grind ←]
theorem keeps_osdpCpTrsScanDisable (i : Nat) :
    Keeps R (osdpCpTrsScanDisable i) := by
  unfold osdpCpTrsScanDisable
  refine .bind .get fun s => ?_
  split
  · exact .pure _
  · exact .bind (keeps_updPd_call fun _ => rfl) fun _ => .pure _

@[grind ←]
theorem keeps_cpApiCall (hr : ∀ calls, Keeps R (run calls)) (c : ApiCall) :
    Keeps R (cpApiCall env run c) := by
  unfold cpApiCall
  grind

theorem keeps_cpCalls (hr : ∀ calls, Keeps R (run calls))
    (l : List ApiCall) : Keeps R (cpCalls env run l) := by
  induction l with
  | nil => exact .pure _
  | cons c rest ih =>
    unfold cpCalls
    exact .bind (keeps_cpApiCall hr c) fun _ => ih

/-- Teardown, where wiping a channel is within the relation. -/
theorem keeps_osdpCpTeardown (hr : ∀ calls, Keeps R (run calls))
    (hwipe : ∀ s i, R s (s.updPd i fun p =>
      { p with activeCmd := none, sc := {} }))
    (hdown : ∀ s : Osdp, R s { s with tearingDown := true }) :
    Keeps R (osdpCpTeardown env run) := by
  have hone (i : Nat) : Keeps R (cpTeardownPd env run i) := by
    have hu : Keeps R (updPd i fun p =>
        { p with activeCmd := none, sc := {} }) := by
      intro s a t e
      rw [← updPd_ok.mp e]
      exact hwipe s i
    unfold cpTeardownPd
    exact .bind (keeps_cpDrainQueue hr i _) fun _ =>
      .bind (keeps_getPd i) fun _ =>
      .bind (keeps_updPd_call fun _ => rfl) fun _ =>
      .bind (keeps_cpCompleteCmd hr i _ _) fun _ =>
      .bind (keeps_getPd i) fun _ =>
      .bind (keeps_cpCompleteCmd hr i _ _) fun _ => hu
  have hall (l : List Nat) : Keeps R (cpTeardownPds env run l) := by
    induction l with
    | nil => exact .pure _
    | cons i rest ih =>
      unfold cpTeardownPds
      exact .bind (hone i) fun _ => ih
  unfold osdpCpTeardown
  refine .bind .get fun s => ?_
  split
  · exact .pure _
  · exact .bind (.modify hdown) fun _ => hall _

/-- The calls a callback makes, however deep they nest. -/
theorem keeps_cpRunCalls (n : Nat) (calls : List ApiCall) :
    Keeps R (cpRunCalls env n calls) := by
  induction n generalizing calls with
  | zero =>
    cases calls with
    | nil => exact .pure _
    | cons c rest => exact .throw _
  | succ n ih => exact keeps_cpCalls ih calls

end Calls

-- ================================================================ passes

/-- The entries that mark a point of the protocol, and the PD they are
about. -/
@[grind] def Obs.markOf : Obs → Option Nat
  | .decoded i .. | .verdict i .. | .build i .. | .sessionKeys i ..
  | .challenged i .. | .scActivated i | .keyCommit i .. => some i
  | _ => none

/-- A preorder on states that what a pass does outside the PDs stays
within, as long as it takes nothing off the line. -/
class BusMoves (R : Osdp → Osdp → Prop) : Prop extends CallMoves R where
  entry : ∀ s o, Obs.markOf o = none → R s { s with log := o :: s.log }
  txBuf : ∀ s off data, R s { s with txBuf := writeAt s.txBuf off data }
  flush : ∀ s, R s { s with line := [] }
  drawn : ∀ s n, R s { s with drawn := n }

/-- A relation that allows the marks of PD `i` as well. -/
class MarkMoves (i : Nat) (R : Osdp → Osdp → Prop) : Prop where
  mark : ∀ s o, Obs.markOf o = some i → R s { s with log := o :: s.log }

/-- The flags without what frames, or calls, may change. -/
@[grind] def PdFlags.sansFrames (f : PdFlags) : PdFlags :=
  { f.sansCalls with
    pktHasMark := false, pktBroadcast := false, scCapable := false
    trsCapable := false, cpUseCrc := false }

/-- What a pass leaves alone unless a PD announces its capabilities: the
role, the packet size and capabilities it announced before, and whether
it is to be sent mark bytes. -/
@[grind] def OsdpPd.announced (p : OsdpPd) :
    Bool × Nat × (Nat → PdCap) × Bool :=
  (p.flags.pdMode, p.peerRxSize, p.cap, p.flags.pktSkipMark)

/-- A PD without what building frames and decoding them, the capabilities
of a PD apart, or calls, may change. -/
@[grind] def OsdpPd.sansFrames (p : OsdpPd) : OsdpPd :=
  { p.sansCalls with
    packetBuf := .tx
    packetLen := 0
    packetBufLen := 0
    seqNumber := 0
    phyTxSeq := 0
    pending := []
    id := {}
    address := 0
    baudRate := 0
    trs := {}
    tstamp := 0
    lastTxLen := 0
    flags := p.flags.sansFrames
    sc := { scbk := p.sc.scbk, cpRandom := p.sc.cpRandom } }

/-- A PD without what decoding its capabilities may change either. -/
@[grind] def OsdpPd.sansRecord (p : OsdpPd) : OsdpPd :=
  { p.sansFrames with peerRxSize := 0, cap := fun _ => {} }

/-- What of a PD only the state machine's transitions change. -/
structure PdCore where
  state : CpState
  scEstablished : Bool
  scUseScbkd : Bool
  scActive : Bool
  pdMode : Bool
  scDisabled : Bool
  installMode : Bool
  scbk : Bytes
  cpRandom : Bytes
  restartSc : Bool
  enable : Bool
  ring : Bytes

/-- That part of a PD. -/
@[grind] def OsdpPd.core (p : OsdpPd) : PdCore :=
  { state := p.state
    scEstablished := p.flags.scEstablished
    scUseScbkd := p.flags.scUseScbkd
    scActive := p.flags.scActive
    pdMode := p.flags.pdMode
    scDisabled := p.flags.scDisabled
    installMode := p.flags.installMode
    scbk := p.sc.scbk
    cpRandom := p.sc.cpRandom
    restartSc := p.request.restartSc
    enable := p.request.enable
    ring := p.rxRb }

/-- The receive ring, as a view of the PD. -/
@[grind] def OsdpPd.ring (p : OsdpPd) : Bytes := p.rxRb

/-- What of a PD the transitions leave to the exchange. -/
structure PdExchange where
  phyState : CpPhyState
  cmdId : Nat
  activeCmd : Option SubmittedCmd
  retries : Nat
  ring : Bytes

/-- That part of a PD. -/
@[grind] def OsdpPd.exchange (p : OsdpPd) : PdExchange :=
  { phyState := p.phyState
    cmdId := p.cmdId
    activeCmd := p.activeCmd
    retries := p.phyRetryCount
    ring := p.rxRb }

/-- Building and decoding frames of PD `i` is within the relation. -/
class FrameMoves (i : Nat) (R : Osdp → Osdp → Prop) : Prop where
  frame : ∀ s f, (∀ p : OsdpPd, (f p).sansFrames = p.sansFrames) →
    R s (s.updPd i f)

/-- So is storing the capabilities it announced. -/
class CapMoves (i : Nat) (R : Osdp → Osdp → Prop) : Prop where
  caps : ∀ s f, (∀ p : OsdpPd, (f p).sansRecord = p.sansRecord) →
    R s (s.updPd i f)

/-- A PD without what choosing and handing back a command may change
either. -/
@[grind] def OsdpPd.sansPick (p : OsdpPd) : OsdpPd :=
  { p.sansFrames with
    activeCmd := none
    request :=
      { p.sansFrames.request with trsOpen := false, trsScan := false } }

/-- So is choosing a command, and handing it back. -/
class PickMoves (i : Nat) (R : Osdp → Osdp → Prop) : Prop where
  pick : ∀ s f, (∀ p : OsdpPd, (f p).sansPick = p.sansPick) →
    R s (s.updPd i f)

/-- So is any other change of it short of a transition. -/
class CoreMoves (i : Nat) (R : Osdp → Osdp → Prop) : Prop where
  core : ∀ s f, (∀ p : OsdpPd, (f p).core = p.core) →
    (∀ p : OsdpPd, (f p).announced = p.announced) → R s (s.updPd i f)

/-- So is moving its state machine, which leaves the exchange alone or
lets go of it. -/
class PassMoves (i : Nat) (R : Osdp → Osdp → Prop) : Prop where
  pass : ∀ s f, (∀ p : OsdpPd, (f p).exchange = p.exchange) →
    (∀ p : OsdpPd, (f p).announced = p.announced) → R s (s.updPd i f)
  letGo : ∀ s f,
    (∀ p : OsdpPd, (f p).exchange = { p.exchange with phyState := .idle } ∨
      (f p).exchange =
        { p.exchange with phyState := .idle, retries := 0, ring := [] }) →
    (∀ p : OsdpPd, (f p).announced = p.announced) → R s (s.updPd i f)

/-- What frames keep, the choice of a command keeps. -/
theorem sansPick_of_sansFrames {p q : OsdpPd}
    (h : p.sansFrames = q.sansFrames) : p.sansPick = q.sansPick := by
  have e := congrArg OsdpPd.sansPick h
  exact e

/-- What the choice of a command keeps, the core keeps. -/
theorem core_of_sansPick {p q : OsdpPd}
    (h : p.sansPick = q.sansPick) : p.core = q.core := by
  have e := congrArg OsdpPd.core h
  exact e

theorem exchange_of_sansFrames {p q : OsdpPd}
    (h : p.sansFrames = q.sansFrames) : p.exchange = q.exchange := by
  have e := congrArg OsdpPd.exchange h
  exact e

theorem announced_of_sansPick {p q : OsdpPd}
    (h : p.sansPick = q.sansPick) : p.announced = q.announced := by
  have e := congrArg OsdpPd.announced h
  exact e

theorem announced_of_sansFrames {p q : OsdpPd}
    (h : p.sansFrames = q.sansFrames) : p.announced = q.announced := by
  have e := congrArg OsdpPd.announced h
  exact e

instance {i : Nat} {R : Osdp → Osdp → Prop} [PickMoves i R] :
    FrameMoves i R where
  frame s f h := PickMoves.pick s f fun p => sansPick_of_sansFrames (h p)

instance {i : Nat} {R : Osdp → Osdp → Prop} [CoreMoves i R] :
    PickMoves i R where
  pick s f h := CoreMoves.core s f (fun p => core_of_sansPick (h p))
    fun p => announced_of_sansPick (h p)

instance {i : Nat} {R : Osdp → Osdp → Prop} [PassMoves i R] :
    FrameMoves i R where
  frame s f h := PassMoves.pass s f
    (fun p => exchange_of_sansFrames (h p))
    fun p => announced_of_sansFrames (h p)

/-- A PD without what reception may change. -/
@[grind] def OsdpPd.sansRead (p : OsdpPd) : OsdpPd :=
  { p.sansFrames with rxRb := [], replyId := 0 }

/-- What the decoding of a frame does to a PD: the session may be dropped,
and the default key chosen where a PD may be installed. -/
structure ReadStep (p q : OsdpPd) : Prop where
  rest : { q.sansRead with flags := {} } = { p.sansRead with flags := {} }
  flags :
    { q.flags.sansFrames with scActive := false, scUseScbkd := false }
      = { p.flags.sansFrames with scActive := false, scUseScbkd := false }
  active : q.flags.scActive → p.flags.scActive
  select : q.flags.scUseScbkd → p.flags.scUseScbkd ∨ p.flags.installMode
  clear : p.flags.scUseScbkd → q.flags.scUseScbkd

/-- The reception of frames for PD `i` is within the relation. -/
class ReadMoves (i : Nat) (R : Osdp → Osdp → Prop) : Prop where
  read : ∀ s f, ReadStep (s.pd i) (f (s.pd i)) → R s (s.updPd i f)
  rxBuf : ∀ s b, R s { s with rxBuf := b }
  line : ∀ s l, R s { s with line := l }

section Bus

variable {env : Env} {R : Osdp → Osdp → Prop} [BusMoves R]

theorem pass_observe {o : Obs} (h : o.markOf = none) :
    Keeps R (observe o) := by
  intro s a t e
  cases e
  exact BusMoves.entry s o h

omit [BusMoves R] in
theorem mark_observe {i : Nat} [MarkMoves i R] {o : Obs}
    (h : o.markOf = some i) : Keeps R (observe o) := by
  intro s a t e
  cases e
  exact MarkMoves.mark s o h

theorem pass_writeBuf (off : Nat) (data : Bytes) :
    Keeps R (writeBuf .tx off data) := by
  intro s a t e
  cases e
  exact BusMoves.txBuf s _ _

theorem pass_osdpChannelSend (i : Nat) (data : Bytes) :
    Keeps R (osdpChannelSend env i data) := by
  intro s a t e
  cases e
  have hl : R s { s with line := if env.channelFlush then [] else s.line } := by
    by_cases h : env.channelFlush = true
    · simp only [h, if_true]
      exact BusMoves.flush s
    · simp only [h]
      exact refl_of R s
  exact trans_of R hl (BusMoves.entry _ _ (by rfl))

theorem pass_osdpFillRandom (n : Nat) : Keeps R (osdpFillRandom env n) := by
  intro s a t e
  cases e
  exact trans_of R (BusMoves.drawn s (s.drawn + n))
    (BusMoves.entry _ (.random s.drawn (randomBytes env s.drawn n)) (by rfl))

/-- The bytes on the line are thrown away. -/
theorem pass_flush :
    Keeps R (modify fun s => { s with line := [] } : OsdpM Unit) :=
  .modify fun s => BusMoves.flush s

end Bus

section Own

variable {i : Nat} {R : Osdp → Osdp → Prop}

theorem frame_updPd [FrameMoves i R] {f : OsdpPd → OsdpPd}
    (h : ∀ p : OsdpPd, (f p).sansFrames = p.sansFrames) :
    Keeps R (updPd i f) := by
  intro s a t e
  cases e
  exact FrameMoves.frame s f h

theorem pick_updPd [PickMoves i R] {f : OsdpPd → OsdpPd}
    (h : ∀ p : OsdpPd, (f p).sansPick = p.sansPick) :
    Keeps R (updPd i f) := by
  intro s a t e
  cases e
  exact PickMoves.pick s f h

theorem caps_updPd [CapMoves i R] {f : OsdpPd → OsdpPd}
    (h : ∀ p : OsdpPd, (f p).sansRecord = p.sansRecord) :
    Keeps R (updPd i f) := by
  intro s a t e
  cases e
  exact CapMoves.caps s f h

theorem core_updPd [CoreMoves i R] {f : OsdpPd → OsdpPd}
    (h : ∀ p : OsdpPd, (f p).core = p.core)
    (ha : ∀ p : OsdpPd, (f p).announced = p.announced) :
    Keeps R (updPd i f) := by
  intro s a t e
  cases e
  exact CoreMoves.core s f h ha

theorem pass_updPd [PassMoves i R] {f : OsdpPd → OsdpPd}
    (h : ∀ p : OsdpPd, (f p).exchange = p.exchange)
    (ha : ∀ p : OsdpPd, (f p).announced = p.announced) :
    Keeps R (updPd i f) := by
  intro s a t e
  cases e
  exact PassMoves.pass s f h ha

theorem frame_updTrs [FrameMoves i R] (f : OsdpTrs → OsdpTrs) :
    Keeps R (updTrs i f) :=
  frame_updPd fun _ => rfl

theorem core_setPhyState [CoreMoves i R] (st : CpPhyState) :
    Keeps R (setPhyState i st) :=
  core_updPd (fun _ => rfl) fun _ => rfl

theorem pick_setActiveCmd [PickMoves i R] (c : Option SubmittedCmd) :
    Keeps R (setActiveCmd i c) :=
  pick_updPd fun _ => rfl

theorem frame_osdpPhyProgressSequence [FrameMoves i R] :
    Keeps R (osdpPhyProgressSequence i) :=
  frame_updPd fun _ => rfl

theorem pass_makeRequest [PassMoves i R] (r : CpReq) :
    Keeps R (makeRequest i r) :=
  pass_updPd (fun _ => rfl) fun _ => rfl

theorem pass_scDeactivate [PassMoves i R] : Keeps R (scDeactivate i) :=
  pass_updPd (fun _ => rfl) fun _ => rfl

end Own

-- ================================================================ frames

section Frames

variable {env : Env} {run : List ApiCall → OsdpM Unit}
variable {i : Nat} {R : Osdp → Osdp → Prop} [BusMoves R] [FrameMoves i R]

attribute [local grind ←] frame_updPd frame_updTrs pass_observe
  pass_writeBuf pass_osdpChannelSend pass_osdpFillRandom

theorem frame_phyWriteHeader (p : OsdpPd) :
    Keeps R (phyWriteHeader i p) := by
  have hs (c : UInt8) : Keeps R (phyPacketStarted i c) :=
    frame_updPd fun _ => rfl
  unfold phyWriteHeader
  grind

theorem frame_osdpPhyPacketInit (maxLen : Nat) :
    Keeps R (osdpPhyPacketInit i maxLen) := by
  have hm (b : Bool) : Keeps R (phySetMark i b) := frame_updPd fun _ => rfl
  have hw (p : OsdpPd) : Keeps R (phyWriteHeader i p) :=
    frame_phyWriteHeader p
  unfold osdpPhyPacketInit
  grind

omit [BusMoves R] in
/-- Sealing a packet moves the MAC chain only. -/
theorem frame_phySealChannel (pkt : Bytes) (m : Nat) :
    Keeps R (phySealChannel env i pkt m) := by
  refine frame_updPd fun p => ?_
  have e := congrArg (fun c : OsdpSecureChannel => (c.scbk, c.cpRandom))
    (finalizePacket_sc env p pkt m)
  injection e with e₁ e₂
  dsimp only at e₁ e₂
  unfold OsdpPd.sansFrames
  dsimp only
  rw [e₁, e₂]
  rfl

theorem frame_osdpPhyFinalizePacket (len maxLen : Nat) :
    Keeps R (osdpPhyFinalizePacket env i len maxLen) := by
  have hs (pkt : Bytes) (m : Nat) : Keeps R (phySealChannel env i pkt m) :=
    frame_phySealChannel pkt m
  unfold osdpPhyFinalizePacket
  grind

omit [FrameMoves i R] in
theorem pass_osdpPhySendPacket (len : Nat) :
    Keeps R (osdpPhySendPacket env i len) := by
  unfold osdpPhySendPacket
  grind

omit [BusMoves R] in
theorem frame_osdpComputeSessionKeys [MarkMoves i R] [IsPreorder Osdp R] :
    Keeps R (osdpComputeSessionKeys env i) := by
  have ho (b : Bool) (sc : OsdpSecureChannel) :
      Keeps R (observe (.sessionKeys i b sc)) := mark_observe rfl
  unfold osdpComputeSessionKeys
  grind [computeSessionKeys]

theorem frame_cpTranslateCmd (p : OsdpPd) (c : OsdpCmd) :
    Keeps R (cpTranslateCmd p c) := by
  unfold cpTranslateCmd
  grind

attribute [local grind ←] frame_osdpPhyPacketInit
  frame_osdpPhyFinalizePacket pass_osdpPhySendPacket

section Build

variable (hr : ∀ calls, Keeps R (run calls))
include hr

theorem frame_cpBuildCases (cmd : Option OsdpCmd) (smb : Option Nat)
    (maxLen : Int) : Keeps R (cpBuildCases env run i cmd smb maxLen) := by
  have happ : Keeps R (buildAppCmd env i cmd maxLen) := by
    unfold buildAppCmd
    grind
  have hc : Keeps R (buildChlng i smb maxLen) := by
    unfold buildChlng
    grind
  have hs : Keeps R (buildScrypt env i smb maxLen) := by
    unfold buildScrypt
    grind [osdpComputeCpCryptogram]
  have hf : Keeps R (buildFiletransfer env run i maxLen) := by
    unfold buildFiletransfer
    grind
  have hp : Keeps R (buildPiv env run i maxLen) := by
    unfold buildPiv
    grind
  unfold cpBuildCases
  refine .bind (keeps_getPd i) fun p => ?_
  split <;> first | exact .pure _ | assumption

theorem frame_cpBuildCommand (cmd : Option OsdpCmd) (size : Nat) :
    Keeps R (cpBuildCommand env run i cmd size) := by
  have hcases (smb : Option Nat) (m : Int) :
      Keeps R (cpBuildCases env run i cmd smb m) :=
    frame_cpBuildCases hr cmd smb m
  have hpick (smb : Option Nat) (n : Nat) :
      Keeps R (cpPickBlockType i smb n) := by
    unfold cpPickBlockType
    grind
  have hfin (off : Nat) (smb : Option Nat) (b : CmdBody) :
      Keeps R (cpFinishCommand i off smb b) := by
    unfold cpFinishCommand
    grind
  unfold cpBuildCommand
  refine .bind (keeps_getPd i) fun p => .bind (keeps_readBuf _) fun buf => ?_
  dsimp only
  split
  · exact .pure _
  · exact .bind (pass_writeBuf _ _) fun _ =>
      .bind (hcases _ _) fun body => hfin _ _ body

theorem frame_cpBuildRest (size hdr : Nat) :
    Keeps R (cpBuildRest env run i size hdr) := by
  have hcmd (c : Option OsdpCmd) (n : Nat) :
      Keeps R (cpBuildCommand env run i c n) := frame_cpBuildCommand hr c n
  have hlen (n : Nat) : Keeps R (setPacketBufLen i n) :=
    frame_updPd fun _ => rfl
  unfold cpBuildRest
  refine .bind (hlen hdr) fun _ => .bind (keeps_getPd i) fun p =>
    .bind (hcmd _ size) fun built => ?_
  split
  · exact .pure _
  · grind

/-- Building a packet, the mark at its start apart. -/
theorem frame_cpBuildPacket {s t : Osdp} {ok : Bool}
    (h : cpBuildPacket env run i s = .ok ok t) :
    R { s with
        log := .build i (s.pd i).cmdId (s.pd i).flags.scActive :: s.log } t := by
  have hrest (size hdr : Nat) : Keeps R (cpBuildRest env run i size hdr) :=
    frame_cpBuildRest hr size hdr
  obtain ⟨p, u, hp, h⟩ := bind_ok.mp h
  obtain ⟨rfl, rfl⟩ := getPd_ok.mp hp
  obtain ⟨_, u, hu, h⟩ := bind_ok.mp h
  rw [observe_ok.mp hu]
  refine Keeps.of (R := R) ?_ h
  grind

-- ============================================================= the reply

omit [BusMoves R] [FrameMoves i R] hr in
/-- Capabilities are stored. -/
theorem caps_decodePdcap [IsPreorder Osdp R] [CapMoves i R] (data : Bytes) :
    Keeps R (decodePdcap i data) := by
  have hu : Keeps R (updPd i fun p =>
      applyCaps { p with cap := capsOf p.cap data }) :=
    caps_updPd fun _ => rfl
  unfold decodePdcap
  grind

/-- Every reply but one leaves the protocol's marks alone; the one that
stores capabilities is the caller's. -/
theorem frame_cpDecodeCases_ne {id : Nat} (hne : id ≠ replyCcrypt)
    (data : Bytes) (hcap : id = replyPdcap → Keeps R (decodePdcap i data)) :
    Keeps R (cpDecodeCases env run i id data) := by
  have hev (ev : Option OsdpEvent) : Keeps R (decodeEvent env run i ev) := by
    unfold decodeEvent
    grind
  have hact (ev : Option OsdpEvent) :
      Keeps R (decodeActivity env run i ev) := by
    unfold decodeActivity
    grind
  have hack : Keeps R (decodeAck env run i data) := by
    unfold decodeAck
    grind
  have hnak : Keeps R (decodeNakReply i data) := by
    unfold decodeNakReply
    grind [OsdpPd.setNak]
  have hid : Keeps R (decodePdid env run i data) := by
    unfold decodePdid
    grind
  have hcom : Keeps R (decodeCom i data) := by
    unfold decodeCom
    grind
  have hpiv : Keeps R (decodePivReply env run i data) := by
    unfold decodePivReply
    grind
  have hbio : Keeps R (decodeBioreadr env run i data) := by
    unfold decodeBioreadr
    refine .bind (keeps_getPd i) fun p => ?_
    split
    · exact hev _
    · grind
  have hft : Keeps R (decodeFtstat env run i data) := by
    unfold decodeFtstat
    grind
  have herr (b : Bool) : Keeps R (trsSetReplyError i b) :=
    frame_updPd fun _ => rfl
  have hin (act : TrsReplyAction) :
      Keeps R (decodeXrdInside env run i act) := by
    unfold decodeXrdInside
    grind
  have hout (act : TrsReplyAction) :
      Keeps R (decodeXrdOutside env run i act) := by
    unfold decodeXrdOutside
    grind
  have hxrd : Keeps R (decodeXrd env run i data) := by
    unfold decodeXrd
    grind
  have hrmac : Keeps R (decodeRmacI i data) := by
    unfold decodeRmacI
    grind
  unfold cpDecodeCases
  refine .bind (keeps_getPd i) fun p => ?_
  split <;>
    first
    | exact .pure _
    | exact hev _
    | exact hact _
    | assumption
    | exact absurd rfl hne
    | exact hcap rfl

theorem frame_cpDecodeCases [MarkMoves i R] (id : Nat) (data : Bytes)
    (hcap : id = replyPdcap → Keeps R (decodePdcap i data)) :
    Keeps R (cpDecodeCases env run i id data) := by
  by_cases hne : id = replyCcrypt
  · subst hne
    have hk : Keeps R (osdpComputeSessionKeys env i) :=
      frame_osdpComputeSessionKeys
    have hcc : Keeps R (decodeCcrypt env i data) := by
      unfold decodeCcrypt
      grind [takeCcrypt]
    unfold cpDecodeCases
    exact .bind (keeps_getPd i) fun p => hcc
  · exact frame_cpDecodeCases_ne hr hne data hcap

-- ========================================================== the session

theorem frame_cpLeaveTrs : Keeps R (cpLeaveTrs env run i) := by
  have hband : Keeps R (cpFlushTrsBand env run i) := by
    have hdrain (l : List SubmittedCmd) :
        Keeps R (cpDrainBand env run i l) := by
      induction l with
      | nil => exact .pure _
      | cons c rest ih =>
        unfold cpDrainBand
        grind
    unfold cpFlushTrsBand
    grind
  unfold cpLeaveTrs
  grind

theorem frame_cpTrsNext (err : Int) : Keeps R (cpTrsNext env run i err) := by
  unfold cpTrsNext
  grind

theorem frame_cpEnterTrsRun : Keeps R (cpEnterTrsRun env run i) := by
  unfold cpEnterTrsRun
  grind

end Build

end Frames

-- ================================================================= picks

section Pick

variable {env : Env} {run : List ApiCall → OsdpM Unit}
variable {i : Nat} {R : Osdp → Osdp → Prop} [BusMoves R] [PickMoves i R]

attribute [local grind ←] frame_updTrs pick_setActiveCmd

theorem pick_cpCmdDequeue : Keeps R (cpCmdDequeue i) := by
  unfold cpCmdDequeue
  refine .bind (keeps_getPd i) fun p => ?_
  split
  · exact .pure _
  · exact .bind (pick_updPd fun _ => rfl) fun _ => .pure _

theorem pick_cpGetPollCommand : Keeps R (cpGetPollCommand i) := by
  unfold cpGetPollCommand
  refine .bind (keeps_getPd i) fun p => .bind keeps_osdpMillisNow fun now => ?_
  split
  · exact .bind (pick_updPd fun _ => rfl) fun _ => .pure _
  · exact .pure _

attribute [local grind ←] pick_cpCmdDequeue pick_cpGetPollCommand

variable (hr : ∀ calls, Keeps R (run calls))
include hr

theorem pick_cpSetupActiveCmd (c : SubmittedCmd) :
    Keeps R (cpSetupActiveCmd env run i c) := by
  have ht (p : OsdpPd) : Keeps R (cpTranslateCmd p c.cmd) :=
    frame_cpTranslateCmd p c.cmd
  have hu : Keeps R (updPd i fun p =>
      { p with flags := { p.flags with pktBroadcast := true } }) :=
    pick_updPd fun _ => rfl
  unfold cpSetupActiveCmd
  grind

theorem pick_cpDiscardCmd (c : SubmittedCmd) (st : CompletionStatus) :
    Keeps R (cpDiscardCmd env run i c st) := by
  unfold cpDiscardCmd
  grind

attribute [local grind ←] pick_cpSetupActiveCmd pick_cpDiscardCmd

theorem pick_cpGetOnlineCommand :
    Keeps R (cpGetOnlineCommand env run i) := by
  have hscan : Keeps R (makeRequest i .trsScan) := pick_updPd fun _ => rfl
  have hopen : Keeps R (makeRequest i .trsOpen) := pick_updPd fun _ => rfl
  have hidle : Keeps R (cpGetIdleCommand i) := by
    unfold cpGetIdleCommand
    grind
  have hstaged : Keeps R (cpGetStagedCommand env run i) := by
    unfold cpGetStagedCommand
    grind
  have hengine : Keeps R (cpGetEngineCommand env run i) := by
    unfold cpGetEngineCommand
    grind
  unfold cpGetOnlineCommand
  grind

theorem pick_cpGetTrsCommand (rounds : Nat) :
    Keeps R (cpGetTrsCommand env run i rounds) := by
  have hidle : Keeps R (cpGetTrsIdleCommand i) := by
    unfold cpGetTrsIdleCommand
    grind
  have hband (c : SubmittedCmd) : Keeps R (cpGetBandCommand env run i c) := by
    unfold cpGetBandCommand
    grind
  have hadopt (c : SubmittedCmd) : Keeps R (cpAdoptProbe env run i c) := by
    unfold cpAdoptProbe
    grind
  induction rounds with
  | zero => exact .throw _
  | succ n ih =>
    unfold cpGetTrsCommand
    grind

attribute [local grind ←] pick_cpGetOnlineCommand pick_cpGetTrsCommand

theorem pick_stateGetCmd : Keeps R (stateGetCmd env run i) := by
  unfold stateGetCmd
  grind

theorem pick_cpSettleCommand (b : Bool) :
    Keeps R (cpSettleCommand env run i b) := by
  have hu : Keeps R (updPd i fun p =>
      { p with engineCmd := p.activeCmd, engineCmdMpType := .bioread }) :=
    pick_updPd fun _ => rfl
  unfold cpSettleCommand
  grind

omit [PickMoves i R] in
theorem pick_cpSettleFailure : Keeps R (cpSettleFailure env run i) := by
  have hab : Keeps R (cpAbortRefused env run i) := by
    unfold cpAbortRefused
    grind
  unfold cpSettleFailure
  grind

end Pick

-- ============================================================== exchange

section Exchange

variable {env : Env} {run : List ApiCall → OsdpM Unit}
variable {i : Nat} {R : Osdp → Osdp → Prop} [BusMoves R] [CoreMoves i R]

attribute [local grind ←] core_updPd frame_updTrs core_setPhyState
  pass_osdpPhySendPacket

omit [BusMoves R] in
theorem core_osdpPhyStateReset [IsPreorder Osdp R] :
    Keeps R (osdpPhyStateReset env i false) := by
  unfold osdpPhyStateReset
  exact .bind (core_updPd (fun _ => rfl) fun _ => rfl) fun _ => .pure _

theorem core_cpPhyFail : Keeps R (cpPhyFail i) := by
  unfold cpPhyFail
  grind

theorem core_cpPhyStateDone : Keeps R (cpPhyStateDone i) := by
  unfold cpPhyStateDone
  grind

theorem core_cpPhyRetry : Keeps R (cpPhyRetry i) := by
  unfold cpPhyRetry cpPhyStateWait
  grind

theorem core_cpAwaitReply : Keeps R (cpAwaitReply env i) := by
  have hreset : Keeps R (osdpPhyStateReset env i false) :=
    core_osdpPhyStateReset
  unfold cpAwaitReply
  grind

attribute [local grind ←] core_cpPhyFail core_cpPhyStateDone
  core_cpPhyRetry core_cpAwaitReply

theorem core_cpPhySend : Keeps R (cpPhySend env i) := by
  unfold cpPhySend
  grind

theorem core_cpPhyRewind : Keeps R (cpPhyRewind env i) := by
  have hu : Keeps R (updPd i fun p =>
      { p with seqNumber := (p.phyTxSeq : Int) - 1, phyState := .sendCmd }) :=
    core_updPd (fun _ => rfl) fun _ => rfl
  have hf := pass_flush (R := R)
  unfold cpPhyRewind
  grind

theorem core_cpPhyPause : Keeps R (cpPhyPause i) := by
  unfold cpPhyPause
  grind

theorem core_cpPhyAcknowledge (rc : Int) :
    Keeps R (cpPhyAcknowledge i rc) := by
  have hs : Keeps R (osdpPhyProgressSequence i) :=
    frame_osdpPhyProgressSequence
  unfold cpPhyAcknowledge
  grind

theorem core_cpPhyJudge (rc : Int) : Keeps R (cpPhyJudge i rc) := by
  unfold cpPhyJudge
  grind

variable (hr : ∀ calls, Keeps R (run calls))
include hr

/-- Building and sending a command, the mark of the build apart. -/
theorem core_cpPhyBuild {s t : Osdp} {err : Int}
    (h : cpPhyBuild env run i s = .ok err t) :
    R { s with
        log := .build i (s.pd i).cmdId (s.pd i).flags.scActive :: s.log } t := by
  have hs : Keeps R (cpPhySend env i) := core_cpPhySend
  obtain ⟨ok, u, hu, h⟩ := bind_ok.mp h
  have hsu := frame_cpBuildPacket hr hu
  refine trans_of R hsu (Keeps.of (R := R) ?_ h)
  grind

theorem core_cpKick : Keeps R (cpKick env run i) := by
  have hget : Keeps R (stateGetCmd env run i) := pick_stateGetCmd hr
  unfold cpKick
  grind

theorem core_cpDecodeResponse [CapMoves i R] [MarkMoves i R]
    (payload : Bytes) :
    Keeps R (cpDecodeResponse env run i payload) := by
  have hcases (id : Nat) (d : Bytes) :
      Keeps R (cpDecodeCases env run i id d) :=
    frame_cpDecodeCases hr id d fun _ => caps_decodePdcap d
  unfold cpDecodeResponse
  grind

end Exchange

-- =========================================================== transitions

section Pass

variable {env : Env} {run : List ApiCall → OsdpM Unit}
variable {i : Nat} {R : Osdp → Osdp → Prop}
variable [BusMoves R] [MarkMoves i R] [PassMoves i R]

attribute [local grind ←] pass_updPd pass_makeRequest
  pass_scDeactivate

omit [MarkMoves i R] in
@[local grind ←]
theorem pass_checkRequest (r : CpReq) : Keeps R (checkRequest i r) := by
  unfold checkRequest
  grind

omit [MarkMoves i R] in
theorem pass_osdpPhyStateReset (e : Bool) :
    Keeps R (osdpPhyStateReset env i e) := by
  intro s a t h
  obtain ⟨_, u, hu, h⟩ := bind_ok.mp h
  have hu := updPd_ok.mp hu
  split at h
  · obtain ⟨_, v, hv, h⟩ := bind_ok.mp h
    have hv := updPd_ok.mp hv
    rw [← hu, updPd_updPd] at hv
    have hsv : R s v := by
      rw [← hv]
      exact PassMoves.letGo s _ (fun _ => .inr rfl) fun _ => rfl
    refine trans_of R hsv ?_
    split at h
    · exact pass_flush.of h
    · exact (Keeps.pure (R := R) _).of h
  · obtain ⟨-, rfl⟩ := pure_ok.mp h
    rw [← hu]
    exact PassMoves.letGo s _ (fun _ => .inl rfl) fun _ => rfl

theorem pass_scActivate : Keeps R (scActivate i) :=
  .bind (pass_updPd (fun _ => rfl) fun _ => rfl) fun _ => mark_observe rfl

omit [MarkMoves i R] in
theorem pass_osdpScSetup : Keeps R (osdpScSetup env i) := by
  have hf (n : Nat) : Keeps R (osdpFillRandom env n) :=
    pass_osdpFillRandom n
  unfold osdpScSetup
  grind

attribute [local grind ←] pass_osdpPhyStateReset pass_scActivate
  pass_osdpScSetup

variable (hr : ∀ calls, Keeps R (run calls))
include hr

theorem pass_cpKeysetComplete : Keeps R (cpKeysetComplete env run i) := by
  have ho (k : Bytes) : Keeps R (observe (.keyCommit i k)) :=
    mark_observe rfl
  have hk : Keeps R (cpTakeKey i) := by
    unfold cpTakeKey
    grind
  unfold cpKeysetComplete
  grind

attribute [local grind ←] pass_cpKeysetComplete

theorem pass_cpSettle [PickMoves i R] (err : Int) :
    Keeps R (cpSettle env run i err) := by
  have hon : Keeps R (cpCheckOnlineResponse env run i) := by
    unfold cpCheckOnlineResponse
    grind
  have hcheck : Keeps R (stateCheckReply env run i) := by
    unfold stateCheckReply
    grind
  have hcmd (b : Bool) : Keeps R (cpSettleCommand env run i b) :=
    pick_cpSettleCommand hr b
  have hfail : Keeps R (cpSettleFailure env run i) :=
    pick_cpSettleFailure hr
  unfold cpSettle
  refine .bind hcheck fun status => .bind (hcmd status) fun _ => ?_
  split
  · exact .bind (.pure _) fun _ =>
      .bind (pass_osdpPhyStateReset false) fun _ => .pure _
  · exact .bind hfail fun _ =>
      .bind (pass_osdpPhyStateReset false) fun _ => .pure _

theorem pass_cpTransitionEffects (cur next : CpState) (err : Int) :
    Keeps R (cpTransitionEffects env run i cur next err) := by
  have hs (b : Bool) : Keeps R (setUseScbkd i b) := pass_updPd (fun _ => rfl) fun _ => rfl
  have ha : Keeps R (scActivate i) := pass_scActivate
  have hok : Keeps R (cpOkEffects env run i cur next) := by
    unfold cpOkEffects
    grind
  have herr : Keeps R (cpErrEffects env run i cur next) := by
    unfold cpErrEffects
    grind
  unfold cpTransitionEffects
  grind

theorem pass_cpProtocolNext (cur : CpState) (err : Int) :
    Keeps R (cpProtocolNext env run i cur err) := by
  have hreq (next : CpState) : Keeps R (cpOnlineRequests env i next) := by
    unfold cpOnlineRequests
    grind
  have htrs : Keeps R (cpTrsNext env run i err) := frame_cpTrsNext hr err
  have hnext : Keeps R (getNextState i err) := by
    unfold getNextState
    grind
  have heff (next : CpState) :
      Keeps R (cpTransitionEffects env run i cur next err) :=
    pass_cpTransitionEffects hr cur next err
  unfold cpProtocolNext
  grind

theorem pass_cpStateChange (cur next : CpState) :
    Keeps R (cpStateChange env run i cur next) := by
  have hupd (f : OsdpTrs → OsdpTrs) : Keeps R (updTrs i f) := frame_updTrs f
  have hleave : Keeps R (cpLeaveTrs env run i) := frame_cpLeaveTrs hr
  have hdrop : Keeps R (cpDropSessionRequests i) := pass_updPd (fun _ => rfl) fun _ => rfl
  have hab : Keeps R (osdpEnginesAbort env run i) := keeps_engines hr i
  have hoff : Keeps R (cpEnterOffline env run i) := by
    unfold cpEnterOffline
    grind
  have hdis : Keeps R (cpEnterDisabled env run i) := by
    unfold cpEnterDisabled
    grind
  have hsetup : Keeps R (cpEnterTrsSetup i) := pass_updPd (fun _ => rfl) fun _ => rfl
  have hrun : Keeps R (cpEnterTrsRun env run i) := frame_cpEnterTrsRun hr
  have ho (r : Bytes) : Keeps R (observe (.challenged i r)) :=
    mark_observe rfl
  have hchlng : Keeps R (cpEnterScChlng env i) := by
    unfold cpEnterScChlng
    grind
  have henter : Keeps R (cpEnter env run i cur next) := by
    unfold cpEnter
    grind
  unfold cpStateChange
  grind

theorem pass_cpAdvance (cur : CpState) (err : Int) :
    Keeps R (cpAdvance env run i cur err) := by
  have hupd (f : OsdpTrs → OsdpTrs) : Keeps R (updTrs i f) := frame_updTrs f
  have hp : Keeps R (cpProtocolNext env run i cur err) :=
    pass_cpProtocolNext hr cur err
  have hl (next : CpState) : Keeps R (cpLifecycle i next) := by
    unfold cpLifecycle
    grind
  have hc (next : CpState) : Keeps R (cpStateChange env run i cur next) :=
    pass_cpStateChange hr cur next
  unfold cpAdvance
  grind

/-- From an exchange that is over to the end of the pass. -/
theorem pass_cpProceed [CoreMoves i R] (cur : CpState) :
    Keeps R (cpProceed env run i cur) := by
  have hk : Keeps R (cpKick env run i) := core_cpKick hr
  have hs (err : Int) : Keeps R (cpSettle env run i err) :=
    pass_cpSettle hr err
  have ha (err : Int) : Keeps R (cpAdvance env run i cur err) :=
    pass_cpAdvance hr cur err
  unfold cpProceed
  grind

end Pass

-- =============================================================== reading

section Read

variable {env : Env} {run : List ApiCall → OsdpM Unit}
variable {i : Nat} {R : Osdp → Osdp → Prop}
variable [BusMoves R] [ReadMoves i R]

omit [BusMoves R] in
theorem read_updPd {f : OsdpPd → OsdpPd}
    (h : ∀ p : OsdpPd, (f p).sansRead = p.sansRead) :
    Keeps R (updPd i f) := by
  intro s a t e
  cases e
  have hs := h (s.pd i)
  refine ReadMoves.read s f ⟨?_, ?_, ?_, ?_, ?_⟩
  · rw [hs]
  · have e := congrArg (fun p : OsdpPd =>
      { p.flags with scActive := false, scUseScbkd := false }) hs
    exact e
  all_goals
    have e := congrArg (fun p : OsdpPd =>
      (p.flags.scActive, p.flags.scUseScbkd)) hs
    injection e with e₁ e₂
    have e₁ : (f (s.pd i)).flags.scActive = (s.pd i).flags.scActive := e₁
    have e₂ : (f (s.pd i)).flags.scUseScbkd = (s.pd i).flags.scUseScbkd := e₂
    simp_all

omit [BusMoves R] in
theorem read_scDeactivate : Keeps R (scDeactivate i) := by
  intro s a t e
  cases e
  exact ReadMoves.read s _ ⟨rfl, rfl, nofun, .inl, id⟩

/-- The buffers, for either direction. -/
theorem read_writeBuf (j : Nat) [ReadMoves j R] (ref : BufRef) (off : Nat)
    (d : Bytes) : Keeps R (writeBuf ref off d) := by
  intro s a t e
  unfold writeBuf at e
  split at e <;> cases e
  · exact BusMoves.txBuf s _ _
  · exact ReadMoves.rxBuf j s _

/-- Bytes off the line fill the ring. -/
theorem read_osdpChannelReceive : Keeps R (osdpChannelReceive i) := by
  intro s a t e
  cases e
  exact trans_of R (ReadMoves.line i s _)
    (ReadMoves.read _ _ ⟨rfl, rfl, id, .inl, id⟩)

attribute [local grind ←] read_updPd pass_observe

/-- Reception acts on PD `i`, the buffers and the line. -/
theorem read_osdpPhyCheckPacket : Keeps R (osdpPhyCheckPacket env i) := by
  have hw (ref : BufRef) (off : Nat) (d : Bytes) :
      Keeps R (writeBuf ref off d) := read_writeBuf i ref off d
  have hsend (d : Bytes) : Keeps R (osdpChannelSend env i d) :=
    pass_osdpChannelSend i d
  have hrecv : Keeps R (osdpChannelReceive i) := read_osdpChannelReceive
  have hm (b : Bool) : Keeps R (phySetMark i b) := read_updPd fun _ => rfl
  have hdrop : Keeps R (scDeactivate i) := read_scDeactivate
  have hr : Keeps R (phyReceive i) := by
    unfold phyReceive
    grind
  have htop (n : Nat) : Keeps R (phyTopUp i n) := by
    unfold phyTopUp
    grind
  have hstart : Keeps R (phyFindStart i) := by
    unfold phyFindStart
    refine .bind (keeps_getPd i) fun p => ?_
    split
    · exact .pure _
    · split
      · exact .bind (read_updPd fun _ => rfl) fun _ => .pure _
      · exact .bind (hw _ _ _) fun _ =>
          .bind (read_updPd fun _ => rfl) fun _ => .pure _
  have hfill : Keeps R (phyFillHeader i) := by
    unfold phyFillHeader
    grind
  have hlen (n : Nat) :
      Keeps R (updPd i fun p => { p with packetBufLen := n }) :=
    read_updPd fun _ => rfl
  have hjudge : Keeps R (phyJudgeHeader i) := by
    unfold phyJudgeHeader
    refine .bind (keeps_getPd i) fun p => .bind (keeps_readBuf _) fun buf =>
      .bind (hm _) fun _ => ?_
    split
    · exact .bind (hw _ _ _) fun _ => .bind (hlen _) fun _ =>
        .bind (hm _) fun _ => .pure _
    · exact .pure _
  have hhead : Keeps R (phyCheckHeader i) := by
    unfold phyCheckHeader
    grind
  have hcomp : Keeps R (phyComplete i) := by
    unfold phyComplete
    grind
  have hasm : Keeps R (phyAssemble i) := by
    have hset (n : Nat) :
        Keeps R (updPd i fun p => { p with packetLen := n }) :=
      read_updPd fun _ => rfl
    unfold phyAssemble
    refine .bind hr fun _ => .bind (keeps_getPd i) fun p => ?_
    split
    · refine .bind hhead fun ret => ?_
      split
      · exact .pure _
      · exact .bind (hset _) fun _ => hcomp
    · exact hcomp
  have hseq (fr : Bytes) : Keeps R (phyCheckSequence i fr) := by
    unfold phyCheckSequence
    grind [OsdpPd.nak, OsdpPd.setNak]
  have hcp (fr : Bytes) : Keeps R (phyCheckPacketCp i fr) := by
    unfold phyCheckPacketCp
    grind
  have hre : Keeps R (phyRestart i) := by
    unfold phyRestart
    grind
  have hresend (fr rest : Bytes) : Keeps R (phyResend env i fr rest) := by
    unfold phyResend
    grind
  have hacc (fr : Bytes) : Keeps R (phyAcceptPd i fr) := by
    unfold phyAcceptPd
    grind
  have hpd (fr rest : Bytes) :
      Keeps R (phyCheckPacketPd env i fr rest) := by
    have hroll : Keeps R (updPd i phyRollbackSeqNumber) :=
      read_updPd fun _ => rfl
    unfold phyCheckPacketPd
    grind
  have hchk (pkt : Bytes) (len : Nat) :
      Keeps R (phyCheckPacket env i pkt len) := by
    unfold phyCheckPacket
    grind
  unfold osdpPhyCheckPacket
  grind

end Read

end LibOsdp
