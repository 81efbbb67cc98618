/-
What a card session is made of, and what leaves it alone.

`PdSession` is the part of a PD a card session and its band live in: the
protocol state, the nested state, the queue with the band's commands and
markers, and the requests and flags that move them.  Most of a pass has
no business with it: building a packet, decoding a reply, waiting, the
transfer engines.  That is said once here, for every relation that holds
between states with the same session (`SessionMoves`).

# Callbacks

Calls made from inside callbacks do reach the queue.  What they do is left
to the relation; only calls the environment really makes count
(`Env.Makes`), so that an assumption about the application can be used.

# Two PDs

The session looked at is that of PD `i`; the lemmas are about passes on
any PD `j`.
-/
import LibOsdp.Cp.Proofs.Advance
import LibOsdp.Cp.Proofs.Watch

namespace LibOsdp

open Lib

-- ================================================================== view

/-- What a presence probe is timed by. -/
structure ScanClock where
  enabled : Bool := false
  holding : Bool := false
  mode1DwellMs : Int := 0
  holdMs : Int := 0
  probeTstamp : Int := 0
  holdTstamp : Int := 0

/-- That part of a session. -/
@[grind] def OsdpTrs.clock (t : OsdpTrs) : ScanClock :=
  { enabled := t.scan.enabled
    holding := t.scan.holding
    mode1DwellMs := t.scan.mode1DwellMs
    holdMs := t.scan.holdMs
    probeTstamp := t.scan.probeTstamp
    holdTstamp := t.scan.holdTstamp }

/-- The part of a PD card sessions live in. -/
structure PdSession where
  state : CpState
  phase : TrsState
  mode : UInt8
  replyError : Bool
  failed : Bool
  probe : Bool
  stopPending : Bool
  bandOpen : Bool
  active : Bool
  notify : Bool
  clock : ScanClock
  openDue : Bool
  scanDue : Bool
  cmdId : Nat
  pdMode : Bool
  activeCmd : Option SubmittedCmd
  cmdQueue : List SubmittedCmd

/-- That part of a PD. -/
@[grind] def OsdpPd.session (p : OsdpPd) : PdSession :=
  { state := p.state
    phase := p.trs.state
    mode := p.trs.mode
    replyError := p.trs.replyError
    failed := p.trs.failed
    probe := p.trs.probe
    stopPending := p.trs.stopPending
    bandOpen := p.trs.bandOpen
    active := p.flags.trsActive
    notify := p.flags.enableNotif
    clock := p.trs.clock
    openDue := p.request.trsOpen
    scanDue := p.request.trsScan
    cmdId := p.cmdId
    pdMode := p.flags.pdMode
    activeCmd := p.activeCmd
    cmdQueue := p.cmdQueue }

/-- What of it the queue and its markers are no part of. -/
structure PdCard where
  state : CpState
  phase : TrsState
  mode : UInt8
  replyError : Bool
  failed : Bool
  probe : Bool
  active : Bool
  notify : Bool
  clock : ScanClock
  cmdId : Nat
  pdMode : Bool
  activeCmd : Option SubmittedCmd

/-- That part of a PD. -/
@[grind] def OsdpPd.card (p : OsdpPd) : PdCard :=
  { state := p.state
    phase := p.trs.state
    mode := p.trs.mode
    replyError := p.trs.replyError
    failed := p.trs.failed
    probe := p.trs.probe
    active := p.flags.trsActive
    notify := p.flags.enableNotif
    clock := p.trs.clock
    cmdId := p.cmdId
    pdMode := p.flags.pdMode
    activeCmd := p.activeCmd }

theorem card_of_session {p q : OsdpPd} (h : p.session = q.session) :
    p.card = q.card := by
  have e := congrArg (fun v : PdSession => PdCard.mk v.state v.phase v.mode
    v.replyError v.failed v.probe v.active v.notify v.clock v.cmdId
    v.pdMode v.activeCmd) h
  exact e

/-- The life of a session, as the application is told of it: the scan's
own notices apart. -/
def TrsSessionStatus.ofSession : TrsSessionStatus → Bool
  | .opened | .closed | .failed => true
  | .scanSuspended | .scanNoDeparture => false

/-- What an entry says about the sessions of PD `i`. -/
def Obs.sessionNote (i : Nat) : Obs → Option TrsSessionStatus
  | .event j (.notification (.trsStatus st)) =>
    if j = i ∧ st.ofSession then some st else none
  | _ => none

/-- The entry says nothing about them. -/
@[grind] def Obs.noSession (i : Nat) (o : Obs) : Bool :=
  (o.sessionNote i).isNone

/-- The session of PD `i` is as it was, and nothing was said about it; no
time has passed. -/
structure SameSession (i : Nat) (s t : Osdp) : Prop where
  now : t.now = s.now
  session : (t.pd i).session = (s.pd i).session
  log : LogExt (Obs.noSession i) s t

theorem SameSession.same {i : Nat} {s t : Osdp} (hn : t.now = s.now)
    (hp : t.pd = s.pd) (hl : t.log = s.log) : SameSession i s t :=
  ⟨hn, by rw [hp], LogExt.of_eq hl⟩

theorem SameSession.entry {i : Nat} {s : Osdp} {o : Obs}
    (h : o.noSession i = true) :
    SameSession i s { s with log := o :: s.log } :=
  ⟨rfl, rfl, LogExt.cons h⟩

theorem SameSession.updPd {i j : Nat} {s : Osdp} {f : OsdpPd → OsdpPd}
    (h : j = i → (f (s.pd i)).session = (s.pd i).session) :
    SameSession i s (s.updPd j f) := by
  refine ⟨rfl, ?_, refl_of (LogExt _) s⟩
  by_cases e : i = j
  · subst e
    rw [updPd_pd_same]
    exact h rfl
  · rw [updPd_pd_ne s f e]

/-- An update that changes none of it, taken back. -/
theorem SameSession.undo {i j : Nat} {s : Osdp} {f : OsdpPd → OsdpPd}
    (h : j = i → (f (s.pd i)).session = (s.pd i).session) :
    SameSession i (s.updPd j f) s :=
  ⟨rfl, (SameSession.updPd h).session.symm, LogExt.of_eq rfl⟩

instance (i : Nat) : IsPreorder Osdp (SameSession i) where
  refl _ := .same rfl rfl rfl
  trans _ _ _ h k := ⟨k.now.trans h.now, k.session.trans h.session,
    trans_of _ h.log k.log⟩

/-- A preorder on contexts that holds wherever the session of PD `i` is
left alone. -/
class SessionMoves (i : outParam Nat) (R : Osdp → Osdp → Prop) : Prop extends
    IsPreorder Osdp R where
  same : ∀ s t, SameSession i s t → R s t

/-- One that does not look at the queue, its markers and the requests they
make either. -/
class CardMoves (i : outParam Nat) (R : Osdp → Osdp → Prop) : Prop extends
    SessionMoves i R where
  card : ∀ s f, (f (s.pd i)).card = (s.pd i).card → R s (s.updPd i f)

instance (i : Nat) : SessionMoves i (SameSession i) where
  same _ _ h := h

-- ============================================================= callbacks

/-- The calls a callback of the environment makes, whenever it is run. -/
inductive Env.Makes (env : Env) : List ApiCall → Prop where
  | command {f : List Obs → OsdpCmd → AppReply}
      (h : env.commandCallback = some f) (log : List Obs) (c : OsdpCmd) :
      Env.Makes env (f log c).calls
  | event {f : List Obs → Nat → OsdpEvent → AppReply}
      (h : env.eventCallback = some f) (log : List Obs) (j : Nat)
      (ev : OsdpEvent) : Env.Makes env (f log j ev).calls
  | completion
      {f : List Obs → Nat → SubmittedCmd → CompletionStatus → AppReply}
      (h : env.commandCompletion = some f) (log : List Obs) (j : Nat)
      (c : SubmittedCmd) (st : CompletionStatus) :
      Env.Makes env (f log j c st).calls

section Steady

variable {env : Env} {run : List ApiCall → OsdpM Unit}
variable {i j : Nat} {R : Osdp → Osdp → Prop} [hS : SessionMoves i R]
include hS

-- ============================================================ primitives

theorem steady_updPd {f : OsdpPd → OsdpPd}
    (h : ∀ p : OsdpPd, (f p).session = p.session) : Keeps R (updPd j f) := by
  intro s a t e
  cases e
  exact hS.same s _ (.updPd fun _ => h (s.pd i))

/-- On another PD anything goes. -/
theorem other_updPd (hne : j ≠ i) (f : OsdpPd → OsdpPd) :
    Keeps R (updPd j f) := by
  intro s a t e
  cases e
  exact hS.same s _ (.updPd fun e => absurd e hne)

theorem steady_observe {o : Obs} (h : o.noSession i = true) :
    Keeps R (observe o) := by
  intro s a t e
  cases e
  exact hS.same s _ (.entry h)

theorem steady_writeBuf (ref : BufRef) (off : Nat) (data : Bytes) :
    Keeps R (writeBuf ref off data) := by
  intro s a t e
  unfold writeBuf at e
  split at e <;> cases e <;> exact hS.same s _ (.same rfl rfl rfl)

theorem steady_osdpChannelSend (data : Bytes) :
    Keeps R (osdpChannelSend env j data) := by
  intro s a t e
  cases e
  exact hS.same s _ ⟨rfl, rfl, LogExt.cons rfl⟩

theorem steady_osdpFillRandom (n : Nat) :
    Keeps R (osdpFillRandom env n) := by
  intro s a t e
  cases e
  exact hS.same s _ ⟨rfl, rfl, LogExt.cons rfl⟩

theorem steady_flush :
    Keeps R (modify fun s => { s with line := [] } : OsdpM Unit) :=
  .modify fun s => hS.same s _ (.same rfl rfl rfl)

omit hS in
theorem session_of_sansEngines {p q : OsdpPd}
    (h : p.sansEngines = q.sansEngines) : p.session = q.session := by
  have e := congrArg OsdpPd.session h
  exact e

instance : EngineMoves R where
  engines s _ _ h := hS.same s _ (.updPd fun _ => session_of_sansEngines (h _))
  fileOp s _ _ := hS.same s _ (.entry rfl)

-- ================================================================ notices

/-- The event is no notice of a session. -/
@[grind] def OsdpEvent.noSession : OsdpEvent → Bool
  | .notification (.trsStatus st) => !st.ofSession
  | _ => true

omit hS in
theorem noSession_event {ev : OsdpEvent} (h : ev.noSession = true ∨ j ≠ i) :
    (Obs.event j ev).noSession i = true := by
  unfold Obs.noSession Obs.sessionNote
  split
  · next j' st heq =>
    injection heq with e₁ e₂
    subst e₁ e₂
    split
    · next hc =>
      rcases h with h | h
      · simp [OsdpEvent.noSession, hc.2] at h
      · exact absurd hc.1 h
    · rfl
  · rfl

section Calls

variable (hr : ∀ calls, env.Makes calls → Keeps R (run calls))
include hr

theorem steady_cpDispatchEvent {ev : OsdpEvent}
    (h : ev.noSession = true ∨ j ≠ i) :
    Keeps R (cpDispatchEvent env run j ev) := by
  intro s a t e
  unfold cpDispatchEvent at e
  cases hf : env.eventCallback with
  | none =>
    rw [hf] at e
    exact (Keeps.pure (R := R) _).of e
  | some f =>
    rw [hf] at e
    obtain ⟨s', u, hg, e⟩ := bind_ok.mp e
    obtain ⟨rfl, rfl⟩ := get_ok.mp hg
    have ho : Keeps R (observe (.event j ev)) :=
      steady_observe (noSession_event h)
    exact (Keeps.bind ho fun _ => hr _ (.event hf _ j ev)).of e

@[grind ←]
theorem steady_cpCompleteCmd (c : Option SubmittedCmd)
    (st : CompletionStatus) : Keeps R (cpCompleteCmd env run j c st) := by
  intro s a t e
  unfold cpCompleteCmd at e
  cases c with
  | none => exact (Keeps.pure (R := R) _).of e
  | some c =>
    cases hf : env.commandCompletion with
    | none =>
      rw [hf] at e
      exact (Keeps.pure (R := R) _).of e
    | some f =>
      rw [hf] at e
      obtain ⟨s', u, hg, e⟩ := bind_ok.mp e
      obtain ⟨rfl, rfl⟩ := get_ok.mp hg
      have ho : Keeps R (observe (.cmdDone j c.node st)) :=
        steady_observe rfl
      exact (Keeps.bind ho fun _ => hr _ (.completion hf _ j c st)).of e

theorem steady_callCommandCallback (c : OsdpCmd) :
    Keeps R (callCommandCallback env run j c) := by
  intro s a t e
  unfold callCommandCallback at e
  cases hf : env.commandCallback with
  | none =>
    rw [hf] at e
    exact (Keeps.pure (R := R) _).of e
  | some f =>
    rw [hf] at e
    obtain ⟨s', u, hg, e⟩ := bind_ok.mp e
    obtain ⟨rfl, rfl⟩ := get_ok.mp hg
    have ho : Keeps R (observe (.command j c (f s.log c).ret)) :=
      steady_observe rfl
    exact (Keeps.bind ho fun _ =>
      .bind (hr _ (.command hf _ c)) fun _ => .pure _).of e

theorem steady_osdpMpPdNotify (phase : MpPhase) (g : MpProgress) :
    Keeps R (osdpMpPdNotify env run j phase g) := by
  have hu : Keeps R (updPd j fun p => { p with engineCmd := none }) :=
    steady_updPd fun _ => rfl
  have hev : Keeps R (cpDispatchEvent env run j
      (.notification (.mp phase g))) := steady_cpDispatchEvent hr (.inl rfl)
  have hcmd : Keeps R (callCommandCallback env run j
      (.notification (.mp phase g))) := steady_callCommandCallback hr _
  unfold osdpMpPdNotify mpDeliverNotification
  grind

theorem steady_engines : Keeps R (osdpEnginesAbort env run j) :=
  keeps_osdpEnginesAbort (fun _ ph g => steady_osdpMpPdNotify hr ph g) j

theorem steady_cpNotify {n : Notification}
    (h : (OsdpEvent.notification n).noSession = true ∨ j ≠ i) :
    Keeps R (cpNotify env run j n) := by
  have hev : Keeps R (cpDispatchEvent env run j (.notification n)) :=
    steady_cpDispatchEvent hr h
  unfold cpNotify
  grind

theorem steady_cpNotifyPdStatus (b : Bool) :
    Keeps R (cpNotifyPdStatus env run j b) :=
  steady_cpNotify hr (.inl rfl)

theorem steady_cpNotifyPdId : Keeps R (cpNotifyPdId env run j) :=
  .bind (keeps_getPd j) fun _ => steady_cpNotify hr (.inl rfl)

theorem steady_cpNotifyScStatus : Keeps R (cpNotifyScStatus env run j) :=
  .bind (keeps_getPd j) fun _ => steady_cpNotify hr (.inl rfl)

end Calls

-- =============================================================== packets

attribute [local grind ←] steady_updPd steady_writeBuf
  steady_osdpChannelSend steady_osdpFillRandom steady_observe

theorem steady_phyWriteHeader (p : OsdpPd) :
    Keeps R (phyWriteHeader j p) := by
  have hs (c : UInt8) : Keeps R (phyPacketStarted j c) :=
    steady_updPd fun _ => rfl
  unfold phyWriteHeader
  grind

theorem steady_osdpPhyPacketInit (maxLen : Nat) :
    Keeps R (osdpPhyPacketInit j maxLen) := by
  have hm (b : Bool) : Keeps R (phySetMark j b) := steady_updPd fun _ => rfl
  have hw (p : OsdpPd) : Keeps R (phyWriteHeader j p) :=
    steady_phyWriteHeader p
  unfold osdpPhyPacketInit
  grind

theorem steady_osdpPhyFinalizePacket (len maxLen : Nat) :
    Keeps R (osdpPhyFinalizePacket env j len maxLen) := by
  have hs (pkt : Bytes) (m : Nat) : Keeps R (phySealChannel env j pkt m) :=
    steady_updPd fun _ => rfl
  unfold osdpPhyFinalizePacket
  grind

theorem steady_osdpPhySendPacket (len : Nat) :
    Keeps R (osdpPhySendPacket env j len) := by
  unfold osdpPhySendPacket
  grind

theorem steady_cpTranslateCmd (p : OsdpPd) (c : OsdpCmd) :
    Keeps R (cpTranslateCmd p c) := by
  unfold cpTranslateCmd
  grind

theorem steady_setPhyState (st : CpPhyState) : Keeps R (setPhyState j st) :=
  steady_updPd fun _ => rfl

theorem steady_scDeactivate : Keeps R (scDeactivate j) :=
  steady_updPd fun _ => rfl

theorem steady_osdpPhyStateReset (e : Bool) :
    Keeps R (osdpPhyStateReset env j e) := by
  have hf := steady_flush (R := R)
  unfold osdpPhyStateReset
  grind

attribute [local grind ←] steady_osdpPhyPacketInit
  steady_osdpPhyFinalizePacket steady_osdpPhySendPacket steady_setPhyState
  steady_scDeactivate steady_osdpPhyStateReset steady_cpTranslateCmd

section Build

variable (hr : ∀ calls, env.Makes calls → Keeps R (run calls))
include hr

theorem steady_cpBuildCases (cmd : Option OsdpCmd) (smb : Option Nat)
    (maxLen : Int) : Keeps R (cpBuildCases env run j cmd smb maxLen) := by
  have hn (k : Nat) (ph : MpPhase) (g : MpProgress) :
      Keeps R (osdpMpPdNotify env run k ph g) := steady_osdpMpPdNotify hr ph g
  have happ : Keeps R (buildAppCmd env j cmd maxLen) := by
    unfold buildAppCmd
    grind
  have hc : Keeps R (buildChlng j smb maxLen) := by
    unfold buildChlng
    grind
  have hs : Keeps R (buildScrypt env j smb maxLen) := by
    unfold buildScrypt
    grind
  have hf : Keeps R (buildFiletransfer env run j maxLen) := by
    unfold buildFiletransfer
    grind
  have hp : Keeps R (buildPiv env run j maxLen) := by
    unfold buildPiv
    grind
  unfold cpBuildCases
  refine .bind (keeps_getPd j) fun p => ?_
  split <;> first | exact .pure _ | assumption

theorem steady_cpBuildCommand (cmd : Option OsdpCmd) (size : Nat) :
    Keeps R (cpBuildCommand env run j cmd size) := by
  have hcases (smb : Option Nat) (m : Int) :
      Keeps R (cpBuildCases env run j cmd smb m) :=
    steady_cpBuildCases hr cmd smb m
  have hpick (smb : Option Nat) (n : Nat) :
      Keeps R (cpPickBlockType j smb n) := by
    unfold cpPickBlockType
    grind
  have hfin (off : Nat) (smb : Option Nat) (b : CmdBody) :
      Keeps R (cpFinishCommand j off smb b) := by
    unfold cpFinishCommand
    grind
  unfold cpBuildCommand
  refine .bind (keeps_getPd j) fun p => .bind (keeps_readBuf _) fun buf => ?_
  dsimp only
  split
  · exact .pure _
  · exact .bind (steady_writeBuf _ _ _) fun _ =>
      .bind (hcases _ _) fun body => hfin _ _ body

theorem steady_cpBuildPacket : Keeps R (cpBuildPacket env run j) := by
  have hcmd (c : Option OsdpCmd) (n : Nat) :
      Keeps R (cpBuildCommand env run j c n) := steady_cpBuildCommand hr c n
  have hlen (n : Nat) : Keeps R (setPacketBufLen j n) :=
    steady_updPd fun _ => rfl
  have hrest (size hdr : Nat) : Keeps R (cpBuildRest env run j size hdr) := by
    unfold cpBuildRest
    refine .bind (hlen hdr) fun _ => .bind (keeps_getPd j) fun p =>
      .bind (hcmd _ size) fun built => ?_
    split
    · exact .pure _
    · grind
  have ho (id : Nat) (a : Bool) : Keeps R (observe (.build j id a)) :=
    steady_observe rfl
  unfold cpBuildPacket
  grind

end Build

-- ============================================================= receiving

theorem steady_osdpChannelReceive : Keeps R (osdpChannelReceive j) := by
  intro s a t e
  cases e
  exact hS.same s _ ⟨rfl, (SameSession.updPd (i := i) fun _ => rfl).session,
    LogExt.of_eq rfl⟩

/-- Collecting the bytes of a frame. -/
theorem steady_phyAssemble : Keeps R (phyAssemble j) := by
  have hm (b : Bool) : Keeps R (phySetMark j b) := steady_updPd fun _ => rfl
  have hrecv : Keeps R (osdpChannelReceive j) := steady_osdpChannelReceive
  have hr : Keeps R (phyReceive j) := by
    unfold phyReceive
    grind
  have htop (n : Nat) : Keeps R (phyTopUp j n) := by
    unfold phyTopUp
    grind
  have hstart : Keeps R (phyFindStart j) := by
    unfold phyFindStart
    refine .bind (keeps_getPd j) fun p => ?_
    split
    · exact .pure _
    · split
      · exact .bind (steady_updPd fun _ => rfl) fun _ => .pure _
      · exact .bind (steady_writeBuf _ _ _) fun _ =>
          .bind (steady_updPd fun _ => rfl) fun _ => .pure _
  have hfill : Keeps R (phyFillHeader j) := by
    unfold phyFillHeader
    grind
  have hlen (n : Nat) :
      Keeps R (updPd j fun p => { p with packetBufLen := n }) :=
    steady_updPd fun _ => rfl
  have hjudge : Keeps R (phyJudgeHeader j) := by
    unfold phyJudgeHeader
    refine .bind (keeps_getPd j) fun p => .bind (keeps_readBuf _) fun buf =>
      .bind (hm _) fun _ => ?_
    split
    · exact .bind (steady_writeBuf _ _ _) fun _ => .bind (hlen _) fun _ =>
        .bind (hm _) fun _ => .pure _
    · exact .pure _
  have hhead : Keeps R (phyCheckHeader j) := by
    unfold phyCheckHeader
    grind
  have hcomp : Keeps R (phyComplete j) := by
    unfold phyComplete
    grind
  have hset (n : Nat) :
      Keeps R (updPd j fun p => { p with packetLen := n }) :=
    steady_updPd fun _ => rfl
  unfold phyAssemble
  refine .bind hr fun _ => .bind (keeps_getPd j) fun p => ?_
  split
  · refine .bind hhead fun ret => ?_
    split
    · exact .pure _
    · exact .bind (hset _) fun _ => hcomp
  · exact hcomp

theorem steady_phyCheckSequence (fr : Bytes) :
    Keeps R (phyCheckSequence j fr) := by
  unfold phyCheckSequence
  grind [OsdpPd.nak, OsdpPd.setNak]

/-- A frame for another PD than the one looked at. -/
theorem other_phyCheckPacketPd (hne : j ≠ i) (fr rest : Bytes) :
    Keeps R (phyCheckPacketPd env j fr rest) := by
  have hu (f : OsdpPd → OsdpPd) : Keeps R (updPd j f) := other_updPd hne f
  have hseq := steady_phyCheckSequence (R := R) (j := j)
  have ho (d : Bytes) : Keeps R (observe (.resent j d)) := steady_observe rfl
  have hresend : Keeps R (phyResend env j fr rest) := by
    unfold phyResend
    grind
  have hre : Keeps R (phyRestart j) := by
    unfold phyRestart
    grind
  have hacc : Keeps R (phyAcceptPd j fr) := by
    unfold phyAcceptPd
    grind
  unfold phyCheckPacketPd
  grind

/-- Collecting and checking a frame, on a CP. -/
theorem steady_osdpPhyCheckPacket {s t : Osdp} {rc : Int}
    (hm : (s.pd j).flags.pdMode = false ∨ j ≠ i)
    (h : osdpPhyCheckPacket env j s = .ok rc t) : R s t := by
  have hcp (fr : Bytes) : Keeps R (phyCheckPacketCp j fr) := by
    have hseq := steady_phyCheckSequence (R := R) (j := j)
    unfold phyCheckPacketCp
    grind
  obtain ⟨err, u, hu, h⟩ := bind_ok.mp h
  have hsu : R s u := steady_phyAssemble.of hu
  have hmode : (u.pd j).flags.pdMode = (s.pd j).flags.pdMode := by
    have e := congrArg (fun p : OsdpPd => p.flags.pdMode)
      (((scans_phyAssemble j).of hu).pd j)
    exact e
  refine trans_of R hsu ?_
  split at h
  · exact (Keeps.pure (R := R) _).of h
  · obtain ⟨p, v, hp, h⟩ := bind_ok.mp h
    obtain ⟨rfl, rfl⟩ := getPd_ok.mp hp
    obtain ⟨buf, v, hb, h⟩ := bind_ok.mp h
    cases hb
    obtain ⟨_, v, hv, h⟩ := bind_ok.mp h
    have huv : R u v :=
      (steady_observe (o := .frame j
        ((List.take (u.pd j).packetLen _).drop (u.pd j).markLen)) rfl).of hv
    have hvpd : v.pd = u.pd := by rw [← observe_ok.mp hv]
    refine trans_of R huv ?_
    unfold phyCheckPacket at h
    split at h
    · exact (Keeps.pure (R := R) _).of h
    · obtain ⟨p, w, hp, h⟩ := bind_ok.mp h
      obtain ⟨rfl, rfl⟩ := getPd_ok.mp hp
      split at h
      · exact (Keeps.pure (R := R) _).of h
      · split at h
        · next hpd =>
          rw [hvpd, hmode] at hpd
          have hne : j ≠ i := hm.resolve_left (by simp [hpd])
          exact (other_phyCheckPacketPd hne _ _).of h
        · exact (hcp _).of h

omit hS in
/-- Decoding a frame leaves the session alone. -/
theorem Decoded.session {p : OsdpPd} {pkt : Bytes} {n : Nat}
    {r : DecodeResult} (h : Decoded env p pkt n r) :
    r.pd.session = p.session := by
  have hsel : (takeSelector p pkt).session = p.session := by
    unfold takeSelector
    split <;> rfl
  have hmac : (afterMac env p pkt n).session = p.session := by
    rw [← hsel]
    unfold afterMac phyComputeMac osdpComputeMac
    split <;> rfl
  cases h with
  | refused code href => rfl
  | plain href hm => exact hsel
  | dropped pkt' href hm hbad => exact hmac
  | maced href hm hok he => exact hmac
  | decrypted pkt' text href hm hok he => exact hmac

theorem steady_osdpPhyDecodePacket :
    Keeps R (osdpPhyDecodePacket env j) := by
  rintro s ⟨len, payload⟩ t h
  obtain ⟨r, hr, -, -, hpd, hR, hlog⟩ := osdpPhyDecodePacket_ok h
  have hnow : t.now = s.now := by
    have e := congrArg Osdp.now (receives_osdpPhyDecodePacket j |>.of h).rest
    exact e
  refine hS.same s t ⟨hnow, ?_, LogExt.of_eq hlog⟩
  by_cases e : i = j
  · subst e
    rw [hpd]
    exact (decoded_of hr).session
  · obtain ⟨p, u, hp, h⟩ := bind_ok.mp h
    obtain ⟨rfl, rfl⟩ := getPd_ok.mp hp
    obtain ⟨buf, u, hb, h⟩ := bind_ok.mp h
    cases hb
    unfold Osdp.frameBuf Osdp.frameLen at hr
    rw [hr] at h
    obtain ⟨_, u, hu, h⟩ := bind_ok.mp h
    obtain ⟨_, v, hv, h⟩ := bind_ok.mp h
    obtain ⟨-, rfl⟩ := pure_ok.mp h
    have hupd : u.pd = s.pd := by
      unfold writeBuf at hu
      split at hu <;> (cases hu; rfl)
    rw [← updPd_ok.mp hv, updPd_pd_ne u _ e, hupd]

-- =============================================================== replies

theorem steady_makeRequest {r : CpReq}
    (h : r ≠ .trsOpen ∧ r ≠ .trsScan) : Keeps R (makeRequest j r) := by
  refine steady_updPd fun p => ?_
  cases r <;> first | rfl | simp at h

theorem steady_checkRequest {r : CpReq}
    (h : r ≠ .trsOpen ∧ r ≠ .trsScan) : Keeps R (checkRequest j r) := by
  have hu : Keeps R (updPd j fun p =>
      { p with request := p.request.put r false }) := by
    refine steady_updPd fun p => ?_
    cases r <;> first | rfl | simp at h
  unfold checkRequest
  grind

omit hS in
/-- What a card reply leaves of a session: all of it but the mode. -/
theorem trsReplyDecode_session (now : Int) (buf : Bytes) (t : OsdpTrs) :
    ∃ m scan, (osdpTrsReplyDecode now buf t).1
      = { t with mode := m, scan := scan } := by
  have hcard (present : Bool) (u : OsdpTrs) :
      ∃ scan, trsScanNoteCard now present u = { u with scan := scan } := by
    unfold trsScanNoteCard osdpTrsScanNoteActivity
    split
    · exact ⟨u.scan, rfl⟩
    · split
      · split
        · exact ⟨_, rfl⟩
        · exact ⟨u.scan, rfl⟩
      · split <;> exact ⟨_, rfl⟩
  have hanswer (u : OsdpTrs) :
      ∃ scan, trsScanNoteAnswered u = { u with scan := scan } := by
    unfold trsScanNoteAnswered
    split
    · exact ⟨_, rfl⟩
    · exact ⟨u.scan, rfl⟩
  have hnews (st : TrsCardStatus) (u : OsdpTrs) :
      ∃ scan, (trsScanPresenceIsNews st u).1 = { u with scan := scan } := by
    unfold trsScanPresenceIsNews
    split
    · exact ⟨u.scan, rfl⟩
    · split
      · exact ⟨u.scan, rfl⟩
      · exact ⟨_, rfl⟩
  have hpresent (reader : UInt8) (st : TrsCardStatus) :
      ∃ scan, (trsCardPresent now reader st t).1 = { t with scan := scan } := by
    obtain ⟨s₁, h₁⟩ := hanswer t
    obtain ⟨s₂, h₂⟩ := hnews st (trsScanNoteAnswered t)
    obtain ⟨s₃, h₃⟩ := hcard (st ≠ .notPresent)
      (trsScanPresenceIsNews st (trsScanNoteAnswered t)).1
    refine ⟨s₃, ?_⟩
    have e : (trsCardPresent now reader st t).1
        = trsScanNoteCard now (st ≠ .notPresent)
          (trsScanPresenceIsNews st (trsScanNoteAnswered t)).1 := rfl
    rw [e, h₃, h₂, h₁]
  have hinfo (d : Bytes) :
      ∃ scan, (trsCardInfo now d t).1 = { t with scan := scan } := by
    unfold trsCardInfo
    dsimp only
    split
    · exact ⟨t.scan, rfl⟩
    · split
      · exact ⟨t.scan, rfl⟩
      · exact hcard true t
  have hsight (d : Bytes) :
      ∃ scan, (trsCardSighting now d t).1 = { t with scan := scan } := by
    unfold trsCardSighting
    split
    · exact ⟨t.scan, rfl⟩
    · split
      · exact hpresent _ _
      · split
        · exact ⟨t.scan, rfl⟩
        · exact hpresent _ _
  unfold osdpTrsReplyDecode
  split
  · exact ⟨t.mode, t.scan, rfl⟩
  · dsimp only
    split
    · split
      · exact ⟨t.mode, t.scan, rfl⟩
      · exact ⟨_, t.scan, rfl⟩
    · obtain ⟨sc, e⟩ := hinfo (buf.drop 2)
      exact ⟨t.mode, sc, e⟩
    · obtain ⟨sc, e⟩ := hsight (buf.drop 2)
      exact ⟨t.mode, sc, e⟩
    all_goals
      first
        | exact ⟨t.mode, t.scan, rfl⟩
        | (split <;> exact ⟨t.mode, t.scan, rfl⟩)

/-- Whether a card reply names an error; `prior` where it settles nothing. -/
def TrsReplyAction.error (prior : Bool) : TrsReplyAction → Bool
  | .malformed => prior
  | .quiet | .dispatch _ => false
  | .dispatchError _ => true

/-- What a reply leaves in a session: the mode it reports, what it says of a
card in the field, and whether it names an error. -/
def OsdpPd.afterReport (p : OsdpPd) (now : Int) (payload : Bytes) : OsdpPd :=
  if payloadId payload = replyXrd then
    { p with
      trs :=
        { p.trs with
          mode := (osdpTrsReplyDecode now payload.tail p.trs).1.mode
          scan := (osdpTrsReplyDecode now payload.tail p.trs).1.scan
          replyError :=
            if p.flags.trsActive then
              (osdpTrsReplyDecode now payload.tail p.trs).2.error
                p.trs.replyError
            else p.trs.replyError } }
  else p

/-- The reply noted. -/
def Osdp.noteReport (s : Osdp) (j : Nat) (payload : Bytes) : Osdp :=
  s.updPd j fun p => p.afterReport s.now payload

/-- The event a transfer came to is a reply, never a notice. -/
def FragResult.noSession (r : FragResult) : Prop :=
  ∀ ev, r = .complete ev → ev.noSession = true

section Decode

omit hS in
theorem returns_osdpPivCpReplyConsume (buf : Bytes) :
    Returns FragResult.noSession (osdpPivCpReplyConsume env run j buf) := by
  have hno : FragResult.noSession .unexpected := nofun
  have hmore : FragResult.noSession .more := nofun
  have hev (msg : MpMsg) (n : Nat) (d : Bytes) :
      FragResult.noSession (.complete (pivEvent msg n d)) := by
    intro ev e
    injection e with e
    rw [← e]
    unfold pivEvent
    split <;> rfl
  have hverdict (rc : MpRc) :
      Returns FragResult.noSession (pivCpVerdict env run j rc) := by
    unfold pivCpVerdict
    grind
  unfold osdpPivCpReplyConsume
  grind

omit hS in
theorem returns_osdpBioCpReplyConsume (buf : Bytes) :
    Returns FragResult.noSession (osdpBioCpReplyConsume env run j buf) := by
  have hno : FragResult.noSession .unexpected := nofun
  have hmore : FragResult.noSession .more := nofun
  have hev (b : OsdpBio) (n : Nat) (d : Bytes) :
      FragResult.noSession (.complete (bioEvent b n d)) := by
    intro ev e
    injection e with e
    rw [← e]
    rfl
  have hverdict (rc : MpRc) :
      Returns FragResult.noSession (bioCpVerdict env run j rc) := by
    unfold bioCpVerdict
    grind
  have hfirst :
      Returns FragResult.noSession (bioCpFirstFragment env run j buf) := by
    unfold bioCpFirstFragment
    split
    · exact .pure hno
    · refine .bind fun _ => .bind fun _ => ?_
      dsimp only
      split
      · exact .pure hno
      · refine .bind fun p => ?_
        split
        · exact .bind fun _ => .pure (hev _ _ _)
        · exact .bind fun _ => .bind fun _ => .bind fun _ => .bind fun _ =>
            .bind fun _ => .bind fun _ => hverdict _
  unfold osdpBioCpReplyConsume
  grind

variable (hr : ∀ calls, env.Makes calls → Keeps R (run calls))
include hr

theorem steady_decodeEvent {ev : Option OsdpEvent}
    (h : ∀ e, ev = some e → e.noSession = true) :
    Keeps R (decodeEvent env run j ev) := by
  unfold decodeEvent
  cases ev with
  | none => exact .pure _
  | some e =>
    exact .bind (steady_cpDispatchEvent hr (.inl (h e rfl))) fun _ => .pure _

theorem steady_decodeActivity {ev : Option OsdpEvent}
    (h : ∀ e, ev = some e → e.noSession = true) :
    Keeps R (decodeActivity env run j ev) := by
  have hu (now : Int) : Keeps R (updPd j fun p =>
      { p with trs := osdpTrsScanNoteActivity now p.trs }) := by
    refine steady_updPd fun p => ?_
    unfold osdpTrsScanNoteActivity
    split <;> rfl
  unfold decodeActivity
  refine .bind (steady_decodeEvent hr h) fun ret => ?_
  split
  · exact .bind keeps_osdpMillisNow fun now =>
      .bind (hu now) fun _ => .pure _
  · exact .pure _

/-- A reply in fragments, whose last one completes an event. -/
theorem steady_fragments {consume : OsdpM FragResult} {finish : OsdpM Unit}
    (hc : Keeps R consume) (hret : Returns FragResult.noSession consume)
    (hf : Keeps R finish) :
    Keeps R (do
      match ← consume with
      | .unexpected => return cpErrGeneric
      | .more => return cpErrNone
      | .complete ev =>
        cpDispatchEvent env run j ev
        finish
        return cpErrNone : OsdpM Int) := by
  intro s a t h
  obtain ⟨r, u, hu, h⟩ := bind_ok.mp h
  refine trans_of R (hc.of hu) ?_
  cases r with
  | unexpected => exact (Keeps.pure (R := R) _).of h
  | more => exact (Keeps.pure (R := R) _).of h
  | complete ev =>
    have hev := hret s _ u hu ev rfl
    exact (Keeps.bind (steady_cpDispatchEvent hr (.inl hev)) fun _ =>
      .bind hf fun _ => .pure _).of h

/-- Every reply but a card reply leaves the session alone. -/
theorem steady_cpDecodeCases {id : Nat} (hne : id ≠ replyXrd)
    (data : Bytes) : Keeps R (cpDecodeCases env run j id data) := by
  have hn (k : Nat) (ph : MpPhase) (g : MpProgress) :
      Keeps R (osdpMpPdNotify env run k ph g) := steady_osdpMpPdNotify hr ph g
  have hstat (p : OsdpPd) (ty : StatusType) (cap : Nat) :
      Keeps R (decodeEvent env run j (statusEvent p ty cap data)) := by
    refine steady_decodeEvent hr fun e h => ?_
    unfold statusEvent at h
    split at h <;> cases h
    rfl
  have hl : Keeps R (decodeEvent env run j (lstatrEvent data)) := by
    refine steady_decodeEvent hr fun e h => ?_
    unfold lstatrEvent at h
    split at h <;> cases h
    rfl
  have hmfg : Keeps R (decodeEvent env run j (mfgrepEvent data)) := by
    refine steady_decodeEvent hr fun e h => ?_
    unfold mfgrepEvent at h
    dsimp only at h
    split at h <;> cases h
    rfl
  have hmstat (b : Bool) :
      Keeps R (decodeEvent env run j (mfgstatEvent b data)) := by
    refine steady_decodeEvent hr fun e h => ?_
    unfold mfgstatEvent at h
    split at h
    · cases h
    · split at h <;> cases h <;> rfl
  have hbio₁ : Keeps R (decodeEvent env run j (bioreadrEvent data)) := by
    refine steady_decodeEvent hr fun e h => ?_
    unfold bioreadrEvent at h
    dsimp only at h
    split at h <;> cases h
    rfl
  have hmatch : Keeps R (decodeEvent env run j (biomatchrEvent data)) := by
    refine steady_decodeEvent hr fun e h => ?_
    unfold biomatchrEvent at h
    split at h <;> cases h
    rfl
  have hkey : Keeps R (decodeActivity env run j (keypadEvent data)) := by
    refine steady_decodeActivity hr fun e h => ?_
    unfold keypadEvent at h
    dsimp only at h
    split at h <;> cases h
    rfl
  have hraw : Keeps R (decodeActivity env run j (rawEvent data)) := by
    refine steady_decodeActivity hr fun e h => ?_
    unfold rawEvent at h
    dsimp only at h
    split at h <;> cases h
    rfl
  have hack : Keeps R (decodeAck env run j data) := by
    unfold decodeAck
    grind
  have hnak : Keeps R (decodeNakReply j data) := by
    unfold decodeNakReply
    grind [OsdpPd.setNak]
  have hpdid : Keeps R (cpNotifyPdId env run j) := steady_cpNotifyPdId hr
  have hid : Keeps R (decodePdid env run j data) := by
    unfold decodePdid
    grind
  have hcap : Keeps R (decodePdcap j data) := by
    unfold decodePdcap
    grind [applyCaps]
  have hcom : Keeps R (decodeCom j data) := by
    unfold decodeCom
    grind
  have hpiv : Keeps R (decodePivReply env run j data) :=
    steady_fragments hr (keeps_osdpPivCpReplyConsume hn j data)
      (returns_osdpPivCpReplyConsume data) (keeps_osdpPivCpReplyFinish hn j)
  have hbio : Keeps R (decodeBioreadr env run j data) := by
    unfold decodeBioreadr
    refine .bind (keeps_getPd j) fun p => ?_
    split
    · exact hbio₁
    · exact steady_fragments hr (keeps_osdpBioCpReplyConsume hn j data)
        (returns_osdpBioCpReplyConsume data) (keeps_osdpBioCpReplyFinish hn j)
  have hft : Keeps R (decodeFtstat env run j data) := by
    unfold decodeFtstat
    grind
  have ho (b : Bool) (sc : OsdpSecureChannel) :
      Keeps R (observe (.sessionKeys j b sc)) := steady_observe rfl
  have hkeys : Keeps R (osdpComputeSessionKeys env j) := by
    unfold osdpComputeSessionKeys
    grind
  have hcc : Keeps R (decodeCcrypt env j data) := by
    unfold decodeCcrypt
    grind
  have hrmac : Keeps R (decodeRmacI j data) := by
    unfold decodeRmacI
    grind
  unfold cpDecodeCases
  refine .bind (keeps_getPd j) fun p => ?_
  split <;>
    first
    | exact .pure _
    | exact hstat _ _ _
    | exact hmstat _
    | assumption
    | exact absurd rfl hne

/-- A card reply inside a session: what it says about errors, and the
event. -/
theorem decodeXrdInside_ok {act : TrsReplyAction} {s t : Osdp} {rc : Int}
    (h : decodeXrdInside env run j act s = .ok rc t) :
    R (s.updPd j fun p =>
      { p with
        trs := { p.trs with replyError := act.error p.trs.replyError } })
      t := by
  have hev (r : TrsReply) : Keeps R (cpDispatchEvent env run j (.trs r)) :=
    steady_cpDispatchEvent hr (.inl rfl)
  cases act with
  | malformed =>
    obtain ⟨-, rfl⟩ := pure_ok.mp h
    exact hS.same _ _ (.undo fun _ => rfl)
  | quiet =>
    obtain ⟨_, u, hu, h⟩ := bind_ok.mp h
    obtain ⟨-, rfl⟩ := pure_ok.mp h
    rw [← updPd_ok.mp hu]
    exact refl_of R _
  | dispatch r =>
    obtain ⟨_, u, hu, h⟩ := bind_ok.mp h
    obtain ⟨_, v, hv, h⟩ := bind_ok.mp h
    obtain ⟨-, rfl⟩ := pure_ok.mp h
    have hu := updPd_ok.mp hu
    subst hu
    exact (hev r).of hv
  | dispatchError r =>
    obtain ⟨_, u, hu, h⟩ := bind_ok.mp h
    obtain ⟨_, v, hv, h⟩ := bind_ok.mp h
    obtain ⟨-, rfl⟩ := pure_ok.mp h
    have hu := updPd_ok.mp hu
    subst hu
    exact (hev r).of hv

/-- A card reply leaves all of it but the mode and what it says about
cards and errors. -/
theorem decodeXrd_ok {data payload : Bytes} {s t : Osdp} {rc : Int}
    (hid : payloadId payload = replyXrd) (hd : payload.tail = data)
    (h : decodeXrd env run j data s = .ok rc t) :
    R (s.noteReport j payload) t := by
  have hev (r : TrsReply) : Keeps R (cpDispatchEvent env run j (.trs r)) :=
    steady_cpDispatchEvent hr (.inl rfl)
  have hout (act : TrsReplyAction) :
      Keeps R (decodeXrdOutside env run j act) := by
    unfold decodeXrdOutside
    grind
  obtain ⟨p, u, hp, h⟩ := bind_ok.mp h
  obtain ⟨rfl, rfl⟩ := getPd_ok.mp hp
  obtain ⟨now, u, hnow, h⟩ := bind_ok.mp h
  cases hnow
  obtain ⟨_, u, hu, h⟩ := bind_ok.mp h
  have hu := updPd_ok.mp hu
  obtain ⟨m, scan, e⟩ := trsReplyDecode_session s.now data (s.pd j).trs
  have hmode : (osdpTrsReplyDecode s.now payload.tail (s.pd j).trs).1.mode
      = m := by
    rw [hd]
    exact congrArg OsdpTrs.mode e
  have hscan : (osdpTrsReplyDecode s.now payload.tail (s.pd j).trs).1.scan
      = scan := by
    rw [hd]
    exact congrArg OsdpTrs.scan e
  -- the decoder's update, and the one about errors, against the report
  have hnote {v : Osdp} {f : OsdpTrs → OsdpTrs}
      (hv : v = s.updPd j fun p => { p with trs := f p.trs })
      (hf : ({ s.pd j with trs := f (s.pd j).trs } : OsdpPd).session
        = ((s.pd j).afterReport s.now payload).session) :
      R (s.noteReport j payload) v := by
    refine hS.same _ _ ⟨by rw [hv]; rfl, ?_, [], by rw [hv]; rfl,
      fun _ he => absurd he List.not_mem_nil⟩
    by_cases hij : i = j
    · subst hij
      rw [hv, Osdp.noteReport, updPd_pd_same, updPd_pd_same]
      exact hf
    · rw [hv, Osdp.noteReport, updPd_pd_ne _ _ hij, updPd_pd_ne _ _ hij]
  by_cases hact : (s.pd j).flags.trsActive = true
  · rw [if_pos hact] at h
    refine trans_of R ?_ (decodeXrdInside_ok hr h)
    refine hnote (f := fun t =>
      { (osdpTrsReplyDecode s.now data t).1 with
        replyError := (osdpTrsReplyDecode s.now data t).2.error
          (osdpTrsReplyDecode s.now data t).1.replyError }) ?_ ?_
    · rw [← hu, updPd_updPd]
      rfl
    · rw [OsdpPd.afterReport, if_pos hid, if_pos hact, hmode, hscan, hd, e]
  · rw [if_neg hact] at h
    refine trans_of R ?_ ((hout _).of h)
    refine hnote (f := fun t => (osdpTrsReplyDecode s.now data t).1) ?_ ?_
    · rw [← hu]
      rfl
    · rw [OsdpPd.afterReport, if_pos hid, if_neg hact, hmode, hscan, e]

/-- A payload, decoded. -/
theorem decodeResponse_session {payload : Bytes} {s t : Osdp} {rc : Int}
    (h : cpDecodeResponse env run j payload s = .ok rc t) :
    R (s.noteReport j payload) t := by
  obtain ⟨_, u, hu, h⟩ := bind_ok.mp h
  have hu := updPd_ok.mp hu
  have hrun : cpDecodeCases env run j (payloadId payload) payload.tail u
      = .ok rc t := h
  have hnote : SameSession i (s.noteReport j payload) (u.noteReport j payload) := by
    refine ⟨by rw [← hu]; rfl, ?_, LogExt.of_eq (by rw [← hu]; rfl)⟩
    rw [← hu]
    by_cases hij : i = j
    · subst hij
      simp only [Osdp.noteReport, updPd_pd_same, OsdpPd.afterReport]
      split <;> rfl
    · simp only [Osdp.noteReport, updPd_pd_ne _ _ hij]
  refine trans_of R (hS.same _ _ hnote) ?_
  by_cases hid : payloadId payload = replyXrd
  · rw [hid] at hrun
    obtain ⟨p, v, hp, hrun⟩ := bind_ok.mp hrun
    obtain ⟨rfl, rfl⟩ := getPd_ok.mp hp
    exact decodeXrd_ok hr hid rfl hrun
  · have hself : SameSession i (u.noteReport j payload) u := by
      refine ⟨rfl, ?_, LogExt.of_eq rfl⟩
      by_cases hij : i = j
      · subst hij
        rw [Osdp.noteReport, updPd_pd_same, OsdpPd.afterReport, if_neg hid]
      · rw [Osdp.noteReport, updPd_pd_ne _ _ hij]
    exact trans_of R (hS.same _ _ hself)
      ((steady_cpDecodeCases hr hid _).of hrun)

-- ============================================================== exchange

/-- What the frame layer hands up in this state, if it accepts a frame
at all. -/
def HearsFrame (env : Env) (j : Nat) (s : Osdp) (payload : Bytes) : Prop :=
  ∃ u v len, osdpPhyCheckPacket env j s = .ok errPktNone u ∧
    osdpPhyDecodePacket env j u = .ok (len, payload) v ∧ 0 < len

/-- What listening came to: no payload, or one and the decoder's verdict
on it. -/
inductive Listened (env : Env) (run : List ApiCall → OsdpM Unit) (j : Nat)
    (R : Osdp → Osdp → Prop) (s t : Osdp) (rc : Int) : Prop where
  | nothing (steady : R s t)
      (rc : rc = cpErrNoData ∨ rc = cpErrGeneric ∨
        rc = cpErrSeqNum ∧ (t.pd j).replyId = replyNak ∨
        rc = cpErrRetryCmd ∧ (t.pd j).replyId = replyBusy)
  | heard (payload : Bytes) (hears : HearsFrame env j s payload)
      (u v : Osdp) (steady : R s u)
      (dec : cpDecodeResponse env run j payload u = .ok rc v)
      (eq : t = { v with log := .verdict j payload rc :: v.log })

omit hr in
theorem processReply_session {s t : Osdp} {rc : Int}
    (hm : (s.pd j).flags.pdMode = false ∨ j ≠ i)
    (h : cpProcessReply env run j s = .ok rc t) :
    Listened env run j R s t rc := by
  obtain ⟨err, u, hu, h⟩ := bind_ok.mp h
  have hsu : R s u := steady_osdpPhyCheckPacket hm hu
  obtain ⟨-, -, -, hreply⟩ := refused_ok hu
  split at h
  · next hok =>
    obtain ⟨⟨len, payload⟩, v, hv, h⟩ := bind_ok.mp h
    have huv : R u v := steady_osdpPhyDecodePacket.of hv
    simp only at h
    split at h
    · obtain ⟨rfl, rfl⟩ := pure_ok.mp h
      exact .nothing (trans_of R hsu huv) (.inr (.inl rfl))
    · next hlen =>
      obtain ⟨p, v', hp, h⟩ := bind_ok.mp h
      obtain ⟨rfl, rfl⟩ := getPd_ok.mp hp
      obtain ⟨_, w, hw, h⟩ := bind_ok.mp h
      obtain ⟨ret, x, hx, h⟩ := bind_ok.mp h
      obtain ⟨_, y, hy, h⟩ := bind_ok.mp h
      obtain ⟨rfl, rfl⟩ := pure_ok.mp h
      have hvw : R v w :=
        (steady_observe (o := .decoded j payload (v.pd j).flags.scActive)
          rfl).of hw
      have hhears : HearsFrame env j s payload :=
        ⟨u, v, len, hok ▸ hu, hv, not_le.mp hlen⟩
      exact .heard payload hhears w x (trans_of R hsu (trans_of R huv hvw)) hx
        (observe_ok.mp hy).symm
  · split at h
    · obtain ⟨rfl, rfl⟩ := pure_ok.mp h
      exact .nothing hsu (.inl rfl)
    · split at h
      · obtain ⟨_, v, hv, h⟩ := bind_ok.mp h
        obtain ⟨rfl, rfl⟩ := pure_ok.mp h
        have huv : R u v := (steady_updPd (f := fun p =>
          { p with replyId := replyBusy }) fun _ => rfl).of hv
        refine .nothing (trans_of R hsu huv) (.inr (.inr (.inr ⟨rfl, ?_⟩)))
        rw [← updPd_ok.mp hv, updPd_pd_same]
      · split at h
        · next hnack =>
          have hnackR : R u t := by
            have hl : Keeps R (makeRequest j .linkReset) :=
              steady_makeRequest (by simp)
            have hs : Keeps R (makeRequest j .restartSc) :=
              steady_makeRequest (by simp)
            refine Keeps.of (m := cpProcessNack j) ?_ h
            unfold cpProcessNack
            grind
          obtain ⟨-, -, hr', -, hrc⟩ := processNack_ok h
          rw [if_pos hnack] at hreply
          refine .nothing (trans_of R hsu hnackR) ?_
          rcases hrc with e | e
          · exact .inr (.inr (.inl ⟨e, hr'.trans hreply⟩))
          · exact .inr (.inl e)
        · obtain ⟨rfl, rfl⟩ := pure_ok.mp h
          exact .nothing hsu (.inr (.inl rfl))

/-- What a step of an exchange came to. -/
inductive Exchanged (env : Env) (run : List ApiCall → OsdpM Unit) (j : Nat)
    (R : Osdp → Osdp → Prop) (s t : Osdp) (err : Int) : Prop where
  | nothing (steady : R s t)
      (reply : err = cpErrNone → (t.pd j).replyId = replyNak ∨
        (t.pd j).replyId = replyBusy)
  | heard (wait : (s.pd j).phyState = .replyWait)
      (payload : Bytes) (hears : HearsFrame env j s payload)
      (u v : Osdp) (rc : Int)
      (steady : R s u)
      (dec : cpDecodeResponse env run j payload u = .ok rc v)
      (settles : R v t)
      (replyId : (t.pd j).replyId = (v.pd j).replyId)
      (log : t.log = .verdict j payload rc :: v.log)
      (done : err = cpErrNone → rc = cpErrNone ∨ rc = cpErrSeqNum ∨
        rc = cpErrRetryCmd ∨ rc = cpErrUnknown)

omit hr in
theorem steady_cpPhySend : Keeps R (cpPhySend env j) := by
  have hfail : Keeps R (cpPhyFail j) := by
    unfold cpPhyFail
    grind
  have hawait : Keeps R (cpAwaitReply env j) := by
    unfold cpAwaitReply
    grind
  unfold cpPhySend
  grind

theorem steady_cpPhyBuild : Keeps R (cpPhyBuild env run j) := by
  have hfail : Keeps R (cpPhyFail j) := by
    unfold cpPhyFail
    grind
  have hsend : Keeps R (cpPhySend env j) := steady_cpPhySend
  have hbuild : Keeps R (cpBuildPacket env run j) := steady_cpBuildPacket hr
  unfold cpPhyBuild
  grind

omit hS hr in
/-- Sending never ends an exchange well. -/
theorem returns_cpPhySend :
    Returns (· ≠ cpErrNone) (cpPhySend env j) := by
  have hd : cpErrDefer ≠ cpErrNone := by decide
  have hi : cpErrInprog ≠ cpErrNone := by decide
  have hg : cpErrGeneric ≠ cpErrNone := by decide
  have hfail : Returns (· ≠ cpErrNone) (cpPhyFail j) :=
    .bind fun _ => .pure hg
  unfold cpPhySend
  grind

omit hS hr in
theorem returns_cpPhyBuild :
    Returns (· ≠ cpErrNone) (cpPhyBuild env run j) := by
  have hg : cpErrGeneric ≠ cpErrNone := by decide
  have hfail : Returns (· ≠ cpErrNone) (cpPhyFail j) :=
    .bind fun _ => .pure hg
  have hsend : Returns (· ≠ cpErrNone) (cpPhySend env j) :=
    returns_cpPhySend
  unfold cpPhyBuild
  grind

omit hS hr in
/-- What ends an exchange without an error. -/
theorem Judged.ends_ok {p q : OsdpPd} {rc err : Int}
    (h : Judged p q rc err) (he : err = cpErrNone) :
    rc = cpErrNone ∨ rc = cpErrSeqNum ∨ rc = cpErrRetryCmd ∨
      rc = cpErrUnknown := by
  cases h with
  | done phy ends =>
    rcases ends with ends | ends
    · simp only [cpReplyEnds, Bool.or_eq_true, beq_iff_eq,
        Bool.and_eq_true] at ends
      rcases ends with (e | e) | ⟨⟨e, -⟩, -⟩
      · exact .inl e
      · exact .inr (.inl e)
      · exact .inr (.inr (.inr e))
    · exact .inr (.inr (.inl ends))
  | failed phy ends => exact absurd he (by decide)
  | again phy ends live => exact absurd he (by decide)
  | waiting phy ends live => exact absurd he (by decide)

omit hr in
theorem steady_cpPhyAcknowledge (rc : Int) :
    Keeps R (cpPhyAcknowledge j rc) := by
  have hs : Keeps R (osdpPhyProgressSequence j) := steady_updPd fun _ => rfl
  unfold cpPhyAcknowledge
  grind

omit hr in
theorem steady_cpPhyJudge (rc : Int) : Keeps R (cpPhyJudge j rc) := by
  have hfail : Keeps R (cpPhyFail j) := by
    unfold cpPhyFail
    grind
  have hdone : Keeps R (cpPhyStateDone j) := by
    unfold cpPhyStateDone
    grind
  have hretry : Keeps R (cpPhyRetry j) := by
    unfold cpPhyRetry cpPhyStateWait
    grind
  unfold cpPhyJudge
  grind

omit hr in
/-- REPLY_WAIT. -/
theorem phyReply_session {s t : Osdp} {err : Int}
    (hm : (s.pd j).flags.pdMode = false ∨ j ≠ i)
    (hwait : (s.pd j).phyState = .replyWait)
    (h : cpPhyReply env run j s = .ok err t) :
    Exchanged env run j R s t err := by
  obtain ⟨rc, u, hu, h⟩ := bind_ok.mp h
  obtain ⟨_, v, hv, h⟩ := bind_ok.mp h
  have huv : R u v := (steady_cpPhyAcknowledge rc).of hv
  have hvt : R v t := (steady_cpPhyJudge rc).of h
  obtain ⟨-, hack⟩ := phyAcknowledge_ok hv
  obtain ⟨hjudged, hjd⟩ := phyJudge_ok h
  have hut : R u t := trans_of R huv hvt
  have hid : (t.pd j).replyId = (u.pd j).replyId := hjd.reply.trans hack.reply
  cases processReply_session (R := R) hm hu with
  | nothing steady hrc =>
    refine .nothing (trans_of R steady hut) fun he => ?_
    rw [hid]
    rcases hrc with rfl | rfl | ⟨-, e⟩ | ⟨-, e⟩
    · rcases hjudged.ends_ok he with e | e | e | e <;> cases e
    · rcases hjudged.ends_ok he with e | e | e | e <;> cases e
    · exact .inl e
    · exact .inr e
  | heard payload hears u' v' steady dec eq =>
    subst eq
    have hnote : SameSession i v'
        { v' with log := .verdict j payload rc :: v'.log } := .entry rfl
    exact .heard hwait payload hears u' v' rc steady dec
      (trans_of R (hS.same _ _ hnote) hut) hid (hjd.log.trans hack.log)
      hjudged.ends_ok

/-- One step of an exchange. -/
theorem exchange_session {s t : Osdp} {err : Int}
    (hm : (s.pd j).flags.pdMode = false ∨ j ≠ i)
    (hrun : cpPhyRunning (s.pd j) = true)
    (h : cpPhyStateUpdate env run j s = .ok err t) :
    Exchanged env run j R s t err := by
  have hflush := steady_flush (R := R)
  have hbuild : Keeps R (cpPhyBuild env run j) := steady_cpPhyBuild hr
  obtain ⟨p, v, hp, h⟩ := bind_ok.mp h
  obtain ⟨rfl, rfl⟩ := getPd_ok.mp hp
  cases hph : (s.pd j).phyState with
  | idle | done | err =>
    simp [cpPhyRunning, cpPhyBusIsBusy, hph] at hrun
  | wait =>
    rw [hph] at h
    have hk : Keeps R (cpPhyPause j) := by
      unfold cpPhyPause
      grind
    have hd : cpErrDefer ≠ cpErrNone := by decide
    have hret : Returns (· ≠ cpErrNone) (cpPhyPause j) := by
      unfold cpPhyPause
      grind
    exact .nothing (hk.of h) fun he => absurd he (hret _ _ _ h)
  | retryCmd =>
    rw [hph] at h
    have hk : Keeps R (cpPhyRewind env j) := by
      unfold cpPhyRewind
      grind
    obtain ⟨_, u, hu, h⟩ := bind_ok.mp h
    exact .nothing (trans_of R (hk.of hu) (hbuild.of h))
      fun he => absurd he (returns_cpPhyBuild _ _ _ h)
  | sendCmd =>
    rw [hph] at h
    exact .nothing (hbuild.of h)
      fun he => absurd he (returns_cpPhyBuild _ _ _ h)
  | sendCmdWait =>
    rw [hph] at h
    exact .nothing (steady_cpPhySend.of h)
      fun he => absurd he (returns_cpPhySend _ _ _ h)
  | replyWait =>
    rw [hph] at h
    exact phyReply_session hm hph h

end Decode

-- ================================================================== band

/-- Updates of PD `j` that leave its card session alone are within the
relation: on another PD, or where the queue is not looked at. -/
def LetsBand (j : Nat) (R : Osdp → Osdp → Prop) : Prop :=
  ∀ f : OsdpPd → OsdpPd, (∀ p : OsdpPd, (f p).card = p.card) →
    Keeps R (updPd j f)

theorem letsBand_other (hne : j ≠ i) : LetsBand j R :=
  fun f _ => other_updPd hne f

omit hS in
theorem letsBand_card [CardMoves i R] : LetsBand i R := by
  intro f h s a t e
  cases e
  exact CardMoves.card s f (h _)

section Band

variable (hq : LetsBand j R)
include hq

theorem band_cpCmdDequeue : Keeps R (cpCmdDequeue j) := by
  unfold cpCmdDequeue
  refine .bind (keeps_getPd j) fun p => ?_
  split
  · exact .pure _
  · exact .bind (hq _ fun _ => rfl) fun _ => .pure _

omit hS in
theorem band_makeRequest (r : CpReq) : Keeps R (makeRequest j r) :=
  hq _ fun _ => rfl

theorem band_checkRequest (r : CpReq) : Keeps R (checkRequest j r) := by
  have hu : Keeps R (updPd j fun p =>
      { p with request := p.request.put r false }) := hq _ fun _ => rfl
  unfold checkRequest
  grind

theorem band_cpGetPollCommand : Keeps R (cpGetPollCommand j) := by
  unfold cpGetPollCommand
  refine .bind (keeps_getPd j) fun p => .bind keeps_osdpMillisNow fun now => ?_
  split
  · exact .bind (hq _ fun _ => rfl) fun _ => .pure _
  · exact .pure _

attribute [local grind ←] band_cpCmdDequeue band_makeRequest
  band_checkRequest band_cpGetPollCommand

theorem band_cpOnlineRequests (next : CpState) :
    Keeps R (cpOnlineRequests env j next) := by
  have hc (r : CpReq) : Keeps R (checkRequest j r) := band_checkRequest hq r
  unfold cpOnlineRequests
  grind

theorem band_cpLifecycle (next : CpState) : Keeps R (cpLifecycle j next) := by
  have hc (r : CpReq) : Keeps R (checkRequest j r) := band_checkRequest hq r
  unfold cpLifecycle
  grind

omit hq in
theorem steady_getNextState (err : Int) : Keeps R (getNextState j err) := by
  unfold getNextState
  grind

variable (hr : ∀ calls, env.Makes calls → Keeps R (run calls))
include hr

theorem band_cpFlushTrsBand : Keeps R (cpFlushTrsBand env run j) := by
  have hdone (c : SubmittedCmd) (st : CompletionStatus) :
      Keeps R (cpCompleteCmd env run j (some c) st) :=
    steady_cpCompleteCmd hr _ st
  have hdrain (l : List SubmittedCmd) :
      Keeps R (cpDrainBand env run j l) := by
    induction l with
    | nil => exact .pure _
    | cons c rest ih =>
      unfold cpDrainBand
      grind
  unfold cpFlushTrsBand
  refine .bind (keeps_getPd j) fun p => .bind (hq _ fun _ => rfl) fun _ =>
    .bind (hdrain _) fun x => .bind (hq _ fun _ => rfl) fun _ => ?_
  split
  · exact hq _ fun _ => rfl
  · exact .pure _

theorem band_cpGetEngineCommand :
    Keeps R (cpGetEngineCommand env run j) := by
  have hn (k : Nat) (ph : MpPhase) (g : MpProgress) :
      Keeps R (osdpMpPdNotify env run k ph g) := steady_osdpMpPdNotify hr ph g
  have hscan : Keeps R (makeRequest j .trsScan) := band_makeRequest hq _
  have hpoll : Keeps R (cpGetPollCommand j) := band_cpGetPollCommand hq
  have hidle : Keeps R (cpGetIdleCommand j) := by
    unfold cpGetIdleCommand
    grind
  have hstaged : Keeps R (cpGetStagedCommand env run j) := by
    unfold cpGetStagedCommand
    grind
  unfold cpGetEngineCommand
  grind

theorem band_cpKeysetComplete : Keeps R (cpKeysetComplete env run j) := by
  have ho (k : Bytes) : Keeps R (observe (.keyCommit j k)) :=
    steady_observe rfl
  have hreq : Keeps R (makeRequest j .restartSc) := band_makeRequest hq _
  have hsc : Keeps R (cpNotifyScStatus env run j) := steady_cpNotifyScStatus hr
  have hk : Keeps R (cpTakeKey j) := by
    unfold cpTakeKey
    grind
  unfold cpKeysetComplete
  grind

theorem band_stateCheckReply : Keeps R (stateCheckReply env run j) := by
  have hk : Keeps R (cpKeysetComplete env run j) :=
    band_cpKeysetComplete hq hr
  have hon : Keeps R (cpCheckOnlineResponse env run j) := by
    unfold cpCheckOnlineResponse
    grind
  unfold stateCheckReply
  grind

omit hq in
theorem steady_cpSettleFailure : Keeps R (cpSettleFailure env run j) := by
  have hn (k : Nat) (ph : MpPhase) (g : MpProgress) :
      Keeps R (osdpMpPdNotify env run k ph g) := steady_osdpMpPdNotify hr ph g
  have hab : Keeps R (cpAbortRefused env run j) := by
    unfold cpAbortRefused
    grind
  unfold cpSettleFailure
  grind

theorem band_cpTransitionEffects (cur next : CpState) (err : Int) :
    Keeps R (cpTransitionEffects env run j cur next err) := by
  have hs (b : Bool) : Keeps R (setUseScbkd j b) := steady_updPd fun _ => rfl
  have ho : Keeps R (observe (.scActivated j)) := steady_observe rfl
  have ha : Keeps R (scActivate j) :=
    .bind (steady_updPd fun _ => rfl) fun _ => ho
  have hsc : Keeps R (cpNotifyScStatus env run j) := steady_cpNotifyScStatus hr
  have hk : Keeps R (cpKeysetComplete env run j) :=
    band_cpKeysetComplete hq hr
  have hok : Keeps R (cpOkEffects env run j cur next) := by
    unfold cpOkEffects
    grind
  have herr : Keeps R (cpErrEffects env run j cur next) := by
    unfold cpErrEffects
    grind
  unfold cpTransitionEffects
  grind

theorem band_cpEnterOffline : Keeps R (cpEnterOffline env run j) := by
  have hdrop : Keeps R (cpDropSessionRequests j) := hq _ fun _ => rfl
  have hab : Keeps R (osdpEnginesAbort env run j) := steady_engines hr
  have hsc : Keeps R (cpNotifyScStatus env run j) := steady_cpNotifyScStatus hr
  unfold cpEnterOffline
  grind

theorem band_cpEnterDisabled : Keeps R (cpEnterDisabled env run j) := by
  have hdrop : Keeps R (cpDropSessionRequests j) := hq _ fun _ => rfl
  have hab : Keeps R (osdpEnginesAbort env run j) := steady_engines hr
  have hsc : Keeps R (cpNotifyScStatus env run j) := steady_cpNotifyScStatus hr
  unfold cpEnterDisabled
  grind

omit hq hr in
theorem steady_cpEnterScChlng : Keeps R (cpEnterScChlng env j) := by
  have ho (r : Bytes) : Keeps R (observe (.challenged j r)) :=
    steady_observe rfl
  have hf (n : Nat) : Keeps R (osdpFillRandom env n) :=
    steady_osdpFillRandom n
  have hsetup : Keeps R (osdpScSetup env j) := by
    unfold osdpScSetup
    grind
  unfold cpEnterScChlng
  grind

end Band

-- ============================================================= other PDs

section Other

variable (hne : j ≠ i) (hr : ∀ calls, env.Makes calls → Keeps R (run calls))
include hne hr

theorem other_cpNotifyTrsStatus (st : TrsSessionStatus) :
    Keeps R (cpNotifyTrsStatus env run j st) :=
  steady_cpNotify hr (.inr hne)

theorem other_cpKick : Keeps R (cpKick env run j) := by
  have hu (f : OsdpPd → OsdpPd) : Keeps R (updPd j f) := other_updPd hne f
  have hq : LetsBand j R := letsBand_other hne
  have hdone (c : SubmittedCmd) (st : CompletionStatus) :
      Keeps R (cpCompleteCmd env run j (some c) st) :=
    steady_cpCompleteCmd hr _ st
  have hact (c : Option SubmittedCmd) : Keeps R (setActiveCmd j c) := hu _
  have htrs (f : OsdpTrs → OsdpTrs) : Keeps R (updTrs j f) := hu _
  have hpop : Keeps R (cpCmdDequeue j) := band_cpCmdDequeue hq
  have hpoll : Keeps R (cpGetPollCommand j) := band_cpGetPollCommand hq
  have hreq (r : CpReq) : Keeps R (makeRequest j r) := band_makeRequest hq r
  have hengine : Keeps R (cpGetEngineCommand env run j) :=
    band_cpGetEngineCommand hq hr
  have hnote (st : TrsSessionStatus) :
      Keeps R (cpNotifyTrsStatus env run j st) :=
    other_cpNotifyTrsStatus hne hr st
  have hsetup (c : SubmittedCmd) : Keeps R (cpSetupActiveCmd env run j c) := by
    unfold cpSetupActiveCmd
    grind
  have hdiscard (c : SubmittedCmd) (st : CompletionStatus) :
      Keeps R (cpDiscardCmd env run j c st) := by
    unfold cpDiscardCmd
    grind
  have honline : Keeps R (cpGetOnlineCommand env run j) := by
    unfold cpGetOnlineCommand
    grind
  have hidle : Keeps R (cpGetTrsIdleCommand j) := by
    unfold cpGetTrsIdleCommand
    grind
  have hband (c : SubmittedCmd) : Keeps R (cpGetBandCommand env run j c) := by
    unfold cpGetBandCommand
    grind
  have hadopt (c : SubmittedCmd) : Keeps R (cpAdoptProbe env run j c) := by
    unfold cpAdoptProbe
    grind
  have hcard (n : Nat) : Keeps R (cpGetTrsCommand env run j n) := by
    induction n with
    | zero => exact .throw _
    | succ n ih =>
      unfold cpGetTrsCommand
      grind
  have hget : Keeps R (stateGetCmd env run j) := by
    unfold stateGetCmd
    grind
  unfold cpKick
  grind

theorem other_cpSettle (err : Int) : Keeps R (cpSettle env run j err) := by
  have hu (f : OsdpPd → OsdpPd) : Keeps R (updPd j f) := other_updPd hne f
  have hact (c : Option SubmittedCmd) : Keeps R (setActiveCmd j c) := hu _
  have hcheck : Keeps R (stateCheckReply env run j) :=
    band_stateCheckReply (letsBand_other hne) hr
  have hdone (c : Option SubmittedCmd) (st : CompletionStatus) :
      Keeps R (cpCompleteCmd env run j c st) := steady_cpCompleteCmd hr _ st
  have hcmd (b : Bool) : Keeps R (cpSettleCommand env run j b) := by
    unfold cpSettleCommand
    refine .bind (keeps_getPd j) fun p => ?_
    split
    · exact .bind (hu _) fun _ => hact _
    · exact .bind (hdone _ _) fun _ => hact _
  have hfail : Keeps R (cpSettleFailure env run j) :=
    steady_cpSettleFailure hr
  unfold cpSettle
  refine .bind hcheck fun status => .bind (hcmd status) fun _ => ?_
  split
  · exact .bind (.pure _) fun _ =>
      .bind (steady_osdpPhyStateReset false) fun _ => .pure _
  · exact .bind hfail fun _ =>
      .bind (steady_osdpPhyStateReset false) fun _ => .pure _

theorem other_cpStateChange (cur next : CpState) :
    Keeps R (cpStateChange env run j cur next) := by
  have hu (f : OsdpPd → OsdpPd) : Keeps R (updPd j f) := other_updPd hne f
  have hq : LetsBand j R := letsBand_other hne
  have htrs (f : OsdpTrs → OsdpTrs) : Keeps R (updTrs j f) := hu _
  have hnote (st : TrsSessionStatus) :
      Keeps R (cpNotifyTrsStatus env run j st) :=
    other_cpNotifyTrsStatus hne hr st
  have hpd (b : Bool) : Keeps R (cpNotifyPdStatus env run j b) :=
    steady_cpNotifyPdStatus hr b
  have hflush : Keeps R (cpFlushTrsBand env run j) := band_cpFlushTrsBand hq hr
  have hleave : Keeps R (cpLeaveTrs env run j) := by
    unfold cpLeaveTrs
    grind
  have hoff : Keeps R (cpEnterOffline env run j) := band_cpEnterOffline hq hr
  have hdis : Keeps R (cpEnterDisabled env run j) :=
    band_cpEnterDisabled hq hr
  have hsetup : Keeps R (cpEnterTrsSetup j) := hu _
  have hrun : Keeps R (cpEnterTrsRun env run j) := by
    unfold cpEnterTrsRun
    grind
  have hchlng : Keeps R (cpEnterScChlng env j) := steady_cpEnterScChlng
  have henter : Keeps R (cpEnter env run j cur next) := by
    unfold cpEnter
    grind
  unfold cpStateChange
  grind

theorem other_cpAdvance (cur : CpState) (err : Int) :
    Keeps R (cpAdvance env run j cur err) := by
  have hu (f : OsdpPd → OsdpPd) : Keeps R (updPd j f) := other_updPd hne f
  have hq : LetsBand j R := letsBand_other hne
  have htrs (f : OsdpTrs → OsdpTrs) : Keeps R (updTrs j f) := hu _
  have hnote (st : TrsSessionStatus) :
      Keeps R (cpNotifyTrsStatus env run j st) :=
    other_cpNotifyTrsStatus hne hr st
  have hcard : Keeps R (cpTrsNext env run j err) := by
    unfold cpTrsNext
    grind
  have hreq (r : CpReq) : Keeps R (checkRequest j r) := band_checkRequest hq r
  have honline (next : CpState) : Keeps R (cpOnlineRequests env j next) :=
    band_cpOnlineRequests hq next
  have hnext : Keeps R (getNextState j err) := steady_getNextState err
  have heff (next : CpState) :
      Keeps R (cpTransitionEffects env run j cur next err) :=
    band_cpTransitionEffects hq hr cur next err
  have hproto : Keeps R (cpProtocolNext env run j cur err) := by
    unfold cpProtocolNext
    grind
  have hlife (next : CpState) : Keeps R (cpLifecycle j next) :=
    band_cpLifecycle hq next
  have hchange (next : CpState) : Keeps R (cpStateChange env run j cur next) :=
    other_cpStateChange hne hr cur next
  unfold cpAdvance
  grind

/-- A step of an exchange with another PD. -/
theorem other_cpPhyStateUpdate : Keeps R (cpPhyStateUpdate env run j) := by
  intro s err t h
  cases hrun : cpPhyRunning (s.pd j) with
  | true =>
    cases exchange_session (R := R) hr (.inr hne) hrun h with
    | nothing steady reply => exact steady
    | heard wait payload hears u v rc steady dec settles replyId log done =>
      have hnote : R u (u.noteReport j payload) :=
        (other_updPd hne _).of (a := ()) rfl
      exact trans_of R steady (trans_of R hnote
        (trans_of R (decodeResponse_session hr dec) settles))
  | false =>
    obtain ⟨p, v, hp, h⟩ := bind_ok.mp h
    obtain ⟨rfl, rfl⟩ := getPd_ok.mp hp
    cases hph : (s.pd j).phyState with
    | idle | done | err =>
      rw [hph] at h
      exact (Keeps.pure (R := R) _).of h
    | wait | retryCmd | sendCmd | sendCmdWait | replyWait =>
      simp [cpPhyRunning, cpPhyBusIsBusy, hph] at hrun

/-- A pass on another PD touches the session only as callbacks can. -/
theorem other_stateUpdate : Keeps R (stateUpdate env run j) := by
  have hk : Keeps R (cpKick env run j) := other_cpKick hne hr
  have hs (err : Int) : Keeps R (cpSettle env run j err) :=
    other_cpSettle hne hr err
  have ha (cur : CpState) (err : Int) : Keeps R (cpAdvance env run j cur err) :=
    other_cpAdvance hne hr cur err
  have hp (cur : CpState) : Keeps R (cpProceed env run j cur) := by
    unfold cpProceed
    grind
  have hx : Keeps R (cpPhyStateUpdate env run j) :=
    other_cpPhyStateUpdate hne hr
  unfold stateUpdate
  grind

end Other

end Steady

end LibOsdp
