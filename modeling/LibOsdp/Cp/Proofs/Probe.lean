/-
A presence probe gives the reader back.

A probe holds the reader in transparent mode for `mode1_dwell_ms`, and
longer only while a card that was seen is held: `hold_ms` from the
sighting.  The sighting that starts a hold is the first of its run
(`trs_scan_note_card`), so later ones do not push the deadline back, and
a report that the card is gone ends the hold.

# When a hold can start

The probe is looked at whenever a command is to be chosen.  Once the dwell
has run out, a probe that holds no card is closed there and then, so a
hold in force at that moment started before it, and one that is dropped
later is not followed by another: the reply that drops it ends its
exchange, and what comes next is the choice of a command.  `LateAt` is this
moment, and `ProbeInv.late` what holds from then on.

# Clocks

`ScanClock` is all the probe is timed by.  A pass leaves it alone but for
the reply it decodes and for the dwell it starts, as long as the
application does not start or stop the scan (`leavesScan`).
-/
import LibOsdp.Cp.Proofs.Restore

namespace LibOsdp

open Lib

-- ============================================================ what stays

/-- The card session without its notices. -/
def PdCard.silent (c : PdCard) : PdCard := { c with notify := false }

/-- The session of PD `i` is as it was, clocks included. -/
structure SameProbe (i : Nat) (s t : Osdp) : Prop where
  now : t.now = s.now
  card : (t.pd i).card.silent = (s.pd i).card.silent

section SameProbe

variable {i : Nat} {s t : Osdp}

instance (i : Nat) : IsPreorder Osdp (SameProbe i) where
  refl _ := ⟨rfl, rfl⟩
  trans _ _ _ h k := ⟨k.now.trans h.now, k.card.trans h.card⟩

instance (i : Nat) : CardMoves i (SameProbe i) where
  same _ _ h := ⟨h.now, congrArg PdCard.silent (card_of_session h.session)⟩
  card s f h := by
    refine ⟨rfl, ?_⟩
    rw [updPd_pd_same, h]

/-- An update the notices alone depend on. -/
theorem sameProbe_updPd {j : Nat} {f : OsdpPd → OsdpPd}
    (h : (f (s.pd j)).card.silent = (s.pd j).card.silent) :
    SameProbe i s (s.updPd j f) := by
  refine ⟨rfl, ?_⟩
  by_cases e : i = j
  · subst e
    rw [updPd_pd_same]
    exact h
  · rw [updPd_pd_ne s f e]

theorem SameProbe.clock (h : SameProbe i s t) :
    (t.pd i).trs.clock = (s.pd i).trs.clock :=
  congrArg PdCard.clock h.card

theorem SameProbe.probe (h : SameProbe i s t) :
    (t.pd i).trs.probe = (s.pd i).trs.probe :=
  congrArg PdCard.probe h.card

theorem SameProbe.phase (h : SameProbe i s t) :
    SamePhase (s.pd i) (t.pd i) :=
  ⟨congrArg PdCard.state h.card, congrArg PdCard.phase h.card,
    congrArg PdCard.active h.card, congrArg PdCard.pdMode h.card,
    congrArg PdCard.cmdId h.card, congrArg PdCard.activeCmd h.card⟩

end SameProbe

-- ================================================================= calls

/-- The call neither starts nor stops the presence scan of PD `i`. -/
def ApiCall.leavesScan (i : Nat) : ApiCall → Bool
  | .cpTrsScanEnable j _ | .cpTrsScanDisable j => j != i
  | _ => true

/-- No callback of the application makes such a call. -/
def Env.leavesScan (env : Env) (i : Nat) : Prop :=
  ∀ calls, env.Makes calls → ∀ c ∈ calls, ApiCall.leavesScan i c = true

section Calls

variable {env : Env} {run : List ApiCall → OsdpM Unit} {i : Nat}

/-- Requests are no part of a card session. -/
theorem probe_makeRequest (j : Nat) (r : CpReq) :
    Keeps (SameProbe i) (makeRequest j r) := by
  intro s a t e
  rw [← updPd_ok.mp e]
  exact sameProbe_updPd rfl

/-- Nor is any flag but the one for notices. -/
theorem probe_osdpCpModifyFlag (j : Nat) (m : CpFlagMask) (b : Bool) :
    Keeps (SameProbe i) (osdpCpModifyFlag j m b) := by
  have hu : Keeps (SameProbe i)
      (updPd j fun p => { p with flags := m.apply b p.flags }) := by
    intro s a t e
    rw [← updPd_ok.mp e]
    exact sameProbe_updPd rfl
  unfold osdpCpModifyFlag
  grind

/-- The queue and the band's marker are no part of it. -/
theorem probe_updBand (j : Nat) {f : OsdpPd → OsdpPd}
    (h : ∀ p : OsdpPd, (f p).card = p.card) :
    Keeps (SameProbe i) (updPd j f) := by
  intro s a t e
  rw [← updPd_ok.mp e]
  exact sameProbe_updPd (congrArg PdCard.silent (h _))

theorem probe_modifyRunning (b : Osdp → Bool) :
    Keeps (SameProbe i)
      (modify fun s => { s with running := b s } : OsdpM Unit) :=
  .modify fun _ => ⟨rfl, rfl⟩

theorem probe_osdpCpSubmitCommand (j : Nat) (c : SubmittedCmd) :
    Keeps (SameProbe i) (osdpCpSubmitCommand env j c) := by
  have hengine (t : MpMsg) (ok : Bool) :
      Keeps (SameProbe i) (cpSubmitEngine j c t ok) := by
    have hu : Keeps (SameProbe i) (cpOwnEngineCmd j c t) :=
      probe_updBand j fun _ => rfl
    unfold cpSubmitEngine
    grind
  have hqueue : Keeps (SameProbe i) (cpSubmitQueued j c) := by
    have hb (b : Bool) : Keeps (SameProbe i)
        (updTrs j fun t => { t with bandOpen := b }) :=
      probe_updBand j fun _ => rfl
    have hq : Keeps (SameProbe i) (updPd j fun p =>
        { p with cmdQueue := p.cmdQueue ++ [c] }) :=
      probe_updBand j fun _ => rfl
    unfold cpSubmitQueued
    refine .bind (keeps_getPd j) fun p => ?_
    dsimp only
    split
    · exact .pure _
    · split
      · exact .pure _
      · next b _ => exact .bind (hb b) fun _ => .bind hq fun _ => .pure _
  have hsubmit : Keeps (SameProbe i) (cpSubmitCommand env j c) := by
    unfold cpSubmitCommand
    grind
  have ho : Keeps (SameProbe i) (observe (.accepted j c.node)) :=
    steady_observe rfl
  unfold osdpCpSubmitCommand
  refine .bind .get fun s => ?_
  split
  · exact .pure _
  · refine .bind (probe_modifyRunning fun _ => true) fun _ =>
      .bind hsubmit fun ok =>
      .bind (probe_modifyRunning fun _ => s.running) fun _ => ?_
    split
    · exact .bind ho fun _ => .pure _
    · exact .pure _

theorem probe_osdpCpFlushCommands
    (hr : ∀ calls, env.Makes calls → Keeps (SameProbe i) (run calls))
    (j : Nat) : Keeps (SameProbe i) (osdpCpFlushCommands env run j) := by
  have hdrain (st : CompletionStatus) (l : List SubmittedCmd) :
      Keeps (SameProbe i) (cpDrain env run j st l) := by
    induction l with
    | nil => exact .pure _
    | cons c rest ih =>
      unfold cpDrain
      exact .bind (steady_cpCompleteCmd hr _ st) fun _ => ih
  have hqueue (st : CompletionStatus) :
      Keeps (SameProbe i) (cpDrainQueue env run j st) := by
    unfold cpDrainQueue
    exact .bind (keeps_getPd j) fun p =>
      .bind (probe_updBand j fun _ => rfl) fun _ => hdrain st _
  unfold osdpCpFlushCommands
  refine .bind .get fun s => ?_
  split
  · exact .pure _
  · exact .bind (probe_modifyRunning fun _ => true) fun _ =>
      .bind (hqueue _) fun _ =>
      .bind (probe_modifyRunning fun _ => s.running) fun _ =>
      probe_updBand j fun _ => rfl

/-- Setting up the scan of another PD. -/
theorem probe_other {j : Nat} (hne : j ≠ i) (f : OsdpTrs → OsdpTrs) :
    Keeps (SameProbe i) (updTrs j f) := by
  intro s a t e
  rw [← updPd_ok.mp e]
  exact ⟨rfl, by rw [updPd_pd_ne _ _ (Ne.symm hne)]⟩

/-- A call that leaves the scan alone leaves the session alone. -/
theorem probe_cpApiCall
    (hr : ∀ calls, env.Makes calls → Keeps (SameProbe i) (run calls))
    {c : ApiCall} (hc : c.leavesScan i = true) :
    Keeps (SameProbe i) (cpApiCall env run c) := by
  have hreq (j : Nat) (r : CpReq) : Keeps (SameProbe i) (makeRequest j r) :=
    probe_makeRequest j r
  unfold cpApiCall
  cases c with
  | pdSubmitEvent ev => exact .pure _
  | pdFlushEvents => exact .pure _
  | cpSubmitCommand j cmd =>
    exact .bind (probe_osdpCpSubmitCommand j cmd) fun _ => .pure _
  | cpCancel j what =>
    refine .bind ?_ fun _ => .pure _
    unfold osdpCpCancel
    grind
  | cpFlushCommands j => exact probe_osdpCpFlushCommands hr j
  | cpModifyFlag j m b =>
    exact .bind (probe_osdpCpModifyFlag j m b) fun _ => .pure _
  | cpDisablePd j =>
    refine .bind ?_ fun _ => .pure _
    unfold osdpCpDisablePd
    grind
  | cpEnablePd j =>
    refine .bind ?_ fun _ => .pure _
    unfold osdpCpEnablePd
    grind
  | cpTrsScanEnable j params =>
    have hne : j ≠ i := by simpa [ApiCall.leavesScan] using hc
    refine .bind ?_ fun _ => .pure _
    unfold osdpCpTrsScanEnable
    refine .bind .get fun s => ?_
    split
    · exact .pure _
    · exact .bind (probe_other hne _) fun _ => .pure _
  | cpTrsScanDisable j =>
    have hne : j ≠ i := by simpa [ApiCall.leavesScan] using hc
    refine .bind ?_ fun _ => .pure _
    unfold osdpCpTrsScanDisable
    refine .bind .get fun s => ?_
    split
    · exact .pure _
    · exact .bind (probe_other hne _) fun _ => .pure _

/-- So do the calls of a callback, however deep they nest. -/
theorem probe_cpRunCalls (henv : env.leavesScan i) (depth : Nat)
    {calls : List ApiCall}
    (hc : ∀ c ∈ calls, ApiCall.leavesScan i c = true) :
    Keeps (SameProbe i) (cpRunCalls env depth calls) := by
  induction depth generalizing calls with
  | zero =>
    cases calls with
    | nil => exact .pure _
    | cons c rest => exact .throw _
  | succ n ih =>
    have hr (l : List ApiCall) (hl : env.Makes l) :
        Keeps (SameProbe i) (cpRunCalls env n l) := ih (henv l hl)
    unfold cpRunCalls
    induction calls with
    | nil => exact .pure _
    | cons c rest ihc =>
      unfold cpCalls
      exact .bind (probe_cpApiCall hr (hc c List.mem_cons_self)) fun _ =>
        ihc fun d hd => hc d (List.mem_cons_of_mem c hd)

theorem probe_makes (henv : env.leavesScan i) (depth : Nat)
    {calls : List ApiCall} (h : env.Makes calls) :
    Keeps (SameProbe i) (cpRunCalls env depth calls) :=
  probe_cpRunCalls henv depth (henv calls h)

end Calls

-- =============================================================== replies

/-- What a reply that arrives at this time may do to the clock: it starts a
hold, or leaves the one in force as it is, or ends it. -/
structure ScanClock.Heard (now : Int) (c d : ScanClock) : Prop where
  enabled : d.enabled = c.enabled
  dwell : d.mode1DwellMs = c.mode1DwellMs
  holdMs : d.holdMs = c.holdMs
  probeTstamp : d.probeTstamp = c.probeTstamp
  hold : d.holding = true →
    c.holding = true ∧ d.holdTstamp = c.holdTstamp ∨
      c.holding = false ∧ d.holdTstamp = now

theorem ScanClock.Heard.refl (now : Int) (c : ScanClock) : c.Heard now c :=
  ⟨rfl, rfl, rfl, rfl, fun h => .inl ⟨h, rfl⟩⟩

/-- A sighting, or a report that there is no card. -/
theorem trsScanNoteCard_clock (now : Int) (present : Bool) (t : OsdpTrs) :
    t.clock.Heard now (trsScanNoteCard now present t).clock := by
  unfold trsScanNoteCard osdpTrsScanNoteActivity
  split
  · exact .refl now _
  · split
    · split <;> exact .refl now _
    · split
      · exact ⟨rfl, rfl, rfl, rfl, nofun⟩
      · refine ⟨rfl, rfl, rfl, rfl, fun _ => ?_⟩
        by_cases h : t.scan.holding = true
        · exact .inl ⟨h, by simp [OsdpTrs.clock, h]⟩
        · exact .inr ⟨by simpa [OsdpTrs.clock] using h,
            by simp [OsdpTrs.clock, h]⟩

/-- What a status report leaves beside the sighting is no part of the
clock. -/
theorem presence_clock (status : TrsCardStatus) (t : OsdpTrs) :
    (trsScanPresenceIsNews status (trsScanNoteAnswered t)).1.clock
      = t.clock := by
  unfold trsScanPresenceIsNews trsScanNoteAnswered
  repeat' split
  all_goals rfl

/-- A card report. -/
theorem trsReplyDecode_clock (now : Int) (buf : Bytes) (t : OsdpTrs) :
    t.clock.Heard now (osdpTrsReplyDecode now buf t).1.clock := by
  have hpresent (reader : UInt8) (status : TrsCardStatus) :
      t.clock.Heard now (trsCardPresent now reader status t).1.clock := by
    have h := trsScanNoteCard_clock now (status ≠ .notPresent)
      (trsScanPresenceIsNews status (trsScanNoteAnswered t)).1
    rw [presence_clock] at h
    exact h
  have hinfo (d : Bytes) :
      t.clock.Heard now (trsCardInfo now d t).1.clock := by
    unfold trsCardInfo
    dsimp only
    split
    · exact .refl now _
    · split
      · exact .refl now _
      · exact trsScanNoteCard_clock now true t
  have hsight (d : Bytes) :
      t.clock.Heard now (trsCardSighting now d t).1.clock := by
    unfold trsCardSighting
    split
    · exact .refl now _
    · split
      · exact hpresent _ _
      · split
        · exact .refl now _
        · exact hpresent _ _
  unfold osdpTrsReplyDecode
  split
  · exact .refl now _
  · dsimp only
    split
    · split <;> exact .refl now _
    · exact hinfo _
    · exact hsight _
    all_goals first | exact .refl now _ | (split <;> exact .refl now _)

section Exchange

variable {env : Env} {depth i : Nat} {s t : Osdp}

/-- A reply, noted. -/
theorem noteReport_clock (s : Osdp) (i : Nat) (payload : Bytes) :
    (s.pd i).trs.clock.Heard s.now
      ((s.noteReport i payload).pd i).trs.clock := by
  rw [Osdp.noteReport, updPd_pd_same, OsdpPd.afterReport]
  split
  · have h := trsReplyDecode_clock s.now payload.tail (s.pd i).trs
    exact ⟨h.enabled, h.dwell, h.holdMs, h.probeTstamp, h.hold⟩
  · exact .refl _ _

/-- What a step of an exchange does to a session, its clock included. -/
structure ProbeHeard (i : Nat) (s t : Osdp) : Prop where
  now : t.now = s.now
  phase : SamePhase (s.pd i) (t.pd i)
  probe : (t.pd i).trs.probe = (s.pd i).trs.probe
  clock : (s.pd i).trs.clock.Heard s.now (t.pd i).trs.clock

theorem SameProbe.heard (h : SameProbe i s t) : ProbeHeard i s t :=
  ⟨h.now, h.phase, h.probe, h.clock ▸ .refl _ _⟩

variable (henv : env.leavesScan i)
include henv

theorem probe_decodeResponse {payload : Bytes} {rc : Int}
    (h : cpDecodeResponse env (cpRunCalls env depth) i payload s
      = .ok rc t) : SameProbe i (s.noteReport i payload) t :=
  decodeResponse_session (fun _ hl => probe_makes henv depth hl) h

theorem exchanged_probe {err : Int}
    (h : Exchanged env (cpRunCalls env depth) i (SameProbe i) s t err) :
    ProbeHeard i s t := by
  cases h with
  | nothing steady reply => exact steady.heard
  | heard wait payload hears u v rc steady dec settles replyId log done =>
    have hdec := probe_decodeResponse henv dec
    have hrest : SameProbe i (u.noteReport i payload) t :=
      trans_of (SameProbe i) hdec settles
    have hclock := noteReport_clock u i payload
    rw [steady.clock, steady.now, ← hrest.clock] at hclock
    have hsame : SamePhase (u.pd i) ((u.noteReport i payload).pd i) ∧
        ((u.noteReport i payload).pd i).trs.probe = (u.pd i).trs.probe := by
      rw [Osdp.noteReport, updPd_pd_same, OsdpPd.afterReport]
      split <;> exact ⟨⟨rfl, rfl, rfl, rfl, rfl, rfl⟩, rfl⟩
    exact ⟨hrest.now.trans steady.now,
      steady.phase.trans (hsame.1.trans hrest.phase),
      hrest.probe.trans (hsame.2.trans steady.probe), hclock⟩

omit henv in
/-- A card report ends the exchange it arrives in. -/
theorem decodeXrd_ends {payload : Bytes} {rc : Int}
    (hid : payloadId payload = replyXrd)
    (h : cpDecodeResponse env (cpRunCalls env depth) i payload s
      = .ok rc t) : rc = cpErrNone ∨ rc = cpErrGeneric := by
  by_cases hact : (s.pd i).flags.trsActive = true
  · rcases decodeResponse_xrd hid hact h with ⟨e, -⟩ | ⟨e, -⟩
    · exact .inr e
    · exact .inl e
  · obtain ⟨_, u, hu, h⟩ := bind_ok.mp h
    have hrun : cpDecodeCases env (cpRunCalls env depth) i
        (payloadId payload) payload.tail u = .ok rc t := h
    rw [hid] at hrun
    obtain ⟨p, u', hp, hrun⟩ := bind_ok.mp hrun
    obtain ⟨rfl, rfl⟩ := getPd_ok.mp hp
    obtain ⟨p, u', hp, hrun⟩ := bind_ok.mp hrun
    obtain ⟨rfl, rfl⟩ := getPd_ok.mp hp
    obtain ⟨now, u', hn, hrun⟩ := bind_ok.mp hrun
    cases hn
    obtain ⟨_, v, hv, hrun⟩ := bind_ok.mp hrun
    have hflag : ¬ (u.pd i).flags.trsActive = true := by
      rw [← updPd_ok.mp hu, updPd_pd_same]
      exact hact
    rw [if_neg hflag] at hrun
    have hout : Returns (· = cpErrNone)
        (decodeXrdOutside env (cpRunCalls env depth) i
          (osdpTrsReplyDecode u.now payload.tail (u.pd i).trs).2) := by
      unfold decodeXrdOutside
      grind
    exact .inl (hout _ _ _ hrun)

omit henv in
/-- A verdict that ends the exchange it is given in. -/
theorem judge_ends {rc err : Int}
    (hrc : rc = cpErrNone ∨ rc = cpErrGeneric)
    (h : cpPhyJudge i rc s = .ok err t) :
    err = cpErrNone ∨ err = cpErrGeneric := by
  obtain ⟨p, u, hp, h⟩ := bind_ok.mp h
  obtain ⟨rfl, rfl⟩ := getPd_ok.mp hp
  split at h
  · obtain ⟨_, v, hv, h⟩ := bind_ok.mp h
    exact .inl (pure_ok.mp h).1.symm
  · next hno =>
    rcases hrc with rfl | rfl
    · exact absurd (by simp [cpReplyEnds]) hno
    · rw [if_pos (.inl rfl)] at h
      obtain ⟨_, v, hv, h⟩ := bind_ok.mp h
      exact .inr (pure_ok.mp h).1.symm

omit henv in
/-- A report that is none of a card leaves the session as it is. -/
theorem sameProbe_noteReport {payload : Bytes}
    (hid : payloadId payload ≠ replyXrd) :
    SameProbe i s (s.noteReport i payload) := by
  refine sameProbe_updPd ?_
  rw [OsdpPd.afterReport, if_neg hid]

/-- An exchange that goes on heard nothing of a card. -/
theorem going_probe {err : Int} (hm : (s.pd i).flags.pdMode = false)
    (hrun : cpPhyRunning (s.pd i) = true)
    (hgo : err ≠ cpErrNone ∧ err ≠ cpErrGeneric)
    (h : cpPhyStateUpdate env (cpRunCalls env depth) i s = .ok err t) :
    SameProbe i s t := by
  have hr (calls : List ApiCall) (hl : env.Makes calls) :
      Keeps (SameProbe i) (cpRunCalls env depth calls) :=
    probe_makes henv depth hl
  by_cases hph : (s.pd i).phyState = .replyWait
  · obtain ⟨p, v, hp, h⟩ := bind_ok.mp h
    obtain ⟨rfl, rfl⟩ := getPd_ok.mp hp
    rw [hph] at h
    obtain ⟨rc, u, hu, h⟩ := bind_ok.mp h
    obtain ⟨_, v, hv, h⟩ := bind_ok.mp h
    have hut : SameProbe i u t := trans_of (SameProbe i)
      ((steady_cpPhyAcknowledge rc).of hv) ((steady_cpPhyJudge rc).of h)
    cases processReply_session (R := SameProbe i) (.inl hm) hu with
    | nothing steady hrc => exact trans_of (SameProbe i) steady hut
    | heard payload hears w x steady dec eq =>
      have hid : payloadId payload ≠ replyXrd := by
        intro hid
        rcases judge_ends (decodeXrd_ends hid dec) h with e | e
        · exact hgo.1 e
        · exact hgo.2 e
      have hx : SameProbe i x u := by
        rw [eq]
        exact ⟨rfl, rfl⟩
      exact trans_of (SameProbe i) steady
        (trans_of (SameProbe i) (sameProbe_noteReport hid)
          (trans_of (SameProbe i) (probe_decodeResponse henv dec)
            (trans_of (SameProbe i) hx hut)))
  · cases exchange_session hr (.inl hm) hrun h with
    | nothing steady reply => exact steady
    | heard wait => exact absurd wait hph

end Exchange

-- ============================================================ the choice

/-- What the selector sees of a PD in a probe whose mode 01 was
confirmed. -/
def OsdpPd.probing (p : OsdpPd) : Prop :=
  p.state = .trsRun ∧ p.trs.probe = true ∧ p.trs.state = .xmit

/-- Time stands still, and so do the clock of a probe and what makes it
one. -/
structure SameClock (i : Nat) (s t : Osdp) : Prop where
  now : t.now = s.now
  state : (t.pd i).state = (s.pd i).state
  probe : (t.pd i).trs.probe = (s.pd i).trs.probe
  clock : (t.pd i).trs.clock = (s.pd i).trs.clock

section Choice

variable {env : Env} {run : List ApiCall → OsdpM Unit}
variable {i : Nat} {s t : Osdp} {id : Nat}

theorem SameClock.trans {u : Osdp} (h : SameClock i s t)
    (k : SameClock i t u) : SameClock i s u :=
  ⟨k.now.trans h.now, k.state.trans h.state, k.probe.trans h.probe,
    k.clock.trans h.clock⟩

theorem SameProbe.sameClock (h : SameProbe i s t) : SameClock i s t :=
  ⟨h.now, h.phase.state, h.probe, h.clock⟩

theorem sameClock_updPd {f : OsdpPd → OsdpPd}
    (h : (f (s.pd i)).state = (s.pd i).state ∧
      (f (s.pd i)).trs.probe = (s.pd i).trs.probe ∧
      (f (s.pd i)).trs.clock = (s.pd i).trs.clock) :
    SameClock i s (s.updPd i f) := by
  refine ⟨rfl, ?_, ?_, ?_⟩ <;> rw [updPd_pd_same]
  · exact h.1
  · exact h.2.1
  · exact h.2.2

/-- The choice of a card command leaves the clock alone. -/
theorem CardPick.sameClock (h : CardPick i (SameProbe i) s t id) :
    SameClock i s t := by
  have hactive (u : Osdp) (c : Option SubmittedCmd) :
      SameClock i u (u.setActive i c) := sameClock_updPd ⟨rfl, rfl, rfl⟩
  have hphase (u : Osdp) (ph : TrsState) : SameClock i u (u.setPhase i ph) :=
    sameClock_updPd ⟨rfl, rfl, rfl⟩
  cases h with
  | poll phase steady id => exact steady.sameClock
  | ask phase steady id => exact (hactive s none).trans steady.sameClock
  | expire u phase probe steady eq id =>
    exact eq ▸ steady.sameClock.trans (hphase u _)
  | app c u phase steady eq live id =>
    exact eq ▸ steady.sameClock.trans (hactive u _)
  | dropped u phase steady eq id =>
    exact eq ▸ steady.sameClock.trans (hactive u _)
  | stop u phase steady then_ id =>
    exact steady.sameClock.trans ((hactive u none).trans
      ((hphase _ _).trans then_.sameClock))
  | step phase eq id => exact eq ▸ hactive s none

/-- So does any choice after which the probe is one. -/
theorem StatePick.sameClock (h : StatePick env i (SameProbe i) s t id)
    (hin : (s.pd i).state.inTrs = true)
    (hprobe : (t.pd i).trs.probe = true) : SameClock i s t := by
  rw [StatePick, if_pos hin] at h
  rcases h with h | ⟨w, hw, h⟩
  · exact h.sameClock
  · obtain ⟨u, -, huw⟩ := hw.told
    have e := h.sameClock.probe.trans huw.probe
    have hno : ((((u.setActive i none).setProbe i false).noted env i .opened).pd
        i).trs.probe = false := by
      rw [(noted_phase env ((u.setActive i none).setProbe i false)
        (i := i) .opened).1, Osdp.setProbe, updPd_pd_same]
    rw [hprobe, hno] at e
    cases e

/-- The choice of a command does not change the protocol state. -/
theorem StatePick.state (h : StatePick env i (SameProbe i) s t id)
    (hin : (s.pd i).state.inTrs = true) :
    (t.pd i).state = (s.pd i).state := by
  rw [StatePick, if_pos hin] at h
  rcases h with h | ⟨w, hw, h⟩
  · exact h.sameClock.state
  · obtain ⟨u, hu, huw⟩ := hw.told
    have e : (w.pd i).state = (u.pd i).state := by
      rw [huw.phase.state, (noted_phase env
        ((u.setActive i none).setProbe i false) (i := i) .opened).1,
        Osdp.setProbe, updPd_pd_same, Osdp.setActive, updPd_pd_same]
    exact h.sameClock.state.trans (e.trans hu.phase.state)

/-- An expired probe with nothing queued is closed. -/
theorem stateGetCmd_expired (hp : (s.pd i).probing)
    (hq : (s.pd i).cmdQueue = [])
    (hexp : osdpTrsProbeExpired s.now (s.pd i).trs = true) :
    stateGetCmd env run i s = .ok cmdXwr (s.setPhase i .teardown) := by
  obtain ⟨hst, hprobe, hph⟩ := hp
  have hpop : cpCmdDequeue i s = .ok none s := by
    rw [cpCmdDequeue, bind_eq (getPd_ok.mpr ⟨rfl, rfl⟩), hq]
    rfl
  have hidle : cpGetTrsIdleCommand i s
      = .ok cmdXwr (s.setPhase i .teardown) := by
    rw [cpGetTrsIdleCommand, bind_eq (getPd_ok.mpr ⟨rfl, rfl⟩),
      bind_eq (show osdpMillisNow s = .ok s.now s from rfl), hprobe, hexp]
    rfl
  have hget : cpGetTrsCommand env run i 2 s
      = .ok cmdXwr (s.setPhase i .teardown) := by
    rw [cpGetTrsCommand, bind_eq (getPd_ok.mpr ⟨rfl, rfl⟩), hph]
    exact (bind_eq hpop).trans hidle
  rw [stateGetCmd, bind_eq (getPd_ok.mpr ⟨rfl, rfl⟩), hst]
  exact hget

/-- So the pass that finds it so selects mode-set(00), and with it the
probe is over. -/
theorem expired_selects (hfree : (s.pd i).activeCmd = none)
    (hidle : (s.pd i).phyState = .idle) (hp : (s.pd i).probing)
    (hq : (s.pd i).cmdQueue = [])
    (hexp : osdpTrsProbeExpired s.now (s.pd i).trs = true)
    (h : stateUpdate env run i s = .ok () t) :
    (⟨s, t⟩ : Pass).selects i trsMode00 ∧ ¬ (t.pd i).probing := by
  have hgo : cpProceed env run i (s.pd i).state s = .ok () t := by
    rcases stateUpdate_ok h with ⟨err, hrun, -⟩ | ⟨err, u, hrun, -⟩ |
      ⟨-, hgo⟩
    · rw [cpPhyRunning_eq, hidle] at hrun
      cases hrun
    · rw [cpPhyRunning_eq, hidle] at hrun
      cases hrun
    · exact hgo
  have hget : stateGetCmd env run i s
      = .ok cmdXwr (s.setPhase i .teardown) := stateGetCmd_expired hp hq hexp
  obtain ⟨p, w, hw, hgo⟩ := bind_ok.mp hgo
  obtain ⟨rfl, rfl⟩ := getPd_ok.mp hw
  rw [hidle] at hgo
  obtain ⟨b, u, hu, hgo⟩ := bind_ok.mp hgo
  rw [cpKick, bind_eq hget] at hu
  obtain ⟨_, v, hv, hu⟩ := bind_ok.mp hu
  obtain ⟨p, v', hp', hu⟩ := bind_ok.mp hu
  obtain ⟨rfl, rfl⟩ := getPd_ok.mp hp'
  have hv := updPd_ok.mp hv
  have hvi : (v.pd i).phyState = .idle := by
    rw [← hv, updPd_pd_same, Osdp.setPhase, updPd_pd_same]
    exact hidle
  rw [if_pos ⟨by decide, hvi⟩] at hu
  obtain ⟨_, x, hx, hu⟩ := bind_ok.mp hu
  obtain ⟨rfl, rfl⟩ := pure_ok.mp hu
  obtain ⟨-, rfl⟩ := pure_ok.mp hgo
  have hpd : x.pd i =
      { s.pd i with
        trs := { (s.pd i).trs with state := .teardown }
        cmdId := cmdXwr
        phyState := .sendCmd } := by
    rw [← updPd_ok.mp hx, updPd_pd_same, ← hv, updPd_pd_same, Osdp.setPhase,
      updPd_pd_same]
  have hset : (x.pd i).setsMode trsMode00 := by
    refine (setsMode_of_phase ?_ ?_).2 ?_ <;> rw [hpd]
    exact hfree
  refine ⟨⟨hidle, ?_, hset⟩, fun hno => ?_⟩
  · show (x.pd i).phyState ≠ .idle
    intro e
    rw [hpd] at e
    cases e
  · have e := hno.2.2
    rw [hpd] at e
    cases e

end Choice

-- ======================================================== the transitions

section Advance

variable {env : Env} {i : Nat} {s t : Osdp} {err : Int}

/-- The session's own step is no part of the clock. -/
theorem trsStep_clock (err : Int) (replyId : Nat) (x : OsdpTrs) :
    (trsStep err replyId x).1.clock = x.clock ∧
      (trsStep err replyId x).1.probe = x.probe := by
  unfold trsStep osdpTrsStateUpdate osdpTrsStateUpdateErr
    trsScanNoteRefused
  dsimp only
  repeat' split
  all_goals exact ⟨rfl, rfl⟩

/-- A session's own step, noted. -/
theorem sameClock_stepTrs (s : Osdp) (i : Nat) (err : Int) :
    SameClock i s (s.stepTrs i err) := by
  obtain ⟨hc, hp⟩ := trsStep_clock err (s.pd i).replyId (s.pd i).trs
  exact sameClock_updPd ⟨rfl, hp, hc⟩

/-- The transitions of a session that end in a probe: the probe goes on
with its clock as it was, or its mode was confirmed and the dwell
starts. -/
theorem advance_probe (h : CardAdvance env i (SameProbe i) err s t)
    (hin : (s.pd i).state.inTrs = true) (ht : (t.pd i).probing) :
    (s.pd i).state = .trsRun ∧ SameClock i s t ∨
      (s.pd i).state = .trsSetup ∧ (s.pd i).trs.probe = true ∧
        (t.pd i).trs.clock
          = { (s.pd i).trs.clock with probeTstamp := s.now } := by
  obtain ⟨hrun, hprobe, -⟩ := ht
  -- inside a session the next state is one of its own, or none of them
  obtain ⟨hrow, hstep⟩ : (h.row = .trsRun ∨ h.row = .online ∨
      h.row = .offline) ∧ (h.row ≠ .offline → SameClock i s h.judged) := by
    cases h.choice with
    | reset next probe steady => exact ⟨.inr (.inr next), (absurd next ·)⟩
    | card inTrs probe next step =>
      refine ⟨?_, fun _ => (sameClock_stepTrs s i err).trans
        (step.sameClock.trans h.lives.sameClock)⟩
      rcases trsStep_next err (s.pd i).replyId (s.pd i).trs with e | e
      · exact .inl (next.trans e)
      · exact .inr (.inl (next.trans e))
    | link outside next steady =>
      rw [outside] at hin
      cases hin
  have hnext (e : h.next.inTrs = true) :
      h.next = .trsRun ∧ SameClock i s h.judged := by
    have hr : h.next = h.row := row_of_lives h.verdict (.inl e)
    rw [hr] at e ⊢
    rcases hrow with k | k | k <;> rw [k] at e ⊢
    · exact ⟨rfl, hstep (by rw [k]; decide)⟩
    · cases e
    · cases e
  -- so the tail of the pass, which marks the start of one, has no part in it
  have htail (hr : h.next ≠ .trsSetup) : SameProbe i h.changed t :=
    h.opens.resolve_right fun ho => hr ho.2.1
  rcases h.change with ⟨hsame, heq⟩ | ⟨hne, x, hx, hxc⟩
  · obtain ⟨hn, hj⟩ := hnext (hsame ▸ hin)
    have htl := htail (by rw [hn]; nofun)
    rw [heq] at htl
    exact .inl ⟨hsame.trans hn, hj.trans htl.sameClock⟩
  · have hsetup : h.next ≠ .trsSetup := by
      intro e
      rw [e] at hnext
      cases (hnext rfl).1
    have hset : SameClock i (x.setState i h.next) t :=
      hxc.sameClock.trans (htail hsetup).sameClock
    have hst : h.next = .trsRun := by
      have e := hset.state
      rw [Osdp.setState, updPd_pd_same] at e
      exact e.symm.trans hrun
    obtain ⟨-, hj⟩ := hnext (hst ▸ rfl)
    have hx' : (x.setState i h.next).now = x.now ∧
        ((x.setState i h.next).pd i).trs = (x.pd i).trs := by
      rw [Osdp.setState, updPd_pd_same]
      exact ⟨rfl, rfl⟩
    have hprobe' : (x.pd i).trs.probe = true := by
      rw [← hx'.2, ← hset.probe]
      exact hprobe
    cases hx with
    | init next | offTrs next | online next | setup next =>
      rw [hst] at next
      cases next
    | quiet target again steady =>
      rcases inTrs_iff.mp hin with e | e
      · exact absurd e (again hst)
      · exact absurd (e.trans hst.symm) hne
    | run next cur step =>
      have hjp : (h.judged.pd i).trs.probe = true := by
        by_contra hp
        rw [if_neg hp] at step
        refine hp ?_
        rw [← hprobe', step.probe, (noted_phase env h.judged .opened).1]
      rw [if_pos hjp] at step
      refine .inr ⟨cur, hj.probe.symm.trans hjp, ?_⟩
      · rw [hset.clock, hx'.2, step, Osdp.startDwell, updPd_pd_same, hj.now,
          ← hj.clock]
        rfl

end Advance

-- ============================================================== freshness

/-- A card that is held was seen by now. -/
def Fresh (i : Nat) (s : Osdp) : Prop :=
  (s.pd i).trs.clock.holding = true →
    (s.pd i).trs.clock.holdTstamp ≤ s.now

/-- Time stands still, and what was seen by now still was. -/
def StaysFresh (i : Nat) (s t : Osdp) : Prop :=
  t.now = s.now ∧ (Fresh i s → Fresh i t)

section Fresh

variable {env : Env} {depth i : Nat} {s t : Osdp}

instance (i : Nat) : IsPreorder Osdp (StaysFresh i) where
  refl _ := ⟨rfl, id⟩
  trans _ _ _ h k := ⟨k.1.trans h.1, k.2 ∘ h.2⟩

theorem staysFresh_of_clock (hn : t.now = s.now)
    (hc : (t.pd i).trs.clock = (s.pd i).trs.clock) : StaysFresh i s t := by
  refine ⟨hn, fun h => ?_⟩
  unfold Fresh
  rw [hn, hc]
  exact h

instance (i : Nat) : CardMoves i (StaysFresh i) where
  same _ _ h := staysFresh_of_clock h.now
    (congrArg PdSession.clock h.session)
  card s f h := by
    refine staysFresh_of_clock rfl ?_
    rw [updPd_pd_same]
    exact congrArg PdCard.clock h

/-- An update that starts no hold. -/
theorem staysFresh_updPd {f : OsdpPd → OsdpPd}
    (h : (f (s.pd i)).trs.clock.holding = true →
      (s.pd i).trs.clock.holding = true ∧
        (f (s.pd i)).trs.clock.holdTstamp
          = (s.pd i).trs.clock.holdTstamp) :
    StaysFresh i s (s.updPd i f) := by
  refine ⟨rfl, fun hf hh => ?_⟩
  rw [updPd_pd_same] at hh ⊢
  obtain ⟨h₁, h₂⟩ := h hh
  rw [h₂]
  exact hf h₁

/-- A hold that a reply starts is one of a card seen now. -/
theorem staysFresh_noteReport (payload : Bytes) :
    StaysFresh i s (s.noteReport i payload) := by
  refine ⟨rfl, fun hf hh => ?_⟩
  rcases (noteReport_clock s i payload).hold hh with ⟨h, e⟩ | ⟨-, e⟩ <;>
    rw [e]
  · exact hf h
  · exact le_refl s.now

theorem staysFresh_noted (env : Env) (s : Osdp) (st : TrsSessionStatus) :
    StaysFresh i s (s.noted env i st) := by
  refine staysFresh_of_clock ?_ (by rw [(noted_phase env s st).1])
  unfold Osdp.noted
  split <;> rfl

theorem staysFresh_setActive (s : Osdp) (c : Option SubmittedCmd) :
    StaysFresh i s (s.setActive i c) := staysFresh_updPd fun h => ⟨h, rfl⟩

theorem staysFresh_setPhase (s : Osdp) (ph : TrsState) :
    StaysFresh i s (s.setPhase i ph) := staysFresh_updPd fun h => ⟨h, rfl⟩

theorem staysFresh_setProbe (s : Osdp) (b : Bool) :
    StaysFresh i s (s.setProbe i b) := staysFresh_updPd nofun

theorem StaysFresh.trans {u : Osdp} (h : StaysFresh i s t)
    (k : StaysFresh i t u) : StaysFresh i s u :=
  trans_of (StaysFresh i) h k

/-- The choice of a command starts no hold. -/
theorem fresh_of_cardPick {id : Nat}
    (h : CardPick i (StaysFresh i) s t id) : StaysFresh i s t := by
  cases h with
  | poll phase steady id => exact steady
  | ask phase steady id => exact (staysFresh_setActive s none).trans steady
  | expire u phase probe steady eq id =>
    exact eq ▸ steady.trans (staysFresh_setPhase u _)
  | app c u phase steady eq live id =>
    exact eq ▸ steady.trans (staysFresh_setActive u _)
  | dropped u phase steady eq id =>
    exact eq ▸ steady.trans (staysFresh_setActive u _)
  | stop u phase steady then_ id =>
    exact steady.trans ((staysFresh_setActive u none).trans
      ((staysFresh_setPhase _ _).trans then_))
  | step phase eq id => exact eq ▸ staysFresh_setActive s none

theorem fresh_of_statePick {id : Nat}
    (h : StatePick env i (StaysFresh i) s t id) : StaysFresh i s t := by
  unfold StatePick at h
  split at h
  · rcases h with h | ⟨w, hw, h⟩
    · exact fresh_of_cardPick h
    · obtain ⟨u, hu, huw⟩ := hw.told
      exact hu.trans ((staysFresh_setActive u none).trans
        ((staysFresh_setProbe _ false).trans
          ((staysFresh_noted env _ _).trans
            (huw.trans (fresh_of_cardPick h)))))
  · rcases h with h | ⟨u, c, hu, ht, -⟩
    · exact h
    · exact hu.trans ((staysFresh_setActive u c).trans ht)

/-- Nor does entering a state. -/
theorem fresh_of_enter {cur next : CpState}
    (h : CardEnter env i (StaysFresh i) cur next s t) :
    StaysFresh i s t := by
  have hbegin : StaysFresh i s (s.beginTrs i) :=
    staysFresh_updPd fun h => ⟨h, rfl⟩
  have hend : StaysFresh i s (s.endTrs i) :=
    staysFresh_updPd fun h => ⟨h, rfl⟩
  cases h with
  | init next u steady step =>
    exact steady.trans ((staysFresh_setProbe u false).trans step)
  | offTrs next cur u eq leave =>
    refine hend.trans ?_
    rw [← eq]
    split at leave
    · exact (staysFresh_setProbe u false).trans leave
    · obtain ⟨v, hv, hvt⟩ := leave
      exact hv.trans ((staysFresh_noted env v _).trans hvt)
  | online next cur eq => exact eq ▸ hend
  | setup next eq => exact eq ▸ hbegin
  | run next cur step =>
    split at step
    · rw [step]
      exact staysFresh_updPd fun h => ⟨h, rfl⟩
    · exact (staysFresh_noted env s _).trans step
  | quiet target again steady => exact steady

theorem fresh_of_advance {err : Int}
    (h : CardAdvance env i (StaysFresh i) err s t) : StaysFresh i s t := by
  have hchoice : StaysFresh i s h.chosen := by
    cases h.choice with
    | reset next probe steady => exact steady
    | card inTrs probe next step =>
      refine StaysFresh.trans ?_ step
      have hc := (trsStep_clock err (s.pd i).replyId (s.pd i).trs).1
      refine staysFresh_of_clock rfl ?_
      rw [Osdp.stepTrs, updPd_pd_same]
      exact hc
    | link outside next steady => exact steady
  have hchange : StaysFresh i h.judged h.changed := by
    rcases h.change with ⟨-, e⟩ | ⟨-, x, hx, hxc⟩
    · rw [e]
      exact refl_of (StaysFresh i) h.judged
    · have hset : StaysFresh i x (x.setState i h.next) :=
        staysFresh_updPd fun h => ⟨h, rfl⟩
      exact (fresh_of_enter hx).trans (hset.trans hxc)
  have hopens : StaysFresh i h.changed t := by
    rcases h.opens with ho | ⟨-, -, ho⟩
    · exact ho
    · exact (staysFresh_setProbe _ true).trans ho
  exact hchoice.trans (h.lives.trans (hchange.trans hopens))

variable (henv : env.leavesScan i)
include henv

theorem fresh_makes {calls : List ApiCall} (h : env.Makes calls) :
    Keeps (StaysFresh i) (cpRunCalls env depth calls) := by
  intro s a t e
  have hp := (probe_makes henv depth h).of e
  exact staysFresh_of_clock hp.now hp.clock

/-- In a pass a hold is started by a card seen in it, if at all. -/
theorem fresh_of_pass
    (h : CardPass env depth i (StaysFresh i) s t) : StaysFresh i s t := by
  have hr (calls : List ApiCall) (hl : env.Makes calls) :
      Keeps (StaysFresh i) (cpRunCalls env depth calls) :=
    fresh_makes henv hl
  have hexchange {u : Osdp} {err : Int}
      (hx : Exchanged env (cpRunCalls env depth) i (StaysFresh i) s u err) :
      StaysFresh i s u := by
    cases hx with
    | nothing steady reply => exact steady
    | heard wait payload hears v w rc steady dec settles replyId log done =>
      exact steady.trans ((staysFresh_noteReport payload).trans
        ((decodeResponse_session hr dec : StaysFresh i _ _).trans settles))
  have hcmd (v : Osdp) (id : Nat) : StaysFresh i v (v.setCmdId i id) :=
    staysFresh_updPd fun h => ⟨h, rfl⟩
  cases h with
  | going err exchange step busy live running update waits =>
    exact hexchange exchange
  | ended err err' u v exchange step busy ends settled reply advance idle =>
    obtain ⟨w, hw, hwv⟩ := settled.chain
    obtain ⟨adv⟩ := advance
    exact (hexchange exchange).trans (hw.trans
      ((staysFresh_setActive w none).trans
        (hwv.trans (fresh_of_advance adv))))
  | sent id v free pick keeps some phy =>
    exact (fresh_of_statePick pick).trans ((hcmd v id).trans keeps)
  | none id v u free pick keeps none advance idle =>
    obtain ⟨adv⟩ := advance
    exact (fresh_of_statePick pick).trans ((hcmd v id).trans
      (keeps.trans (fresh_of_advance adv)))

end Fresh

-- ============================================================== the watch

section Pass

variable (i : Nat) (x : Pass)

/-- When the pass was made. -/
def Pass.now : Int := x.before.now

/-- The selector looks at a probe, and nothing is queued. -/
def Pass.looks : Prop :=
  (x.before.pd i).phyState = .idle ∧ (x.before.pd i).probing ∧
    (x.before.pd i).cmdQueue = []

/-- The probe goes on after the pass. -/
def Pass.goesOn : Prop := (x.after.pd i).probing

/-- It does, and nothing was queued if the selector ran. -/
def Pass.stays : Prop :=
  x.goesOn i ∧
    ((x.before.pd i).phyState = .idle → (x.before.pd i).cmdQueue = [])

/-- Mode 01 is confirmed to a probe. -/
def Pass.confirms : Prop :=
  (x.before.pd i).state = .trsSetup ∧ (x.after.pd i).probing

end Pass

/-- The clock has not run back since the pass before. -/
def Pass.later (x : Pass) (past : List Pass) : Prop :=
  ∀ y, past.head? = some y → y.now ≤ x.now

/-- Mode 01 was confirmed at this time, and the probe is on since. -/
def ConfirmedAt (i : Nat) (T : Int) : List Pass → Prop :=
  Since (Pass.goesOn i) fun x _ => x.confirms i ∧ x.now = T

/-- The selector ran at this time, more than the dwell after mode 01 was
confirmed; the probe is on since, and nothing was queued when the selector
ran. -/
def LateAt (i : Nat) (dwell Y : Int) : List Pass → Prop :=
  Since (Pass.stays i) fun x past => x.looks i ∧ x.stays i ∧ x.now = Y ∧
    ∃ T, ConfirmedAt i T past ∧ dwell < Y - T

/-- A selector that looks at a probe more than the hold after that selects
mode-set(00). -/
def Released (i : Nat) (x : Pass) (past : List Pass) : Prop :=
  x.looks i →
    (∃ Y, LateAt i (x.before.pd i).trs.scan.mode1DwellMs Y past ∧
      (x.before.pd i).trs.scan.holdMs < x.now - Y) →
    x.selects i trsMode00

section History

variable {i : Nat} {x : Pass} {h : List Pass}

/-- A probe found late was confirmed before. -/
theorem LateAt.confirmed {dwell Y : Int} (hl : Always Pass.later h)
    (hY : LateAt i dwell Y h) :
    (∃ T, ConfirmedAt i T h ∧ dwell < Y - T) ∧
      ∃ y, h.head? = some y ∧ Y ≤ y.now := by
  induction h with
  | nil => exact hY.elim
  | cons x past ih =>
    rcases hY with ⟨-, hstay, rfl, T, hT, hd⟩ | ⟨hstay, hY⟩
    · exact ⟨⟨T, hT.hold hstay.1, hd⟩, x, rfl, le_refl _⟩
    · obtain ⟨⟨T, hT, hd⟩, y, hy, hle⟩ := ih hl.2 hY
      exact ⟨⟨T, hT.hold hstay.1, hd⟩, x, rfl, hle.trans (hl.1 y hy)⟩

end History

-- =========================================================== the invariant

/-- What is kept of a probe between passes, whatever is called: the session
is as `RestoreInv` says, and a card that is held was seen no later than the
last pass. -/
structure ProbeBase (i : Nat) (h : List Pass) (s : Osdp) : Prop where
  session : RestoreInv i h (s.pd i)
  seen : Always Pass.later h → ∀ n : Int,
    (∀ y, h.head? = some y → y.now ≤ n) →
    (s.pd i).trs.clock.holding = true →
    (s.pd i).trs.clock.holdTstamp ≤ n

/-- What is kept once the scan is left alone: a probe runs from its
confirmation, and one that was found late holds a card seen before, or
holds none and is to be looked at next. -/
structure ProbeInv (i : Nat) (h : List Pass) (s : Osdp) : Prop where
  confirmed : ∀ T, ConfirmedAt i T h →
    (s.pd i).probing ∧ (s.pd i).trs.clock.probeTstamp = T
  late : ∀ Y, LateAt i (s.pd i).trs.clock.mode1DwellMs Y h →
    ((s.pd i).trs.clock.holding = true →
      (s.pd i).trs.clock.holdTstamp ≤ Y) ∧
    ((s.pd i).trs.clock.holding = false → (s.pd i).phyState = .idle)

section Inv

variable {env : Env} {depth i : Nat} {h h' : List Pass} {s t : Osdp}

/-- Nothing was confirmed before the first pass. -/
theorem ProbeInv.start : ProbeInv i [] s := ⟨nofun, nofun⟩

/-- A step that leaves the session and its exchange alone. -/
theorem ProbeInv.steady (hinv : ProbeInv i h s) (hp : SameProbe i s t)
    (hphy : (t.pd i).phyState = (s.pd i).phyState) : ProbeInv i h t := by
  refine ⟨fun T hT => ?_, fun Y hY => ?_⟩
  · obtain ⟨⟨h₁, h₂, h₃⟩, hT⟩ := hinv.confirmed T hT
    exact ⟨⟨hp.phase.state.trans h₁, hp.probe.trans h₂,
      hp.phase.phase.trans h₃⟩, by rw [hp.clock, hT]⟩
  · rw [hp.clock] at hY ⊢
    rw [hphy]
    exact hinv.late Y hY

/-- What a pass does to a probe that is on after it. -/
structure ProbePass (i : Nat) (s t : Osdp) : Prop where
  confirm : (s.pd i).state = .trsSetup →
    (t.pd i).trs.clock.probeTstamp = s.now
  heard : (s.pd i).state = .trsRun →
    (s.pd i).trs.clock.Heard s.now (t.pd i).trs.clock
  quiet : (s.pd i).state = .trsRun →
    (s.pd i).phyState = .idle ∨ (t.pd i).phyState ≠ .idle →
    (t.pd i).trs.clock = (s.pd i).trs.clock

/-- Where nothing is heard. -/
theorem ProbePass.of_same (hrun : (s.pd i).state = .trsRun)
    (hc : (t.pd i).trs.clock = (s.pd i).trs.clock) : ProbePass i s t := by
  refine ⟨fun e => ?_, fun _ => hc ▸ .refl _ _, fun _ _ => hc⟩
  rw [hrun] at e
  cases e

/-- A pass, as the clock of a probe sees it. -/
theorem probePass (henv : env.leavesScan i)
    (hm : (s.pd i).flags.pdMode = false)
    (hphy : (s.pd i).phyState ≠ .done ∧ (s.pd i).phyState ≠ .err)
    (hin : (s.pd i).state.inTrs = true) (ht : (t.pd i).probing)
    (e : stateUpdate env (cpRunCalls env depth) i s = .ok () t) :
    ProbePass i s t := by
  have hr (calls : List ApiCall) (hl : env.Makes calls) :
      Keeps (SameProbe i) (cpRunCalls env depth calls) :=
    probe_makes henv depth hl
  have hcmd (v : Osdp) (id : Nat) : SameClock i v (v.setCmdId i id) :=
    sameClock_updPd ⟨rfl, rfl, rfl⟩
  cases pass_card hr hm hphy e with
  | going err exchange step busy live running update waits =>
    have hgo : err ≠ cpErrNone ∧ err ≠ cpErrGeneric := by
      rcases waits with rfl | rfl <;> decide
    have hp := going_probe henv hm running hgo update
    exact .of_same (hp.phase.state.symm.trans ht.1) hp.clock
  | ended err err' u v exchange step busy ends settled reply advance idle =>
    obtain ⟨adv⟩ := advance
    have hx := exchanged_probe henv exchange
    obtain ⟨w, hw, hwv⟩ := settled.chain
    have hset : SameClock i u v := hw.sameClock.trans
      ((sameClock_updPd ⟨rfl, rfl, rfl⟩ :
        SameClock i w (w.setActive i none)).trans hwv.sameClock)
    have hst : (v.pd i).state = (s.pd i).state :=
      hset.state.trans hx.phase.state
    rcases advance_probe adv (hst ▸ hin) ht with ⟨hrun, hc⟩ | ⟨hrun, -, hc⟩
    · have hclock : (t.pd i).trs.clock = (u.pd i).trs.clock :=
        hc.clock.trans hset.clock
      rw [hst] at hrun
      refine ⟨fun k => ?_, fun _ => hclock ▸ hx.clock, fun _ k => ?_⟩
      · rw [hrun] at k
        cases k
      · exact absurd idle (k.resolve_left busy)
    · rw [hst] at hrun
      have hno {q : Prop} (k : (s.pd i).state = .trsRun) : q := by
        rw [hrun] at k
        cases k
      refine ⟨fun _ => ?_, hno, hno⟩
      rw [hc, ← hx.now]
      exact hset.now
  | sent id v free pick keeps some phy =>
    have hprobe : (v.pd i).trs.probe = true := by
      have k := keeps.probe
      rw [Osdp.setCmdId, updPd_pd_same] at k
      exact k.symm.trans ht.2.1
    have hc := ((pick.sameClock hin hprobe).trans (hcmd v id)).trans
      keeps.sameClock
    exact .of_same (hc.state.symm.trans ht.1) hc.clock
  | none id v u free pick keeps none advance idle =>
    obtain ⟨adv⟩ := advance
    have hk : SameClock i v u := (hcmd v id).trans keeps.sameClock
    have hst : (u.pd i).state = (s.pd i).state :=
      hk.state.trans (pick.state hin)
    have hpick (hp : (u.pd i).trs.probe = true) : SameClock i s u :=
      (pick.sameClock hin (hk.probe.symm.trans hp)).trans hk
    rcases advance_probe adv (hst ▸ hin) ht with ⟨hrun, hc⟩ |
      ⟨hrun, hp, hc⟩ <;> rw [hst] at hrun
    · exact .of_same hrun
        ((hpick (hc.probe.symm.trans ht.2.1)).trans hc).clock
    · have hno {q : Prop} (k : (s.pd i).state = .trsRun) : q := by
        rw [hrun] at k
        cases k
      refine ⟨fun _ => ?_, hno, hno⟩
      rw [hc]
      exact (hpick hp).now

/-- A probe is closed at the next look, once its dwell and any hold are
over. -/
theorem probeExpired_of {now : Int} {x : OsdpTrs}
    (hheld : x.clock.holding = true →
      x.scan.holdMs < now - x.clock.holdTstamp)
    (hfree : x.clock.holding = false →
      x.scan.mode1DwellMs < now - x.clock.probeTstamp) :
    osdpTrsProbeExpired now x = true := by
  unfold osdpTrsProbeExpired
  split
  · rfl
  · split
    · next hh => exact decide_eq_true (hheld hh)
    · next hh => exact decide_eq_true (hfree (Bool.eq_false_iff.mpr hh))

/-- A probe found late has had its dwell. -/
theorem ProbeInv.dwelt {dwell Y : Int} (hinv : ProbeInv i h s)
    (hl : Always Pass.later (⟨s, t⟩ :: h)) (hY : LateAt i dwell Y h) :
    dwell < s.now - (s.pd i).trs.clock.probeTstamp := by
  obtain ⟨⟨T, hT, hd⟩, y, hy, hle⟩ := hY.confirmed hl.2
  have hnow : y.now ≤ s.now := hl.1 y hy
  rw [(hinv.confirmed T hT).2]
  omega

section Step

variable (henv : env.leavesScan i)
include henv

/-- A pass keeps what is kept at all times. -/
theorem ProbeBase.pass (hb : ProbeBase i h s)
    (e : stateUpdate env (cpRunCalls env depth) i s = .ok () t) :
    ProbeBase i (⟨s, t⟩ :: h) t := by
  refine ⟨(restore_of_pass hb.session e).1, fun hl n hn hh => ?_⟩
  have hfresh : StaysFresh i s t := fresh_of_pass henv
    (pass_card (fun _ hc => fresh_makes henv hc) hb.session.role
      hb.session.phy e)
  have hs : Fresh i s := fun k => hb.seen hl.2 s.now hl.1 k
  have ht : (t.pd i).trs.clock.holdTstamp ≤ t.now := hfresh.2 hs hh
  have hnow : s.now ≤ n := hn ⟨s, t⟩ rfl
  rw [hfresh.1] at ht
  exact ht.trans hnow

/-- A pass keeps what is kept of a probe, and closes it in time. -/
theorem ProbeInv.pass (hr : RestoreInv i h' (s.pd i)) (hf : Fresh i s)
    (hinv : ProbeInv i h s) (hl : Always Pass.later (⟨s, t⟩ :: h))
    (e : stateUpdate env (cpRunCalls env depth) i s = .ok () t) :
    ProbeInv i (⟨s, t⟩ :: h) t ∧ Released i ⟨s, t⟩ h := by
  have hpass (hin : (s.pd i).state.inTrs = true)
      (ht : (t.pd i).probing) : ProbePass i s t :=
    probePass henv hr.role hr.phy hin ht e
  -- a probe that is on after a look was not to be closed
  have hlooked (hidle : (s.pd i).phyState = .idle)
      (hp : (s.pd i).probing) (hq : (s.pd i).cmdQueue = [])
      (ht : (t.pd i).probing) :
      ¬ osdpTrsProbeExpired s.now (s.pd i).trs = true := fun hexp =>
    (expired_selects (hr.free hidle) hidle hp hq hexp e).2 ht
  refine ⟨⟨fun T hT => ?_, fun Y hY => ?_⟩, ?_⟩
  · rcases hT with ⟨⟨hst, ht⟩, rfl⟩ | ⟨ht, hT⟩
    · exact ⟨ht, (hpass (by rw [hst]; rfl) ht).confirm hst⟩
    · obtain ⟨hp, hT⟩ := hinv.confirmed T hT
      have hpp := hpass (by rw [hp.1]; rfl) ht
      exact ⟨ht, (hpp.heard hp.1).probeTstamp.trans hT⟩
  · rcases hY with ⟨⟨hidle, hp, hq⟩, ⟨ht, -⟩, rfl, T, hT, hd⟩ |
      ⟨⟨ht, hq⟩, hY⟩
    · have hpp := hpass (by rw [hp.1]; rfl) ht
      rw [hpp.quiet hp.1 (.inl hidle)] at hd ⊢
      refine ⟨fun hh => hf hh, fun hh => ?_⟩
      refine absurd (probeExpired_of (fun k => ?_) fun _ => ?_)
        (hlooked hidle hp hq ht)
      · rw [hh] at k
        cases k
      · rw [(hinv.confirmed T hT).2]
        exact hd
    · obtain ⟨⟨T, hT, -⟩, -⟩ := LateAt.confirmed hl.2 hY
      obtain ⟨hp, -⟩ := hinv.confirmed T hT
      have hpp := hpass (by rw [hp.1]; rfl) ht
      have hheard := hpp.heard hp.1
      rw [hheard.dwell] at hY
      obtain ⟨hheld, hfree⟩ := hinv.late Y hY
      by_cases hidle : (s.pd i).phyState = .idle
      · rw [hpp.quiet hp.1 (.inl hidle)]
        refine ⟨hheld, fun hh => ?_⟩
        refine absurd (probeExpired_of (fun k => ?_) fun _ => ?_)
          (hlooked hidle hp (hq hidle) ht)
        · rw [hh] at k
          cases k
        · exact hinv.dwelt hl hY
      · have hh : (s.pd i).trs.clock.holding = true := by
          by_contra k
          exact hidle (hfree (by simpa using k))
        refine ⟨fun k => ?_, fun k => ?_⟩
        · rcases hheard.hold k with ⟨-, heq⟩ | ⟨hno, -⟩
          · rw [heq]
            exact hheld hh
          · rw [hh] at hno
            cases hno
        · by_contra hbusy
          rw [hpp.quiet hp.1 (.inr hbusy), hh] at k
          cases k
  · rintro ⟨hidle, hp, hq⟩ ⟨Y, hY, hd⟩
    refine (expired_selects (hr.free hidle) hidle hp hq ?_ e).1
    refine probeExpired_of (fun hh => ?_) fun _ => hinv.dwelt hl hY
    have hle := (hinv.late Y hY).1 hh
    have hd' : (s.pd i).trs.scan.holdMs < s.now - Y := hd
    omega

end Step

/-- A step that starts no hold. -/
theorem ProbeBase.of (hb : ProbeBase i h s) (hr : RestoreInv i h (t.pd i))
    (hc : (t.pd i).trs.clock.holding = true →
      (s.pd i).trs.clock.holding = true ∧
        (t.pd i).trs.clock.holdTstamp = (s.pd i).trs.clock.holdTstamp) :
    ProbeBase i h t := by
  refine ⟨hr, fun hl n hn hh => ?_⟩
  obtain ⟨hs, he⟩ := hc hh
  rw [he]
  exact hb.seen hl n hn hs

/-- A PD that was just set up. -/
theorem probeBase_fresh (env : Env) (i : Nat) (h : List Pass)
    (hp : s.pd i = {} ∨ ∃ info, s.pd i = cpSetupDevice env info) :
    ProbeBase i h s := by
  refine ⟨restoreInv_fresh env i h hp, fun _ _ _ hh => ?_⟩
  rcases hp with e | ⟨info, e⟩ <;> rw [e] at hh <;> cases hh

section Call

variable (henv : env.leavesScan i)
include henv

/-- No call starts a hold; to start or stop the scan ends one. -/
theorem holding_cpApiCall {c : ApiCall}
    (e : cpApiCall env (cpRunCalls env depth) c s = .ok () t)
    (hh : (t.pd i).trs.clock.holding = true) :
    (s.pd i).trs.clock.holding = true ∧
      (t.pd i).trs.clock.holdTstamp = (s.pd i).trs.clock.holdTstamp := by
  by_cases hc : c.leavesScan i = true
  · have hp := (probe_cpApiCall (fun _ hl => probe_makes henv depth hl)
      hc).of e
    rw [hp.clock] at hh ⊢
    exact ⟨hh, rfl⟩
  -- the two calls that are about the scan
  have hends {m : OsdpM Bool} {f : OsdpTrs → OsdpTrs}
      (hf : ∀ x, (f x).clock.holding = false)
      (hm : m = do
        let s ← get
        if i ≥ s.numPd then
          return false
        updTrs i f
        return true)
      (e : (do let _ ← m; return) s = .ok () t) :
      t = s := by
    obtain ⟨b, u, hu, e⟩ := bind_ok.mp e
    obtain ⟨-, rfl⟩ := pure_ok.mp e
    rw [hm] at hu
    obtain ⟨s', v, hg, hu⟩ := bind_ok.mp hu
    obtain ⟨rfl, rfl⟩ := get_ok.mp hg
    split at hu
    · exact (pure_ok.mp hu).2.symm
    · obtain ⟨_, w, hw, hu⟩ := bind_ok.mp hu
      obtain ⟨-, rfl⟩ := pure_ok.mp hu
      rw [← updPd_ok.mp hw, updPd_pd_same, hf] at hh
      cases hh
  have heq : t = s := by
    cases c with
    | cpTrsScanEnable j params =>
      have hj : j = i := by simpa [ApiCall.leavesScan] using hc
      subst hj
      exact hends (fun _ => rfl) rfl e
    | cpTrsScanDisable j =>
      have hj : j = i := by simpa [ApiCall.leavesScan] using hc
      subst hj
      exact hends (fun _ => rfl) rfl e
    | _ => exact absurd rfl hc
  rw [heq] at hh ⊢
  exact ⟨hh, rfl⟩

end Call

end Inv

-- ================================================================= results

/-- An earlier part of the passes is in order if all of them are. -/
theorem later_of_append {l g : List Pass}
    (h : Always Pass.later (l ++ g)) : Always Pass.later l := by
  induction l with
  | nil => trivial
  | cons x l ih =>
    refine ⟨fun y hy => h.1 y ?_, ih h.2⟩
    show (l ++ g).head? = some y
    rw [List.head?_append, hy]
    rfl

/-- What is kept while nothing but the session is looked at. -/
def ProbeReady (i : Nat) (h : List Pass) (s : Osdp) : Prop :=
  s.tearingDown = false → ProbeBase i h s

/-- The passes since the scan was last touched, after those before: every
probe found late was closed in time, and the PD is ready for the next
pass. -/
structure ProbeWatch (i : Nat) (g h : List Pass) (s : Osdp) : Prop where
  begun : h ≠ [] → s.isSealed = true
  past : Always Pass.later (h ++ g) → Always (Released i) h
  ready : ProbeReady i (h ++ g) s
  probe : s.tearingDown = false → Always Pass.later (h ++ g) →
    ProbeInv i h s

section Watch

variable {env : Env} {depth i : Nat} {g h : List Pass} {s t : Osdp}

/-- A registration leaves a PD alone or sets it up anew. -/
theorem ProbeReady.addPd {infos : List CpPdInfo}
    (hs : ProbeReady i h s) (hadd : cpAddPd env s infos = some t) :
    ProbeReady i h t := by
  obtain ⟨-, -, htear, hpd⟩ := cpAddPd_pd hadd
  intro ha
  rcases hpd i with k | k
  · have hb := hs (htear ▸ ha)
    exact hb.of (k ▸ hb.session) fun hh => by rw [k] at hh ⊢; exact ⟨hh, rfl⟩
  · exact probeBase_fresh env i h (.inr k)

/-- A pass on another PD. -/
theorem probe_other_pass (henv : env.leavesScan i) {j : Nat} (hne : j ≠ i)
    (e : stateUpdate env (cpRunCalls env depth) j s = .ok () t) :
    SameProbe i s t ∧ CallStep (s.pd i) (t.pd i) :=
  ⟨(other_stateUpdate hne fun _ hl => probe_makes henv depth hl).of e,
    ((others_stateUpdate j).of e).pd i (Ne.symm hne)⟩

theorem ProbeReady.steady (hs : ProbeReady i h s)
    (htear : t.tearingDown = s.tearingDown)
    (hc : CallStep (s.pd i) (t.pd i))
    (hh : (t.pd i).trs.clock.holding = true →
      (s.pd i).trs.clock.holding = true ∧
        (t.pd i).trs.clock.holdTstamp = (s.pd i).trs.clock.holdTstamp) :
    ProbeReady i h t := fun ha =>
  have hb := hs (htear ▸ ha)
  hb.of (restoreInv_of_callStep hb.session hc) hh

/-- The session, under any calls. -/
theorem ready_watch (henv : env.leavesScan i) (depth : Nat) :
    WatchInvariant env depth i (ProbeReady i) where
  call h c s t hs _ e := by
    have hc := (calls_cpApiCall c).of e
    have htear : t.tearingDown = s.tearingDown := by
      have e := congrArg Osdp.tearingDown hc.rest
      exact e
    exact hs.steady htear (hc.pd i) (holding_cpApiCall henv e)
  addPd h infos s t a hs e := by
    rcases osdpCpAddPd_ok e with rfl | ⟨-, hadd⟩
    · exact hs
    · exact hs.addPd hadd
  teardown h s t hs e := by
    have hkeeps : TeardownKeeps i fun _ _ => True :=
      ⟨fun _ _ _ _ _ _ _ => trivial, fun _ _ _ => trivial⟩
    rcases teardown_ok hkeeps e with rfl | ⟨-, -, htear, -⟩
    · exact hs
    · intro ha
      rw [htear] at ha
      cases ha
  other h s t j hs _ hne e := by
    obtain ⟨hp, hc⟩ := probe_other_pass henv hne e
    refine hs.steady (tearingDown_stateUpdate e) hc fun hh => ?_
    rw [hp.clock] at hh ⊢
    exact ⟨hh, rfl⟩
  pass h s t hs hlive _ _ e := fun _ => (hs hlive.2).pass henv e
  same h s t hs hpd _ htear _ := by
    intro ha
    have hb := hs (htear ▸ ha)
    refine hb.of (by rw [hpd]; exact hb.session) fun hh => ?_
    rw [hpd] at hh ⊢
    exact ⟨hh, rfl⟩

/-- The probe, once its scan is left alone. -/
theorem probe_watch (henv : env.leavesScan i) (depth : Nat)
    (g : List Pass) :
    WatchInvariant env depth i (ProbeWatch i g) (fun _ => True)
      fun c => c.leavesScan i = true where
  call h c s t hs hleaves e := by
    have hc := (calls_cpApiCall c).of e
    have hp := (probe_cpApiCall (fun _ hl => probe_makes henv depth hl)
      hleaves).of e
    have htear : t.tearingDown = s.tearingDown := by
      have e := congrArg Osdp.tearingDown hc.rest
      exact e
    have hseal : t.isSealed = s.isSealed := by
      have e := congrArg Osdp.isSealed hc.rest
      exact e
    exact ⟨fun hne => hseal.trans (hs.begun hne), hs.past,
      hs.ready.steady htear (hc.pd i) (holding_cpApiCall henv e),
      fun ha hl => (hs.probe (htear ▸ ha) hl).steady hp (hc.pd i).phyState⟩
  addPd h infos s t a hs e := by
    rcases osdpCpAddPd_ok e with rfl | ⟨hopen, hadd⟩
    · exact hs
    · -- a registration that goes through comes before the first pass
      have hnone : h = [] := by
        by_contra hne
        rw [hs.begun hne] at hopen
        cases hopen
      subst hnone
      exact ⟨(absurd rfl ·), hs.past, hs.ready.addPd hadd,
        fun _ _ => .start⟩
  teardown h s t hs e := by
    have hkeeps : TeardownKeeps i fun _ _ => True :=
      ⟨fun _ _ _ _ _ _ _ => trivial, fun _ _ _ => trivial⟩
    rcases teardown_ok hkeeps e with rfl | ⟨-, hseal, htear, -⟩
    · exact hs
    · have hno {q : Prop} (ha : t.tearingDown = false) : q := by
        rw [htear] at ha
        cases ha
      exact ⟨fun hne => hseal.trans (hs.begun hne), hs.past, hno, hno⟩
  other h s t j hs hlive hne e := by
    obtain ⟨hp, hc⟩ := probe_other_pass henv hne e
    refine ⟨fun hne => (isSealed_stateUpdate e).trans (hs.begun hne),
      hs.past, hs.ready.steady (tearingDown_stateUpdate e) hc fun hh => ?_,
      fun _ hl => (hs.probe hlive.2 hl).steady hp hc.phyState⟩
    rw [hp.clock] at hh ⊢
    exact ⟨hh, rfl⟩
  pass h s t hs hlive _ _ e := by
    have hb := hs.ready hlive.2
    have hstep (hl : Always Pass.later (⟨s, t⟩ :: (h ++ g))) :
        ProbeInv i (⟨s, t⟩ :: h) t ∧ Released i ⟨s, t⟩ h :=
      ProbeInv.pass henv hb.session
        (fun hh => hb.seen hl.2 s.now hl.1 hh) (hs.probe hlive.2 hl.2)
        (later_of_append (l := ⟨s, t⟩ :: h) hl) e
    exact ⟨fun _ => (isSealed_stateUpdate e).trans hlive.1,
      fun hl => ⟨(hstep hl).2, hs.past hl.2⟩,
      fun _ => hb.pass henv e, fun _ hl => (hstep hl).1⟩
  same h s t hs hpd _ htear hseal := by
    refine ⟨fun hne => hseal (hs.begun hne), hs.past, fun ha => ?_,
      fun ha hl => ?_⟩
    · have hb := hs.ready (htear ▸ ha)
      refine hb.of (by rw [hpd]; exact hb.session) fun hh => ?_
      rw [hpd] at hh ⊢
      exact ⟨hh, rfl⟩
    · obtain ⟨hc, hl'⟩ := hs.probe (htear ▸ ha) hl
      refine ⟨?_, ?_⟩ <;> rw [hpd] <;> assumption

end Watch

-- =================================================================== runs

instance (p : OsdpPd) : Decidable p.probing :=
  inferInstanceAs (Decidable (_ ∧ _ ∧ _))

section

variable (i : Nat) (x : Pass)

instance : Decidable (x.looks i) := inferInstanceAs (Decidable (_ ∧ _ ∧ _))

instance : Decidable (x.goesOn i) :=
  inferInstanceAs (Decidable (x.after.pd i).probing)

instance : Decidable (x.stays i) := inferInstanceAs (Decidable (_ ∧ (_ → _)))

instance : Decidable (x.confirms i) := inferInstanceAs (Decidable (_ ∧ _))

instance (past : List Pass) : Decidable (x.later past) :=
  decidable_of_iff (past.head?.all fun y => decide (y.now ≤ x.now)) (by
    rw [Option.all_eq_true]
    exact ⟨fun h y hy => of_decide_eq_true (h y hy),
      fun h y hy => decide_eq_true (h y hy)⟩)

end

/-- No input starts or stops the scan of PD `i`. -/
def scanLeft (i : Nat) (_ : Osdp) : CpInput → Bool
  | .call c => c.leavesScan i
  | _ => true

/-- The PD is online, its scan is started and mode 01 is confirmed to the
first probe; then the reader is asked. -/
def probeOpening : List CpInput :=
  cardOpening.take 6 ++
    [.call (.cpTrsScanEnable 0
      { mode0DwellMs := 10, mode1DwellMs := 50, holdMs := 100 })]

/-- The reader answers only after the dwell, that it sees a card. -/
def probeSighting : List CpInput :=
  [.refresh 31 [], .refresh 32 [], .refresh 33 [],
   .refresh 40 (writeBe 9 0xFF5381080006406A60),
   .refresh 41 [], .refresh 42 [],
   .refresh 190 (writeBe 13 0xFF53810C0007B101010001178B),
   .refresh 191 []]

/-- And goes on seeing one. -/
def probeClosing : List CpInput :=
  [.refresh 192 [], .refresh 200 (writeBe 9 0xFF5381080005403935),
   .refresh 300 []]

/-- The application of `cardEnv` makes no calls. -/
theorem cardEnv_leavesScan : cardEnv.leavesScan 0 := by
  intro calls h
  cases h with
  | command h | event h | completion h =>
    cases h
    nofun

/-- A selector that looks at a probe more than the dwell and the hold after
mode 01 was confirmed, with nothing queued since, selects mode-set(00). -/
def ReleasedOnTime (i : Nat) (x : Pass) (past : List Pass) : Prop :=
  x.looks i →
    Since (Pass.stays i) (fun y _ => y.confirms i ∧
      (x.before.pd i).trs.scan.mode1DwellMs +
        (x.before.pd i).trs.scan.holdMs < x.now - y.now) past →
    x.selects i trsMode00

instance (i : Nat) (x : Pass) (past : List Pass) :
    Decidable (ReleasedOnTime i x past) :=
  inferInstanceAs (Decidable (_ → _ → _))

end LibOsdp
