/-
Transparent mode is given back.

A card session takes its reader out of its ordinary mode: mode-set(01) is
its first command.  A reader left in that mode reports no cards, so a
session that ends in ONLINE has to have ended the mode as well: by an
exchange of mode-set(00), or because the PD said it is in another mode.

# Watching a session

The choice of a command leaves no entry in the history, so the property is
stated of the passes of a run: which command a pass selects, whether it
ends an exchange, whether a session begins or ends with it.  "Since the
mode-set(01) of this session" is `Since`.

# The reply that is no answer

A mode-set is answered by an ACK, a mode report, or an error.  Another
card report is accepted too, as an answer to CMD_XWR, and ends the session
as if the PD had refused the mode: `HearsCardReport` names it.
-/
import LibOsdp.Lib.History
import LibOsdp.Cp.Proofs.CardPass
import LibOsdp.Common.PlainEnv

namespace LibOsdp

open Lib

-- ============================================================ what stays

/-- A session without what calls may change of it. -/
def PdCard.told (c : PdCard) : PdCard :=
  { c with
    notify := false
    clock :=
      { probeTstamp := c.clock.probeTstamp, holdTstamp := c.clock.holdTstamp } }

/-- The session of PD `i` is as it was, whatever was said about it. -/
structure SameCard (i : Nat) (s t : Osdp) : Prop where
  card : (t.pd i).card.told = (s.pd i).card.told
  log : ∃ l, t.log = l ++ s.log

section SameCard

variable {i : Nat} {s t : Osdp}

theorem SameCard.same (hp : t.pd = s.pd) (hl : ∃ l, t.log = l ++ s.log) :
    SameCard i s t := ⟨by rw [hp], hl⟩

theorem sameCard_updPd {j : Nat} {f : OsdpPd → OsdpPd}
    (h : (f (s.pd j)).card.told = (s.pd j).card.told) :
    SameCard i s (s.updPd j f) := by
  refine ⟨?_, [], rfl⟩
  by_cases e : i = j
  · subst e
    rw [updPd_pd_same]
    exact h
  · rw [updPd_pd_ne s f e]

instance (i : Nat) : CallMoves (SameCard i) where
  refl _ := ⟨rfl, [], rfl⟩
  trans _ _ _ h k := by
    obtain ⟨l, hl⟩ := h.log
    obtain ⟨m, hm⟩ := k.log
    exact ⟨k.card.trans h.card, m ++ l, by rw [hm, hl, List.append_assoc]⟩
  call s j f h := by
    have e := congrArg (fun p : OsdpPd => p.card.told) (h (s.pd j))
    exact sameCard_updPd e
  enable s j _ := sameCard_updPd rfl
  disable s j := sameCard_updPd rfl
  note s o _ := .same rfl ⟨[o], rfl⟩
  running s b := .same rfl ⟨[], rfl⟩

instance (i : Nat) : CardMoves i (SameCard i) where
  same s t h := by
    obtain ⟨l, hl, -⟩ := h.log
    exact ⟨congrArg PdCard.told (card_of_session h.session), l, hl⟩
  card s f h := by
    refine ⟨?_, [], rfl⟩
    rw [updPd_pd_same, h]

/-- What a session is followed by: protocol state, nested state, role and
the exchange's command. -/
structure SamePhase (p q : OsdpPd) : Prop where
  state : q.state = p.state
  phase : q.trs.state = p.trs.state
  active : q.flags.trsActive = p.flags.trsActive
  role : q.flags.pdMode = p.flags.pdMode
  cmdId : q.cmdId = p.cmdId
  activeCmd : q.activeCmd = p.activeCmd

theorem SamePhase.refl (p : OsdpPd) : SamePhase p p :=
  ⟨rfl, rfl, rfl, rfl, rfl, rfl⟩

theorem SamePhase.trans {p q r : OsdpPd} (h : SamePhase p q)
    (k : SamePhase q r) : SamePhase p r :=
  ⟨k.state.trans h.state, k.phase.trans h.phase, k.active.trans h.active,
    k.role.trans h.role, k.cmdId.trans h.cmdId,
    k.activeCmd.trans h.activeCmd⟩

theorem SameCard.phase (h : SameCard i s t) :
    SamePhase (s.pd i) (t.pd i) :=
  ⟨congrArg PdCard.state h.card, congrArg PdCard.phase h.card,
    congrArg PdCard.active h.card, congrArg PdCard.pdMode h.card,
    congrArg PdCard.cmdId h.card, congrArg PdCard.activeCmd h.card⟩

theorem SameCard.mode (h : SameCard i s t) :
    (t.pd i).trs.mode = (s.pd i).trs.mode :=
  congrArg PdCard.mode h.card

theorem SameCard.replyError (h : SameCard i s t) :
    (t.pd i).trs.replyError = (s.pd i).trs.replyError :=
  congrArg PdCard.replyError h.card

theorem CallStep.phase {p q : OsdpPd} (h : CallStep p q) :
    SamePhase p q := by
  have e (f : OsdpPd → OsdpPd) (hf : f = OsdpPd.aside) :
      (f q).card.told = (f p).card.told := by
    subst hf
    exact congrArg (fun p : OsdpPd => p.card.told) h.aside
  have e := e _ rfl
  exact ⟨congrArg PdCard.state e, congrArg PdCard.phase e,
    congrArg PdCard.active e, congrArg PdCard.pdMode e,
    congrArg PdCard.cmdId e, congrArg PdCard.activeCmd e⟩

/-- A notice is no part of the session. -/
theorem noted_phase (env : Env) (s : Osdp) (st : TrsSessionStatus) :
    (s.noted env i st).pd = s.pd ∧ ∃ l, (s.noted env i st).log = l ++ s.log := by
  unfold Osdp.noted
  split
  · exact ⟨rfl, [_], rfl⟩
  · exact ⟨rfl, [], rfl⟩

end SameCard

-- ============================================================== the watch

/-- The PD's command is a mode-set of mode `m`. -/
def OsdpPd.setsMode (p : OsdpPd) (m : UInt8) : Prop :=
  p.cmdId = cmdXwr ∧
    osdpTrsCmdBuild p.trs (p.activeCmd.map (·.cmd)) packetBufSize
      = some [0, 2, m, 0]

/-- The mode a card reply reports, if it is a mode report. -/
def modeReport (payload : Bytes) : Option UInt8 :=
  match payload with
  | id :: 0 :: 1 :: m :: _ => if id.toNat = replyXrd then some m else none
  | _ => none

section Pass

variable (i : Nat) (x : Pass)

/-- The pass selects a mode-set of mode `m`. -/
def Pass.selects (m : UInt8) : Prop :=
  (x.before.pd i).phyState = .idle ∧ (x.after.pd i).phyState ≠ .idle ∧
    (x.after.pd i).setsMode m

/-- It ends an exchange. -/
def Pass.ends : Prop :=
  (x.before.pd i).phyState ≠ .idle ∧ (x.after.pd i).phyState = .idle

/-- A session begins with it. -/
def Pass.opens : Prop :=
  (x.before.pd i).state.inTrs = false ∧ (x.after.pd i).state.inTrs = true

/-- A session ends with it, back in ONLINE. -/
def Pass.closes : Prop :=
  (x.before.pd i).state.inTrs = true ∧ (x.after.pd i).state = .online

/-- The PD answers mode-set(01) with a report of another mode, and the
reply is decoded. -/
def Pass.refuses : Prop :=
  (x.before.pd i).phyState ≠ .idle ∧ (x.before.pd i).setsMode trsMode01 ∧
    ∃ l payload m, x.after.log = l ++ x.before.log ∧
      .verdict i payload cpErrNone ∈ l ∧ modeReport payload = some m ∧
      m ≠ trsMode01

/-- The session goes on, and mode-set(01) is not selected anew. -/
def Pass.holds : Prop := ¬ x.opens i ∧ ¬ x.selects i trsMode01

end Pass

/-- Since mode-set(01) was last selected in the session, its mode was given
back: a mode-set(00) was selected and its exchange ended, or the PD
reported another mode. -/
def GivenBack (i : Nat) : List Pass → Prop :=
  Since (Pass.holds i) fun x past => ¬ x.opens i ∧
    (x.refuses i ∨ x.ends i ∧
      Since (Pass.holds i) (fun y _ => y.selects i trsMode00) past)

/-- Mode-set(01) has been selected in the session. -/
def Asked (i : Nat) : List Pass → Prop :=
  Since (fun x => ¬ x.opens i) fun x _ => x.selects i trsMode01

-- ============================================================ the reports

/-- A card report is taken as an answer. -/
def TrsReplyAction.accepted : TrsReplyAction → Bool
  | .quiet | .dispatch _ => true
  | .malformed | .dispatchError _ => false

/-- Whether a report is accepted depends on its bytes alone. -/
theorem trsReplyDecode_accepted (now now' : Int) (buf : Bytes)
    (t t' : OsdpTrs) :
    (osdpTrsReplyDecode now buf t).2.accepted
      = (osdpTrsReplyDecode now' buf t').2.accepted := by
  have hpresent (now : Int) (reader : UInt8) (st : TrsCardStatus)
      (t : OsdpTrs) : (trsCardPresent now reader st t).2.accepted = true := by
    unfold trsCardPresent
    dsimp only
    split <;> rfl
  have hinfo (d : Bytes) : (trsCardInfo now d t).2.accepted
      = (trsCardInfo now' d t').2.accepted := by
    unfold trsCardInfo
    dsimp only
    split
    · rfl
    · split <;> rfl
  have hsight (d : Bytes) : (trsCardSighting now d t).2.accepted
      = (trsCardSighting now' d t').2.accepted := by
    unfold trsCardSighting
    split
    · rfl
    · split
      · rw [hpresent, hpresent]
      · split
        · rfl
        · rw [hpresent, hpresent]
  unfold osdpTrsReplyDecode
  split
  · rfl
  · dsimp only
    split
    · split <;> rfl
    · exact hinfo _
    · exact hsight _
    all_goals first | rfl | (split <;> rfl)

/-- A mode report leaves the mode it names. -/
theorem mode_of_modeReport {payload : Bytes} {m : UInt8}
    (h : modeReport payload = some m) (now : Int) (t : OsdpTrs) :
    (osdpTrsReplyDecode now payload.tail t).1.mode = m := by
  unfold modeReport at h
  split at h
  · next id m' rest =>
    split at h
    · cases h
      rfl
    · cases h
  · cases h

/-- The reply is a card report other than a mode report, and taken as an
answer. -/
def cardReport (payload : Bytes) : Bool :=
  payloadId payload == replyXrd &&
    (osdpTrsReplyDecode 0 payload.tail {}).2.accepted &&
    (modeReport payload).isNone

/-- The pass receives such a report while it awaits the answer to
mode-set(01). -/
def HearsCardReport (env : Env) (i : Nat) (s : Osdp) : Prop :=
  (s.pd i).state.inTrs = true ∧ (s.pd i).trs.state = .setMode ∧
    (s.pd i).phyState = .replyWait ∧
    ∃ payload, HearsFrame env i s payload ∧ cardReport payload = true

section Decode

variable {env : Env} {depth i : Nat} {s t : Osdp}

/-- What decoding a card report inside a session returns. -/
theorem decodeResponse_xrd {payload : Bytes} {rc : Int}
    (hid : payloadId payload = replyXrd)
    (hact : (s.pd i).flags.trsActive = true)
    (h : cpDecodeResponse env (cpRunCalls env depth) i payload s
      = .ok rc t) :
    rc = cpErrGeneric ∧
        (osdpTrsReplyDecode s.now payload.tail (s.pd i).trs).2 = .malformed ∨
      rc = cpErrNone ∧
        (osdpTrsReplyDecode s.now payload.tail (s.pd i).trs).2
          ≠ .malformed := by
  obtain ⟨_, u, hu, h⟩ := bind_ok.mp h
  have hrun : cpDecodeCases env (cpRunCalls env depth) i
      (payloadId payload) payload.tail u = .ok rc t := h
  rw [hid] at hrun
  obtain ⟨p, u', hp, hrun⟩ := bind_ok.mp hrun
  obtain ⟨rfl, rfl⟩ := getPd_ok.mp hp
  obtain ⟨p, u', hp, hrun⟩ := bind_ok.mp hrun
  obtain ⟨rfl, rfl⟩ := getPd_ok.mp hp
  obtain ⟨now, u', hn, hrun⟩ := bind_ok.mp hrun
  cases hn
  obtain ⟨_, v, hv, hrun⟩ := bind_ok.mp hrun
  have hu := updPd_ok.mp hu
  have htrs : (u.pd i).trs = (s.pd i).trs := by rw [← hu, updPd_pd_same]
  have hflag : (u.pd i).flags.trsActive = true := by
    rw [← hu, updPd_pd_same]
    exact hact
  have hnow : u.now = s.now := by rw [← hu]; rfl
  rw [if_pos hflag, htrs, hnow] at hrun
  have hin : decodeXrdInside env (cpRunCalls env depth) i
      (osdpTrsReplyDecode s.now payload.tail (s.pd i).trs).2 v
      = .ok rc t := hrun
  clear hrun
  generalize (osdpTrsReplyDecode s.now payload.tail (s.pd i).trs).2 = act
    at hin ⊢
  cases act with
  | malformed => exact .inl ⟨(pure_ok.mp hin).1.symm, rfl⟩
  | quiet =>
    obtain ⟨_, w, hw, hin⟩ := bind_ok.mp hin
    exact .inr ⟨(pure_ok.mp hin).1.symm, nofun⟩
  | dispatch r =>
    obtain ⟨_, w, hw, hin⟩ := bind_ok.mp hin
    obtain ⟨_, w', hw', hin⟩ := bind_ok.mp hin
    exact .inr ⟨(pure_ok.mp hin).1.symm, nofun⟩
  | dispatchError r =>
    obtain ⟨_, w, hw, hin⟩ := bind_ok.mp hin
    obtain ⟨_, w', hw', hin⟩ := bind_ok.mp hin
    exact .inr ⟨(pure_ok.mp hin).1.symm, nofun⟩

end Decode

-- ======================================================== the transitions

section Advance

variable {env : Env} {i : Nat} {s t : Osdp}

/-- What entering a state does to the session. -/
structure Entered (i : Nat) (next : CpState) (s t : Osdp) : Prop where
  log : ∃ l, t.log = l ++ s.log
  role : (t.pd i).flags.pdMode = (s.pd i).flags.pdMode
  cmdId : (t.pd i).cmdId = (s.pd i).cmdId
  activeCmd : (t.pd i).activeCmd = (s.pd i).activeCmd
  setup : next = .trsSetup →
    (t.pd i).trs.state = .setMode ∧ (t.pd i).flags.trsActive = true
  phase : next ≠ .trsSetup → (t.pd i).trs.state = (s.pd i).trs.state
  active : next ≠ .trsSetup → next ≠ .online →
    (t.pd i).flags.trsActive = (s.pd i).flags.trsActive

theorem Entered.of_phase {next : CpState} {f : OsdpPd → OsdpPd}
    (hl : ∃ l, t.log = l ++ s.log)
    (h : SamePhase (f (s.pd i)) (t.pd i))
    (hf : (f (s.pd i)).trs.state = (s.pd i).trs.state ∧
      (f (s.pd i)).flags.pdMode = (s.pd i).flags.pdMode ∧
      (f (s.pd i)).cmdId = (s.pd i).cmdId ∧
      (f (s.pd i)).activeCmd = (s.pd i).activeCmd)
    (hne : next ≠ .trsSetup)
    (ha : next ≠ .online →
      (f (s.pd i)).flags.trsActive = (s.pd i).flags.trsActive) :
    Entered i next s t :=
  ⟨hl, h.role.trans hf.2.1, h.cmdId.trans hf.2.2.1,
    h.activeCmd.trans hf.2.2.2, fun e => absurd e hne,
    fun _ => h.phase.trans hf.1, fun _ e => h.active.trans (ha e)⟩

theorem setProbe_phase {u v : Osdp} {b : Bool} (hu : SameCard i s u)
    (hv : SameCard i (u.setProbe i b) v) :
    (∃ l, v.log = l ++ s.log) ∧ SamePhase (s.pd i) (v.pd i) := by
  obtain ⟨l, hl⟩ := hu.log
  obtain ⟨m, hm⟩ := hv.log
  have hp := hv.phase
  rw [Osdp.setProbe, updPd_pd_same] at hp
  refine ⟨⟨m ++ l, by rw [hm, Osdp.setProbe, updPd_log, hl,
    List.append_assoc]⟩, hu.phase.trans ?_⟩
  exact ⟨hp.state, hp.phase, hp.active, hp.role, hp.cmdId, hp.activeCmd⟩

theorem noted_samePhase {u v : Osdp} {st : TrsSessionStatus}
    (hu : SameCard i s u) (hv : SameCard i (u.noted env i st) v) :
    (∃ l, v.log = l ++ s.log) ∧ SamePhase (s.pd i) (v.pd i) := by
  obtain ⟨hpd, l', hl'⟩ := noted_phase env u (i := i) st
  obtain ⟨l, hl⟩ := hu.log
  obtain ⟨m, hm⟩ := hv.log
  have hp := hv.phase
  rw [hpd] at hp
  exact ⟨⟨m ++ l' ++ l, by rw [hm, hl', hl]; simp⟩, hu.phase.trans hp⟩

theorem cardEnter_ok {cur next : CpState}
    (h : CardEnter env i (SameCard i) cur next s t) :
    Entered i next s t := by
  have hends (hn : next = .online)
      (hw : (∃ l, t.log = l ++ s.log) ∧
        SamePhase ((s.endTrs i).pd i) (t.pd i)) : Entered i next s t := by
    rw [Osdp.endTrs, updPd_pd_same] at hw
    exact .of_phase (f := fun p =>
      { p with flags := { p.flags with trsActive := false } }) hw.1 hw.2
      ⟨rfl, rfl, rfl, rfl⟩ (by rw [hn]; nofun) fun e => absurd hn e
  cases h with
  | init hn u steady step =>
    obtain ⟨hl, hp⟩ := setProbe_phase steady step
    exact .of_phase (f := id) hl hp ⟨rfl, rfl, rfl, rfl⟩
      (by rw [hn]; nofun) fun _ => rfl
  | offTrs hn hc u hu leave =>
    refine hends hn ?_
    have hw : (∃ l, t.log = l ++ u.log) ∧ SamePhase (u.pd i) (t.pd i) := by
      split at leave
      · exact setProbe_phase (refl_of (SameCard i) u) leave
      · obtain ⟨v, hv, hvt⟩ := leave
        exact noted_samePhase hv hvt
    rw [hu] at hw
    exact hw
  | online hn hc ht =>
    refine hends hn ?_
    rw [ht]
    exact ⟨⟨[], rfl⟩, .refl _⟩
  | setup hn ht =>
    rw [ht, Osdp.beginTrs]
    constructor
    · exact ⟨[], rfl⟩
    all_goals rw [updPd_pd_same]
    · exact fun _ => ⟨rfl, rfl⟩
    · exact fun e => absurd hn e
    · exact fun e => absurd hn e
  | run hn hc step =>
    have hw : (∃ l, t.log = l ++ s.log) ∧ SamePhase (s.pd i) (t.pd i) := by
      split at step
      · rw [step, Osdp.startDwell, updPd_pd_same]
        exact ⟨⟨[], rfl⟩, rfl, rfl, rfl, rfl, rfl, rfl⟩
      · exact noted_samePhase (refl_of (SameCard i) s) step
    exact .of_phase (f := id) hw.1 hw.2 ⟨rfl, rfl, rfl, rfl⟩
      (by rw [hn]; nofun) fun _ => rfl
  | quiet target again steady =>
    exact .of_phase (f := id) steady.log steady.phase ⟨rfl, rfl, rfl, rfl⟩
      target.2.2 fun _ => rfl

/-- What the transitions do to the session. -/
structure CardMoved (i : Nat) (err : Int) (s t : Osdp) : Prop where
  log : ∃ l, t.log = l ++ s.log
  role : (t.pd i).flags.pdMode = (s.pd i).flags.pdMode
  activeCmd : (t.pd i).activeCmd = (s.pd i).activeCmd
  inside : (s.pd i).state.inTrs = true → (t.pd i).state.inTrs = true →
    (trsStep err (s.pd i).replyId (s.pd i).trs).2 = .trsRun ∧
      (t.pd i).trs.state
        = (trsStep err (s.pd i).replyId (s.pd i).trs).1.state ∧
      (t.pd i).flags.trsActive = (s.pd i).flags.trsActive
  closes : (s.pd i).state.inTrs = true → (t.pd i).state = .online →
    (trsStep err (s.pd i).replyId (s.pd i).trs).2 = .online
  opens : (s.pd i).state.inTrs = false → (t.pd i).state.inTrs = true →
    (t.pd i).trs.state = .setMode ∧ (t.pd i).flags.trsActive = true

/-- A session's own step leads on or out. -/
theorem trsStep_next (err : Int) (replyId : Nat) (t : OsdpTrs) :
    (trsStep err replyId t).2 = .trsRun ∨
      (trsStep err replyId t).2 = .online := by
  unfold trsStep
  split
  · unfold osdpTrsStateUpdate
    dsimp only
    repeat' split
    all_goals first | exact .inl rfl | exact .inr rfl
  · unfold osdpTrsStateUpdateErr
    dsimp only
    split
    · exact .inl rfl
    · split <;> first | exact .inl rfl | exact .inr rfl

/-- What the choice of the next state does to the session. -/
structure CardChosen (i : Nat) (err : Int) (row : CpState) (s t : Osdp) :
    Prop where
  log : ∃ l, t.log = l ++ s.log
  state : (t.pd i).state = (s.pd i).state
  active : (t.pd i).flags.trsActive = (s.pd i).flags.trsActive
  role : (t.pd i).flags.pdMode = (s.pd i).flags.pdMode
  activeCmd : (t.pd i).activeCmd = (s.pd i).activeCmd
  inside : (s.pd i).state.inTrs = true → row.inTrs = true →
    (trsStep err (s.pd i).replyId (s.pd i).trs).2 = .trsRun ∧
      row = .trsRun ∧
      (t.pd i).trs.state
        = (trsStep err (s.pd i).replyId (s.pd i).trs).1.state
  closes : (s.pd i).state.inTrs = true → row = .online →
    (trsStep err (s.pd i).replyId (s.pd i).trs).2 = .online
  outside : (s.pd i).state.inTrs = false → row ≠ .trsRun

theorem cardChosen_of_next {err : Int} {row : CpState} {probe : Bool}
    (h : CardNext env i (SameCard i) err s t row probe) :
    CardChosen i err row s t := by
  cases h with
  | reset hn hp steady =>
    have hs := steady.phase
    exact ⟨steady.log, hs.state, hs.active, hs.role, hs.activeCmd,
      fun _ e => absurd (hn ▸ e) (by decide),
      fun _ e => absurd (hn ▸ e) (by decide), fun _ => hn ▸ by decide⟩
  | card hin hp hn step =>
    have hs := step.phase
    rw [Osdp.stepTrs, updPd_pd_same] at hs
    refine ⟨step.log, hs.state, hs.active, hs.role, hs.activeCmd,
      fun _ e => ?_, fun _ e => hn ▸ e, fun e => ?_⟩
    · rcases trsStep_next err (s.pd i).replyId (s.pd i).trs with h | h
      · exact ⟨h, hn.trans h, hs.phase⟩
      · rw [hn, h] at e
        cases e
    · rw [hin] at e
      cases e
  | link hout hn steady =>
    have hs := steady.phase
    refine ⟨steady.log, hs.state, hs.active, hs.role, hs.activeCmd,
      fun e => ?_, fun e => ?_, fun _ => hn⟩ <;>
      (rw [hout] at e; cases e)

/-- Only a state of its own choosing leads a session on, or to ONLINE. -/
theorem row_of_lives {row next : CpState}
    (h : next = row ∨ next = .disabled ∨ next = .init)
    (hin : next.inTrs = true ∨ next = .online) : next = row := by
  rcases h with e | e | e
  · exact e
  · rw [e] at hin
    rcases hin with k | k <;> cases k
  · rw [e] at hin
    rcases hin with k | k <;> cases k

/-- The protocol states of a session. -/
theorem inTrs_iff {st : CpState} :
    st.inTrs = true ↔ st = .trsSetup ∨ st = .trsRun := by
  cases st <;> simp [CpState.inTrs]

theorem cardMoved_of_advance {err : Int}
    (h : CardAdvance env i (SameCard i) err s t) : CardMoved i err s t := by
  have hch := cardChosen_of_next h.choice
  obtain ⟨l, hl⟩ := hch.log
  obtain ⟨m, hm⟩ := h.lives.log
  have hj := h.lives.phase
  -- the tail of a pass marks a session that opens a probe
  have htail : (∃ n, t.log = n ++ h.changed.log) ∧
      SamePhase (h.changed.pd i) (t.pd i) := by
    rcases h.opens with ho | ⟨-, -, ho⟩
    · exact ⟨ho.log, ho.phase⟩
    · exact setProbe_phase (refl_of (SameCard i) h.changed) ho
  obtain ⟨⟨n, hn⟩, ht⟩ := htail
  rcases h.change with ⟨hsame, heq⟩ | ⟨hne, x, hx, hxc⟩
  · rw [heq] at hn ht
    have hp := hj.trans ht
    have hst : (t.pd i).state = (s.pd i).state := hp.state.trans hch.state
    refine ⟨⟨n ++ m ++ l, by rw [hn, hm, hl]; simp⟩, hp.role.trans hch.role,
      hp.activeCmd.trans hch.activeCmd, fun hin _ => ?_, fun hin e => ?_,
      fun hout e => ?_⟩
    · have hrow : h.next = h.row := row_of_lives h.verdict (.inl (hsame ▸ hin))
      obtain ⟨h₁, -, h₃⟩ := hch.inside hin (hrow ▸ hsame ▸ hin)
      exact ⟨h₁, hp.phase.trans h₃, hp.active.trans hch.active⟩
    · rw [hst] at e
      rw [e] at hin
      cases hin
    · rw [hst, hout] at e
      cases e
  · have hen := cardEnter_ok hx
    obtain ⟨k, hk⟩ := hen.log
    obtain ⟨q, hq⟩ := hxc.log
    have hc := hxc.phase
    rw [Osdp.setState, updPd_pd_same] at hc
    have hp := hc.trans ht
    have hst : (t.pd i).state = h.next := hp.state
    refine ⟨⟨n ++ q ++ k ++ m ++ l, ?_⟩, ?_, ?_, fun hin e => ?_,
      fun hin e => ?_, fun hout e => ?_⟩
    · rw [hn, hq, Osdp.setState, updPd_log, hk, hm, hl]
      simp
    · exact hp.role.trans (hen.role.trans (hj.role.trans hch.role))
    · exact hp.activeCmd.trans
        (hen.activeCmd.trans (hj.activeCmd.trans hch.activeCmd))
    · rw [hst] at e
      have hrow : h.next = h.row := row_of_lives h.verdict (.inl e)
      rw [hrow] at e
      obtain ⟨h₁, h₂, h₃⟩ := hch.inside hin e
      have hno : h.next ≠ .trsSetup := by rw [hrow, h₂]; nofun
      have hno' : h.next ≠ .online := by rw [hrow, h₂]; nofun
      exact ⟨h₁, hp.phase.trans ((hen.phase hno).trans (hj.phase.trans h₃)),
        hp.active.trans ((hen.active hno hno').trans
          (hj.active.trans hch.active))⟩
    · rw [hst] at e
      have hrow : h.next = h.row := row_of_lives h.verdict (.inr e)
      exact hch.closes hin (hrow ▸ e)
    · rw [hst] at e
      have hrow : h.next = h.row := row_of_lives h.verdict (.inl e)
      have hsetup : h.next = .trsSetup :=
        (inTrs_iff.mp e).resolve_right (hrow ▸ hch.outside hout)
      obtain ⟨h₁, h₂⟩ := hen.setup hsetup
      exact ⟨hp.phase.trans h₁, hp.active.trans h₂⟩

end Advance

-- ============================================================= the choice

section Choice

variable {env : Env} {i : Nat} {s t : Osdp} {id : Nat}

/-- What the choice of a command leaves of a session: it is transmitting,
or at one of its own steps. -/
structure Picked (i : Nat) (s t : Osdp) (id : Nat) : Prop where
  log : ∃ l, t.log = l ++ s.log
  state : (t.pd i).state = (s.pd i).state
  active : (t.pd i).flags.trsActive = (s.pd i).flags.trsActive
  role : (t.pd i).flags.pdMode = (s.pd i).flags.pdMode
  begun : (t.pd i).trs.state ≠ .setMode → (s.pd i).trs.state ≠ .setMode
  phase : (t.pd i).trs.state = .xmit ∧
      (id = cmdInvalid → (t.pd i).activeCmd = none) ∨
    (t.pd i).trs.state ≠ .done ∧ id = cmdXwr ∧ (t.pd i).activeCmd = none

theorem picked_of_card (h : CardPick i (SameCard i) s t id)
    (hfree : (s.pd i).activeCmd = none)
    (halive : (s.pd i).trs.state ≠ .done) : Picked i s t id := by
  have hbegun {ph : TrsState} (e : (s.pd i).trs.state = .xmit) :
      ph ≠ .setMode → (s.pd i).trs.state ≠ .setMode :=
    fun _ => by rw [e]; nofun
  -- the session as it was, but for the active command
  have hset {u v : Osdp} {c : Option SubmittedCmd} (hu : SameCard i s u)
      (hv : SameCard i (u.setActive i c) v) :
      (∃ l, v.log = l ++ s.log) ∧ (v.pd i).activeCmd = c ∧
        (v.pd i).state = (s.pd i).state ∧
        (v.pd i).flags.trsActive = (s.pd i).flags.trsActive ∧
        (v.pd i).flags.pdMode = (s.pd i).flags.pdMode ∧
        (v.pd i).trs.state = (s.pd i).trs.state := by
    obtain ⟨l, hl⟩ := hu.log
    obtain ⟨m, hm⟩ := hv.log
    have hp := hv.phase
    rw [Osdp.setActive, updPd_pd_same] at hp
    have hq := hu.phase
    exact ⟨⟨m ++ l, by rw [hm, Osdp.setActive, updPd_log, hl]; simp⟩,
      hp.activeCmd, hp.state.trans hq.state, hp.active.trans hq.active,
      hp.role.trans hq.role, hp.phase.trans hq.phase⟩
  cases h with
  | poll hph steady hid =>
    have hx := hph.resolve_right halive
    have hp := steady.phase
    exact ⟨steady.log, hp.state, hp.active, hp.role, hbegun hx,
      .inl ⟨hp.phase.trans hx, fun _ => hp.activeCmd.trans hfree⟩⟩
  | ask hx steady hid =>
    obtain ⟨hl, hc, h₁, h₂, h₃, h₄⟩ := hset (refl_of (SameCard i) s) steady
    exact ⟨hl, h₁, h₂, h₃, hbegun hx, .inl ⟨h₄.trans hx, fun _ => hc⟩⟩
  | expire u hx probe steady eq hid =>
    subst eq
    obtain ⟨l, hl⟩ := steady.log
    have hp := steady.phase
    refine ⟨⟨l, hl⟩, ?_, ?_, ?_, hbegun hx, .inr ⟨?_, hid, ?_⟩⟩ <;>
      rw [Osdp.setPhase, updPd_pd_same]
    · exact hp.state
    · exact hp.active
    · exact hp.role
    · nofun
    · exact hp.activeCmd.trans hfree
  | app c u hx steady eq live hid =>
    subst eq
    obtain ⟨hl, hc, h₁, h₂, h₃, h₄⟩ := hset steady (refl_of (SameCard i) _)
    exact ⟨hl, h₁, h₂, h₃, hbegun hx, .inl ⟨h₄.trans hx,
      fun e => absurd e live⟩⟩
  | dropped u hx steady eq hid =>
    subst eq
    obtain ⟨hl, hc, h₁, h₂, h₃, h₄⟩ := hset steady (refl_of (SameCard i) _)
    exact ⟨hl, h₁, h₂, h₃, hbegun hx, .inl ⟨h₄.trans hx, fun _ => hc⟩⟩
  | stop u hx steady then_ hid =>
    obtain ⟨l, hl⟩ := steady.log
    obtain ⟨m, hm⟩ := then_.log
    have hp := then_.phase
    rw [Osdp.setPhase, updPd_pd_same, Osdp.setActive, updPd_pd_same] at hp
    have hq := steady.phase
    exact ⟨⟨m ++ l, by rw [hm, Osdp.setPhase, Osdp.setActive, updPd_log,
        updPd_log, hl]; simp⟩, hp.state.trans hq.state,
      hp.active.trans hq.active, hp.role.trans hq.role, hbegun hx,
      .inr ⟨by rw [hp.phase]; nofun, hid, hp.activeCmd⟩⟩
  | step hph eq hid =>
    subst eq
    obtain ⟨hl, hc, h₁, h₂, h₃, h₄⟩ := hset (refl_of (SameCard i) s)
      (refl_of (SameCard i) _)
    refine ⟨hl, h₁, h₂, h₃, fun e => h₄ ▸ e, .inr ⟨?_, hid, hc⟩⟩
    rw [h₄]
    exact halive

theorem picked_of_state (h : StatePick env i (SameCard i) s t id)
    (hin : (s.pd i).state.inTrs = true)
    (hfree : (s.pd i).activeCmd = none)
    (halive : (s.pd i).trs.state ≠ .done) : Picked i s t id := by
  rw [StatePick, if_pos hin] at h
  rcases h with h | ⟨w, hw, h⟩
  · exact picked_of_card h hfree halive
  · obtain ⟨u, hu, huw⟩ := hw.told
    obtain ⟨⟨l, hl⟩, hp⟩ := noted_samePhase
      (refl_of (SameCard i) ((u.setActive i none).setProbe i false)) huw
    rw [Osdp.setProbe, updPd_pd_same, Osdp.setActive, updPd_pd_same] at hp
    have hq := hu.phase
    obtain ⟨m, hm⟩ := hu.log
    have hx : (w.pd i).trs.state = .xmit :=
      hp.phase.trans (hq.phase.trans hw.phase)
    have hpick := picked_of_card h hp.activeCmd (by rw [hx]; decide)
    obtain ⟨n, hn⟩ := hpick.log
    refine ⟨⟨n ++ l ++ m, ?_⟩, hpick.state.trans (hp.state.trans hq.state),
      hpick.active.trans (hp.active.trans hq.active),
      hpick.role.trans (hp.role.trans hq.role),
      fun _ => by rw [hw.phase]; decide, hpick.phase⟩
    rw [hn, hl, Osdp.setProbe, Osdp.setActive, updPd_log, updPd_log, hm]
    simp

/-- Outside a session only the active command is touched. -/
theorem link_of_state (h : StatePick env i (SameCard i) s t id)
    (hout : (s.pd i).state.inTrs = false)
    (hfree : (s.pd i).activeCmd = none) :
    (∃ l, t.log = l ++ s.log) ∧ (t.pd i).state = (s.pd i).state ∧
      (t.pd i).flags.pdMode = (s.pd i).flags.pdMode ∧
      (id = cmdInvalid → (t.pd i).activeCmd = none) := by
  rw [StatePick, if_neg (by rw [hout]; decide)] at h
  rcases h with h | ⟨u, c, hu, ht, hc⟩
  · have hp := h.phase
    exact ⟨h.log, hp.state, hp.role, fun _ => hp.activeCmd.trans hfree⟩
  · obtain ⟨l, hl⟩ := hu.log
    obtain ⟨m, hm⟩ := ht.log
    have hp := ht.phase
    rw [Osdp.setActive, updPd_pd_same] at hp
    have hq := hu.phase
    refine ⟨⟨m ++ l, by rw [hm, Osdp.setActive, updPd_log, hl]; simp⟩,
      hp.state.trans hq.state, hp.role.trans hq.role, fun e => ?_⟩
    cases c with
    | none => exact hp.activeCmd
    | some c => exact absurd e (hc (Option.some_ne_none c))

end Choice

-- ============================================================== the steps

/-- What leads a session back to ONLINE. -/
theorem trsStep_online {err : Int} {replyId : Nat} {t : OsdpTrs}
    (h : (trsStep err replyId t).2 = .online) :
    t.state = .teardown ∨ t.state = .done ∨
      err = cpErrNone ∧ t.state = .setMode ∧ replyId ≠ replyAck ∧
        t.mode ≠ trsMode01 := by
  unfold trsStep at h
  by_cases he : err = cpErrNone
  · rw [if_pos he] at h
    unfold osdpTrsStateUpdate at h
    cases hst : t.state with
    | setMode =>
      rw [hst] at h
      by_cases hack : replyId = replyAck
      · simp [hack] at h
      · by_cases hmode : t.mode = trsMode01
        · simp [hack, hmode] at h
        · exact .inr (.inr ⟨he, rfl, hack, hmode⟩)
    | xmit => rw [hst] at h; cases h
    | disconnectCard => rw [hst] at h; cases h
    | teardown => exact .inl rfl
    | done => exact .inr (.inl rfl)
  · rw [if_neg he] at h
    have hst : (trsScanNoteRefused replyId t).1.state = t.state := by
      unfold trsScanNoteRefused
      dsimp only
      split
      · rfl
      · split <;> rfl
    unfold osdpTrsStateUpdateErr at h
    dsimp only at h
    rw [hst] at h
    split at h
    · cases h
    · cases hst' : t.state with
      | teardown => exact .inl rfl
      | done => exact .inr (.inl rfl)
      | _ => rw [hst'] at h; cases h

/-- A session that goes on is not done. -/
theorem trsStep_alive {err : Int} {replyId : Nat} {t : OsdpTrs}
    (h : (trsStep err replyId t).2 = .trsRun) (ht : t.state ≠ .done) :
    (trsStep err replyId t).1.state ≠ .done := by
  unfold trsStep at h ⊢
  by_cases he : err = cpErrNone
  · rw [if_pos he] at h ⊢
    unfold osdpTrsStateUpdate at h ⊢
    cases hst : t.state with
    | setMode =>
      rw [hst] at h
      by_cases hm : (if replyId = replyAck then trsMode01 else t.mode)
          ≠ trsMode01
      · simp only [if_pos hm] at h
        cases h
      · simp only [if_neg hm]
        nofun
    | xmit => dsimp only; nofun
    | disconnectCard => nofun
    | teardown => rw [hst] at h; cases h
    | done => exact absurd hst ht
  · rw [if_neg he] at h ⊢
    have hst : (trsScanNoteRefused replyId t).1.state = t.state := by
      unfold trsScanNoteRefused
      dsimp only
      split
      · rfl
      · split <;> rfl
    unfold osdpTrsStateUpdateErr at h ⊢
    dsimp only at h ⊢
    rw [hst] at h ⊢
    split at h
    · next hr => rw [if_pos hr, hst]; exact ht
    · next hr =>
      rw [if_neg hr]
      cases hst' : t.state with
      | teardown => rw [hst'] at h; cases h
      | done => exact absurd hst' ht
      | _ => nofun

/-- The command a session's own step makes. -/
theorem setsMode_of_phase {p : OsdpPd} (hid : p.cmdId = cmdXwr)
    (hfree : p.activeCmd = none) :
    (p.trs.state = .setMode → p.setsMode trsMode01) ∧
      (p.trs.state = .teardown → p.setsMode trsMode00) := by
  constructor <;> intro hst <;> refine ⟨hid, ?_⟩ <;>
    rw [hfree, Option.map_none, osdpTrsCmdBuild, trsLocalCmdBuild, hst] <;>
    rfl

-- =========================================================== the invariant

/-- What is kept of a PD between passes, given the passes so far. -/
structure RestoreInv (i : Nat) (h : List Pass) (p : OsdpPd) : Prop where
  role : p.flags.pdMode = false
  phy : p.phyState ≠ .done ∧ p.phyState ≠ .err
  free : p.phyState = .idle → p.activeCmd = none
  active : p.state.inTrs = true → p.flags.trsActive = true
  alive : p.state.inTrs = true → p.trs.state ≠ .done
  own : p.state.inTrs = true → p.phyState ≠ .idle → p.trs.state ≠ .xmit →
    p.cmdId = cmdXwr ∧ p.activeCmd = none
  asked : p.state.inTrs = true →
    (p.trs.state = .setMode → p.phyState ≠ .idle) → Asked i h
  given : p.state.inTrs = true → p.phyState ≠ .idle →
    p.trs.state = .teardown →
    Since (Pass.holds i) (fun x _ => x.selects i trsMode00) h

/-- A session that ends in ONLINE had been asked for, and its mode is given
back. -/
def Restored (i : Nat) (x : Pass) (past : List Pass) : Prop :=
  x.closes i → Asked i past ∧ GivenBack i (x :: past)

section Inv

variable {env : Env} {depth i : Nat} {h : List Pass} {s t : Osdp}

/-- Outside a session next to nothing is asked. -/
theorem RestoreInv.outside {p : OsdpPd} (hrole : p.flags.pdMode = false)
    (hphy : p.phyState ≠ .done ∧ p.phyState ≠ .err)
    (hfree : p.phyState = .idle → p.activeCmd = none)
    (hout : p.state.inTrs = false) : RestoreInv i h p :=
  have hno {q : Prop} (e : p.state.inTrs = true) : q := by
    rw [hout] at e
    cases e
  ⟨hrole, hphy, hfree, hno, hno, hno, hno, hno⟩

/-- A pass within a session neither opens one nor closes it. -/
theorem not_opens_of_state (e : (t.pd i).state = (s.pd i).state) :
    ¬ (⟨s, t⟩ : Pass).opens i := fun ⟨h₁, h₂⟩ => by
  dsimp only at h₁ h₂
  rw [e, h₁] at h₂
  cases h₂

theorem not_closes_of_state (e : (t.pd i).state = (s.pd i).state) :
    ¬ (⟨s, t⟩ : Pass).closes i := fun ⟨h₁, h₂⟩ => by
  dsimp only at h₁ h₂
  rw [← e, h₂] at h₁
  cases h₁

/-- Nor does one that finds a session open it. -/
theorem not_opens_of_inTrs (hin : (s.pd i).state.inTrs = true) :
    ¬ (⟨s, t⟩ : Pass).opens i := fun ⟨h₁, _⟩ => by
  dsimp only at h₁
  rw [hin] at h₁
  cases h₁

/-- A pass that finds an exchange selects no command. -/
theorem not_selects_of_busy {m : UInt8}
    (hbusy : (s.pd i).phyState ≠ .idle) :
    ¬ (⟨s, t⟩ : Pass).selects i m := fun h => hbusy h.1

/-- An exchange, as the session sees it: what was noted of it between two
stretches that leave the session alone. -/
theorem exchanged_phase {err : Int}
    (h : Exchanged env (cpRunCalls env depth) i (SameCard i) s t err) :
    (∃ l, t.log = l ++ s.log) ∧ SamePhase (s.pd i) (t.pd i) := by
  cases h with
  | nothing steady reply => exact ⟨steady.log, steady.phase⟩
  | heard wait payload hears u v rc steady dec settles replyId log done =>
    have hrun (calls : List ApiCall) :
        Keeps (SameCard i) (cpRunCalls env depth calls) :=
      keeps_cpRunCalls depth calls
    have hdec : SameCard i (u.noteReport i payload) v :=
      decodeResponse_session (fun calls _ => hrun calls) dec
    have hnote : SamePhase (u.pd i) ((u.noteReport i payload).pd i) := by
      rw [Osdp.noteReport, updPd_pd_same, OsdpPd.afterReport]
      split <;> exact ⟨rfl, rfl, rfl, rfl, rfl, rfl⟩
    obtain ⟨l, hl⟩ := steady.log
    obtain ⟨m, hm⟩ := hdec.log
    obtain ⟨n, hn⟩ := settles.log
    refine ⟨⟨n ++ m ++ l, ?_⟩, steady.phase.trans
      (hnote.trans (hdec.phase.trans settles.phase))⟩
    rw [hn, hm, Osdp.noteReport, updPd_log, hl]
    simp

/-- What answers mode-set(01) without an ACK, and is accepted, is a mode
report. -/
theorem refusal {u : Osdp} (hin : (s.pd i).state.inTrs = true)
    (hset : (s.pd i).trs.state = .setMode)
    (hcmd : (s.pd i).cmdId = cmdXwr)
    (hactive : (s.pd i).flags.trsActive = true)
    (hno : ¬ HearsCardReport env i s)
    (hex : Exchanged env (cpRunCalls env depth) i (SameCard i) s u
      cpErrNone)
    (hok : onlineResponseOk (u.pd i) = true)
    (hack : (u.pd i).replyId ≠ replyAck) :
    ∃ l payload m, u.log = l ++ s.log ∧ .verdict i payload cpErrNone ∈ l ∧
      modeReport payload = some m ∧ (u.pd i).trs.mode = m := by
  have hphase := (exchanged_phase hex).2
  have hcmdU : (u.pd i).cmdId = cmdXwr := hphase.cmdId.trans hcmd
  -- the reply permitted is a card reply that names no error
  have hxrd : (u.pd i).replyId = replyXrd ∧
      (u.pd i).trs.replyError = false := by
    unfold onlineResponseOk at hok
    rw [if_neg hack] at hok
    split at hok
    · cases hok
    · rw [if_neg (by rw [hcmdU]; decide), hcmdU] at hok
      have hok : ((u.pd i).replyId == replyXrd
        && !(u.pd i).trs.replyError) = true := hok
      simpa using hok
  cases hex with
  | nothing steady reply =>
    rcases reply rfl with e | e <;> (rw [e] at hxrd; cases hxrd.1)
  | heard wait payload hears w v rc steady dec settles replyId log done =>
    have hrun (calls : List ApiCall) :
        Keeps (SameCard i) (cpRunCalls env depth calls) :=
      keeps_cpRunCalls depth calls
    have hdec : SameCard i (w.noteReport i payload) v :=
      decodeResponse_session (fun calls _ => hrun calls) dec
    have hid : payloadId payload = replyXrd :=
      (decodeResponse_ok dec).replyId.symm.trans
        (replyId.symm.trans hxrd.1)
    have hact : (w.pd i).flags.trsActive = true :=
      steady.phase.active.trans hactive
    rcases decodeResponse_xrd hid hact dec with ⟨hrc, -⟩ | ⟨hrc, hmal⟩
    · rcases done rfl with e | e | e | e <;> (rw [hrc] at e; cases e)
    · have hreport : (w.noteReport i payload).pd i
          = (w.pd i).afterReport w.now payload := by
        rw [Osdp.noteReport, updPd_pd_same]
      have herr : ((w.pd i).afterReport w.now payload).trs.replyError
          = false := by
        rw [← hreport]
        exact (settles.replyError.trans hdec.replyError).symm.trans hxrd.2
      have hmode : (u.pd i).trs.mode
          = (osdpTrsReplyDecode w.now payload.tail (w.pd i).trs).1.mode := by
        rw [settles.mode.trans hdec.mode, hreport, OsdpPd.afterReport,
          if_pos hid]
      rw [OsdpPd.afterReport, if_pos hid] at herr
      simp only [if_pos hact] at herr
      have hacc : (osdpTrsReplyDecode 0 payload.tail {}).2.accepted
          = true := by
        rw [trsReplyDecode_accepted 0 w.now payload.tail {} (w.pd i).trs]
        revert hmal herr
        generalize (osdpTrsReplyDecode w.now payload.tail (w.pd i).trs).2
          = act
        cases act <;> simp [TrsReplyAction.error, TrsReplyAction.accepted]
      obtain ⟨l, hl⟩ := steady.log
      obtain ⟨k, hk⟩ := hdec.log
      cases hm : modeReport payload with
      | none =>
        refine absurd ⟨hin, hset, wait, payload, hears, ?_⟩ hno
        simp [cardReport, hid, hacc, hm]
      | some m =>
        refine ⟨.verdict i payload cpErrNone :: k ++ l, payload, m, ?_,
          List.mem_cons_self, hm, hmode.trans (mode_of_modeReport hm _ _)⟩
        rw [log, hrc, hk, Osdp.noteReport, updPd_log, hl]
        simp

/-- A pass that leaves a session where it was, an exchange of it under
way. -/
theorem restoreInv_of_going (hinv : RestoreInv i h (s.pd i))
    (hphase : SamePhase (s.pd i) (t.pd i))
    (hbusy : (s.pd i).phyState ≠ .idle)
    (hlive : (t.pd i).phyState ≠ .idle ∧ (t.pd i).phyState ≠ .done ∧
      (t.pd i).phyState ≠ .err) :
    RestoreInv i (⟨s, t⟩ :: h) (t.pd i) := by
  have hin (e : (t.pd i).state.inTrs = true) :
      (s.pd i).state.inTrs = true := hphase.state ▸ e
  have hopens : ¬ (⟨s, t⟩ : Pass).opens i := not_opens_of_state hphase.state
  refine ⟨hphase.role.trans hinv.role, hlive.2, fun e => absurd e hlive.1,
    fun e => hphase.active.trans (hinv.active (hin e)),
    fun e => hphase.phase ▸ hinv.alive (hin e), fun e _ hx => ?_,
    fun e _ => ?_, fun e _ hph => ?_⟩
  · obtain ⟨h₁, h₂⟩ := hinv.own (hin e) hbusy (hphase.phase ▸ hx)
    exact ⟨hphase.cmdId.trans h₁, hphase.activeCmd.trans h₂⟩
  · exact (hinv.asked (hin e) fun _ => hbusy).hold hopens
  · exact (hinv.given (hin e) hbusy (hphase.phase ▸ hph)).hold
      ⟨hopens, not_selects_of_busy hbusy⟩

/-- A pass that chooses a command. -/
theorem restoreInv_of_sent {id : Nat} {v : Osdp}
    (hinv : RestoreInv i h (s.pd i)) (hidle : (s.pd i).phyState = .idle)
    (hpick : StatePick env i (SameCard i) s v id)
    (hkeep : SameCard i (v.setCmdId i id) t)
    (hphy : (t.pd i).phyState = .sendCmd) :
    RestoreInv i (⟨s, t⟩ :: h) (t.pd i) ∧
      (t.pd i).state = (s.pd i).state := by
  have hk := hkeep.phase
  rw [Osdp.setCmdId, updPd_pd_same] at hk
  have hnidle : (t.pd i).phyState ≠ .idle := by rw [hphy]; nofun
  have hend : (t.pd i).phyState ≠ .done ∧ (t.pd i).phyState ≠ .err := by
    rw [hphy]
    exact ⟨nofun, nofun⟩
  by_cases hin : (s.pd i).state.inTrs = true
  · have hp := picked_of_state hpick hin (hinv.free hidle) (hinv.alive hin)
    have hst : (t.pd i).state = (s.pd i).state := hk.state.trans hp.state
    have hopens : ¬ (⟨s, t⟩ : Pass).opens i := not_opens_of_inTrs hin
    have hstep (hx : (t.pd i).trs.state ≠ .xmit) :
        (t.pd i).cmdId = cmdXwr ∧ (t.pd i).activeCmd = none := by
      rcases hp.phase with ⟨e, -⟩ | ⟨-, hid, hfree⟩
      · exact absurd (hk.phase.trans e) hx
      · exact ⟨hk.cmdId.trans hid, hk.activeCmd.trans hfree⟩
    have hsel {m : UInt8} (hm : (t.pd i).setsMode m) :
        (⟨s, t⟩ : Pass).selects i m := ⟨hidle, hnidle, hm⟩
    refine ⟨⟨hk.role.trans (hp.role.trans hinv.role), hend,
      fun e => absurd e hnidle, fun _ => hk.active.trans
        (hp.active.trans (hinv.active hin)), fun _ => ?_, fun _ _ hx => hstep hx,
      fun _ _ => ?_, fun _ _ hph => ?_⟩, hst⟩
    · rw [hk.phase]
      rcases hp.phase with ⟨e, -⟩ | ⟨e, -⟩
      · rw [e]
        nofun
      · exact e
    · by_cases hph : (t.pd i).trs.state = .setMode
      · obtain ⟨h₁, h₂⟩ := hstep (by rw [hph]; nofun)
        exact .inl (hsel ((setsMode_of_phase h₁ h₂).1 hph))
      · exact (hinv.asked hin fun e =>
          absurd e (hp.begun (hk.phase ▸ hph))).hold hopens
    · obtain ⟨h₁, h₂⟩ := hstep (by rw [hph]; nofun)
      exact .inl (hsel ((setsMode_of_phase h₁ h₂).2 hph))
  · have hout : (s.pd i).state.inTrs = false := by simpa using hin
    obtain ⟨-, hst', hrole, -⟩ := link_of_state hpick hout (hinv.free hidle)
    have hst : (t.pd i).state = (s.pd i).state := hk.state.trans hst'
    exact ⟨.outside (hk.role.trans (hrole.trans hinv.role)) hend
      (fun e => absurd e hnidle) (by rw [hst]; exact hout), hst⟩

/-- The end of a pass that leaves the exchange free. -/
theorem restoreInv_of_moved {err : Int} {u : Osdp}
    (hinv : RestoreInv i h (s.pd i))
    (hstate : (u.pd i).state = (s.pd i).state)
    (hrole : (u.pd i).flags.pdMode = (s.pd i).flags.pdMode)
    (hactive : (s.pd i).state.inTrs = true →
      (u.pd i).flags.trsActive = (s.pd i).flags.trsActive)
    (halive : (s.pd i).state.inTrs = true → (u.pd i).trs.state ≠ .done)
    (hfree : (u.pd i).activeCmd = none)
    (hmove : CardMoved i err u t) (hidle : (t.pd i).phyState = .idle)
    -- a session that goes on had been asked for
    (hasked : (s.pd i).state.inTrs = true →
      (trsStep err (u.pd i).replyId (u.pd i).trs).1.state ≠ .setMode →
      (s.pd i).trs.state = .setMode → (s.pd i).phyState ≠ .idle) :
    RestoreInv i (⟨s, t⟩ :: h) (t.pd i) := by
  have hend : (t.pd i).phyState ≠ .done ∧ (t.pd i).phyState ≠ .err := by
    rw [hidle]
    exact ⟨nofun, nofun⟩
  have hfree' : (t.pd i).activeCmd = none := hmove.activeCmd.trans hfree
  have hrole' : (t.pd i).flags.pdMode = false :=
    hmove.role.trans (hrole.trans hinv.role)
  by_cases hint : (t.pd i).state.inTrs = true
  · by_cases hin : (s.pd i).state.inTrs = true
    · obtain ⟨h₁, h₂, h₃⟩ := hmove.inside (hstate ▸ hin) hint
      refine ⟨hrole', hend, fun _ => hfree', fun _ => ?_, fun _ => ?_,
        fun _ e => absurd hidle e, fun _ e => ?_, fun _ e => absurd hidle e⟩
      · exact h₃.trans ((hactive hin).trans (hinv.active hin))
      · rw [h₂]
        exact trsStep_alive h₁ (halive hin)
      · have hne : (t.pd i).trs.state ≠ .setMode := fun k => e k hidle
        refine (hinv.asked hin (hasked hin ?_)).hold (not_opens_of_inTrs hin)
        rw [← h₂]
        exact hne
    · have hout : (s.pd i).state.inTrs = false := by simpa using hin
      obtain ⟨h₁, h₂⟩ := hmove.opens (hstate ▸ hout) hint
      refine ⟨hrole', hend, fun _ => hfree', fun _ => h₂, fun _ => ?_,
        fun _ e => absurd hidle e, fun _ e => absurd hidle (e h₁),
        fun _ e => absurd hidle e⟩
      rw [h₁]
      nofun
  · exact .outside hrole' hend (fun _ => hfree') (by simpa using hint)

/-- A settled exchange leaves the session where it was, its command let go
of. -/
theorem settled_phase {err err' : Int}
    (hset : CardSettled i (SameCard i) err err' s t) :
    (∃ l, t.log = l ++ s.log) ∧ (t.pd i).activeCmd = none ∧
      (t.pd i).state = (s.pd i).state ∧
      (t.pd i).trs.state = (s.pd i).trs.state ∧
      (t.pd i).trs.mode = (s.pd i).trs.mode ∧
      (t.pd i).flags.trsActive = (s.pd i).flags.trsActive ∧
      (t.pd i).flags.pdMode = (s.pd i).flags.pdMode := by
  obtain ⟨u, hu, ht⟩ := hset.chain
  obtain ⟨l, hl⟩ := hu.log
  obtain ⟨m, hm⟩ := ht.log
  have hp := ht.phase
  have hmode := ht.mode
  rw [Osdp.setActive, updPd_pd_same] at hp hmode
  have hq := hu.phase
  refine ⟨⟨m ++ l, ?_⟩, hp.activeCmd, hp.state.trans hq.state,
    hp.phase.trans hq.phase, hmode.trans hu.mode,
    hp.active.trans hq.active, hp.role.trans hq.role⟩
  rw [hm, Osdp.setActive, updPd_log, hl, List.append_assoc]

/-- The refusal of a mode-set is never put down to the application. -/
theorem not_soft_of_setMode {u : Osdp}
    (hu : SameCard i s u) (hcmd : (s.pd i).cmdId = cmdXwr)
    (hset : (s.pd i).trs.state = .setMode) :
    cpCmdFailureIsSoft ((u.setActive i none).pd i) = false := by
  have hp := hu.phase
  have hid : ((u.setActive i none).pd i).cmdId = cmdXwr := by
    rw [Osdp.setActive, updPd_pd_same]
    exact hp.cmdId.trans hcmd
  have hph : ((u.setActive i none).pd i).trs.state = .setMode := by
    rw [Osdp.setActive, updPd_pd_same]
    exact hp.phase.trans hset
  have hown : cpCmdIsAppOwned ((u.setActive i none).pd i) = false := by
    rw [cpCmdIsAppOwned, hid]
    have e : cpTrsCmdIsAppOwned ((u.setActive i none).pd i) = false := by
      rw [cpTrsCmdIsAppOwned, hph]
      rfl
    exact e
  rw [cpCmdFailureIsSoft, hown]
  simp

/-- A session that an exchange brings back to ONLINE has its mode given
back. -/
theorem restored_of_over {err err' : Int} {u v : Osdp}
    (hinv : RestoreInv i h (s.pd i)) (hno : ¬ HearsCardReport env i s)
    (hbusy : (s.pd i).phyState ≠ .idle)
    (hex : Exchanged env (cpRunCalls env depth) i (SameCard i) s u err)
    (hset : CardSettled i (SameCard i) err err' u v)
    (hreply : (v.pd i).replyId = (u.pd i).replyId)
    (hmove : CardMoved i err' v t) (hidle : (t.pd i).phyState = .idle) :
    Restored i ⟨s, t⟩ h := by
  rintro ⟨hin, hon⟩
  dsimp only at hin hon
  obtain ⟨-, hphase⟩ := exchanged_phase hex
  obtain ⟨⟨l, hl⟩, -, hst, hph, hmode, -, -⟩ := settled_phase hset
  have hopens : ¬ (⟨s, t⟩ : Pass).opens i := not_opens_of_inTrs hin
  have hvin : (v.pd i).state.inTrs = true := by
    rw [hst, hphase.state]
    exact hin
  have hphv : (v.pd i).trs.state = (s.pd i).trs.state :=
    hph.trans hphase.phase
  refine ⟨hinv.asked hin fun _ => hbusy, .inl ⟨hopens, ?_⟩⟩
  rcases trsStep_online (hmove.closes hvin hon) with e | e | ⟨he, e, hack, hne⟩
  · exact .inr ⟨⟨hbusy, hidle⟩, hinv.given hin hbusy (hphv.symm.trans e)⟩
  · exact absurd (hphv.symm.trans e) (hinv.alive hin)
  · -- the mode-set itself came to an end: the PD is in another mode
    have hsets : (s.pd i).trs.state = .setMode := hphv.symm.trans e
    obtain ⟨hcmd, hnone⟩ := hinv.own hin hbusy (by rw [hsets]; nofun)
    have honline : cpIsOnline (u.pd i) = true := by
      rw [cpIsOnline, hphase.state]
      rcases inTrs_iff.mp hin with k | k <;> rw [k] <;> rfl
    have hok : onlineResponseOk (u.pd i) = true ∧ err = cpErrNone := by
      rcases hset.verdict honline with ⟨hok, heq⟩ | ⟨-, hbad | ⟨-, w, x, hw, hx, hsoft⟩⟩
      · exact ⟨hok, heq.symm.trans he⟩
      · rw [hbad] at he
        cases he
      · rw [hx, not_soft_of_setMode hw (hphase.cmdId.trans hcmd)
          (hphase.phase.trans hsets)] at hsoft
        cases hsoft
    rw [hok.2] at hex
    obtain ⟨k, payload, m, hk, hmem, hrep, hm⟩ :=
      refusal hin hsets hcmd (hinv.active hin) hno hex hok.1 (hreply ▸ hack)
    obtain ⟨n, hn⟩ := hmove.log
    refine .inl ⟨hbusy, (setsMode_of_phase hcmd hnone).1 hsets,
      n ++ l ++ k, payload, m, ?_, by simp [hmem], hrep, ?_⟩
    · rw [hn, hl, hk]
      simp
    · rw [← hm, ← hmode]
      exact hne

/-- A pass on the PD keeps the invariant, and gives back the mode of a
session it ends, unless it takes a card report for the answer. -/
theorem restore_of_pass (hinv : RestoreInv i h (s.pd i))
    (e : stateUpdate env (cpRunCalls env depth) i s = .ok () t) :
    RestoreInv i (⟨s, t⟩ :: h) (t.pd i) ∧
      (¬ HearsCardReport env i s → Restored i ⟨s, t⟩ h) := by
  have hr (calls : List ApiCall) (_ : env.Makes calls) :
      Keeps (SameCard i) (cpRunCalls env depth calls) :=
    keeps_cpRunCalls depth calls
  cases pass_card hr hinv.role hinv.phy e with
  | going err exchange step busy live running update waits =>
    obtain ⟨-, hphase⟩ := exchanged_phase exchange
    exact ⟨restoreInv_of_going hinv hphase busy live,
      fun _ hc => absurd hc (not_closes_of_state hphase.state)⟩
  | sent id v free pick keeps some phy =>
    obtain ⟨hi, hst⟩ := restoreInv_of_sent hinv free pick keeps phy
    exact ⟨hi, fun _ hc => absurd hc (not_closes_of_state hst)⟩
  | ended err err' u v exchange step busy ends settled reply advance idle =>
    obtain ⟨adv⟩ := advance
    have hmove := cardMoved_of_advance adv
    obtain ⟨-, hphase⟩ := exchanged_phase exchange
    obtain ⟨-, hfree, hst, hph, -, hact, hrole⟩ := settled_phase settled
    refine ⟨restoreInv_of_moved hinv (hst.trans hphase.state)
      (hrole.trans hphase.role) (fun _ => hact.trans hphase.active)
      (fun hin => ?_) hfree hmove idle fun _ _ _ => busy, fun hno =>
      restored_of_over hinv hno busy exchange settled reply hmove idle⟩
    rw [hph.trans hphase.phase]
    exact hinv.alive hin
  | none id v u free pick keeps hnone advance idle =>
    obtain ⟨adv⟩ := advance
    have hmove := cardMoved_of_advance adv
    have hk := keeps.phase
    rw [Osdp.setCmdId, updPd_pd_same] at hk
    by_cases hin : (s.pd i).state.inTrs = true
    · have hp := picked_of_state pick hin (hinv.free free) (hinv.alive hin)
      obtain ⟨hx, hfree⟩ : (v.pd i).trs.state = .xmit ∧
          (v.pd i).activeCmd = none := by
        rcases hp.phase with ⟨hx, hf⟩ | ⟨-, hid, -⟩
        · exact ⟨hx, hf hnone⟩
        · rw [hnone] at hid
          cases hid
      have hxu : (u.pd i).trs.state = .xmit := hk.phase.trans hx
      have hstu : (u.pd i).state = (s.pd i).state := hk.state.trans hp.state
      refine ⟨restoreInv_of_moved hinv hstu (hk.role.trans hp.role)
        (fun _ => hk.active.trans hp.active) (fun _ => by rw [hxu]; nofun)
        (hk.activeCmd.trans hfree) hmove idle
        (fun _ _ k => absurd k (hp.begun (by rw [hx]; nofun))), ?_⟩
      rintro - ⟨-, hon⟩
      rcases trsStep_online (hmove.closes (hstu ▸ hin) hon) with
        k | k | ⟨-, k, -⟩ <;> (rw [hxu] at k; cases k)
    · have hout : (s.pd i).state.inTrs = false := by simpa using hin
      obtain ⟨-, hst, hrole, hf⟩ := link_of_state pick hout (hinv.free free)
      exact ⟨restoreInv_of_moved hinv (hk.state.trans hst)
        (hk.role.trans hrole) (fun k => absurd k hin)
        (fun k => absurd k hin) (hk.activeCmd.trans (hf hnone)) hmove idle
        (fun k => absurd k hin), fun _ hc => absurd hc.1 hin⟩

end Inv

-- ================================================================= results

/-- The passes so far give back every mode, and the PD is ready for the
next. -/
structure RestoreWatch (i : Nat) (h : List Pass) (s : Osdp) : Prop where
  past : Always (Restored i) h
  alive : s.tearingDown = false → RestoreInv i h (s.pd i)

theorem restoreInv_of_callStep {i : Nat} {h : List Pass} {p q : OsdpPd}
    (hinv : RestoreInv i h p) (hc : CallStep p q) : RestoreInv i h q := by
  have hp := hc.phase
  have hphy := hc.phyState
  refine ⟨hp.role.trans hinv.role, hphy ▸ hinv.phy, fun e => ?_, fun e => ?_,
    fun e => ?_, fun e b x => ?_, fun e k => ?_, fun e b x => ?_⟩
  · exact hp.activeCmd.trans (hinv.free (hphy ▸ e))
  · exact hp.active.trans (hinv.active (hp.state ▸ e))
  · exact hp.phase ▸ hinv.alive (hp.state ▸ e)
  · obtain ⟨h₁, h₂⟩ := hinv.own (hp.state ▸ e) (hphy ▸ b) (hp.phase ▸ x)
    exact ⟨hp.cmdId.trans h₁, hp.activeCmd.trans h₂⟩
  · exact hinv.asked (hp.state ▸ e) fun k' => hphy ▸ k (hp.phase ▸ k')
  · exact hinv.given (hp.state ▸ e) (hphy ▸ b) (hp.phase ▸ x)

theorem restoreInv_fresh (env : Env) (i : Nat) (h : List Pass) {p : OsdpPd}
    (hp : p = {} ∨ ∃ info, p = cpSetupDevice env info) :
    RestoreInv i h p := by
  rcases hp with rfl | ⟨info, rfl⟩ <;>
    exact .outside rfl ⟨nofun, nofun⟩ (fun _ => rfl) rfl

theorem restore_watch (env : Env) (depth i : Nat) :
    WatchInvariant env depth i (RestoreWatch i)
      fun s => ¬ HearsCardReport env i s where
  call h c s t hs _ e := by
    have hc := (calls_cpApiCall c).of e
    have htear : t.tearingDown = s.tearingDown := by
      have e := congrArg Osdp.tearingDown hc.rest
      exact e
    exact ⟨hs.past, fun ha =>
      restoreInv_of_callStep (hs.alive (htear ▸ ha)) (hc.pd i)⟩
  addPd h infos s t a hs e := by
    rcases osdpCpAddPd_ok e with rfl | ⟨-, hadd⟩
    · exact hs
    · obtain ⟨-, -, htear, hpd⟩ := cpAddPd_pd hadd
      refine ⟨hs.past, fun ha => ?_⟩
      rcases hpd i with k | k
      · rw [k]
        exact hs.alive (htear ▸ ha)
      · exact restoreInv_fresh env i h (.inr k)
  teardown h s t hs e := by
    have hkeeps : TeardownKeeps i fun _ _ => True :=
      ⟨fun _ _ _ _ _ _ _ => trivial, fun _ _ _ => trivial⟩
    rcases teardown_ok hkeeps e with rfl | ⟨-, -, htear, -⟩
    · exact hs
    · refine ⟨hs.past, fun ha => ?_⟩
      rw [htear] at ha
      cases ha
  other h s t j hs hlive hne e := by
    have ho := (others_stateUpdate j).of e
    refine ⟨hs.past, fun _ => ?_⟩
    exact restoreInv_of_callStep (hs.alive hlive.2)
      (ho.pd i (Ne.symm hne))
  pass h s t hs hlive _ hg e := by
    obtain ⟨hi, hp⟩ := restore_of_pass (hs.alive hlive.2) e
    exact ⟨⟨hp hg, hs.past⟩, fun _ => hi⟩
  same h s t hs hpd _ htear _ := by
    refine ⟨hs.past, fun ha => ?_⟩
    rw [hpd]
    exact hs.alive (htear ▸ ha)

/-- Where no pass on PD `i` takes another card report for the answer to
mode-set(01), transparent mode is always given back: every pass that ends
a session in ONLINE comes after the session's mode-set(01), and since that
a mode-set(00) was selected and its exchange ended, or the PD answered with
a report of another mode. -/
theorem cp_trs_mode_restored (env : Env) (depth : Nat)
    (ok : Osdp → CpInput → Bool) (infos : List CpPdInfo) (s t : Osdp)
    (l : List CpInput) (i : Nat) (hs : osdpCpSetup env infos = some s)
    (hrun : CpRun env depth ok s l t)
    (hok : ∀ v x, ok v x = true →
      PassesMeet env depth
        (fun w => w.currentPd = i → ¬ HearsCardReport env i w) v x) :
    Always (Restored i) (passesOn i (runPasses env depth l s)) :=
  ((restore_watch env depth i).run_of hrun hok
    ⟨trivial, fun _ => restoreInv_fresh env i [] (osdpCpSetup_pd hs i)⟩).past

-- =================================================================== runs

/-- The payload a pass would receive in this state. -/
def heardFrame (env : Env) (i : Nat) (s : Osdp) : Option Bytes :=
  match osdpPhyCheckPacket env i s with
  | .ok rc u =>
    if rc = errPktNone then
      match osdpPhyDecodePacket env i u with
      | .ok (len, payload) _ => if 0 < len then some payload else none
      | .error _ _ => none
    else none
  | .error _ _ => none

theorem heardFrame_of_hears {env : Env} {i : Nat} {s : Osdp}
    {payload : Bytes} (h : HearsFrame env i s payload) :
    heardFrame env i s = some payload := by
  obtain ⟨u, v, len, hu, hv, hlen⟩ := h
  simp only [heardFrame, hu, hv, if_true, if_pos hlen]

/-- No other card report is heard in place of the answer to
mode-set(01). -/
def answersModeSet (env : Env) (i : Nat) (s : Osdp) : Bool :=
  !((s.pd i).state.inTrs && (s.pd i).trs.state == .setMode &&
    (heardFrame env i s).any cardReport)

theorem not_hears_of_answers {env : Env} {i : Nat} {s : Osdp}
    (h : answersModeSet env i s = true) : ¬ HearsCardReport env i s := by
  rintro ⟨hin, hset, -, payload, hhears, hcard⟩
  simp [answersModeSet, hin, hset, heardFrame_of_hears hhears, hcard] at h

instance (p : OsdpPd) (m : UInt8) : Decidable (p.setsMode m) :=
  inferInstanceAs (Decidable (_ ∧ _))

instance (i : Nat) (x : Pass) (m : UInt8) : Decidable (x.selects i m) :=
  inferInstanceAs (Decidable (_ ∧ _ ∧ _))

instance (i : Nat) (x : Pass) : Decidable (x.closes i) :=
  inferInstanceAs (Decidable (_ ∧ _))

/-- The environment of a CP without keys. -/
def cardEnv : Env := plainEnv (knownCipher []) fun n => UInt8.ofNat n

/-- The one PD of that CP. -/
def cardPd : CpPdInfo := { address := 1, enableNotification := true }

/-- The PD's ID and capabilities; a session is asked for, and its
mode-set(01) sent. -/
def cardOpening : List CpInput :=
  [.refresh 0 [], .refresh 1 [],
   .refresh 10 (writeBe 21 0xFF538114000445000000000000000000000000235B),
   .refresh 11 [], .refresh 12 [],
   .refresh 20 (writeBe 12 0xFF53810B0005460C01013238),
   .call (.cpSubmitCommand 0 { node := 7, cmd := .xwr .start }),
   .call (.cpSubmitCommand 0 { node := 8, cmd := .xwr .stop }),
   .refresh 21 [], .refresh 22 [], .refresh 23 []]

/-- Every step of the session is acknowledged. -/
def cardAnswers : List CpInput :=
  [.refresh 40 (writeBe 9 0xFF5381080006406A60),
   .refresh 41 [], .refresh 42 [],
   .refresh 50 (writeBe 9 0xFF5381080007405B53),
   .refresh 51 [], .refresh 52 [],
   .refresh 53 (writeBe 9 0xFF5381080005403935)]

/-- A session that is opened, used and closed. -/
theorem cp_trs_mode_restored_session :
    ∃ s t, osdpCpSetup cardEnv [cardPd] = some s ∧
      CpRun cardEnv 1 (passesOk cardEnv 1 0 (answersModeSet cardEnv 0)) s
        (cardOpening ++ cardAnswers) t ∧
      ((t.pd 0).state = .online ∧ (t.pd 0).trs.state = .done) ∧
      Always (Restored 0) (passesOn 0
        (runPasses cardEnv 1 (cardOpening ++ cardAnswers) s)) := by
  obtain ⟨s, t, hs, hrun, hend⟩ :=
    run_of_setup (cpStep cardEnv 1)
      (passesOk cardEnv 1 0 (answersModeSet cardEnv 0))
      (osdpCpSetup cardEnv [cardPd]) (cardOpening ++ cardAnswers)
      (fun t => (t.pd 0).state = .online ∧ (t.pd 0).trs.state = .done)
      (by decide +kernel)
  exact ⟨s, t, hs, hrun, hend,
    cp_trs_mode_restored cardEnv 1 _ _ s t _ 0 hs hrun fun _ _ h =>
      passesMeet_of_passesOk (fun _ => not_hears_of_answers) h⟩

/-- The entry is the verdict on a report of another mode. -/
def Obs.otherMode (i : Nat) : Obs → Bool
  | .verdict j payload _ =>
    j == i && (modeReport payload).any (· != trsMode01)
  | _ => false

/-- Without a mode-set(00) and without a report of another mode no mode is
given back. -/
theorem not_givenBack {i : Nat} {h : List Pass}
    (hno : ∀ x ∈ h, ¬ x.selects i trsMode00 ∧
      ∀ o ∈ x.after.log, o.otherMode i = false) : ¬ GivenBack i h := by
  intro hg
  obtain ⟨later, x, past, rfl, ⟨-, hx⟩, -⟩ := since_iff.mp hg
  rcases hx with ⟨-, -, l, payload, m, hlog, hmem, hrep, hm⟩ | ⟨-, hsel⟩
  · have ho := (hno x (by simp)).2 (.verdict i payload cpErrNone)
      (hlog ▸ List.mem_append_left _ hmem)
    simp [Obs.otherMode, hrep, hm] at ho
  · obtain ⟨l', y, p', rfl, hy, -⟩ := since_iff.mp hsel
    exact (hno y (by simp)).1 hy

/-- A PD that answers mode-set(01) with the card it has just seen is left in
whatever mode it is in: the session ends in ONLINE, no mode-set(00) having
been selected and no mode reported. -/
theorem cp_trs_mode_restored_cardReport :
    ∃ s t, osdpCpSetup cardEnv [cardPd] = some s ∧
      CpRun cardEnv 1 anyCpInput s (cardOpening ++
        [.refresh 40 (writeBe 13 0xFF53810C0006B101010001B7CE)]) t ∧
      ¬ Always (Restored 0) (passesOn 0 (runPasses cardEnv 1 (cardOpening ++
        [.refresh 40 (writeBe 13 0xFF53810C0006B101010001B7CE)]) s)) := by
  obtain ⟨s, t, hs, hrun, -⟩ :=
    run_of_setup (cpStep cardEnv 1) anyCpInput
      (osdpCpSetup cardEnv [cardPd]) (cardOpening ++
        [.refresh 40 (writeBe 13 0xFF53810C0006B101010001B7CE)])
      (fun _ => True) (by decide +kernel)
  have hsome : (osdpCpSetup cardEnv [cardPd]).any (fun s =>
      (passesOn 0 (runPasses cardEnv 1 (cardOpening ++
        [.refresh 40 (writeBe 13 0xFF53810C0006B101010001B7CE)]) s)).head?.any
        (fun x => decide (x.closes 0)) &&
      (passesOn 0 (runPasses cardEnv 1 (cardOpening ++
        [.refresh 40 (writeBe 13 0xFF53810C0006B101010001B7CE)]) s)).all
        (fun x => !decide (x.selects 0 trsMode00) &&
          x.after.log.all fun o => !o.otherMode 0)) = true := by
    decide +kernel
  refine ⟨s, t, hs, hrun, fun hall => ?_⟩
  rw [hs, Option.any_some, Bool.and_eq_true] at hsome
  revert hall hsome
  generalize passesOn 0 (runPasses cardEnv 1 (cardOpening ++
    [.refresh 40 (writeBe 13 0xFF53810C0006B101010001B7CE)]) s) = h
  intro hsome hall
  cases h with
  | nil => simp at hsome
  | cons x past =>
    obtain ⟨hcl, hno⟩ := hsome
    refine not_givenBack ?_ (hall.1 (by simpa using hcl)).2
    intro y hy
    have hy := List.all_eq_true.mp hno y hy
    simp only [Bool.and_eq_true, Bool.not_eq_true', decide_eq_false_iff_not,
      List.all_eq_true] at hy
    exact hy

end LibOsdp
