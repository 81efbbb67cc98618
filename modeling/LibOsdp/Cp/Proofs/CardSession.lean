/-
What a pass does to the card session of its own PD.

The functions of the state machine that move a session are few: the choice
of the next card command, the session's own steps, and the entry actions
around TRS_SETUP and TRS_RUN.  Each has a lemma here that says which fields
it sets and in what order, with everything else, callbacks included, within
a relation that does not look at the queue (`CardMoves`).

# Layers

    small moves -> selection -> settle -> next state -> entry -> advance

# Notices

`Osdp.noted` is a notice about the session as the history shows it: it is
there if the PD has notifications enabled and the application a callback.
-/
import LibOsdp.Cp.Proofs.Session

namespace LibOsdp

open Lib

-- =========================================================== small moves

/-- The active command, set. -/
def Osdp.setActive (s : Osdp) (i : Nat) (c : Option SubmittedCmd) : Osdp :=
  s.updPd i fun p => { p with activeCmd := c }

/-- The nested state, set. -/
def Osdp.setPhase (s : Osdp) (i : Nat) (ph : TrsState) : Osdp :=
  s.updPd i fun p => { p with trs := { p.trs with state := ph } }

/-- Probe or not, set; a card that was held is let go. -/
def Osdp.setProbe (s : Osdp) (i : Nat) (b : Bool) : Osdp :=
  s.updPd i fun p =>
    { p with
      trs :=
        { p.trs with
          probe := b
          scan := { p.trs.scan with holding := false } } }

/-- The mode dwell of a probe, started. -/
def Osdp.startDwell (s : Osdp) (i : Nat) : Osdp :=
  s.updPd i fun p => { p with trs := osdpTrsProbeNoteRun s.now p.trs }

/-- The id of the command, set. -/
def Osdp.setCmdId (s : Osdp) (i id : Nat) : Osdp :=
  s.updPd i fun p => { p with cmdId := id }

/-- The protocol state, set. -/
def Osdp.setState (s : Osdp) (i : Nat) (st : CpState) : Osdp :=
  s.updPd i fun p => { p with state := st }

/-- A notice about the session of PD `i`, if anyone is told. -/
def Osdp.noted (env : Env) (s : Osdp) (i : Nat) (st : TrsSessionStatus) :
    Osdp :=
  if (s.pd i).flags.enableNotif = true ∧ env.eventCallback.isSome then
    { s with log := .event i (.notification (.trsStatus st)) :: s.log }
  else s

/-- A notice does not depend on what else of the PD is changed. -/
theorem noted_updPd {env : Env} {s : Osdp} {i : Nat} {st : TrsSessionStatus}
    {f : OsdpPd → OsdpPd}
    (h : (f (s.pd i)).flags.enableNotif = (s.pd i).flags.enableNotif) :
    (s.updPd i f).noted env i st = (s.noted env i st).updPd i f := by
  unfold Osdp.noted
  rw [updPd_pd_same, h]
  split <;> rfl

section Card

variable {env : Env} {run : List ApiCall → OsdpM Unit}
variable {i : Nat} {R : Osdp → Osdp → Prop} [hC : CardMoves i R]
include hC

/-- Two updates of the PD that leave its session the same. -/
theorem card_updPd_eq {s : Osdp} {f g : OsdpPd → OsdpPd}
    (h : (g (s.pd i)).card = (f (s.pd i)).card) :
    R (s.updPd i f) (s.updPd i g) := by
  have e : s.updPd i g = (s.updPd i f).updPd i fun _ => g (s.pd i) := by
    rw [updPd_updPd]
    rfl
  rw [e]
  refine hC.card _ _ ?_
  rw [updPd_pd_same]
  exact h

/-- Another update on top of one, and the session is as if it were
alone. -/
theorem card_again {s : Osdp} {f g h : OsdpPd → OsdpPd}
    (e : (g (f (s.pd i))).card = (h (s.pd i)).card) :
    R (s.updPd i h) ((s.updPd i f).updPd i g) := by
  rw [updPd_updPd]
  exact card_updPd_eq e

variable (hr : ∀ calls, env.Makes calls → Keeps R (run calls))
include hr

/-- Any notice about the session. -/
theorem noted_ok {st : TrsSessionStatus} {s t : Osdp} {a : Unit}
    (h : cpNotifyTrsStatus env run i st s = .ok a t) :
    R (s.noted env i st) t := by
  obtain ⟨p, u, hp, h⟩ := bind_ok.mp h
  obtain ⟨rfl, rfl⟩ := getPd_ok.mp hp
  split at h
  · next hen =>
    unfold cpDispatchEvent at h
    cases hf : env.eventCallback with
    | none =>
      rw [hf] at h
      obtain ⟨-, rfl⟩ := pure_ok.mp h
      rw [Osdp.noted, if_neg (by simp [hf])]
      exact refl_of R _
    | some f =>
      rw [hf] at h
      obtain ⟨s', u, hg, h⟩ := bind_ok.mp h
      obtain ⟨rfl, rfl⟩ := get_ok.mp hg
      obtain ⟨_, u, hu, h⟩ := bind_ok.mp h
      rw [Osdp.noted, if_pos ⟨hen, by simp [hf]⟩, observe_ok.mp hu]
      exact (hr _ (.event hf _ i _)).of h
  · next hen =>
    obtain ⟨-, rfl⟩ := pure_ok.mp h
    rw [Osdp.noted, if_neg fun hc => hen hc.1]
    exact refl_of R _

/-- A notice of the presence scan. -/
theorem steady_scanNotice {st : TrsSessionStatus}
    (h : st.ofSession = false) : Keeps R (cpNotifyTrsStatus env run i st) :=
  steady_cpNotify hr (.inl (by simp [OsdpEvent.noSession, h]))

-- ============================================================= selection

/-- A command completed without being sent. -/
theorem discard_ok {c : SubmittedCmd} {st : CompletionStatus} {s t : Osdp}
    {a : Unit} (h : cpDiscardCmd env run i c st s = .ok a t) :
    ∃ u, R s u ∧ t = u.setActive i none := by
  obtain ⟨_, u, hu, h⟩ := bind_ok.mp h
  exact ⟨u, (steady_cpCompleteCmd hr _ _).of hu, (updPd_ok.mp h).symm⟩

/-- An application's command made the active one, unless it cannot be
translated. -/
theorem setupActive_ok {c : SubmittedCmd} {s t : Osdp} {id : Nat}
    (h : cpSetupActiveCmd env run i c s = .ok id t) :
    ∃ u, R s u ∧
      (id = cmdInvalid ∧ t = u.setActive i none ∨
        id ≠ cmdInvalid ∧ t = u.setActive i (some c) ∧
          wireCmdOf c.cmd = some id) := by
  obtain ⟨p, u, hp, h⟩ := bind_ok.mp h
  obtain ⟨rfl, rfl⟩ := getPd_ok.mp hp
  obtain ⟨id', u, hu, h⟩ := bind_ok.mp h
  have hsu : R s u := (steady_cpTranslateCmd _ _).of hu
  have hid : id' = cmdInvalid ∨ wireCmdOf c.cmd = some id' := by
    unfold cpTranslateCmd at hu
    split at hu
    · exact .inl (pure_ok.mp hu).1.symm
    · cases hw : wireCmdOf c.cmd with
      | none =>
        rw [hw] at hu
        exact absurd hu throw_ok
      | some w =>
        rw [hw] at hu
        exact .inr (by rw [(pure_ok.mp hu).1])
  have hrest {v w : Osdp} {n : Nat} (hv : R s v)
      (e : (do
        if id' = cmdInvalid then
          cpCompleteCmd env run i (some c) .failed
          setActiveCmd i none
        else
          setActiveCmd i (some c)
        return id' : OsdpM Nat) v = .ok n w) :
      ∃ u, R s u ∧
        (n = cmdInvalid ∧ w = u.setActive i none ∨
          n ≠ cmdInvalid ∧ w = u.setActive i (some c) ∧
            wireCmdOf c.cmd = some n) := by
    split at e
    · next h0 =>
      obtain ⟨_, x, hx, e⟩ := bind_ok.mp e
      obtain ⟨_, y, hy, e⟩ := bind_ok.mp e
      obtain ⟨rfl, rfl⟩ := pure_ok.mp e
      exact ⟨x, trans_of R hv ((steady_cpCompleteCmd hr _ _).of hx),
        .inl ⟨h0, (updPd_ok.mp hy).symm⟩⟩
    · next h0 =>
      obtain ⟨_, y, hy, e⟩ := bind_ok.mp e
      obtain ⟨rfl, rfl⟩ := pure_ok.mp e
      exact ⟨v, hv, .inr ⟨h0, (updPd_ok.mp hy).symm,
        hid.resolve_left h0⟩⟩
  split at h
  · obtain ⟨_, v, hv, h⟩ := bind_ok.mp h
    have hbr : R u v := (steady_updPd (f := fun p =>
      { p with flags := { p.flags with pktBroadcast := true } })
      fun _ => rfl).of hv
    exact hrest (trans_of R hsu hbr) h
  · exact hrest hsu h

/-- What the choice of a card command comes to, a probe's adoption
apart. -/
inductive CardPick (i : Nat) (R : Osdp → Osdp → Prop) (s t : Osdp)
    (id : Nat) : Prop where
  | poll (phase : (s.pd i).trs.state = .xmit ∨ (s.pd i).trs.state = .done)
      (steady : R s t) (id : id = cmdPoll ∨ id = cmdInvalid)
  | ask (phase : (s.pd i).trs.state = .xmit)
      (steady : R (s.setActive i none) t) (id : id = cmdXwr)
  | expire (u : Osdp) (phase : (s.pd i).trs.state = .xmit)
      (probe : (s.pd i).trs.probe = true)
      (steady : R s u) (eq : t = u.setPhase i .teardown) (id : id = cmdXwr)
  | app (c : SubmittedCmd) (u : Osdp) (phase : (s.pd i).trs.state = .xmit)
      (steady : R s u) (eq : t = u.setActive i (some c))
      (live : id ≠ cmdInvalid) (id : wireCmdOf c.cmd = some id)
  | dropped (u : Osdp) (phase : (s.pd i).trs.state = .xmit)
      (steady : R s u) (eq : t = u.setActive i none) (id : id = cmdInvalid)
  | stop (u : Osdp) (phase : (s.pd i).trs.state = .xmit) (steady : R s u)
      (then_ : R ((u.setActive i none).setPhase i .disconnectCard) t)
      (id : id = cmdXwr)
  | step (phase : (s.pd i).trs.state = .setMode ∨
        (s.pd i).trs.state = .disconnectCard ∨
        (s.pd i).trs.state = .teardown)
      (eq : t = s.setActive i none) (id : id = cmdXwr)

omit hC hr in
theorem getPoll_id {s t : Osdp} {id : Nat}
    (h : cpGetPollCommand i s = .ok id t) :
    id = cmdPoll ∨ id = cmdInvalid := by
  obtain ⟨p, u, hp, h⟩ := bind_ok.mp h
  obtain ⟨now, u, hn, h⟩ := bind_ok.mp h
  split at h
  · obtain ⟨_, u, hu, h⟩ := bind_ok.mp h
    exact .inl (pure_ok.mp h).1.symm
  · exact .inr (pure_ok.mp h).1.symm

omit hr in
/-- A session with nothing queued. -/
theorem trsIdle_ok {s t : Osdp} {id : Nat}
    (hx : (s.pd i).trs.state = .xmit)
    (h : cpGetTrsIdleCommand i s = .ok id t) : CardPick i R s t id := by
  obtain ⟨p, u, hp, h⟩ := bind_ok.mp h
  obtain ⟨rfl, rfl⟩ := getPd_ok.mp hp
  obtain ⟨now, u, hn, h⟩ := bind_ok.mp h
  cases hn
  split at h
  · next hexp =>
    simp only [Bool.and_eq_true] at hexp
    obtain ⟨_, u, hu, h⟩ := bind_ok.mp h
    obtain ⟨rfl, rfl⟩ := pure_ok.mp h
    exact .expire s hx hexp.1 (refl_of R s) (updPd_ok.mp hu).symm rfl
  · split at h
    · obtain ⟨_, u, hu, h⟩ := bind_ok.mp h
      obtain ⟨_, v, hv, h⟩ := bind_ok.mp h
      obtain ⟨rfl, rfl⟩ := pure_ok.mp h
      have hu : s.setActive i none = u := updPd_ok.mp hu
      have hv := updPd_ok.mp hv
      refine .ask hx ?_ rfl
      rw [← hv, ← hu]
      exact hC.card _ _ rfl
    · exact .poll (.inl hx) ((band_cpGetPollCommand letsBand_card).of h)
        (getPoll_id h)

/-- A command taken off the queue, no START for a probe. -/
theorem getBand_ok {c : SubmittedCmd} {s u t : Osdp} {id : Nat}
    (hx : (s.pd i).trs.state = .xmit) (hsu : R s u)
    (h : cpGetBandCommand env run i c u = .ok id t) :
    CardPick i R s t id := by
  unfold cpGetBandCommand at h
  split at h
  · obtain ⟨_, v, hv, h⟩ := bind_ok.mp h
    obtain ⟨w, hw, rfl⟩ := discard_ok hr hv
    obtain ⟨_, v, hv, h⟩ := bind_ok.mp h
    obtain ⟨rfl, rfl⟩ := pure_ok.mp h
    refine .stop w hx (trans_of R hsu hw) ?_ rfl
    rw [← updPd_ok.mp hv]
    exact card_updPd_eq rfl
  · obtain ⟨v, hv, hcase⟩ := setupActive_ok hr h
    have hsv : R s v := trans_of R hsu hv
    rcases hcase with ⟨h0, e⟩ | ⟨h0, e, hw⟩
    · exact .dropped v hx hsv e h0
    · exact .app c v hx hsv e h0 hw

omit hC hr in
/-- The head of the queue, taken off it. -/
theorem cmdDequeue_ok {c : Option SubmittedCmd} {s t : Osdp}
    (h : cpCmdDequeue i s = .ok c t) :
    c = none ∧ t = s ∧ (s.pd i).cmdQueue = [] ∨
      ∃ x rest, c = some x ∧ (s.pd i).cmdQueue = x :: rest ∧
        t = s.updPd i fun p => { p with cmdQueue := rest } := by
  obtain ⟨p, u, hp, h⟩ := bind_ok.mp h
  obtain ⟨rfl, rfl⟩ := getPd_ok.mp hp
  cases hq : (s.pd i).cmdQueue with
  | nil =>
    rw [hq] at h
    obtain ⟨rfl, rfl⟩ := pure_ok.mp h
    exact .inl ⟨rfl, rfl, rfl⟩
  | cons x rest =>
    rw [hq] at h
    obtain ⟨_, u, hu, h⟩ := bind_ok.mp h
    obtain ⟨rfl, rfl⟩ := pure_ok.mp h
    exact .inr ⟨x, rest, rfl, rfl, (updPd_ok.mp hu).symm⟩

/-- A probe becomes the band's session. -/
structure Adopts (env : Env) (i : Nat) (R : Osdp → Osdp → Prop)
    (s t : Osdp) : Prop where
  phase : (s.pd i).trs.state = .xmit
  probe : (s.pd i).trs.probe = true
  told : ∃ u, R s u ∧
    R (((u.setActive i none).setProbe i false).noted env i .opened) t

/-- What a START that meets a probe does. -/
theorem adopt_ok {c : SubmittedCmd} {s t : Osdp} {a : Unit}
    (h : cpAdoptProbe env run i c s = .ok a t) :
    ∃ u, R s u ∧
      R (((u.setActive i none).setProbe i false).noted env i .opened) t := by
  obtain ⟨_, u, hu, h⟩ := bind_ok.mp h
  obtain ⟨w, hw, rfl⟩ := discard_ok hr hu
  obtain ⟨_, v, hv, h⟩ := bind_ok.mp h
  refine ⟨w, hw, trans_of R ?_ (noted_ok hr h)⟩
  rw [← updPd_ok.mp hv, noted_updPd rfl, Osdp.setProbe, noted_updPd rfl]
  refine card_updPd_eq ?_
  unfold Osdp.noted
  split <;> rfl

/-- The next card command, chosen. -/
theorem getTrs_ok {n : Nat} {s t : Osdp} {id : Nat}
    (h : cpGetTrsCommand env run i (n + 1) s = .ok id t) :
    CardPick i R s t id ∨
      ∃ w, Adopts env i R s w ∧ cpGetTrsCommand env run i n w = .ok id t := by
  obtain ⟨p, u, hp, h⟩ := bind_ok.mp h
  obtain ⟨rfl, rfl⟩ := getPd_ok.mp hp
  cases hph : (s.pd i).trs.state with
  | setMode | disconnectCard | teardown =>
    rw [hph] at h
    obtain ⟨_, u, hu, h⟩ := bind_ok.mp h
    obtain ⟨rfl, rfl⟩ := pure_ok.mp h
    exact .inl (.step (by simp [hph]) (updPd_ok.mp hu).symm rfl)
  | done =>
    rw [hph] at h
    exact .inl (.poll (.inr hph)
      ((band_cpGetPollCommand letsBand_card).of h) (getPoll_id h))
  | xmit =>
    rw [hph] at h
    obtain ⟨c, u, hu, h⟩ := bind_ok.mp h
    rcases cmdDequeue_ok hu with ⟨hc, he, -⟩ | ⟨x, rest, hc, -, hpop⟩
    · rw [hc, he] at h
      exact .inl (trsIdle_ok hph h)
    · rw [hc] at h
      obtain ⟨p, v, hp, h⟩ := bind_ok.mp h
      obtain ⟨rfl, rfl⟩ := getPd_ok.mp hp
      have hsu : R s u := by
        rw [hpop]
        exact hC.card _ _ rfl
      have htrs : (u.pd i).trs = (s.pd i).trs := by
        rw [hpop, updPd_pd_same]
      split at h
      · next hadopt =>
        simp only [Bool.and_eq_true] at hadopt
        obtain ⟨_, w, hw, h⟩ := bind_ok.mp h
        obtain ⟨x, hx, hxw⟩ := adopt_ok hr hw
        exact .inr ⟨w, ⟨hph, htrs ▸ hadopt.1, x, trans_of R hsu hx, hxw⟩, h⟩
      · exact .inl (getBand_ok hr hph hsu h)

/-- The next card command, where two rounds are allowed for. -/
theorem getCard_ok {s t : Osdp} {id : Nat}
    (h : cpGetTrsCommand env run i 2 s = .ok id t) :
    CardPick i R s t id ∨
      ∃ w, Adopts env i R s w ∧ CardPick i R w t id := by
  rcases getTrs_ok hr h with hpick | ⟨w, hw, h⟩
  · exact .inl hpick
  · rcases getTrs_ok hr h with hpick | ⟨v, -, h⟩
    · exact .inr ⟨w, hw, hpick⟩
    · exact absurd h throw_ok

/-- What the choice of a command comes to outside a session. -/
def LinkPick (i : Nat) (R : Osdp → Osdp → Prop) (s t : Osdp) (id : Nat) :
    Prop :=
  R s t ∨ ∃ u c, R s u ∧ R (u.setActive i c) t ∧
    (c ≠ none → id ≠ cmdInvalid)

/-- The next command while online. -/
theorem getOnline_ok {s t : Osdp} {id : Nat}
    (h : cpGetOnlineCommand env run i s = .ok id t) :
    LinkPick i R s t id := by
  obtain ⟨c, u, hu, h⟩ := bind_ok.mp h
  have hsu : R s u := (band_cpCmdDequeue letsBand_card).of hu
  cases c with
  | none =>
    exact .inl (trans_of R hsu ((band_cpGetEngineCommand letsBand_card hr).of h))
  | some c =>
    simp only at h
    split at h
    · obtain ⟨_, v, hv, h⟩ := bind_ok.mp h
      obtain ⟨w, hw, rfl⟩ := discard_ok hr hv
      obtain ⟨_, x, hx, h⟩ := bind_ok.mp h
      obtain ⟨rfl, rfl⟩ := pure_ok.mp h
      exact .inr ⟨w, none, trans_of R hsu hw,
        (band_makeRequest letsBand_card _).of hx, fun e => absurd rfl e⟩
    · obtain ⟨v, hv, hcase⟩ := setupActive_ok hr h
      have hsv : R s v := trans_of R hsu hv
      rcases hcase with ⟨h0, e⟩ | ⟨h0, e, -⟩
      · exact .inr ⟨v, none, hsv, e ▸ refl_of R _, fun e => absurd rfl e⟩
      · exact .inr ⟨v, some c, hsv, e ▸ refl_of R _, fun _ => h0⟩

omit hC hr in
/-- The protocol states a session lives in. -/
@[grind] def CpState.inTrs : CpState → Bool
  | .trsSetup | .trsRun => true
  | _ => false

/-- What the choice of a command comes to, by the protocol state. -/
def StatePick (env : Env) (i : Nat) (R : Osdp → Osdp → Prop) (s t : Osdp)
    (id : Nat) : Prop :=
  if (s.pd i).state.inTrs = true then
    CardPick i R s t id ∨ ∃ w, Adopts env i R s w ∧ CardPick i R w t id
  else LinkPick i R s t id

theorem stateGetCmd_card {s t : Osdp} {id : Nat}
    (h : stateGetCmd env run i s = .ok id t) : StatePick env i R s t id := by
  obtain ⟨p, u, hp, h⟩ := bind_ok.mp h
  obtain ⟨rfl, rfl⟩ := getPd_ok.mp hp
  unfold StatePick
  cases hst : (s.pd i).state with
  | init | capdet | scChlng | scScrypt | setScbk | offline | disabled =>
    rw [hst] at h
    obtain ⟨-, rfl⟩ := pure_ok.mp h
    exact .inl (refl_of R _)
  | online =>
    rw [hst] at h
    exact getOnline_ok hr h
  | trsSetup | trsRun =>
    rw [hst] at h
    exact getCard_ok hr h

/-- IDLE: a command is chosen, and sent on its way unless there is none. -/
theorem kick_card {b : Bool} {s t : Osdp}
    (h : cpKick env run i s = .ok b t) :
    ∃ id v, StatePick env i R s v id ∧ R (v.setCmdId i id) t ∧
      (b = true → id ≠ cmdInvalid) ∧
      (b = false → id = cmdInvalid ∨ (t.pd i).phyState ≠ .idle) := by
  obtain ⟨id, v, hv, h⟩ := bind_ok.mp h
  obtain ⟨_, u, hu, h⟩ := bind_ok.mp h
  have hu : v.setCmdId i id = u := updPd_ok.mp hu
  obtain ⟨p, w, hp, h⟩ := bind_ok.mp h
  obtain ⟨rfl, rfl⟩ := getPd_ok.mp hp
  refine ⟨id, v, stateGetCmd_card hr hv, ?_, ?_⟩
  · rw [hu]
    split at h
    · obtain ⟨_, x, hx, h⟩ := bind_ok.mp h
      obtain ⟨-, rfl⟩ := pure_ok.mp h
      exact (steady_setPhyState _).of hx
    · obtain ⟨-, rfl⟩ := pure_ok.mp h
      exact refl_of R _
  · split at h
    · next hgo =>
      obtain ⟨_, x, hx, h⟩ := bind_ok.mp h
      obtain ⟨rfl, rfl⟩ := pure_ok.mp h
      exact ⟨fun _ => hgo.1, nofun⟩
    · next hno =>
      obtain ⟨rfl, rfl⟩ := pure_ok.mp h
      refine ⟨nofun, fun _ => ?_⟩
      by_cases h0 : id = cmdInvalid
      · exact .inl h0
      · exact .inr fun hidle => hno ⟨h0, hidle⟩

-- ================================================================ settle

/-- An exchange that is over, settled. -/
structure CardSettled (i : Nat) (R : Osdp → Osdp → Prop) (err err' : Int)
    (s t : Osdp) : Prop where
  chain : ∃ u, R s u ∧ R (u.setActive i none) t
  verdict : cpIsOnline (s.pd i) = true →
    onlineResponseOk (s.pd i) = true ∧ err' = err ∨
      onlineResponseOk (s.pd i) = false ∧
        (err' = cpErrGeneric ∨ err' = cpErrNone ∧
          ∃ u v, R s u ∧ v = u.setActive i none ∧
            cpCmdFailureIsSoft (v.pd i) = true)

omit hC hr in
/-- The judgement of a reply while online. -/
theorem stateCheckReply_online {b : Bool} {s t : Osdp}
    (hon : cpIsOnline (s.pd i) = true)
    (h : stateCheckReply env run i s = .ok b t) :
    b = onlineResponseOk (s.pd i) := by
  obtain ⟨p, u, hp, h⟩ := bind_ok.mp h
  obtain ⟨rfl, rfl⟩ := getPd_ok.mp hp
  have hchk (e : cpCheckOnlineResponse env run i s = .ok b t) :
      b = onlineResponseOk (s.pd i) := by
    obtain ⟨p, u, hp, e⟩ := bind_ok.mp e
    obtain ⟨rfl, rfl⟩ := getPd_ok.mp hp
    split at e
    · obtain ⟨_, v, hv, e⟩ := bind_ok.mp e
      exact (pure_ok.mp e).1.symm
    · exact (pure_ok.mp e).1.symm
  cases hst : (s.pd i).state with
  | init | capdet | scChlng | scScrypt | setScbk | offline | disabled =>
    simp [cpIsOnline, cpStateIsOnline, hst] at hon
  | online | trsSetup | trsRun =>
    rw [hst] at h
    exact hchk h

/-- The active command is let go of. -/
theorem settleCommand_ok {b : Bool} {s t : Osdp} {a : Unit}
    (h : cpSettleCommand env run i b s = .ok a t) :
    ∃ u, R s u ∧ t = u.setActive i none := by
  obtain ⟨p, u, hp, h⟩ := bind_ok.mp h
  obtain ⟨rfl, rfl⟩ := getPd_ok.mp hp
  split at h
  · obtain ⟨_, u, hu, h⟩ := bind_ok.mp h
    exact ⟨u, (steady_updPd (f := fun p =>
      { p with engineCmd := p.activeCmd, engineCmdMpType := .bioread })
      fun _ => rfl).of hu, (updPd_ok.mp h).symm⟩
  · obtain ⟨_, u, hu, h⟩ := bind_ok.mp h
    exact ⟨u, (steady_cpCompleteCmd hr _ _).of hu, (updPd_ok.mp h).symm⟩

theorem settle_card {err err' : Int} {s t : Osdp}
    (h : cpSettle env run i err s = .ok err' t) :
    CardSettled i R err err' s t := by
  obtain ⟨b, u, hu, h⟩ := bind_ok.mp h
  have hsu : R s u := (band_stateCheckReply letsBand_card hr).of hu
  have hb (hon : cpIsOnline (s.pd i) = true) :
      b = onlineResponseOk (s.pd i) := stateCheckReply_online hon hu
  obtain ⟨_, v, hv, h⟩ := bind_ok.mp h
  obtain ⟨w, hw, rfl⟩ := settleCommand_ok hr hv
  have hsw : R s w := trans_of R hsu hw
  split at h
  · next hok =>
    obtain ⟨e, x, hx, h⟩ := bind_ok.mp h
    obtain ⟨rfl, rfl⟩ := pure_ok.mp hx
    obtain ⟨_, y, hy, h⟩ := bind_ok.mp h
    obtain ⟨rfl, rfl⟩ := pure_ok.mp h
    refine ⟨⟨w, hsw, (steady_osdpPhyStateReset false).of hy⟩, fun hon => ?_⟩
    exact .inl ⟨(hb hon).symm.trans hok, rfl⟩
  · next hok =>
    obtain ⟨e, x, hx, h⟩ := bind_ok.mp h
    have hfail : R (w.setActive i none) x :=
      (steady_cpSettleFailure hr).of hx
    obtain ⟨_, y, hy, h⟩ := bind_ok.mp h
    obtain ⟨rfl, rfl⟩ := pure_ok.mp h
    refine ⟨⟨w, hsw, trans_of R hfail
      ((steady_osdpPhyStateReset false).of hy)⟩, fun hon => .inr ⟨?_, ?_⟩⟩
    · rw [← hb hon]
      simpa using hok
    · obtain ⟨p, z, hp, hx⟩ := bind_ok.mp hx
      obtain ⟨rfl, rfl⟩ := getPd_ok.mp hp
      split at hx
      · next hsoft =>
        obtain ⟨_, z, hz, hx⟩ := bind_ok.mp hx
        exact .inr ⟨(pure_ok.mp hx).1.symm, w, _, hsw, rfl, hsoft⟩
      · exact .inl (pure_ok.mp hx).1.symm

-- ============================================================ next state

omit hC hr in
/-- The session's own step, by the error. -/
def trsStep (err : Int) (replyId : Nat) (t : OsdpTrs) : OsdpTrs × CpState :=
  if err = cpErrNone then osdpTrsStateUpdate replyId t
  else osdpTrsStateUpdateErr replyId t

/-- The session of PD `i`, moved on. -/
def Osdp.stepTrs (s : Osdp) (i : Nat) (err : Int) : Osdp :=
  s.updPd i fun p => { p with trs := (trsStep err p.replyId p.trs).1 }

theorem trsNext_card {err : Int} {next : CpState} {s t : Osdp}
    (h : cpTrsNext env run i err s = .ok next t) :
    next = (trsStep err (s.pd i).replyId (s.pd i).trs).2 ∧
      R (s.stepTrs i err) t := by
  obtain ⟨p, u, hp, h⟩ := bind_ok.mp h
  obtain ⟨rfl, rfl⟩ := getPd_ok.mp hp
  have hrest {x : OsdpTrs × CpState}
      (hx : x = trsStep err (s.pd i).replyId (s.pd i).trs)
      (e : (do
        updTrs i fun _ => { x.1 with scan := { x.1.scan with declined := false } }
        if x.1.scan.declined then
          cpNotifyTrsStatus env run i .scanNoDeparture
        return x.2 : OsdpM CpState) s = .ok next t) :
      next = (trsStep err (s.pd i).replyId (s.pd i).trs).2 ∧
        R (s.stepTrs i err) t := by
    obtain ⟨_, v, hv, e⟩ := bind_ok.mp e
    have hstep : R (s.stepTrs i err) v := by
      rw [← updPd_ok.mp hv, hx]
      exact card_updPd_eq rfl
    split at e
    · obtain ⟨_, w, hw, e⟩ := bind_ok.mp e
      obtain ⟨rfl, rfl⟩ := pure_ok.mp e
      exact ⟨congrArg (·.2) hx,
        trans_of R hstep ((steady_scanNotice hr rfl).of hw)⟩
    · obtain ⟨rfl, rfl⟩ := pure_ok.mp e
      exact ⟨congrArg (·.2) hx, hstep⟩
  by_cases h0 : err = cpErrNone
  · rw [if_pos h0] at h
    have hx : osdpTrsStateUpdate (s.pd i).replyId (s.pd i).trs
        = trsStep err (s.pd i).replyId (s.pd i).trs := by
      rw [trsStep, if_pos h0]
    exact hrest hx h
  · rw [if_neg h0] at h
    have hx : osdpTrsStateUpdateErr (s.pd i).replyId (s.pd i).trs
        = trsStep err (s.pd i).replyId (s.pd i).trs := by
      rw [trsStep, if_neg h0]
    exact hrest hx h

/-- What the protocol's own lights say. -/
inductive CardNext (env : Env) (i : Nat) (R : Osdp → Osdp → Prop) (err : Int)
    (s t : Osdp) (next : CpState) (probe : Bool) : Prop where
  | reset (next : next = .offline) (probe : probe = false) (steady : R s t)
  | card (inTrs : (s.pd i).state.inTrs = true) (probe : probe = false)
      (next : next = (trsStep err (s.pd i).replyId (s.pd i).trs).2)
      (step : R (s.stepTrs i err) t)
  | link (outside : (s.pd i).state.inTrs = false) (next : next ≠ .trsRun)
      (steady : R s t)

omit hC hr in
theorem checkRequest_exact {r : CpReq} {b : Bool} {s t : Osdp}
    (h : checkRequest i r s = .ok b t) :
    b = (s.pd i).request.has r ∧ (b = false → t = s) := by
  obtain ⟨p, u, hp, h⟩ := bind_ok.mp h
  obtain ⟨rfl, rfl⟩ := getPd_ok.mp hp
  split at h
  · next hhas =>
    obtain ⟨_, v, hv, h⟩ := bind_ok.mp h
    obtain ⟨rfl, rfl⟩ := pure_ok.mp h
    exact ⟨hhas.symm, nofun⟩
  · next hhas =>
    obtain ⟨rfl, rfl⟩ := pure_ok.mp h
    exact ⟨by simpa using hhas, fun _ => rfl⟩

omit hC hr in
/-- Outside a session the tables never lead into one. -/
theorem getNextState_ne {err : Int} {next : CpState} {s t : Osdp}
    (h : getNextState i err s = .ok next t) :
    next.inTrs = false := by
  obtain ⟨p, u, hp, h⟩ := bind_ok.mp h
  obtain ⟨rfl, rfl⟩ := getPd_ok.mp hp
  obtain ⟨now, u, hn, h⟩ := bind_ok.mp h
  cases hn
  have hrow : ∀ row, (if err = cpErrNone then getNextOkState s.now (s.pd i)
      else getNextErrState (s.pd i)) = some row → row.inTrs = false := by
    intro row hrow
    split at hrow
    · unfold getNextOkState at hrow
      split at hrow <;>
        first
        | (injection hrow with e; subst e; (try split) <;> rfl)
        | (split at hrow <;> (try split at hrow) <;>
            (injection hrow with e; subst e; rfl))
        | cases hrow
    · unfold getNextErrState at hrow
      split at hrow <;>
        first
        | (injection hrow with e; subst e; (try split) <;> rfl)
        | (split at hrow <;> (try split at hrow) <;>
            (injection hrow with e; subst e; rfl))
        | cases hrow
  revert h
  generalize (if err = cpErrNone then getNextOkState s.now (s.pd i)
    else getNextErrState (s.pd i)) = row at hrow ⊢
  intro h
  cases row with
  | none => exact absurd h throw_ok
  | some row =>
    obtain ⟨rfl, -⟩ := pure_ok.mp h
    exact hrow _ rfl

omit hC hr in
/-- The requests lead to TRS_SETUP at most. -/
theorem returns_cpOnlineRequests {next : CpState} (h : next ≠ .trsRun) :
    Returns (fun r => r.1 ≠ .trsRun) (cpOnlineRequests env i next) := by
  have h₁ : (CpState.scChlng, false).1 ≠ CpState.trsRun := by decide
  unfold cpOnlineRequests
  grind

theorem protocolNext_card {err : Int} {next : CpState} {probe : Bool}
    {s t : Osdp}
    (h : cpProtocolNext env run i (s.pd i).state err s = .ok (next, probe) t) :
    CardNext env i R err s t next probe := by
  obtain ⟨b, u, hu, h⟩ := bind_ok.mp h
  obtain ⟨-, hexact⟩ := checkRequest_exact hu
  split at h
  · obtain ⟨e, rfl⟩ := pure_ok.mp h
    injection e with e₁ e₂
    exact .reset e₁.symm e₂.symm ((band_checkRequest letsBand_card _).of hu)
  · next hb =>
    have he := hexact (by simpa using hb)
    rw [he] at h
    split at h
    · next hin =>
      obtain ⟨n, v, hv, h⟩ := bind_ok.mp h
      obtain ⟨e, rfl⟩ := pure_ok.mp h
      injection e with e₁ e₂
      obtain ⟨hn, hstep⟩ := trsNext_card hr hv
      refine .card ?_ e₂.symm (e₁ ▸ hn) hstep
      rcases hin with e | e <;> rw [e] <;> rfl
    · next hout =>
      have hout : (s.pd i).state.inTrs = false := by
        simp only [not_or] at hout
        cases hst : (s.pd i).state <;> first | rfl | simp [hst] at hout
      obtain ⟨n, v, hv, h⟩ := bind_ok.mp h
      have hne := getNextState_ne hv
      have hsv : R s v := (steady_getNextState err).of hv
      obtain ⟨_, w, hw, h⟩ := bind_ok.mp h
      have hvw : R v w :=
        (band_cpTransitionEffects letsBand_card hr _ _ _).of hw
      obtain ⟨p, x, hp, h⟩ := bind_ok.mp h
      obtain ⟨rfl, rfl⟩ := getPd_ok.mp hp
      have hn : n ≠ .trsRun := by
        rintro rfl
        cases hne
      have hsw := trans_of R hsv hvw
      split at h
      · exact .link hout (returns_cpOnlineRequests hn _ _ _ h)
          (trans_of R hsw ((band_cpOnlineRequests letsBand_card n).of h))
      · obtain ⟨e, rfl⟩ := pure_ok.mp h
        injection e with e₁ e₂
        exact .link hout (e₁ ▸ hn) hsw

-- ================================================================= entry

/-- The session as entry into TRS_SETUP begins it. -/
def Osdp.beginTrs (s : Osdp) (i : Nat) : Osdp :=
  s.updPd i fun p =>
    { p with
      trs :=
        { p.trs with
          state := .setMode, mode := trsMode00, failed := false
          stopPending := true }
      flags := { p.flags with trsActive := true } }

/-- The flag of a session in progress, cleared. -/
def Osdp.endTrs (s : Osdp) (i : Nat) : Osdp :=
  s.updPd i fun p => { p with flags := { p.flags with trsActive := false } }

/-- The end of a session: a probe is closed, the application is told of any
other. -/
theorem leaveTrs_card {s t : Osdp} {a : Unit}
    (h : cpLeaveTrs env run i s = .ok a t) :
    if (s.pd i).trs.probe = true then R (s.setProbe i false) t
    else ∃ u, R s u ∧
      R (u.noted env i (if (u.pd i).trs.failed then .failed else .closed))
        t := by
  obtain ⟨p, u, hp, h⟩ := bind_ok.mp h
  obtain ⟨rfl, rfl⟩ := getPd_ok.mp hp
  by_cases hpr : (s.pd i).trs.probe = true
  · rw [if_pos hpr] at h ⊢
    obtain ⟨now, u, hn, h⟩ := bind_ok.mp h
    cases hn
    have hclose : ∀ now (x : OsdpTrs),
        (osdpTrsProbeClose now x).1.state = x.state ∧
        (osdpTrsProbeClose now x).1.mode = x.mode ∧
        (osdpTrsProbeClose now x).1.replyError = x.replyError ∧
        (osdpTrsProbeClose now x).1.failed = x.failed ∧
        (osdpTrsProbeClose now x).1.probe = false ∧
        (osdpTrsProbeClose now x).1.clock
          = { x.clock with holding := false } := by
      intro now x
      unfold osdpTrsProbeClose
      dsimp only
      split <;> exact ⟨rfl, rfl, rfl, rfl, rfl, rfl⟩
    obtain ⟨h₁, h₂, h₃, h₄, h₅, h₆⟩ := hclose s.now (s.pd i).trs
    cases hx : osdpTrsProbeClose s.now (s.pd i).trs with
    | mk x refused =>
    rw [hx] at h h₁ h₂ h₃ h₄ h₅ h₆
    obtain ⟨_, u, hu, h⟩ := bind_ok.mp h
    have hsu : R (s.setProbe i false) u := by
      rw [← updPd_ok.mp hu]
      refine card_updPd_eq ?_
      simp only at h₁ h₂ h₃ h₄ h₅ h₆
      simp only [OsdpPd.card, h₁, h₂, h₃, h₄, h₅, h₆]
      rfl
    split at h
    · exact trans_of R hsu ((steady_scanNotice hr rfl).of h)
    · obtain ⟨-, rfl⟩ := pure_ok.mp h
      exact hsu
  · rw [if_neg hpr] at h ⊢
    have hlast {v w : Osdp} (hv : R s v)
        (e : (do
          let p ← getPd i
          cpNotifyTrsStatus env run i
            (if p.trs.failed then .failed else .closed) : OsdpM Unit) v
          = .ok () w) :
        ∃ u, R s u ∧
          R (u.noted env i (if (u.pd i).trs.failed then .failed else .closed))
            w := by
      obtain ⟨p, x, hp, e⟩ := bind_ok.mp e
      obtain ⟨rfl, rfl⟩ := getPd_ok.mp hp
      exact ⟨v, hv, noted_ok hr e⟩
    split at h
    · obtain ⟨_, u, hu, h⟩ := bind_ok.mp h
      exact hlast ((band_cpFlushTrsBand letsBand_card hr).of hu) h
    · exact hlast (refl_of R s) h

/-- Entry into TRS_RUN. -/
theorem enterTrsRun_card {s t : Osdp} {a : Unit}
    (h : cpEnterTrsRun env run i s = .ok a t) :
    if (s.pd i).trs.probe = true then t = s.startDwell i
    else R (s.noted env i .opened) t := by
  obtain ⟨p, u, hp, h⟩ := bind_ok.mp h
  obtain ⟨rfl, rfl⟩ := getPd_ok.mp hp
  split at h
  · next hpr =>
    rw [if_pos hpr]
    obtain ⟨now, u, hn, h⟩ := bind_ok.mp h
    cases hn
    exact (updPd_ok.mp h).symm
  · next hpr =>
    rw [if_neg hpr]
    exact noted_ok hr h

/-- What entering a state does to the session. -/
inductive CardEnter (env : Env) (i : Nat) (R : Osdp → Osdp → Prop)
    (cur next : CpState) (s t : Osdp) : Prop where
  | init (next : next = .init) (u : Osdp) (steady : R s u)
      (step : R (u.setProbe i false) t)
  | offTrs (next : next = .online) (cur : cur.inTrs = true) (u : Osdp)
      (eq : u = s.endTrs i)
      (leave : if (u.pd i).trs.probe = true then R (u.setProbe i false) t
        else ∃ v, R u v ∧ R (v.noted env i
          (if (v.pd i).trs.failed then .failed else .closed)) t)
  | online (next : next = .online) (cur : cur.inTrs = false)
      (eq : t = s.endTrs i)
  | setup (next : next = .trsSetup) (eq : t = s.beginTrs i)
  | run (next : next = .trsRun) (cur : cur = .trsSetup)
      (step : if (s.pd i).trs.probe = true then t = s.startDwell i
        else R (s.noted env i .opened) t)
  | quiet (target : next ≠ .init ∧ next ≠ .online ∧ next ≠ .trsSetup)
      (again : next = .trsRun → cur ≠ .trsSetup) (steady : R s t)

theorem enter_card {cur next : CpState} {s t : Osdp} {a : Unit}
    (h : cpEnter env run i cur next s = .ok a t) :
    CardEnter env i R cur next s t := by
  cases hn : next with
  | init =>
    rw [hn] at h
    obtain ⟨_, u, hu, h⟩ := bind_ok.mp h
    obtain ⟨now, v, hv, h⟩ := bind_ok.mp h
    cases hv
    have hsu : R s u := (steady_osdpPhyStateReset true).of hu
    refine .init rfl u hsu ?_
    rw [← updPd_ok.mp h]
    exact card_updPd_eq rfl
  | online =>
    rw [hn] at h
    obtain ⟨_, u, hu, h⟩ := bind_ok.mp h
    have hu : s.endTrs i = u := updPd_ok.mp hu
    split at h
    · next hin =>
      refine .offTrs rfl ?_ u hu.symm (leaveTrs_card hr h)
      rcases hin with e | e <;> rw [e] <;> rfl
    · next hout =>
      obtain ⟨-, rfl⟩ := pure_ok.mp h
      refine .online rfl ?_ hu.symm
      simp only [not_or] at hout
      cases cur <;> first | rfl | simp at hout
  | offline =>
    rw [hn] at h
    exact .quiet (by decide) nofun
      ((band_cpEnterOffline letsBand_card hr).of h)
  | scChlng =>
    rw [hn] at h
    exact .quiet (by decide) nofun (steady_cpEnterScChlng.of h)
  | disabled =>
    rw [hn] at h
    exact .quiet (by decide) nofun
      ((band_cpEnterDisabled letsBand_card hr).of h)
  | trsSetup =>
    rw [hn] at h
    exact .setup rfl (updPd_ok.mp h).symm
  | trsRun =>
    rw [hn] at h
    change (if cur = .trsSetup then cpEnterTrsRun env run i else pure ()) s
      = .ok a t at h
    split at h
    · next hc => exact .run rfl hc (enterTrsRun_card hr h)
    · next hc =>
      obtain ⟨-, rfl⟩ := pure_ok.mp h
      exact .quiet (by decide) (fun _ => hc) (refl_of R _)
  | capdet | scScrypt | setScbk =>
    rw [hn] at h
    obtain ⟨-, rfl⟩ := pure_ok.mp h
    exact .quiet (by decide) nofun (refl_of R _)

/-- A change of state: its entry actions, then the state itself. -/
theorem stateChange_card {cur next : CpState} {s t : Osdp} {a : Unit}
    (h : cpStateChange env run i cur next s = .ok a t) :
    ∃ u, CardEnter env i R cur next s u ∧ R (u.setState i next) t := by
  obtain ⟨_, u, hu, h⟩ := bind_ok.mp h
  obtain ⟨_, v, hv, h⟩ := bind_ok.mp h
  have hv : u.setState i next = v := updPd_ok.mp hv
  refine ⟨u, enter_card hr hu, ?_⟩
  rw [hv]
  split at h
  · exact (steady_cpNotifyPdStatus hr _).of h
  · obtain ⟨-, rfl⟩ := pure_ok.mp h
    exact refl_of R _

omit hC hr in
/-- The application's verdict on the next state. -/
theorem returns_cpLifecycle (next : CpState) :
    Returns (fun r => r = next ∨ r = .disabled ∨ r = .init)
      (cpLifecycle i next) := by
  unfold cpLifecycle
  grind

/-- From the choice of the next state to the end of the pass. -/
structure CardAdvance (env : Env) (i : Nat) (R : Osdp → Osdp → Prop)
    (err : Int) (s t : Osdp) where
  /-- the next state, and the states of the context on the way -/
  row : CpState
  next : CpState
  probe : Bool
  chosen : Osdp
  judged : Osdp
  changed : Osdp
  choice : CardNext env i R err s chosen row probe
  lives : R chosen judged
  verdict : next = row ∨ next = .disabled ∨ next = .init
  change : (s.pd i).state = next ∧ changed = judged ∨
    (s.pd i).state ≠ next ∧ ∃ x,
      CardEnter env i R (s.pd i).state next judged x ∧
        R (x.setState i next) changed
  opens : R changed t ∨
    probe = true ∧ next = .trsSetup ∧ R (changed.setProbe i true) t

theorem advance_card {err : Int} {s t : Osdp} {a : Unit}
    (h : cpAdvance env run i (s.pd i).state err s = .ok a t) :
    Nonempty (CardAdvance env i R err s t) := by
  obtain ⟨⟨row, probe⟩, u, hu, h⟩ := bind_ok.mp h
  obtain ⟨next, v, hv, h⟩ := bind_ok.mp h
  have hverdict := returns_cpLifecycle row _ _ _ hv
  have huv : R u v := (band_cpLifecycle letsBand_card row).of hv
  have hopen {w : Osdp}
      (e : (if probe && next == .trsSetup then updTrs i osdpTrsProbeNoteOpen
        else pure () : OsdpM Unit) w = .ok a t) :
      R w t ∨ probe = true ∧ next = .trsSetup ∧ R (w.setProbe i true) t := by
    split at e
    · next hp =>
      simp only [Bool.and_eq_true, beq_iff_eq] at hp
      refine .inr ⟨hp.1, hp.2, ?_⟩
      rw [← updPd_ok.mp e]
      exact card_updPd_eq rfl
    · obtain ⟨-, rfl⟩ := pure_ok.mp e
      exact .inl (refl_of R _)
  have hchoice := protocolNext_card hr hu
  by_cases hc : (s.pd i).state = next
  · rw [if_neg (by simp [hc])] at h
    exact ⟨row, next, probe, u, v, v, hchoice, huv, hverdict,
      .inl ⟨hc, rfl⟩, hopen h⟩
  · rw [if_pos hc] at h
    obtain ⟨_, w, hw, h⟩ := bind_ok.mp h
    exact ⟨row, next, probe, u, v, w, hchoice, huv, hverdict,
      .inr ⟨hc, stateChange_card hr hw⟩, hopen h⟩

end Card

end LibOsdp
