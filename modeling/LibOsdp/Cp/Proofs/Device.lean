/-
Invariants of a single PD of a CP.

Most of what is proved about a CP is about one PD and the entries the
history has about it.  `DeviceInvariant` collects what such a property has
to survive: calls of the application and passes on other PDs, which are
alike to it, a pass on the PD itself, and the PD's own setup.  A property
that teardown spoils, since it wipes the channel, is accompanied by a
weaker one that it keeps.
-/
import LibOsdp.Cp.Proofs.Run

namespace LibOsdp

open Lib

/-- Nothing has happened yet that marks a point of the protocol. -/
def Unmarked (log : List Obs) : Prop := ∀ o ∈ log, Obs.markOf o = none

/-- What `osdp_cp_teardown` leaves of a PD. -/
def OsdpPd.dismantled (p : OsdpPd) : OsdpPd :=
  { p with activeCmd := none, sc := {} }

/-- What `J` has to survive to hold of PD `i` while the context is alive,
and `K` to hold of it throughout, as long as the passes on the PD start
where `G` holds. -/
structure DeviceInvariant (env : Env) (depth i : Nat)
    (J K : OsdpPd → List Obs → Prop) (G : Osdp → Prop := fun _ => True) :
    Prop where
  blank : ∀ log, Unmarked log → J {} log
  setup : ∀ info log, Unmarked log → J (cpSetupDevice env info) log
  aside : ∀ p q l log, J p log → CallStep p q →
    (∀ o ∈ l, Obs.markOf o ≠ some i) → J q (l ++ log)
  pass : ∀ s t, J (s.pd i) s.log → G s →
    stateUpdate env (cpRunCalls env depth) i s = .ok () t →
    J (t.pd i) t.log
  weaken : ∀ p log, J p log → K p log
  weakAside : ∀ p q l log, K p log → CallStep p q →
    (∀ o ∈ l, Obs.markOf o ≠ some i) → K q (l ++ log)
  weakTeardown : ∀ p log, K p log → K p.dismantled log

section

variable {env : Env} {depth i : Nat} {J K : OsdpPd → List Obs → Prop}
variable {G : Osdp → Prop}

/-- What the invariant says of the whole context. -/
structure DeviceInv (i : Nat) (J K : OsdpPd → List Obs → Prop) (s : Osdp) :
    Prop where
  alive : s.tearingDown = false → J (s.pd i) s.log
  always : K (s.pd i) s.log
  unmarked : s.isSealed = false → Unmarked s.log

theorem Unmarked.append {l log : List Obs} (h : Unmarked log)
    (hl : ∀ o ∈ l, Obs.markOf o = none) : Unmarked (l ++ log) := by
  intro o ho
  rcases List.mem_append.mp ho with h' | h'
  · exact hl o h'
  · exact h o h'

/-- What the dismantling of the PDs does, as far as PD `i` is
concerned. -/
structure Dismantles (i : Nat) (K : OsdpPd → List Obs → Prop) (s t : Osdp) :
    Prop where
  keeps : K (s.pd i) s.log → K (t.pd i) t.log
  ctx : (t.isSealed, t.tearingDown) = (s.isSealed, s.tearingDown)
  log : LogExt Obs.isCall s t

/-- What teardown may do to a property of one PD. -/
structure TeardownKeeps (i : Nat) (K : OsdpPd → List Obs → Prop) : Prop where
  aside : ∀ p q l log, K p log → CallStep p q →
    (∀ o ∈ l, Obs.markOf o ≠ some i) → K q (l ++ log)
  teardown : ∀ p log, K p log → K p.dismantled log

/-- What calls keep is kept while PDs are dismantled. -/
theorem callMoves_dismantles (h : TeardownKeeps i K) :
    CallMoves (Dismantles i K) where
  refl _ := ⟨id, rfl, refl_of _ _⟩
  trans _ _ _ h k :=
    ⟨k.keeps ∘ h.keeps, k.ctx.trans h.ctx, trans_of _ h.log k.log⟩
  call s j f hf := by
    have hstep := callStep_updPd s j i (.of_sansCalls (hf (s.pd j)))
    exact ⟨fun hp => h.aside _ _ [] _ hp hstep nofun, rfl,
      refl_of (LogExt _) s⟩
  enable s j hd := by
    have hstep := callStep_updPd s j i
      (f := fun p => { p with request := p.request.put .enable true })
      ⟨rfl, fun _ => .inr hd⟩
    exact ⟨fun hp => h.aside _ _ [] _ hp hstep nofun, rfl,
      refl_of (LogExt _) s⟩
  disable s j := by
    have hstep := callStep_updPd s j i
      (f := fun p => { p with request := p.request.put .disable true })
      ⟨rfl, .inl⟩
    exact ⟨fun hp => h.aside _ _ [] _ hp hstep nofun, rfl,
      refl_of (LogExt _) s⟩
  note s o ho := by
    refine ⟨fun hp => h.aside _ _ [o] _ hp (.refl _) fun x hx => ?_, rfl,
      LogExt.cons ho⟩
    rw [List.mem_singleton.mp hx, markOf_isCall ho]
    nofun
  running s _ := ⟨id, rfl, refl_of (LogExt Obs.isCall) s⟩

/-- The loop of teardown keeps what calls and the wiping of a channel
keep. -/
theorem dismantles_cpTeardownPds (h : TeardownKeeps i K) (l : List Nat) :
    Keeps (Dismantles i K) (cpTeardownPds env (cpRunCalls env depth) l) := by
  have hcalls := callMoves_dismantles h
  have hr (calls : List ApiCall) :
      Keeps (Dismantles i K) (cpRunCalls env depth calls) :=
    keeps_cpRunCalls depth calls
  have hwipe (j : Nat) : Keeps (Dismantles i K) (updPd j OsdpPd.dismantled) := by
    intro s a t e
    rw [← updPd_ok.mp e]
    refine ⟨fun hp => ?_, rfl, refl_of (LogExt _) s⟩
    by_cases hj : i = j
    · subst hj
      rw [updPd_pd_same]
      exact h.teardown _ _ hp
    · rw [updPd_pd_ne s _ hj]
      exact hp
  induction l with
  | nil => exact .pure _
  | cons j rest ih =>
    unfold cpTeardownPds cpTeardownPd
    exact .bind (.bind (keeps_cpDrainQueue hr j _) fun _ =>
      .bind (keeps_getPd j) fun _ =>
      .bind (keeps_updPd_call fun _ => rfl) fun _ =>
      .bind (keeps_cpCompleteCmd hr j _ _) fun _ =>
      .bind (keeps_getPd j) fun _ =>
      .bind (keeps_cpCompleteCmd hr j _ _) fun _ => hwipe j) fun _ => ih

/-- All of teardown: the properties it keeps, and the context it leaves
dead. -/
theorem teardown_ok (h : TeardownKeeps i K) {s t : Osdp}
    (e : osdpCpTeardown env (cpRunCalls env depth) s = .ok () t) :
    t = s ∨ (K (s.pd i) s.log → K (t.pd i) t.log) ∧
      t.isSealed = s.isSealed ∧ t.tearingDown = true ∧
      LogExt Obs.isCall s t := by
  obtain ⟨s', v, hg, e⟩ := bind_ok.mp e
  obtain ⟨rfl, rfl⟩ := get_ok.mp hg
  split at e
  · obtain ⟨-, rfl⟩ := pure_ok.mp e
    exact .inl rfl
  · obtain ⟨_, u, hu, e⟩ := bind_ok.mp e
    have hdis := (dismantles_cpTeardownPds h _).of e
    rw [← modify_ok.mp hu] at hdis
    exact .inr ⟨hdis.keeps, congrArg (·.1) hdis.ctx, congrArg (·.2) hdis.ctx,
      hdis.log⟩

theorem DeviceInvariant.teardownKeeps
    (h : DeviceInvariant env depth i J K G) : TeardownKeeps i K :=
  ⟨h.weakAside, h.weakTeardown⟩

/-- After teardown the context is dead, and the weaker property holds. -/
theorem DeviceInv.teardown (hd : DeviceInvariant env depth i J K G)
    {s t : Osdp} (h : DeviceInv i J K s)
    (e : osdpCpTeardown env (cpRunCalls env depth) s = .ok () t) :
    DeviceInv i J K t := by
  rcases teardown_ok hd.teardownKeeps e with
    rfl | ⟨hkeep, hseal, htear, l, hl, hE⟩
  · exact h
  · refine ⟨fun ha => ?_, hkeep h.always, fun hs => ?_⟩
    · rw [htear] at ha
      cases ha
    · rw [hl]
      exact (h.unmarked (hseal ▸ hs)).append fun o ho =>
        markOf_isCall (hE o ho)

/-- What a call between refreshes does to a PD. -/
theorem DeviceInv.calls (hd : DeviceInvariant env depth i J K G) {s t : Osdp}
    (h : DeviceInv i J K s) (hc : Calls s t) : DeviceInv i J K t := by
  have hseal : t.isSealed = s.isSealed := by
    have e := congrArg Osdp.isSealed hc.rest
    exact e
  have htear : t.tearingDown = s.tearingDown := by
    have e := congrArg Osdp.tearingDown hc.rest
    exact e
  obtain ⟨l, hl, hE⟩ := hc.log
  have hnone : ∀ o ∈ l, Obs.markOf o = none := fun o ho =>
    markOf_isCall (hE o ho)
  have hother : ∀ o ∈ l, Obs.markOf o ≠ some i := fun o ho => by
    rw [hnone o ho]
    nofun
  refine ⟨fun ha => ?_, ?_, fun hs => ?_⟩
  · rw [hl]
    exact hd.aside _ _ _ _ (h.alive (htear ▸ ha)) (hc.pd i) hother
  · rw [hl]
    exact hd.weakAside _ _ _ _ h.always (hc.pd i) hother
  · rw [hl]
    exact (h.unmarked (hseal ▸ hs)).append hnone

/-- An entry that marks another PD alone. -/
theorem marksOther {j : Nat} {o : Obs} (hj : i ≠ j)
    (h : o.marksOnly j = true) : o.markOf ≠ some i := by
  intro e
  simp only [Obs.marksOnly, e, Bool.or_eq_true, beq_iff_eq,
    Option.some.injEq, reduceCtorEq, false_or] at h
  exact hj h

/-- What a pass on another PD does to a PD. -/
theorem DeviceInv.other (hd : DeviceInvariant env depth i J K G) {s t : Osdp}
    {j : Nat} (h : DeviceInv i J K s) (hlive : s.live) (hne : i ≠ j)
    (e : stateUpdate env (cpRunCalls env depth) j s = .ok () t) :
    DeviceInv i J K t := by
  have hseal := (isSealed_stateUpdate e).trans hlive.1
  have ho := (others_stateUpdate j).of e
  obtain ⟨l, hl, hE⟩ := ho.log
  have hJ : J (t.pd i) t.log := by
    rw [hl]
    exact hd.aside _ _ _ _ (h.alive hlive.2) (ho.pd i hne)
      fun o hm => marksOther hne (hE o hm)
  refine ⟨fun _ => hJ, hd.weaken _ _ hJ, fun hs => ?_⟩
  rw [hseal] at hs
  cases hs

/-- What a pass does to a PD: its own, or another's. -/
theorem DeviceInv.pass (hd : DeviceInvariant env depth i J K G) {s t : Osdp}
    (h : DeviceInv i J K s) (hlive : s.live) (hg : s.currentPd = i → G s)
    (e : stateUpdate env (cpRunCalls env depth) s.currentPd s = .ok () t) :
    DeviceInv i J K t := by
  by_cases hi : s.currentPd = i
  · have hgo := hg hi
    have hseal := (isSealed_stateUpdate e).trans hlive.1
    rw [hi] at e
    have hJ := hd.pass s t (h.alive hlive.2) hgo e
    refine ⟨fun _ => hJ, hd.weaken _ _ hJ, fun hs => ?_⟩
    rw [hseal] at hs
    cases hs
  · exact h.other hd hlive (Ne.symm hi) e

/-- A PD `cp_add_pd` has added, or one that was there before. -/
theorem cpAddPd_pd {s t : Osdp} {infos : List CpPdInfo}
    (h : cpAddPd env s infos = some t) :
    t.log = s.log ∧ t.isSealed = s.isSealed ∧
      t.tearingDown = s.tearingDown ∧
      ∀ j, t.pd j = s.pd j ∨ ∃ info, t.pd j = cpSetupDevice env info := by
  unfold cpAddPd at h
  split at h
  · cases h
  · cases h
    refine ⟨rfl, rfl, rfl, fun j => ?_⟩
    dsimp only
    split
    · next info _ =>
      split
      · exact .inr ⟨info, rfl⟩
      · exact .inl rfl
    · exact .inl rfl

/-- The PDs of a CP fresh from setup. -/
theorem osdpCpSetup_pd {s : Osdp} {infos : List CpPdInfo}
    (h : osdpCpSetup env infos = some s) (j : Nat) :
    s.pd j = {} ∨ ∃ info, s.pd j = cpSetupDevice env info := by
  unfold osdpCpSetup at h
  split at h
  · cases h
    exact .inl rfl
  · exact (cpAddPd_pd h).2.2.2 j

/-- Adding PDs, before anything has happened. -/
theorem DeviceInv.addPd (hd : DeviceInvariant env depth i J K G) {s t : Osdp}
    {infos : List CpPdInfo} (h : DeviceInv i J K s)
    (hopen : s.isSealed = false) (hadd : cpAddPd env s infos = some t) :
    DeviceInv i J K t := by
  obtain ⟨hlog, hseal, htear, hpd⟩ := cpAddPd_pd hadd
  have hquiet := h.unmarked hopen
  rcases hpd i with e | ⟨info, e⟩
  · refine ⟨fun ha => ?_, ?_, fun _ => hlog ▸ hquiet⟩
    · rw [e, hlog]
      exact h.alive (htear ▸ ha)
    · rw [e, hlog]
      exact h.always
  · have hJ : J (t.pd i) t.log := by
      rw [e, hlog]
      exact hd.setup info _ hquiet
    exact ⟨fun _ => hJ, hd.weaken _ _ hJ, fun _ => hlog ▸ hquiet⟩

/-- The property of one PD, over every kind of step. -/
theorem DeviceInvariant.invariant_of
    (hd : DeviceInvariant env depth i J K G) :
    CpInvariant env depth (DeviceInv i J K)
      fun s => s.currentPd = i → G s where
  call c _ _ h e := h.calls hd ((calls_cpApiCall c).of e)
  addPd infos s t a h e := by
    rcases osdpCpAddPd_ok e with rfl | ⟨hopen, hadd⟩
    · exact h
    · exact h.addPd hd hopen hadd
  teardown _ _ h e := h.teardown hd e
  arrive _ _ _ h := ⟨h.alive, h.always, h.unmarked⟩
  begin _ _ _ h := ⟨h.alive, h.always, nofun⟩
  pass _ _ h hseal hlive hg e := h.pass hd ⟨hseal, hlive⟩ hg e
  turn _ _ h _ _ := ⟨h.alive, h.always, h.unmarked⟩
  finish _ h := ⟨h.alive, h.always, h.unmarked⟩
  sealed _ h := ⟨h.alive, h.always, nofun⟩

/-- The same without a condition. -/
theorem DeviceInvariant.invariant (hd : DeviceInvariant env depth i J K) :
    CpInvariant env depth (DeviceInv i J K) :=
  have h := hd.invariant_of
  { h with pass := fun s t hs h₁ h₂ _ e =>
      h.pass s t hs h₁ h₂ (fun _ => trivial) e }

/-- It holds of a CP fresh from setup. -/
theorem DeviceInvariant.start (hd : DeviceInvariant env depth i J K G)
    {infos : List CpPdInfo} {s : Osdp}
    (h : osdpCpSetup env infos = some s) : DeviceInv i J K s := by
  have hempty : DeviceInv i J K
      { numPd := 0, pd := fun _ => {}, rxIsTx := true } :=
    ⟨fun _ => hd.blank _ nofun, hd.weaken _ _ (hd.blank _ nofun),
      fun _ => nofun⟩
  unfold osdpCpSetup at h
  split at h
  · cases h
    exact hempty
  · exact hempty.addPd hd rfl h

-- ================================================== from a point onwards

/-- What a property that came about during a run has to survive, where the
invariant `J` of the whole run is at hand for the passes. -/
structure DeviceStays (env : Env) (depth i : Nat)
    (J N : OsdpPd → List Obs → Prop) (G : Osdp → Prop := fun _ => True) :
    Prop extends TeardownKeeps i N where
  pass : ∀ s t, J (s.pd i) s.log → N (s.pd i) s.log → G s →
    stateUpdate env (cpRunCalls env depth) i s = .ok () t →
    N (t.pd i) t.log

/-- The property, of a context whose PDs are settled. -/
structure DeviceNow (i : Nat) (J K N : OsdpPd → List Obs → Prop)
    (s : Osdp) : Prop where
  inv : DeviceInv i J K s
  now : N (s.pd i) s.log
  settled : s.isSealed = true

theorem DeviceStays.invariant_of {N : OsdpPd → List Obs → Prop}
    (hn : DeviceStays env depth i J N G)
    (hd : DeviceInvariant env depth i J K G) :
    CpInvariant env depth (DeviceNow i J K N)
      fun s => s.currentPd = i → G s where
  call c s t h e := by
    have hc := (calls_cpApiCall c).of e
    obtain ⟨l, hl, hE⟩ := hc.log
    refine ⟨h.inv.calls hd hc, ?_, ?_⟩
    · rw [hl]
      refine hn.aside _ _ _ _ h.now (hc.pd i) fun o ho => ?_
      rw [markOf_isCall (hE o ho)]
      nofun
    · have e := congrArg Osdp.isSealed hc.rest
      have e : t.isSealed = s.isSealed := e
      rw [e, h.settled]
  addPd infos s t a h e := by
    rcases osdpCpAddPd_ok e with rfl | ⟨hopen, -⟩
    · exact h
    · rw [h.settled] at hopen
      cases hopen
  teardown s t h e := by
    refine ⟨h.inv.teardown hd e, ?_, ?_⟩ <;>
      rcases teardown_ok hn.toTeardownKeeps e with
        rfl | ⟨hkeep, hseal, -, -⟩
    · exact h.now
    · exact hkeep h.now
    · exact h.settled
    · exact hseal.trans h.settled
  arrive _ _ _ h := ⟨hd.invariant_of.arrive _ _ _ h.inv, h.now, h.settled⟩
  begin _ _ _ h := ⟨hd.invariant_of.begin _ _ _ h.inv, h.now, rfl⟩
  pass s t h hseal hlive hg e := by
    refine ⟨h.inv.pass hd ⟨hseal, hlive⟩ hg e, ?_,
      (isSealed_stateUpdate e).trans hseal⟩
    by_cases hi : s.currentPd = i
    · have hgo := hg hi
      rw [hi] at e
      exact hn.pass s t (h.inv.alive hlive) h.now hgo e
    · have ho := (others_stateUpdate s.currentPd).of e
      obtain ⟨l, hl, hE⟩ := ho.log
      rw [hl]
      exact hn.aside _ _ _ _ h.now (ho.pd i (Ne.symm hi)) fun o hm =>
        marksOther (Ne.symm hi) (hE o hm)
  turn s j h hf hj :=
    ⟨hd.invariant_of.turn s j h.inv hf hj, h.now, h.settled⟩
  finish s h := ⟨hd.invariant_of.finish s h.inv, h.now, h.settled⟩
  sealed s h := ⟨hd.invariant_of.sealed s h.inv, h.now, rfl⟩

-- ===================================================== before any refresh

/-- A property every PD has after its setup holds until the set of PDs is
sealed. -/
theorem fresh_invariant {N : OsdpPd → List Obs → Prop}
    (h : TeardownKeeps i N) (hsetup : ∀ info log, N (cpSetupDevice env info) log) :
    CpInvariant env depth fun s => s.isSealed = false → N (s.pd i) s.log where
  call c s t hs e hopen := by
    have hc := (calls_cpApiCall c).of e
    obtain ⟨l, hl, hE⟩ := hc.log
    have e := congrArg Osdp.isSealed hc.rest
    have e : t.isSealed = s.isSealed := e
    rw [hl]
    refine h.aside _ _ _ _ (hs (e ▸ hopen)) (hc.pd i) fun o ho => ?_
    rw [markOf_isCall (hE o ho)]
    nofun
  addPd infos s t a hs e hopen := by
    rcases osdpCpAddPd_ok e with rfl | ⟨hopen', hadd⟩
    · exact hs hopen
    · obtain ⟨hlog, -, -, hpd⟩ := cpAddPd_pd hadd
      rcases hpd i with e | ⟨info, e⟩
      · rw [e, hlog]
        exact hs hopen'
      · rw [e]
        exact hsetup info _
  teardown s t hs e hopen := by
    rcases teardown_ok h e with rfl | ⟨hkeep, hseal, -, -⟩
    · exact hs hopen
    · exact hkeep (hs (hseal ▸ hopen))
  arrive _ _ _ hs := hs
  begin _ _ _ _ hopen := by cases hopen
  pass s t _ hseal _ _ e hopen := by
    rw [isSealed_stateUpdate e, hseal] at hopen
    cases hopen
  turn _ _ hs _ _ := hs
  finish _ hs := hs
  sealed _ _ hopen := by cases hopen

end

end LibOsdp
