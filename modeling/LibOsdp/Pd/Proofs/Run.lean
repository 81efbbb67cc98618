/-
From one refresh to a whole run.

A property of a PD that its application cannot disturb and a refresh keeps
is a property of every run, up to teardown; what it says of the history
stays true after that.  `Carries` collects what has to be shown,
`Carries.run` is the induction over the run.
-/
import LibOsdp.Pd.Proofs.Quiet

namespace LibOsdp

open Lib

variable {env : Env} {depth : Nat} {ok : Osdp → PdInput → Bool}

/-- The refresh an input asks for starts here. -/
abbrev Osdp.begin (s : Osdp) (now : Int) (rx : Bytes) : Osdp :=
  (s.arrive now rx).enter

/-- `I` is kept by everything that can happen to a PD before teardown, and
`P` is what it says of the history. -/
structure Carries (env : Env) (depth : Nat) (ok : Osdp → PdInput → Bool)
    (I : Osdp → Prop) (P : List Obs → Prop) : Prop where
  congr : ∀ s t, t.pd = s.pd → t.log = s.log → t.txBuf = s.txBuf →
    I s → I t
  quiet : ∀ s t, Quiet s t → I s → I t
  configures : ∀ s t, Configures s t → I s → I t
  refresh : ∀ s t now rx, s.tearingDown = false → s.running = false →
    ok s (.refresh now rx) = true →
    osdpPdUpdate env (pdRunCalls env depth) 0 (s.begin now rx) = .ok () t →
    I (s.begin now rx) → I t
  history : ∀ s, I s → P s.log
  calls : ∀ l log, (∀ o ∈ l, Obs.isApp o) → P log → P (l ++ log)

/-- The property of a run that has come this far. -/
structure Carried (I : Osdp → Prop) (P : List Obs → Prop) (s : Osdp) :
    Prop where
  history : P s.log
  live : s.tearingDown = false → I s

variable {I : Osdp → Prop} {P : List Obs → Prop}

/-- Callbacks do not tear a PD down. -/
theorem Quiet.tearingDown {s t : Osdp} (h : Quiet s t) :
    t.tearingDown = s.tearingDown := by
  have e := congrArg Osdp.tearingDown h.rest
  exact e

theorem Carries.carried_quiet (h : Carries env depth ok I P) {s t : Osdp}
    (hq : Quiet s t) (hs : Carried I P s) : Carried I P t := by
  obtain ⟨l, hl, hE⟩ := hq.log
  refine ⟨?_, fun e => h.quiet s t hq (hs.live (hq.tearingDown ▸ e))⟩
  rw [hl]
  exact h.calls l s.log hE hs.history

theorem Carries.carried_refresh (h : Carries env depth ok I P) {s t : Osdp}
    {now : Int} {rx : Bytes} (hok : ok s (.refresh now rx) = true)
    (hstep : pdStep env depth (.refresh now rx) s = .ok () t)
    (hs : Carried I P s) : Carried I P t := by
  obtain ⟨_, u, hu, hstep⟩ := bind_ok.mp hstep
  obtain rfl := modify_ok.mp hu
  unfold osdpPdRefresh at hstep
  obtain ⟨v, w, hg, hstep⟩ := bind_ok.mp hstep
  obtain ⟨rfl, rfl⟩ := get_ok.mp hg
  split at hstep
  · obtain ⟨-, rfl⟩ := pure_ok.mp hstep
    exact ⟨hs.history, fun e => h.congr s _ rfl rfl rfl (hs.live e)⟩
  · next hgo =>
    have hgo : ¬ (s.tearingDown = true ∨ s.running = true) := hgo
    simp only [not_or, Bool.not_eq_true] at hgo
    obtain ⟨htd, hrun⟩ := hgo
    obtain ⟨_, v, hv, hstep⟩ := bind_ok.mp hstep
    obtain rfl := modify_ok.mp hv
    obtain ⟨_, w, hw, hstep⟩ := bind_ok.mp hstep
    obtain rfl := modify_ok.mp hstep
    have hw := h.refresh s w now rx htd hrun hok hw
      (h.congr s _ rfl rfl rfl (hs.live htd))
    exact ⟨h.history w hw, fun _ => h.congr w _ rfl rfl rfl hw⟩

theorem Carries.carried_teardown (h : Carries env depth ok I P)
    {s t : Osdp} (hstep : pdStep env depth .teardown s = .ok () t)
    (hs : Carried I P s) : Carried I P t := by
  have hr := quiet_pdRunCalls env depth
  unfold pdStep osdpPdTeardown at hstep
  obtain ⟨u, v, hg, hstep⟩ := bind_ok.mp hstep
  obtain ⟨rfl, rfl⟩ := get_ok.mp hg
  split at hstep
  · obtain ⟨-, rfl⟩ := pure_ok.mp hstep
    exact hs
  · obtain ⟨_, u, hu, hstep⟩ := bind_ok.mp hstep
    obtain rfl := modify_ok.mp hu
    obtain ⟨_, v, hv, hstep⟩ := bind_ok.mp hstep
    obtain ⟨p, w, hg, hstep⟩ := bind_ok.mp hstep
    obtain ⟨rfl, rfl⟩ := getPd_ok.mp hg
    obtain ⟨_, w, hw, hstep⟩ := bind_ok.mp hstep
    have hq := trans_of Quiet ((keeps_pdDrainQueue hr 0 .aborted).of hv)
      ((keeps_pdCompleteEvent hr _ .aborted).of hw)
    obtain rfl := updPd_ok.mp hstep
    obtain ⟨l, hl, hE⟩ := hq.log
    refine ⟨?_, fun e => ?_⟩
    · rw [updPd_log, hl]
      exact h.calls l s.log hE hs.history
    · -- nothing is live after a teardown
      have htd : w.tearingDown = true := hq.tearingDown
      have e : w.tearingDown = false := e
      rw [htd] at e
      cases e

/-- Every input keeps what is carried. -/
theorem Carries.step (h : Carries env depth ok I P) {s t : Osdp}
    {x : PdInput} (hok : ok s x = true)
    (hstep : pdStep env depth x s = .ok () t)
    (hs : Carried I P s) : Carried I P t := by
  have hr := quiet_pdRunCalls env depth
  cases x with
  | refresh now rx => exact h.carried_refresh hok hstep hs
  | submitEvent ev =>
    obtain ⟨r, u, hu, hstep⟩ := bind_ok.mp hstep
    obtain ⟨-, rfl⟩ := pure_ok.mp hstep
    exact h.carried_quiet ((keeps_osdpPdSubmitEvent 0 ev).of hu) hs
  | flushEvents =>
    exact h.carried_quiet ((keeps_osdpPdFlushEvents hr 0).of hstep) hs
  | setCapabilities cap =>
    obtain ⟨r, u, hu, hstep⟩ := bind_ok.mp hstep
    obtain ⟨-, hut⟩ := pure_ok.mp hstep
    subst hut
    have hc := (configures_osdpPdSetCapabilities 0 cap).of hu
    have htd := congrArg Osdp.tearingDown hc.rest
    have htd : u.tearingDown = s.tearingDown := htd
    obtain ⟨l, hl, hE⟩ := hc.log
    refine ⟨?_, fun e => h.configures s _ hc (hs.live (htd ▸ e))⟩
    rw [hl]
    exact h.calls l s.log (fun o ho => absurd (hE o ho) (by simp [Obs.isNone]))
      hs.history
  | teardown => exact h.carried_teardown hstep hs

/-- Every run keeps what is carried: by induction on the run. -/
theorem Carries.run (h : Carries env depth ok I P) {s t : Osdp}
    {l : List PdInput} (hrun : PdRun env depth ok s l t) :
    Carried I P s → Carried I P t := by
  induction hrun with
  | nil => exact id
  | snoc _ hok hstep ih => exact fun hs => h.step hok hstep (ih hs)

/-- A PD that was set up has no history. -/
theorem osdpPdSetup_log {info : PdInfo} {s : Osdp}
    (h : osdpPdSetup env info = some s) : s.log = [] := by
  unfold osdpPdSetup at h
  split at h
  · cases h
  · split at h
    · cases h
    · cases h
      rfl

/-- A PD that was set up, its capabilities apart. -/
theorem osdpPdSetup_pd {info : PdInfo} {s : Osdp}
    (h : osdpPdSetup env info = some s) (j : Nat) :
    (s.pd j).sansCaps = OsdpPd.sansCaps
      { flags := pdSetupFlags env info
        baudRate := info.baudRate
        address := info.address
        seqNumber := -1
        id := info.id
        packetBuf := .tx
        sc := { scbk := info.scbk.getD (zeros 16) }
        file := if info.fileOps then some {} else none } := by
  have hd (p : OsdpPd) : (dropScCap p).sansCaps = p.sansCaps := by
    unfold dropScCap
    split <;> rfl
  unfold osdpPdSetup at h
  split at h
  · cases h
  · split at h
    · cases h
    · cases h
      show (pdSetupDevice env info).sansCaps = _
      unfold pdSetupDevice
      rw [hd, sansCaps_setCaps, sansCaps_setCaps]

/-- Runs that start where the invariant holds. -/
theorem Carries.run_of_live (h : Carries env depth ok I P) {s t : Osdp}
    {l : List PdInput} (hI : I s) (hrun : PdRun env depth ok s l t) : Carried I P t :=
  h.run hrun ⟨h.history s hI, fun _ => hI⟩

end LibOsdp
