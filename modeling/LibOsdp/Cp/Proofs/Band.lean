/-
Flushing the band of a card session takes a prefix off the queue, and
nothing else.

# The accounting

Completing a command hands control to the application, which may submit
more, flush, cancel, and be called back again for what that completes.
`Meanwhile i own` accounts for any stretch of this: which commands joined
the queue of PD `i`, how many left it, and that the completions the
application saw are those of `own`, in order, and of the ones that left.
The bookkeeping itself is `Lib.Drains`.

# Commands that ride the queue

A file transfer and the smartcard commands are accepted as well, but an
engine owns them from the start and they never are in the queue
(`ridesQueue`).

# Ending

A flush runs the application's callbacks, so it can only fail to end in
the nesting the application makes itself, by flushing from inside a
completion.  Where no callback does that, every flush ends.
-/
import LibOsdp.Cp.Proofs.Footprint
import LibOsdp.Engine.Proofs.NoBug
import LibOsdp.Lib.Fifo

namespace LibOsdp

open Lib

-- ============================================================ vocabulary

/-- The band a flush completes: up to the first STOP. -/
def trsBand : List SubmittedCmd → List SubmittedCmd
  | [] => []
  | c :: rest => if isTrsStop c then [c] else c :: trsBand rest

/-- What lies behind the first STOP. -/
def behindBand : List SubmittedCmd → List SubmittedCmd
  | [] => []
  | c :: rest => if isTrsStop c then rest else behindBand rest

/-- The two make up the queue. -/
theorem trsBand_append_behindBand (q : List SubmittedCmd) :
    trsBand q ++ behindBand q = q := by
  induction q with
  | nil => rfl
  | cons c rest ih =>
    unfold trsBand behindBand
    split
    · rfl
    · rw [List.cons_append, ih]

/-- The command of PD `i` whose acceptance this entry records. -/
def Obs.acceptedAt (i : Nat) : Obs → Option Nat
  | .accepted j node => if j = i then some node else none
  | _ => none

/-- The command of PD `i` whose completion this entry records. -/
def Obs.doneAt (i : Nat) : Obs → Option (Nat × CompletionStatus)
  | .cmdDone j node status => if j = i then some (node, status) else none
  | _ => none

/-- The commands of PD `i` accepted, oldest first. -/
def acceptances (i : Nat) (l : List Obs) : List Nat :=
  l.reverse.filterMap (Obs.acceptedAt i)

/-- The commands of PD `i` completed, oldest first. -/
def completions (i : Nat) (l : List Obs) : List (Nat × CompletionStatus) :=
  l.reverse.filterMap (Obs.doneAt i)

theorem acceptances_append (i : Nat) (l m : List Obs) :
    acceptances i (m ++ l) = acceptances i l ++ acceptances i m := by
  unfold acceptances
  rw [List.reverse_append, List.filterMap_append]

theorem completions_append (i : Nat) (l m : List Obs) :
    completions i (m ++ l) = completions i l ++ completions i m := by
  unfold completions
  rw [List.reverse_append, List.filterMap_append]

/-- No engine owns commands of this kind. -/
def OsdpCmd.isQueued : OsdpCmd → Bool
  | .fileTx .. | .pivdata _ | .genauth _ | .crauth _ => false
  | _ => true

/-- The command joins the queue; the others go to an engine. -/
def ridesQueue (c : SubmittedCmd) : Bool := c.cmd.isQueued

/-- The completions an application with a callback is told of. -/
def told (env : Env) (cs : List SubmittedCmd) :
    List (Nat × CompletionStatus) :=
  if env.commandCompletion.isSome then
    cs.map fun c => (c.node, .flushed)
  else []

theorem told_append (env : Env) (cs ds : List SubmittedCmd) :
    told env (cs ++ ds) = told env cs ++ told env ds := by
  unfold told
  split
  · exact List.map_append
  · rfl

theorem told_sublist {env : Env} {cs ds : List SubmittedCmd}
    (h : cs.Sublist ds) : (told env cs).Sublist (told env ds) := by
  unfold told
  split
  · exact h.map _
  · exact .refl _

theorem told_perm {env : Env} {cs ds : List SubmittedCmd}
    (h : cs.Perm ds) : (told env cs).Perm (told env ds) := by
  unfold told
  split
  · exact h.map _
  · exact .refl _

/-- A call some completion callback makes. -/
def FromCompletion (env : Env) (c : ApiCall) : Prop :=
  ∃ f log j cmd status, env.commandCompletion = some f ∧
    c ∈ (f log j cmd status).calls

/-- No completion callback flushes PD `i`. -/
def NeverFlushes (env : Env) (i : Nat) : Prop :=
  ∀ c, FromCompletion env c → c ≠ .cpFlushCommands i

-- ========================================================== the relation

/-- The account of a stretch of a run, given the entries it added. -/
structure BandAccount (env : Env) (i : Nat)
    (own subs : List SubmittedCmd) (k : Nat) (q r : List SubmittedCmd)
    (l : List Obs) : Prop where
  accepted : acceptances i l = subs.map (·.node)
  offered : ∀ c ∈ subs, FromCompletion env (.cpSubmitCommand i c)
  drains : ∃ done, Drains q own (subs.filter ridesQueue) k r done ∧
    completions i l = told env done
  quiet : NeverFlushes env i → k = 0

/-- From `s` to `t` the commands `own` of PD `i` were completed, besides
what the application did from its callbacks. -/
def Meanwhile (env : Env) (i : Nat) (own : List SubmittedCmd)
    (s t : Osdp) : Prop :=
  ∃ l subs k, t.log = l ++ s.log ∧
    BandAccount env i own subs k (s.pd i).cmdQueue (t.pd i).cmdQueue l

variable {env : Env} {i : Nat} {own own' : List SubmittedCmd}
variable {s t u : Osdp}

/-- Nothing of PD `i` was accepted, completed or queued. -/
theorem Meanwhile.of_aside {l : List Obs} (hl : t.log = l ++ s.log)
    (hq : (t.pd i).cmdQueue = (s.pd i).cmdQueue)
    (ha : acceptances i l = []) (hd : completions i l = []) :
    Meanwhile env i [] s t := by
  refine ⟨l, [], 0, hl, ha, fun c hc => absurd hc List.not_mem_nil,
    ⟨[], ?_, ?_⟩, fun _ => rfl⟩
  · rw [hq]
    exact .refl _
  · rw [hd]
    unfold told
    split <;> rfl

theorem Meanwhile.refl (s : Osdp) : Meanwhile env i [] s s :=
  .of_aside (l := []) rfl rfl rfl rfl

/-- One stretch after the other. -/
theorem Meanwhile.trans (h : Meanwhile env i own s t)
    (g : Meanwhile env i own' t u) : Meanwhile env i (own ++ own') s u := by
  obtain ⟨l, subs, k, hl, h⟩ := h
  obtain ⟨m, more, n, hm, g⟩ := g
  obtain ⟨done, hd, hc⟩ := h.drains
  obtain ⟨done', hd', hc'⟩ := g.drains
  refine ⟨m ++ l, subs ++ more, k + n, ?_, ?_, ?_,
    ⟨done ++ done', ?_, ?_⟩, ?_⟩
  · rw [hm, hl, List.append_assoc]
  · rw [acceptances_append, h.accepted, g.accepted, List.map_append]
  · intro c hc
    rcases List.mem_append.mp hc with hc | hc
    · exact h.offered c hc
    · exact g.offered c hc
  · rw [List.filter_append]
    exact hd.trans hd'
  · rw [completions_append, hc, hc', told_append]
  · intro hn
    rw [h.quiet hn, g.quiet hn]

instance : IsPreorder Osdp (Meanwhile env i []) where
  refl := .refl
  trans := fun _ _ _ h g => h.trans g

-- ============================================================= the pieces

/-- The entries that are neither an acceptance nor a completion. -/
@[grind] def Obs.isAside : Obs → Bool
  | .accepted .. | .cmdDone .. => false
  | _ => true

/-- What leaves the queues and the account alone. -/
abbrev Aside : Osdp → Osdp → Prop :=
  Frame OsdpPd.cmdQueue noContext Obs.isAside

instance : EngineMoves Aside where
  engines s i f h := Frame.updPd s i fun p => by
    have e := congrArg OsdpPd.cmdQueue (h p)
    exact e
  fileOp _ _ _ := ⟨fun _ => rfl, rfl, LogExt.cons rfl⟩

/-- Entries that are neither say nothing of PD `i`. -/
theorem quiet_of_isAside {l : List Obs} (h : ∀ o ∈ l, o.isAside) :
    acceptances i l = [] ∧ completions i l = [] := by
  constructor
  · refine List.filterMap_eq_nil_iff.mpr fun o ho => ?_
    have ha := h o (List.mem_reverse.mp ho)
    cases o <;> first | rfl | cases ha
  · refine List.filterMap_eq_nil_iff.mpr fun o ho => ?_
    have ha := h o (List.mem_reverse.mp ho)
    cases o <;> first | rfl | cases ha

theorem Meanwhile.of_frame (h : Aside s t) : Meanwhile env i [] s t := by
  obtain ⟨l, hl, hE⟩ := h.log
  obtain ⟨ha, hd⟩ := quiet_of_isAside (i := i) hE
  exact .of_aside hl (h.pd i) ha hd

theorem meanwhile_of_aside {α : Type} {m : OsdpM α} (h : Keeps Aside m) :
    Keeps (Meanwhile env i []) m :=
  h.mono fun _ _ h => .of_frame h

/-- One completion, before the application answers it. -/
theorem Meanwhile.done {f} (hf : env.commandCompletion = some f)
    (c : SubmittedCmd) :
    Meanwhile env i [c] s
      { s with log := .cmdDone i c.node .flushed :: s.log } := by
  refine ⟨[.cmdDone i c.node .flushed], [], 0, rfl, rfl,
    fun c hc => absurd hc List.not_mem_nil, ⟨[c], .give _ c, ?_⟩,
    fun _ => rfl⟩
  unfold told
  rw [hf]
  exact List.filterMap_cons_some (if_pos rfl)

/-- One completion at another PD, before the application answers it. -/
theorem Meanwhile.done_elsewhere {j node : Nat} {st : CompletionStatus}
    (hj : j ≠ i) :
    Meanwhile env i [] s { s with log := .cmdDone j node st :: s.log } :=
  .of_aside (l := [.cmdDone j node st]) rfl rfl rfl
    (List.filterMap_cons_none (if_neg hj))

-- ============================================================ submissions

/-- What a submission to PD `j` did, short of recording that it was
accepted. -/
def Submits (j : Nat) (cmd : SubmittedCmd) (s : Osdp) (b : Bool)
    (t : Osdp) : Prop :=
  LogExt Obs.isAside s t ∧
    ∀ i, (t.pd i).cmdQueue =
      (s.pd i).cmdQueue ++ if i = j ∧ b ∧ ridesQueue cmd then [cmd] else []

/-- A submission that left the queues alone, and was not meant for one. -/
theorem Submits.of_frame {j : Nat} {cmd : SubmittedCmd} {b : Bool}
    (h : Aside s t) (hb : b = false ∨ ridesQueue cmd = false) :
    Submits j cmd s b t := by
  refine ⟨h.log, fun i => ?_⟩
  have hno : ¬ (i = j ∧ b ∧ ridesQueue cmd) := by
    rintro ⟨-, h₁, h₂⟩
    rcases hb with hb | hb
    · rw [hb] at h₁
      cases h₁
    · rw [hb] at h₂
      cases h₂
  rw [if_neg hno, List.append_nil]
  exact h.pd i

theorem cpSubmitQueued_submits {j : Nat} {cmd : SubmittedCmd} {b : Bool}
    (hc : ridesQueue cmd) (h : cpSubmitQueued j cmd s = .ok b t) :
    Submits j cmd s b t := by
  unfold cpSubmitQueued at h
  obtain ⟨p, s', hp, h⟩ := bind_ok.mp h
  obtain ⟨rfl, rfl⟩ := getPd_ok.mp hp
  split at h
  · obtain ⟨rfl, rfl⟩ := pure_ok.mp h
    exact .of_frame (refl_of _ _) (.inl rfl)
  · generalize cpBandAdmit (s.pd j) cmd.cmd = admitted at h
    cases admitted with
    | none =>
      obtain ⟨rfl, rfl⟩ := pure_ok.mp h
      exact .of_frame (refl_of _ _) (.inl rfl)
    | some isOpen =>
      obtain ⟨_, v, hv, h⟩ := bind_ok.mp h
      obtain ⟨_, w, hw, h⟩ := bind_ok.mp h
      obtain ⟨rfl, rfl⟩ := pure_ok.mp h
      have e₁ := updPd_ok.mp hv
      have e₂ := updPd_ok.mp hw
      subst e₁
      subst e₂
      refine ⟨⟨[], rfl, fun _ h => absurd h List.not_mem_nil⟩,
        fun i => ?_⟩
      by_cases hi : i = j
      · subst hi
        rw [if_pos ⟨rfl, rfl, hc⟩, updPd_pd_same, updPd_pd_same]
      · rw [if_neg fun h => hi h.1, updPd_pd_ne _ _ hi,
          updPd_pd_ne _ _ hi, List.append_nil]

/-- An engine takes its command over without a look at the queue. -/
theorem aside_cpSubmitEngine {j : Nat} {cmd : SubmittedCmd} {m : MpMsg}
    {started : Bool} : Keeps Aside (cpSubmitEngine j cmd m started) := by
  have hu : Keeps Aside (cpOwnEngineCmd j cmd m) :=
    keeps_updPd fun _ => rfl
  unfold cpSubmitEngine
  grind

theorem cpSubmitCommand_submits {j : Nat} {cmd : SubmittedCmd} {b : Bool}
    (h : cpSubmitCommand env j cmd s = .ok b t) : Submits j cmd s b t := by
  have hengine {m : OsdpM Bool} {g : MpMsg} (hm : Keeps Aside m)
      (hc : ridesQueue cmd = false)
      (h : (m >>= fun ok => cpSubmitEngine j cmd g ok) s = .ok b t) :
      Submits j cmd s b t :=
    .of_frame ((Keeps.bind hm fun _ => aside_cpSubmitEngine).of h) (.inr hc)
  unfold cpSubmitCommand at h
  obtain ⟨_, s', hg, h⟩ := bind_ok.mp h
  obtain ⟨rfl, rfl⟩ := get_ok.mp hg
  obtain ⟨p, s', hp, h⟩ := bind_ok.mp h
  obtain ⟨rfl, rfl⟩ := getPd_ok.mp hp
  split at h
  · obtain ⟨rfl, rfl⟩ := pure_ok.mp h
    exact .of_frame (refl_of _ _) (.inl rfl)
  · generalize hcmd : cmd.cmd = c at h
    have hride : ridesQueue cmd = c.isQueued := congrArg _ hcmd
    cases c
    case fileTx id flags =>
      exact hengine (keeps_osdpFileTxCommand j id flags) hride h
    case pivdata | genauth | crauth =>
      exact hengine (keeps_osdpPivCpSubmit j _) hride h
    all_goals exact cpSubmitQueued_submits hride h

/-- A command of PD `i` was accepted. -/
theorem Meanwhile.joined {cmd : SubmittedCmd} {l : List Obs}
    (hcall : FromCompletion env (.cpSubmitCommand i cmd))
    (hl : t.log = l ++ s.log) (hE : ∀ o ∈ l, o.isAside)
    (hq : (t.pd i).cmdQueue =
      (s.pd i).cmdQueue ++ if ridesQueue cmd then [cmd] else []) :
    Meanwhile env i [] s
      { t with log := .accepted i cmd.node :: t.log } := by
  obtain ⟨ha, hd⟩ := quiet_of_isAside (i := i) hE
  refine ⟨.accepted i cmd.node :: l, [cmd], 0, congrArg _ hl, ?_, ?_,
    ⟨[], ?_, ?_⟩, fun _ => rfl⟩
  · rw [← List.singleton_append, acceptances_append, ha]
    exact List.filterMap_cons_some (if_pos rfl)
  · intro c hc
    rw [List.mem_singleton.mp hc]
    exact hcall
  · cases hc : ridesQueue cmd
    · rw [hc] at hq
      rw [List.filter_cons_of_neg (by rw [hc]; decide), List.filter_nil]
      have e : (t.pd i).cmdQueue = (s.pd i).cmdQueue := by
        rw [hq]
        exact List.append_nil _
      exact e ▸ .refl _
    · rw [hc] at hq
      rw [List.filter_cons_of_pos hc, List.filter_nil]
      exact hq ▸ .push _ cmd
  · rw [← List.singleton_append, completions_append, hd]
    unfold told
    split <;> rfl

/-- A submission from a callback is one line of the account. -/
theorem meanwhile_osdpCpSubmitCommand {j : Nat} {cmd : SubmittedCmd}
    (hcall : FromCompletion env (.cpSubmitCommand j cmd)) :
    Keeps (Meanwhile env i []) (osdpCpSubmitCommand env j cmd) := by
  intro s b t h
  obtain ⟨v, s', hg, h⟩ := bind_ok.mp h
  obtain ⟨rfl, rfl⟩ := get_ok.mp hg
  split at h
  · obtain ⟨-, rfl⟩ := pure_ok.mp h
    exact .refl _
  · obtain ⟨_, s₁, h₁, h⟩ := bind_ok.mp h
    obtain ⟨ok, s₂, h₂, h⟩ := bind_ok.mp h
    obtain ⟨_, s₃, h₃, h⟩ := bind_ok.mp h
    have e₁ := (modify_ok.mp h₁)
    have e₃ := (modify_ok.mp h₃)
    subst e₁
    subst e₃
    obtain ⟨⟨l, hl, hE⟩, hq⟩ := cpSubmitCommand_submits h₂
    obtain ⟨ha, hd⟩ := quiet_of_isAside (i := i) hE
    cases hok : ok
    · rw [hok] at h hq
      obtain ⟨-, rfl⟩ := pure_ok.mp h
      refine .of_aside (l := l) hl ?_ ha hd
      have e := hq i
      rwa [if_neg (by rintro ⟨-, h, -⟩; cases h), List.append_nil] at e
    · rw [hok] at h hq
      obtain ⟨_, s₄, h₄, h⟩ := bind_ok.mp h
      obtain ⟨-, rfl⟩ := pure_ok.mp h
      have e₄ := observe_ok.mp h₄
      subst e₄
      by_cases hj : i = j
      · subst hj
        refine .joined (t := { s₂ with running := s.running }) hcall hl hE ?_
        have e := hq i
        cases hc : ridesQueue cmd
        · rwa [hc, if_neg (by rintro ⟨-, -, h⟩; cases h)] at e
        · rwa [hc, if_pos ⟨rfl, rfl, rfl⟩] at e
      · refine .of_aside (l := .accepted j cmd.node :: l)
          (congrArg _ hl) ?_ ?_ ?_
        · have e := hq i
          rwa [if_neg fun h => hj h.1, List.append_nil] at e
        · rw [← List.singleton_append, acceptances_append, ha]
          exact List.filterMap_cons_none (if_neg fun h => hj h.symm)
        · rw [← List.singleton_append, completions_append, hd]
          rfl

-- ========================================================== other calls

theorem aside_osdpCpCancel (j : Nat) (what : MpMsg) :
    Keeps Aside (osdpCpCancel j what) := by
  unfold osdpCpCancel
  grind

theorem aside_osdpCpModifyFlag (j : Nat) (m : CpFlagMask) (b : Bool) :
    Keeps Aside (osdpCpModifyFlag j m b) := by
  have hu : Keeps Aside
      (updPd j fun p => { p with flags := m.apply b p.flags }) :=
    keeps_updPd fun _ => rfl
  unfold osdpCpModifyFlag
  grind

theorem aside_makeRequest (j : Nat) (r : CpReq) :
    Keeps Aside (makeRequest j r) :=
  keeps_updPd fun _ => rfl

theorem aside_osdpCpDisablePd (j : Nat) :
    Keeps Aside (osdpCpDisablePd j) := by
  have hu := aside_makeRequest j .disable
  unfold osdpCpDisablePd
  grind

theorem aside_osdpCpEnablePd (j : Nat) : Keeps Aside (osdpCpEnablePd j) := by
  have hu := aside_makeRequest j .enable
  unfold osdpCpEnablePd
  grind

theorem aside_osdpCpTrsScanEnable (j : Nat) (params : TrsScanParams) :
    Keeps Aside (osdpCpTrsScanEnable j params) := by
  unfold osdpCpTrsScanEnable
  refine .bind .get fun s => ?_
  split
  · exact .pure _
  · exact .bind (keeps_updPd fun _ => rfl) fun _ => .pure _

theorem aside_osdpCpTrsScanDisable (j : Nat) :
    Keeps Aside (osdpCpTrsScanDisable j) := by
  unfold osdpCpTrsScanDisable
  refine .bind .get fun s => ?_
  split
  · exact .pure _
  · exact .bind (keeps_updPd fun _ => rfl) fun _ => .pure _

-- ============================================================ completions

/-- The calls of a callback keep the account. -/
def BandAccounted (env : Env) (i : Nat) (run : List ApiCall → OsdpM Unit) :
    Prop :=
  ∀ calls, (∀ c ∈ calls, FromCompletion env c) →
    Keeps (Meanwhile env i []) (run calls)

section Nested

variable {run : List ApiCall → OsdpM Unit} (hr : BandAccounted env i run)
include hr

theorem BandAccounted.answer {f} (hf : env.commandCompletion = some f)
    (log : List Obs) (j : Nat) (c : SubmittedCmd) (st : CompletionStatus) :
    Keeps (Meanwhile env i []) (run (f log j c st).calls) :=
  hr _ fun _ hc => ⟨f, log, j, c, st, hf, hc⟩

/-- One command completed, with whatever the application did then. -/
theorem meanwhile_cpCompleteCmd {c : SubmittedCmd} {a : Unit}
    (h : cpCompleteCmd env run i (some c) .flushed s = .ok a t) :
    Meanwhile env i [c] s t := by
  unfold cpCompleteCmd at h
  cases hf : env.commandCompletion with
  | none =>
    rw [hf] at h
    obtain ⟨-, rfl⟩ := pure_ok.mp h
    refine ⟨[], [], 0, rfl, rfl, fun c hc => absurd hc List.not_mem_nil,
      ⟨[c], .give _ c, ?_⟩, fun _ => rfl⟩
    unfold told
    rw [hf]
    rfl
  | some f =>
    rw [hf] at h
    obtain ⟨v, s', hg, h⟩ := bind_ok.mp h
    obtain ⟨rfl, rfl⟩ := get_ok.mp hg
    obtain ⟨_, u, hu, h⟩ := bind_ok.mp h
    have e := observe_ok.mp hu
    subst e
    exact (Meanwhile.done hf c).trans
      (Keeps.of (hr.answer hf _ _ _ _) h)

theorem meanwhile_elsewhere {j : Nat} (hj : j ≠ i)
    (c : Option SubmittedCmd) (st : CompletionStatus) :
    Keeps (Meanwhile env i []) (cpCompleteCmd env run j c st) := by
  intro s a t h
  unfold cpCompleteCmd at h
  cases c with
  | none =>
    obtain ⟨-, rfl⟩ := pure_ok.mp h
    exact .refl _
  | some c =>
    cases hf : env.commandCompletion with
    | none =>
      rw [hf] at h
      obtain ⟨-, rfl⟩ := pure_ok.mp h
      exact .refl _
    | some f =>
      rw [hf] at h
      obtain ⟨v, s', hg, h⟩ := bind_ok.mp h
      obtain ⟨rfl, rfl⟩ := get_ok.mp hg
      obtain ⟨_, u, hu, h⟩ := bind_ok.mp h
      have e := observe_ok.mp hu
      subst e
      exact (Meanwhile.done_elsewhere hj).trans
        (Keeps.of (hr.answer hf _ _ _ _) h)

/-- A detached queue, completed from its head to its end. -/
theorem meanwhile_cpDrain {l : List SubmittedCmd} {a : Unit}
    (h : cpDrain env run i .flushed l s = .ok a t) :
    Meanwhile env i l s t := by
  induction l generalizing s with
  | nil =>
    obtain ⟨-, rfl⟩ := pure_ok.mp h
    exact .refl _
  | cons c rest ih =>
    obtain ⟨_, u, hu, h⟩ := bind_ok.mp h
    exact (meanwhile_cpCompleteCmd hr hu).trans (ih h)

theorem meanwhile_cpDrain_elsewhere {j : Nat} (hj : j ≠ i)
    (st : CompletionStatus) (l : List SubmittedCmd) :
    Keeps (Meanwhile env i []) (cpDrain env run j st l) := by
  induction l with
  | nil => exact .pure _
  | cons c rest ih =>
    unfold cpDrain
    exact .bind (meanwhile_elsewhere hr hj (some c) st) fun _ => ih

/-- The first loop of the flush: the band completed, in order, and what is
behind it handed back. -/
theorem meanwhile_cpDrainBand {l kept : List SubmittedCmd} {b : Bool}
    (h : cpDrainBand env run i l s = .ok (b, kept) t) :
    kept = behindBand l ∧ Meanwhile env i (trsBand l) s t := by
  induction l generalizing s with
  | nil =>
    obtain ⟨e, rfl⟩ := pure_ok.mp h
    cases e
    exact ⟨rfl, .refl _⟩
  | cons c rest ih =>
    unfold cpDrainBand at h
    obtain ⟨_, u, hu, h⟩ := bind_ok.mp h
    have hc := meanwhile_cpCompleteCmd hr hu
    unfold trsBand behindBand
    split at h
    · next hstop =>
      obtain ⟨e, rfl⟩ := pure_ok.mp h
      cases e
      rw [if_pos hstop, if_pos hstop]
      exact ⟨rfl, hc⟩
    · next hstop =>
      rw [if_neg hstop, if_neg hstop]
      obtain ⟨hk, hrest⟩ := ih h
      exact ⟨hk, hc.trans hrest⟩

omit hr in
/-- A queue taken aside: its entries count as having left it once they are
completed. -/
theorem Meanwhile.of_detached (hflush : ¬ NeverFlushes env i)
    (h : Meanwhile env i (s.pd i).cmdQueue
      (s.updPd i fun p => { p with cmdQueue := [] }) t) :
    Meanwhile env i [] s t := by
  obtain ⟨l, subs, k, hl, h⟩ := h
  obtain ⟨done, hd, hc⟩ := h.drains
  rw [updPd_pd_same] at hd
  exact ⟨l, subs, _, hl, h.accepted, h.offered, ⟨done, hd.of_aside, hc⟩,
    fun hn => absurd hn hflush⟩

/-- The application flushes a queue from inside a callback. -/
theorem meanwhile_cpDrainQueue {j : Nat}
    (hcall : FromCompletion env (.cpFlushCommands j)) :
    Keeps (Meanwhile env i []) (cpDrainQueue env run j .flushed) := by
  intro s a t h
  obtain ⟨p, s', hp, h⟩ := bind_ok.mp h
  obtain ⟨rfl, rfl⟩ := getPd_ok.mp hp
  obtain ⟨_, u, hu, h⟩ := bind_ok.mp h
  have e := updPd_ok.mp hu
  subst e
  by_cases hj : j = i
  · subst hj
    exact .of_detached (fun hn => hn _ hcall rfl) (meanwhile_cpDrain hr h)
  · have hset : Meanwhile env i [] s
        (s.updPd j fun p => { p with cmdQueue := [] }) :=
      .of_aside (l := []) rfl
        (congrArg _ (updPd_pd_ne s _ fun h => hj h.symm)) rfl rfl
    exact hset.trans ((meanwhile_cpDrain_elsewhere hr hj _ _).of h)

theorem meanwhile_osdpCpFlushCommands {j : Nat}
    (hcall : FromCompletion env (.cpFlushCommands j)) :
    Keeps (Meanwhile env i []) (osdpCpFlushCommands env run j) := by
  have hrun (b : Osdp → Bool) : Keeps (Meanwhile env i [])
      (modify fun s => { s with running := b s } : OsdpM Unit) :=
    meanwhile_of_aside (keeps_running b)
  have hband : Keeps Aside (updPd j fun p =>
      { p with
        trs :=
          { p.trs with
            bandOpen := p.flags.trsActive && p.trs.stopPending } }) :=
    keeps_updPd fun _ => rfl
  unfold osdpCpFlushCommands
  refine .bind .get fun s => ?_
  split
  · exact .pure _
  · exact .bind (hrun fun _ => true) fun _ =>
      .bind (meanwhile_cpDrainQueue hr hcall) fun _ =>
      .bind (hrun fun _ => s.running) fun _ => meanwhile_of_aside hband

/-- Whatever a callback calls. -/
theorem meanwhile_cpApiCall {c : ApiCall} (hc : FromCompletion env c) :
    Keeps (Meanwhile env i []) (cpApiCall env run c) := by
  have hside {α : Type} {m : OsdpM α} (h : Keeps Aside m) :
      Keeps (Meanwhile env i []) (m >>= fun _ => pure ()) :=
    .bind (meanwhile_of_aside h) fun _ => .pure _
  cases c with
  | cpSubmitCommand j cmd =>
    exact .bind (meanwhile_osdpCpSubmitCommand hc) fun _ => .pure _
  | cpFlushCommands j => exact meanwhile_osdpCpFlushCommands hr hc
  | cpCancel j what => exact hside (aside_osdpCpCancel j what)
  | cpModifyFlag j m b => exact hside (aside_osdpCpModifyFlag j m b)
  | cpDisablePd j => exact hside (aside_osdpCpDisablePd j)
  | cpEnablePd j => exact hside (aside_osdpCpEnablePd j)
  | cpTrsScanEnable j ps => exact hside (aside_osdpCpTrsScanEnable j ps)
  | cpTrsScanDisable j => exact hside (aside_osdpCpTrsScanDisable j)
  | pdSubmitEvent | pdFlushEvents => exact .pure _

theorem accounted_cpCalls : BandAccounted env i (cpCalls env run) := by
  intro calls hfrom
  induction calls with
  | nil => exact .pure _
  | cons c rest ih =>
    unfold cpCalls
    exact .bind (meanwhile_cpApiCall hr (hfrom c List.mem_cons_self))
      fun _ => ih fun d hd => hfrom d (List.mem_cons_of_mem _ hd)

end Nested

/-- To any depth. -/
theorem accounted_cpRunCalls (depth : Nat) :
    BandAccounted env i (cpRunCalls env depth) := by
  induction depth with
  | zero =>
    intro calls _
    cases calls with
    | nil => exact .pure _
    | cons c rest => exact .throw _
  | succ n ih => exact accounted_cpCalls ih

-- ================================================================= ending

section Ending

variable {run : List ApiCall → OsdpM Unit} {e : Fault}

theorem avoids_cpSubmitQueued (j : Nat) (cmd : SubmittedCmd) :
    Avoids e (cpSubmitQueued j cmd) := by
  unfold cpSubmitQueued
  refine .bind (avoids_getPd j) fun p => ?_
  dsimp only
  split
  · exact .pure _
  · split
    · exact .pure _
    · exact .bind (avoids_updPd j _) fun _ =>
        .bind (avoids_updPd j _) fun _ => .pure _

theorem avoids_cpSubmitCommand (j : Nat) (cmd : SubmittedCmd) :
    Avoids e (cpSubmitCommand env j cmd) := by
  have hown (m : MpMsg) (b : Bool) :
      Avoids e (cpSubmitEngine j cmd m b) := by
    unfold cpSubmitEngine
    split
    · exact .bind (avoids_updPd j _) fun _ => .pure _
    · exact .pure _
  have hpiv (m : MpMsg) : Avoids e (osdpPivCpSubmit j cmd.cmd >>= fun ok =>
      cpSubmitEngine j cmd m ok) :=
    .bind (avoids_osdpPivCpSubmit j cmd.cmd) fun b => hown m b
  unfold cpSubmitCommand
  refine .bind .get fun s => .bind (avoids_getPd j) fun p => ?_
  split
  · exact .pure _
  · split
    · exact .bind (avoids_osdpFileTxCommand j _ _) fun b => hown _ b
    · exact hpiv .piv
    · exact hpiv .genauth
    · exact hpiv .crauth
    · exact avoids_cpSubmitQueued j cmd

theorem avoids_osdpCpSubmitCommand (j : Nat) (cmd : SubmittedCmd) :
    Avoids e (osdpCpSubmitCommand env j cmd) := by
  unfold osdpCpSubmitCommand
  refine .bind .get fun s => ?_
  split
  · exact .pure _
  · refine .bind (.modify _) fun _ =>
      .bind (avoids_cpSubmitCommand j cmd) fun ok =>
      .bind (.modify _) fun _ => ?_
    split
    · exact .bind (avoids_observe _) fun _ => .pure _
    · exact .pure _

/-- A call that is no flush runs no callback, and so it ends. -/
theorem avoids_cpApiCall {c : ApiCall} (hc : ∀ j, c ≠ .cpFlushCommands j) :
    Avoids e (cpApiCall env run c) := by
  have hvoid {m : OsdpM Bool} (h : Avoids e m) :
      Avoids e (m >>= fun _ => pure ()) :=
    .bind h fun _ => .pure _
  cases c with
  | cpSubmitCommand j cmd => exact hvoid (avoids_osdpCpSubmitCommand j cmd)
  | cpFlushCommands j => exact absurd rfl (hc j)
  | cpCancel j what =>
    refine hvoid ?_
    unfold osdpCpCancel
    grind
  | cpModifyFlag j m b =>
    refine hvoid ?_
    unfold osdpCpModifyFlag
    grind
  | cpDisablePd j =>
    have hreq : Avoids e (makeRequest j .disable) := avoids_updPd j _
    refine hvoid ?_
    unfold osdpCpDisablePd
    grind
  | cpEnablePd j =>
    have hreq : Avoids e (makeRequest j .enable) := avoids_updPd j _
    refine hvoid ?_
    unfold osdpCpEnablePd
    grind
  | cpTrsScanEnable j ps =>
    have hup (f : OsdpTrs → OsdpTrs) : Avoids e (updTrs j f) :=
      avoids_updPd j _
    refine hvoid ?_
    unfold osdpCpTrsScanEnable
    grind
  | cpTrsScanDisable j =>
    have hup (f : OsdpTrs → OsdpTrs) : Avoids e (updTrs j f) :=
      avoids_updPd j _
    refine hvoid ?_
    unfold osdpCpTrsScanDisable
    grind
  | pdSubmitEvent | pdFlushEvents => exact .pure _

theorem avoids_cpCalls {calls : List ApiCall}
    (h : ∀ c ∈ calls, ∀ j, c ≠ .cpFlushCommands j) :
    Avoids e (cpCalls env run calls) := by
  induction calls with
  | nil => exact .pure _
  | cons c rest ih =>
    unfold cpCalls
    exact .bind (avoids_cpApiCall (h c List.mem_cons_self))
      fun _ => ih fun d hd => h d (List.mem_cons_of_mem _ hd)

variable (hnf : ∀ j, NeverFlushes env j)
include hnf

/-- Where no callback flushes, completions end. -/
theorem avoids_cpCompleteCmd (depth : Nat) (c : Option SubmittedCmd)
    (st : CompletionStatus) :
    Avoids e (cpCompleteCmd env (cpRunCalls env (depth + 1)) i c st) := by
  unfold cpCompleteCmd
  split
  · next cmd f hf =>
    refine .bind .get fun s => .bind (avoids_observe _) fun _ => ?_
    exact avoids_cpCalls fun c hc j =>
      hnf j c ⟨f, s.log, i, cmd, st, hf, hc⟩
  · exact .pure _

theorem avoids_cpDrainBand (depth : Nat) (l : List SubmittedCmd) :
    Avoids e (cpDrainBand env (cpRunCalls env (depth + 1)) i l) := by
  induction l with
  | nil => exact .pure _
  | cons c rest ih =>
    unfold cpDrainBand
    refine .bind (avoids_cpCompleteCmd hnf depth _ _) fun _ => ?_
    split
    · exact .pure _
    · exact ih

theorem cpFlushTrsBand_ends (depth : Nat) (s : Osdp) :
    ∃ t, cpFlushTrsBand env (cpRunCalls env (depth + 1)) i s = .ok () t := by
  have havoids (e : Fault) :
      Avoids e (cpFlushTrsBand env (cpRunCalls env (depth + 1)) i) := by
    unfold cpFlushTrsBand
    refine .bind (avoids_getPd i) fun p => .bind (avoids_updPd i _)
      fun _ => .bind (avoids_cpDrainBand hnf depth _) fun r => ?_
    refine .bind (avoids_updPd i _) fun _ => ?_
    split
    · exact avoids_updPd i _
    · exact .pure _
  cases h : cpFlushTrsBand env (cpRunCalls env (depth + 1)) i s with
  | ok a t => exact ⟨t, rfl⟩
  | error e t => exact absurd h (havoids e s t)

end Ending

-- ================================================================= result

/-- The account of the whole flush. -/
theorem cpFlushTrsBand_account {depth : Nat} {a : Unit}
    (h : cpFlushTrsBand env (cpRunCalls env depth) i s = .ok a t) :
    ∃ l subs k r, t.log = l ++ s.log ∧
      (t.pd i).cmdQueue = behindBand (s.pd i).cmdQueue ++ r ∧
      BandAccount env i (trsBand (s.pd i).cmdQueue) subs k [] r l := by
  unfold cpFlushTrsBand at h
  obtain ⟨p, s', hp, h⟩ := bind_ok.mp h
  obtain ⟨rfl, rfl⟩ := getPd_ok.mp hp
  obtain ⟨_, u, hu, h⟩ := bind_ok.mp h
  have e := updPd_ok.mp hu
  subst e
  obtain ⟨⟨b, kept⟩, v, hv, h⟩ := bind_ok.mp h
  obtain ⟨rfl, l, subs, k, hl, hacc⟩ :=
    meanwhile_cpDrainBand (accounted_cpRunCalls depth) hv
  obtain ⟨_, w, hw, h⟩ := bind_ok.mp h
  have e := updPd_ok.mp hw
  subst e
  rw [updPd_pd_same] at hacc
  refine ⟨l, subs, k, (v.pd i).cmdQueue, ?_, ?_, hacc⟩
  · split at h
    · have e := updPd_ok.mp h
      subst e
      exact hl
    · obtain ⟨-, rfl⟩ := pure_ok.mp h
      exact hl
  · split at h
    · have e := updPd_ok.mp h
      subst e
      rw [updPd_pd_same, updPd_pd_same]
    · obtain ⟨-, rfl⟩ := pure_ok.mp h
      rw [updPd_pd_same]

/-- Where no callback flushes, the flush ends.  Where it ends, `subs` being
the commands the application's callbacks had accepted meanwhile and `k`
the number of them it flushed itself, the queue is what was behind the
band, and then those that joined it; the application saw the band
completed as FLUSHED, in its order, each command once, and besides it only
those `k`, of which there are none if its callbacks do not flush. -/
theorem band_flush_is_prefix_removal (env : Env) (depth i : Nat)
    (s : Osdp) :
    ((∀ j, NeverFlushes env j) → ∃ t,
      cpFlushTrsBand env (cpRunCalls env (depth + 1)) i s = .ok () t) ∧
    ∀ t, cpFlushTrsBand env (cpRunCalls env depth) i s = .ok () t →
      ∃ l, ∃ subs : List SubmittedCmd, ∃ k,
        t.log = l ++ s.log ∧
        acceptances i l = subs.map (·.node) ∧
        (∀ c ∈ subs, FromCompletion env (.cpSubmitCommand i c)) ∧
        (t.pd i).cmdQueue = behindBand (s.pd i).cmdQueue ++
          (subs.filter ridesQueue).drop k ∧
        (told env (trsBand (s.pd i).cmdQueue)).Sublist (completions i l) ∧
        (completions i l).Perm (told env (trsBand (s.pd i).cmdQueue ++
          (subs.filter ridesQueue).take k)) ∧
        (NeverFlushes env i → k = 0 ∧
          completions i l = told env (trsBand (s.pd i).cmdQueue)) := by
  refine ⟨fun hnf => cpFlushTrsBand_ends hnf depth s, fun t h => ?_⟩
  obtain ⟨l, subs, k, r, hl, hq, hacc⟩ := cpFlushTrsBand_account h
  obtain ⟨done, hd, hc⟩ := hacc.drains
  have hleft := hd.left
  have hall := hd.all
  rw [List.nil_append] at hleft hall
  refine ⟨l, subs, k, hl, hacc.accepted, hacc.offered, ?_, ?_, ?_, ?_⟩
  · rw [hq, hleft]
  · rw [hc]
    exact told_sublist hd.order
  · rw [hc]
    exact told_perm hall
  · intro hn
    have hk := hacc.quiet hn
    subst hk
    exact ⟨rfl, by rw [hc, hd.eq_own]⟩

end LibOsdp
