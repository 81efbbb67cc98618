/-
Which event answers a command: one the application submitted while it was
asked, or one that had been waiting?

`pd_take_inline_reply` looks at the head of the event queue and compares
types.  While a command is handled the queue is the application's: it may
submit events, and it may flush the queue, which hands everything back.
`Asked` is the account of that, over `Fifo`: what came in, how many
entries went out, that each of these was handed back, and that none went
unless a callback asked for the flush.

# Result

An event taken as the answer was submitted since the command arrived
exactly where no answer of that type had been waiting at the head of the
queue, or the application flushed the queue while it was asked
(`inline_reply_own_iff`).  An application that defers its answers, or that
reports a change of its inputs unasked, has such an event waiting.
-/
import LibOsdp.Lib.Fifo
import LibOsdp.Pd.Proofs.Commands
import LibOsdp.Pd.Proofs.Quiet
import LibOsdp.Phy.Proofs.Footprint

namespace LibOsdp

open Lib

-- ============================================================== the account

/-- The call flushes the queue. -/
def ApiCall.isFlush : ApiCall → Bool
  | .pdFlushEvents => true
  | _ => false

/-- The calls the application makes when it is asked this, at this point
of the history. -/
def commandCalls (env : Env) (log : List Obs) (cmd : OsdpCmd) :
    List ApiCall :=
  match env.commandCallback with
  | none => []
  | some f => (f log cmd).calls

/-- Among the entries `l`, made on top of `base`, is a command that the
application answered with a flush. -/
def flushAsked (env : Env) (base : List Obs) : List Obs → Bool
  | [] => false
  | .command _ cmd _ :: l =>
    (commandCalls env (l ++ base) cmd).any ApiCall.isFlush ||
      flushAsked env base l
  | _ :: l => flushAsked env base l

/-- The entry hands an event back. -/
def Obs.isEvDone : Obs → Bool
  | .evDone .. => true
  | _ => false

/-- How many events these entries hand back. -/
abbrev handedBack (l : List Obs) : Nat := l.countP Obs.isEvDone

/-- The entries made since `s`. -/
def madeSince (s t : Osdp) : List Obs :=
  t.log.take (t.log.length - s.log.length)

/-- What of a PD the account is about. -/
@[grind] def OsdpPd.queueView (p : OsdpPd) :
    List SubmittedEvent × Option SubmittedEvent × Nat × Bool :=
  (p.eventQueue, p.activeEvent, p.cmdId, p.flags.pdMode)

/-- A PD whose application can be handed events: a queue is only ever
filled by one that registered for their completion. -/
structure Backed (env : Env) (s : Osdp) : Prop where
  mode : ∀ j, (s.pd j).flags.pdMode = true
  live : s.tearingDown = false
  owner : env.eventCompletion.isSome = true ∨ (s.pd 0).eventQueue = []

/-- The queue of PD 0 over the entries `l`; `asked` says whether a flush
was called for. -/
structure Account (env : Env) (asked : Bool) (l : List Obs) (s t : Osdp) :
    Prop where
  log : t.log = l ++ s.log
  fifo : ∃ new, Fifo (s.pd 0).eventQueue new (handedBack l)
    (t.pd 0).eventQueue
  still : asked = false → handedBack l = 0
  flushed : asked = true → (s.pd 0).eventQueue.length ≤ handedBack l
  active : (t.pd 0).activeEvent = (s.pd 0).activeEvent
  cmd : (t.pd 0).cmdId = (s.pd 0).cmdId
  backing : Backed env t

variable {env : Env} {s t u : Osdp} {l m : List Obs}

-- ============================================================ the history

theorem flushAsked_append (base m l : List Obs) :
    flushAsked env base (m ++ l)
      = (flushAsked env (l ++ base) m || flushAsked env base l) := by
  induction m with
  | nil => rfl
  | cons o m ih =>
    cases o
    case command i cmd ret =>
      simp only [List.cons_append, flushAsked, ih, List.append_assoc,
        Bool.or_assoc]
    all_goals exact ih

/-- Nobody is asked while events are handed back. -/
theorem flushAsked_of_evDone {base : List Obs} (h : ∀ o ∈ l, o.isEvDone) :
    flushAsked env base l = false := by
  induction l with
  | nil => rfl
  | cons o l ih =>
    have ho : o.isEvDone := h o List.mem_cons_self
    have hl := ih fun x hx => h x (List.mem_cons_of_mem o hx)
    cases o <;> first | exact hl | cases ho

theorem madeSince_eq (h : t.log = l ++ s.log) : madeSince s t = l := by
  unfold madeSince
  rw [h, List.length_append, Nat.add_sub_cancel, List.take_left]

-- ============================================================ stretches

theorem Account.refl (h : Backed env s) : Account env false [] s s :=
  ⟨rfl, ⟨[], .refl _⟩, fun _ => rfl,
    fun e => absurd e Bool.false_ne_true, rfl, rfl, h⟩

/-- One stretch after the other: a flush in either is a flush. -/
theorem Account.trans {a b : Bool} (h : Account env a l s t)
    (g : Account env b m t u) : Account env (b || a) (m ++ l) s u := by
  obtain ⟨new, hf⟩ := h.fifo
  obtain ⟨more, gf⟩ := g.fifo
  have hcount : handedBack (m ++ l) = handedBack l + handedBack m := by
    rw [handedBack, List.countP_append, Nat.add_comm]
  have hkept : (s.pd 0).eventQueue.length
      ≤ handedBack l + (t.pd 0).eventQueue.length := by
    have e := congrArg List.length hf.left
    rw [List.length_drop, List.length_append] at e
    omega
  refine ⟨?_, ⟨new ++ more, ?_⟩, fun e => ?_, fun e => ?_, ?_, ?_, g.backing⟩
  · rw [g.log, h.log, List.append_assoc]
  · rw [hcount]
    exact hf.trans gf
  · obtain ⟨hb, ha⟩ := Bool.or_eq_false_iff.mp e
    rw [hcount, h.still ha, g.still hb]
  · rw [hcount]
    rcases Bool.or_eq_true_iff.mp e with hb | ha
    · have hm := g.flushed hb
      omega
    · have hl := h.flushed ha
      omega
  · rw [g.active, h.active]
  · rw [g.cmd, h.cmd]

/-- A step that makes no entry and leaves the queue alone. -/
theorem Account.of_same (h : Backed env s) (hlog : t.log = s.log)
    (hview : ∀ j, (t.pd j).queueView = (s.pd j).queueView)
    (hlive : t.tearingDown = s.tearingDown) : Account env false [] s t := by
  have hq : (t.pd 0).eventQueue = (s.pd 0).eventQueue :=
    congrArg (fun v => v.1) (hview 0)
  refine ⟨hlog, ⟨[], ?_⟩, fun _ => rfl, fun e => absurd e Bool.false_ne_true,
    congrArg (fun v => v.2.1) (hview 0),
    congrArg (fun v => v.2.2.1) (hview 0), ⟨fun j => ?_, ?_, ?_⟩⟩
  · rw [hq]
    exact .refl _
  · exact (congrArg (fun v => v.2.2.2) (hview j)).trans (h.mode j)
  · rw [hlive]
    exact h.live
  · rw [hq]
    exact h.owner

/-- An entry that hands nothing back. -/
theorem Account.entry {o : Obs} (h : Backed env s)
    (ho : o.isEvDone = false) :
    Account env false [o] s { s with log := o :: s.log } := by
  refine ⟨rfl, ⟨[], ?_⟩, fun _ => ?_,
    fun e => absurd e Bool.false_ne_true, rfl, rfl, ⟨h.mode, h.live, h.owner⟩⟩
  · have hz : handedBack [o] = 0 := by
      simp [handedBack, ho]
    rw [hz]
    exact .refl _
  · simp [handedBack, ho]

-- ============================================================== the calls

/-- What callbacks call keeps the account, and every entry it makes hands
an event back. -/
def CallsAccounted (env : Env) (run : List ApiCall → OsdpM Unit) : Prop :=
  ∀ calls s t, run calls s = .ok () t → Backed env s →
    ∃ l, (∀ o ∈ l, o.isEvDone) ∧
      Account env (calls.any ApiCall.isFlush) l s t

section Calls

variable {run : List ApiCall → OsdpM Unit}

/-- A submission: the event goes to the end of the queue, or nowhere. -/
theorem account_submitEvent {ev : SubmittedEvent} {ret : Int}
    (h : osdpPdSubmitEvent env 0 ev s = .ok ret t) (hs : Backed env s) :
    Account env false [] s t := by
  unfold osdpPdSubmitEvent at h
  obtain ⟨x, y, hg, h⟩ := bind_ok.mp h
  obtain ⟨rfl, rfl⟩ := get_ok.mp hg
  split at h
  · obtain ⟨-, rfl⟩ := pure_ok.mp h
    exact .refl hs
  · next hopen =>
    have hsome : env.eventCompletion.isSome = true :=
      Option.isSome_iff_ne_none.mpr fun e =>
        hopen (.inr (by rw [e]; rfl))
    obtain ⟨p, y, hg, h⟩ := bind_ok.mp h
    obtain ⟨rfl, rfl⟩ := getPd_ok.mp hg
    split at h
    · obtain ⟨-, rfl⟩ := pure_ok.mp h
      exact .refl hs
    · obtain ⟨_, y, hu, h⟩ := bind_ok.mp h
      obtain ⟨-, rfl⟩ := pure_ok.mp h
      obtain rfl := updPd_ok.mp hu
      refine ⟨rfl, ⟨[ev], ?_⟩, fun _ => rfl,
        fun e => absurd e Bool.false_ne_true, ?_, ?_,
        ⟨fun j => ?_, hs.live, .inl hsome⟩⟩
      · rw [updPd_pd_same]
        exact .push _ ev
      · rw [updPd_pd_same]
      · rw [updPd_pd_same]
      · by_cases e : j = 0
        · subst e
          rw [updPd_pd_same]
          exact hs.mode 0
        · rw [updPd_pd_ne s _ e]
          exact hs.mode j

/-- Handing back the detached events `q`, and what the application does
meanwhile: `k` of the events in the new queue went as well. -/
theorem account_drain (hrun : CallsAccounted env run)
    {st : CompletionStatus} {q : List SubmittedEvent}
    (h : pdDrain env run st q s = .ok () t) (hs : Backed env s)
    (hq : q = [] ∨ env.eventCompletion.isSome = true) :
    ∃ l k new, (∀ o ∈ l, o.isEvDone) ∧ t.log = l ++ s.log ∧
      handedBack l = q.length + k ∧
      Fifo (s.pd 0).eventQueue new k (t.pd 0).eventQueue ∧
      (t.pd 0).activeEvent = (s.pd 0).activeEvent ∧
      (t.pd 0).cmdId = (s.pd 0).cmdId ∧ Backed env t := by
  induction q generalizing s with
  | nil =>
    obtain ⟨-, rfl⟩ := pure_ok.mp h
    exact ⟨[], 0, [], fun o ho => absurd ho List.not_mem_nil, rfl, rfl,
      .refl _, rfl, rfl, hs⟩
  | cons ev rest ih =>
    have hsome := hq.resolve_left (List.cons_ne_nil ev rest)
    obtain ⟨f, hf⟩ := Option.isSome_iff_exists.mp hsome
    unfold pdDrain at h
    obtain ⟨_, v, hc, h⟩ := bind_ok.mp h
    unfold pdCompleteEvent at hc
    rw [hf] at hc
    obtain ⟨x, y, hg, hc⟩ := bind_ok.mp hc
    obtain ⟨rfl, rfl⟩ := get_ok.mp hg
    obtain ⟨_, w, hw, hc⟩ := bind_ok.mp hc
    obtain rfl := observe_ok.mp hw
    have hw : Backed env
        { s with log := .evDone ev.node st :: s.log } :=
      ⟨hs.mode, hs.live, hs.owner⟩
    obtain ⟨a, ha, hacc⟩ := hrun _ _ _ hc hw
    obtain ⟨b, k, more, hb, hlog, hcount, hfifo, hact, hcmd, hback⟩ :=
      ih h hacc.backing (.inr hsome)
    obtain ⟨new, hnew⟩ := hacc.fifo
    have hone : handedBack (b ++ a ++ [.evDone ev.node st])
        = handedBack b + handedBack a + 1 := by
      simp only [handedBack, List.countP_append]
      rfl
    refine ⟨b ++ a ++ [.evDone ev.node st], handedBack a + k, new ++ more,
      fun o ho => ?_, ?_, ?_, hnew.trans hfifo, ?_, ?_, hback⟩
    · rcases List.mem_append.mp ho with ho | ho
      · rcases List.mem_append.mp ho with ho | ho
        · exact hb o ho
        · exact ha o ho
      · rw [List.mem_singleton.mp ho]
        rfl
    · rw [hlog, hacc.log]
      simp
    · rw [hone, hcount, List.length_cons]
      omega
    · rw [hact, hacc.active]
    · rw [hcmd, hacc.cmd]

/-- A flush: everything that was queued is handed back. -/
theorem account_flushEvents (hrun : CallsAccounted env run)
    (h : osdpPdFlushEvents env run 0 s = .ok () t) (hs : Backed env s) :
    ∃ l, (∀ o ∈ l, o.isEvDone) ∧ Account env true l s t := by
  unfold osdpPdFlushEvents at h
  obtain ⟨x, y, hg, h⟩ := bind_ok.mp h
  obtain ⟨rfl, rfl⟩ := get_ok.mp hg
  rw [if_neg (by rw [hs.live]; decide)] at h
  obtain ⟨_, v, hv, h⟩ := bind_ok.mp h
  obtain rfl := modify_ok.mp hv
  obtain ⟨_, w, hw, h⟩ := bind_ok.mp h
  obtain rfl := modify_ok.mp h
  unfold pdDrainQueue at hw
  obtain ⟨p, y, hg, hw⟩ := bind_ok.mp hw
  obtain ⟨rfl, rfl⟩ := getPd_ok.mp hg
  obtain ⟨_, y, hu, hw⟩ := bind_ok.mp hw
  obtain rfl := updPd_ok.mp hu
  obtain ⟨y, hy⟩ : ∃ y, y = Osdp.updPd { s with running := true } 0
    fun p => { p with eventQueue := [] } := ⟨_, rfl⟩
  have hq : (y.pd 0).eventQueue = [] := by
    rw [hy, updPd_pd_same]
  have hact : (y.pd 0).activeEvent = (s.pd 0).activeEvent := by
    rw [hy, updPd_pd_same]
  have hcmd : (y.pd 0).cmdId = (s.pd 0).cmdId := by
    rw [hy, updPd_pd_same]
  have hback : Backed env y := by
    refine ⟨fun j => ?_, by rw [hy]; exact hs.live, .inr hq⟩
    rw [hy]
    by_cases e : j = 0
    · subst e
      rw [updPd_pd_same]
      exact hs.mode 0
    · rw [updPd_pd_ne _ _ e]
      exact hs.mode j
  have hlog : y.log = s.log := by rw [hy]; rfl
  rw [← hy] at hw
  obtain ⟨l, k, new, hl, hgrow, hcount, hfifo, ha, hc, hb⟩ :=
    account_drain hrun hw hback hs.owner.symm
  rw [hq] at hfifo
  refine ⟨l, hl, ⟨?_, ⟨new, ?_⟩, fun e => absurd e.symm Bool.false_ne_true,
    fun _ => ?_, ha.trans hact, hc.trans hcmd, hb.mode, hb.live, hb.owner⟩⟩
  · rw [← hlog]
    exact hgrow
  · rw [hcount]
    exact (Fifo.emptied _).trans hfifo
  · rw [hcount]
    exact Nat.le_add_right _ _

theorem account_pdApiCall (hrun : CallsAccounted env run) {c : ApiCall}
    (h : pdApiCall env run c s = .ok () t) (hs : Backed env s) :
    ∃ l, (∀ o ∈ l, o.isEvDone) ∧ Account env c.isFlush l s t := by
  have hnone : ∀ o ∈ ([] : List Obs), o.isEvDone :=
    fun o ho => absurd ho List.not_mem_nil
  cases c
  case pdSubmitEvent ev =>
    obtain ⟨ret, v, hv, h⟩ := bind_ok.mp h
    obtain ⟨-, rfl⟩ := pure_ok.mp h
    exact ⟨[], hnone, account_submitEvent hv hs⟩
  case pdFlushEvents => exact account_flushEvents hrun h hs
  all_goals
    obtain ⟨-, rfl⟩ := pure_ok.mp h
    exact ⟨[], hnone, .refl hs⟩

theorem account_pdCalls (hrun : CallsAccounted env run) :
    CallsAccounted env (pdCalls env run) := by
  intro calls
  induction calls with
  | nil =>
    intro s t h hs
    obtain ⟨-, rfl⟩ := pure_ok.mp h
    exact ⟨[], fun o ho => absurd ho List.not_mem_nil, .refl hs⟩
  | cons c rest ih =>
    intro s t h hs
    obtain ⟨_, v, hc, h⟩ := bind_ok.mp h
    obtain ⟨a, ha, hca⟩ := account_pdApiCall hrun hc hs
    obtain ⟨b, hb, hrest⟩ := ih _ _ h hca.backing
    refine ⟨b ++ a, fun o ho => ?_, ?_⟩
    · rcases List.mem_append.mp ho with ho | ho
      · exact hb o ho
      · exact ha o ho
    · rw [List.any_cons, Bool.or_comm]
      exact hca.trans hrest

end Calls

/-- However deep they nest: by induction on the depth. -/
theorem account_pdRunCalls (env : Env) (n : Nat) :
    CallsAccounted env (pdRunCalls env n) := by
  induction n with
  | zero =>
    intro calls s t h hs
    cases calls with
    | nil =>
      obtain ⟨-, rfl⟩ := pure_ok.mp h
      exact ⟨[], fun o ho => absurd ho List.not_mem_nil, .refl hs⟩
    | cons c rest => exact absurd h throw_ok
  | succ n ih => exact account_pdCalls ih

-- ============================================================== commands

/-- The event is one of transparent mode. -/
def OsdpEvent.isTrs : OsdpEvent → Bool
  | .trs _ => true
  | _ => false

/-- The event is of a kind that answers the command `id`, as the code
that handles `id` on a PD with this `cmd_id` looks for it. -/
def answers (cmd id : Nat) (ev : OsdpEvent) : Bool :=
  eventIsReplyTo cmd ev || (id == cmdXwr && ev.isTrs)

/-- The head of the queue became the answer. -/
def TakesHead (id : Nat) (s t : Osdp) : Prop :=
  ∃ ev rest, (s.pd 0).eventQueue = ev :: rest ∧
    answers (s.pd 0).cmdId id ev.event = true ∧
    (t.pd 0).eventQueue = rest ∧ (t.pd 0).activeEvent = some ev ∧
    t.log = s.log

/-- Wherever the account can be kept, it is. -/
def Accounted (env : Env) (s t : Osdp) : Prop :=
  Backed env s → ∃ l, Account env (flushAsked env s.log l) l s t

instance : IsPreorder Osdp (Accounted env) where
  refl s h := ⟨[], .refl h⟩
  trans := by
    intro s t u h g hs
    obtain ⟨l, hl⟩ := h hs
    obtain ⟨m, hm⟩ := g hl.backing
    refine ⟨m ++ l, ?_⟩
    rw [flushAsked_append, ← hl.log]
    exact hl.trans hm

/-- A PD changed, its queue apart. -/
theorem accounted_updPd (s : Osdp) (i : Nat) {f : OsdpPd → OsdpPd}
    (h : ∀ p : OsdpPd, (f p).queueView = p.queueView) :
    Accounted env s (s.updPd i f) := by
  refine fun hs => ⟨[], .of_same hs rfl (fun j => ?_) rfl⟩
  by_cases e : j = i
  · subst e
    rw [updPd_pd_same]
    exact h _
  · rw [updPd_pd_ne s f e]

theorem accounted_entry {o : Obs} (h : o.isEvDone = false)
    (hasks : ∀ base, flushAsked env base [o] = false) :
    Accounted env s { s with log := o :: s.log } := by
  intro hs
  refine ⟨[o], ?_⟩
  rw [hasks]
  exact .entry hs h

/-- How a command ends: with the account kept, or with the head of the
queue for an answer. -/
def Answered (env : Env) (id : Nat) (s : Osdp) (ret : Int) (t : Osdp) :
    Prop :=
  Accounted env s t ∨ ret = pdErrNone ∧ TakesHead id s t

instance : CommandMoves (Accounted env) where
  engines s i f h := accounted_updPd s i fun p => by
    have e := congrArg OsdpPd.queueView (h p)
    exact e
  fileOp s i op := accounted_entry rfl fun _ => rfl
  change s i f h := accounted_updPd s i fun p => by
    have e := congrArg OsdpPd.queueView (h.sans p)
    exact e

instance : PacketMoves (Accounted env) where
  packet s i f h := accounted_updPd s i fun p => by
    have e := congrArg OsdpPd.queueView (h p)
    exact e
  txBuf s off data hs := ⟨[], .of_same hs rfl (fun _ => rfl) rfl⟩

section Commands

variable {run : List ApiCall → OsdpM Unit} (hrun : CallsAccounted env run)
include hrun

/-- Asking the application: what it calls is charged to the entry that
says it was asked. -/
@[grind ←]
theorem accounted_callCommandCallback (i : Nat) (cmd : OsdpCmd) :
    Keeps (Accounted env) (callCommandCallback env run i cmd) := by
  intro s r t h hs
  unfold callCommandCallback at h
  cases hf : env.commandCallback with
  | none =>
    rw [hf] at h
    obtain ⟨-, rfl⟩ := pure_ok.mp h
    exact ⟨[], .refl hs⟩
  | some f =>
    rw [hf] at h
    obtain ⟨x, y, hg, h⟩ := bind_ok.mp h
    obtain ⟨rfl, rfl⟩ := get_ok.mp hg
    obtain ⟨_, w, hw, h⟩ := bind_ok.mp h
    obtain rfl := observe_ok.mp hw
    obtain ⟨_, x, hx, h⟩ := bind_ok.mp h
    obtain ⟨-, rfl⟩ := pure_ok.mp h
    have hentry := Account.entry (o := .command i cmd (f s.log cmd).ret) hs
      rfl
    obtain ⟨l, hl, hacc⟩ := hrun _ _ _ hx hentry.backing
    refine ⟨l ++ [.command i cmd (f s.log cmd).ret], ?_⟩
    have hasks : flushAsked env s.log
        (l ++ [.command i cmd (f s.log cmd).ret])
          = ((f s.log cmd).calls.any ApiCall.isFlush || false) := by
      rw [flushAsked_append, flushAsked_of_evDone hl, Bool.false_or]
      unfold flushAsked commandCalls flushAsked
      rw [hf]
      rfl
    rw [hasks]
    exact hentry.trans hacc

/-- The notification of a transfer, on a PD. -/
theorem accounted_osdpMpPdNotify (i : Nat) (phase : MpPhase)
    (g : MpProgress) :
    Keeps (Accounted env) (osdpMpPdNotify env run i phase g) := by
  intro s r t h hs
  unfold osdpMpPdNotify at h
  obtain ⟨_, u, hu, h⟩ := bind_ok.mp h
  have hsu : Accounted env s u := by
    unfold mpDeliverNotification at hu
    obtain ⟨p, v, hg, hu⟩ := bind_ok.mp hu
    obtain ⟨rfl, rfl⟩ := getPd_ok.mp hg
    split at hu
    · rw [if_pos (hs.mode i)] at hu
      obtain ⟨r, w, hw, hu⟩ := bind_ok.mp hu
      obtain ⟨-, rfl⟩ := pure_ok.mp hu
      exact (accounted_callCommandCallback hrun i _).of hw
    · obtain ⟨-, rfl⟩ := pure_ok.mp hu
      exact refl_of (Accounted env) s
  obtain ⟨l, hl⟩ := hsu hs
  obtain ⟨p, v, hg, h⟩ := bind_ok.mp h
  obtain ⟨rfl, rfl⟩ := getPd_ok.mp hg
  rw [if_neg (by simp [hl.backing.mode i])] at h
  obtain ⟨-, rfl⟩ := pure_ok.mp h
  exact ⟨l, hl⟩

omit hrun in
/-- A command that looks for no event. -/
theorem answered_of_keeps {id : Nat} {m : OsdpM Int}
    (h : Keeps (Accounted env) m) :
    Ends (Accounted env) (Answered env id) m :=
  .of_keeps h fun _ _ _ hst => .inl hst

omit hrun in
theorem answered_return {id : Nat} (ret : Int) :
    Ends (Accounted env) (Answered env id) (pure ret : OsdpM Int) :=
  answered_of_keeps (.pure ret)

omit hrun in
theorem takesHead_pdTakeEvent {id : Nat} {ev : SubmittedEvent}
    {rest : List SubmittedEvent} (hq : (s.pd 0).eventQueue = ev :: rest)
    (ha : answers (s.pd 0).cmdId id ev.event = true)
    (h : pdTakeEvent 0 ev rest s = .ok () t) : TakesHead id s t := by
  unfold pdTakeEvent at h
  cases hid : pdTranslateEvent ev.event with
  | none =>
    rw [hid] at h
    exact absurd h throw_ok
  | some reply =>
    rw [hid] at h
    obtain rfl := updPd_ok.mp h
    refine ⟨ev, rest, hq, ha, ?_, ?_, rfl⟩
    · rw [updPd_pd_same]
    · rw [updPd_pd_same]

omit hrun in
/-- The head is taken if it is an answer to this command, and nothing
happens otherwise. -/
theorem pdTakeInlineReply_ok {ok : Bool} (id : Nat)
    (h : pdTakeInlineReply 0 s = .ok ok t) :
    ok = true ∧ TakesHead id s t ∨ ok = false ∧ t = s := by
  unfold pdTakeInlineReply at h
  obtain ⟨p, u, hg, h⟩ := bind_ok.mp h
  obtain ⟨rfl, rfl⟩ := getPd_ok.mp hg
  cases hq : (s.pd 0).eventQueue with
  | nil =>
    rw [hq] at h
    obtain ⟨rfl, rfl⟩ := pure_ok.mp h
    exact .inr ⟨rfl, rfl⟩
  | cons ev rest =>
    rw [hq] at h
    dsimp only at h
    split at h
    · next ha =>
      obtain ⟨_, v, hv, h⟩ := bind_ok.mp h
      obtain ⟨rfl, rfl⟩ := pure_ok.mp h
      exact .inl ⟨rfl, takesHead_pdTakeEvent hq
          (Bool.or_eq_true_iff.mpr (.inl ha)) hv⟩
    · obtain ⟨rfl, rfl⟩ := pure_ok.mp h
      exact .inr ⟨rfl, rfl⟩

omit hrun in
theorem answered_pdInlineReplyOrAck (id : Nat) :
    Ends (Accounted env) (Answered env id) (pdInlineReplyOrAck 0) := by
  refine .last fun s ret t h => ?_
  unfold pdInlineReplyOrAck at h
  obtain ⟨ok, u, hu, hk⟩ := bind_ok.mp h
  rcases pdTakeInlineReply_ok id hu with ⟨e, htake⟩ | ⟨e, hsame⟩
  · rw [e, if_neg (by decide)] at hk
    obtain ⟨rfl, rfl⟩ := pure_ok.mp hk
    exact .inr ⟨rfl, htake⟩
  · rw [e, if_pos (by decide), hsame] at hk
    obtain ⟨_, v, hv, hk⟩ := bind_ok.mp hk
    obtain ⟨rfl, rfl⟩ := pure_ok.mp hk
    exact .inl ((keeps_setReply 0 rfl).of hv)

/-- The tail the commands for the application share. -/
theorem answered_ask (id : Nat) (cmd : OsdpCmd)
    {k : Bool × OsdpCmd → OsdpM Int}
    (hk : ∀ ok out, Ends (Accounted env) (Answered env id) (k (ok, out))) :
    Ends (Accounted env) (Answered env id)
      (doCommandCallback env run 0 cmd >>= k) :=
  .bind (keeps_doCommandCallback (accounted_callCommandCallback hrun) 0 cmd)
    fun r => hk r.1 r.2


-- ======================================================== the cases, in turn

theorem answered_pdDecodeOut (id : Nat) (data : Bytes) :
    Ends (Accounted env) (Answered env id) (pdDecodeOut env run 0 data) := by
  unfold pdDecodeOut
  split
  · exact answered_return _
  · refine .bind (keeps_pdRecords env
      (accounted_callCommandCallback hrun) 0 4 _ _ _ _) fun ok => ?_
    split
    · exact answered_pdInlineReplyOrAck id
    · exact answered_return _

theorem answered_pdDecodeMfg (id : Nat) (data : Bytes) :
    Ends (Accounted env) (Answered env id) (pdDecodeMfg env run 0 data) := by
  unfold pdDecodeMfg
  split
  · exact answered_return _
  · dsimp only
    split
    · exact answered_return _
    · refine answered_ask hrun id _ fun ok out => ?_
      dsimp only
      split
      · exact answered_return _
      · exact answered_pdInlineReplyOrAck id

theorem answered_pdDecodeBioread (id : Nat) (data : Bytes) :
    Ends (Accounted env) (Answered env id)
      (pdDecodeBioread env run 0 data) := by
  unfold pdDecodeBioread
  split
  · exact answered_return _
  · refine .bind (keeps_pdCmdCapOk 0 none) fun ok => ?_
    split
    · exact answered_return _
    · refine answered_ask hrun id _ fun ok out => ?_
      dsimp only
      split
      · exact answered_return _
      · exact answered_pdInlineReplyOrAck id

theorem answered_pdDecodeBiomatch (id : Nat) (data : Bytes) :
    Ends (Accounted env) (Answered env id)
      (pdDecodeBiomatch env run 0 data) := by
  unfold pdDecodeBiomatch
  split
  · exact answered_return _
  · refine .bind (keeps_pdCmdCapOk 0 none) fun ok => ?_
    split
    · exact answered_return _
    · dsimp only
      split
      · exact answered_of_keeps
          (.bind (keeps_setNakCode 0 _) fun _ => .pure _)
      · refine answered_ask hrun id _ fun ok out => ?_
        dsimp only
        split
        · exact answered_return _
        · exact answered_pdInlineReplyOrAck id

theorem answered_pdDecodePivdata (id : Nat) (data : Bytes) :
    Ends (Accounted env) (Answered env id)
      (pdDecodePivdata env run 0 data) := by
  unfold pdDecodePivdata
  split
  · exact answered_return _
  · refine .bind (keeps_pdCmdCapOk 0 none) fun ok => ?_
    split
    · exact answered_return _
    · refine .bind (keeps_osdpPivPdOpen (accounted_osdpMpPdNotify hrun) 0
        _ _) fun ok => ?_
      split
      · exact answered_return _
      · refine answered_ask hrun id _ fun ok out => ?_
        dsimp only
        split
        · exact answered_return _
        · exact answered_pdInlineReplyOrAck id

theorem answered_pdDecodeAuth (id wire : Nat) (data : Bytes) :
    Ends (Accounted env) (Answered env id)
      (pdDecodeAuth env run 0 wire data) := by
  have hnote := accounted_osdpMpPdNotify hrun
  unfold pdDecodeAuth
  split
  · exact answered_return _
  · refine .bind (keeps_pdCmdCapOk 0 none) fun ok => ?_
    split
    · exact answered_return _
    · refine .bind (keeps_osdpPivPdCmdFrag hnote 0 _ _) fun frag => ?_
      cases frag with
      | malformed => exact answered_return _
      | more =>
        exact answered_of_keeps (.bind (keeps_setReply 0 rfl) fun _ => .pure _)
      | complete cmd =>
        refine answered_ask hrun id _ fun ok out => ?_
        dsimp only
        split
        · exact answered_of_keeps
            (.bind (keeps_osdpPivAbort hnote 0) fun _ => .pure _)
        · exact answered_pdInlineReplyOrAck id

/-- CMD_XWR looks for its answer itself: any transparent-mode event will
do. -/
theorem answered_pdXwrToApp (c : TrsCmd) :
    Ends (Accounted env) (Answered env cmdXwr) (pdXwrToApp env run 0 c) := by
  unfold pdXwrToApp
  refine answered_ask hrun cmdXwr _ fun ok out => ?_
  dsimp only
  split
  · exact answered_return _
  · refine .last fun s ret t h => ?_
    obtain ⟨p, u, hg, h⟩ := bind_ok.mp h
    obtain ⟨rfl, rfl⟩ := getPd_ok.mp hg
    have hack (x : Osdp) (hx : (setReply 0 replyAck >>= fun _ =>
        pure pdErrNone : OsdpM Int) s = .ok ret x) :
        Answered env cmdXwr s ret x := by
      obtain ⟨_, v, hv, hx⟩ := bind_ok.mp hx
      obtain ⟨rfl, rfl⟩ := pure_ok.mp hx
      exact .inl ((keeps_setReply 0 rfl).of hv)
    cases hq : (s.pd 0).eventQueue with
    | nil =>
      rw [hq] at h
      exact hack t h
    | cons sub rest =>
      rw [hq] at h
      obtain ⟨node, ev⟩ := sub
      cases ev
      case trs r =>
        obtain ⟨_, v, hv, h⟩ := bind_ok.mp h
        obtain ⟨rfl, rfl⟩ := pure_ok.mp h
        obtain rfl := updPd_ok.mp hv
        refine .inr ⟨rfl, ⟨node, .trs r⟩, rest, hq,
          Bool.or_eq_true_iff.mpr (.inr rfl), ?_, ?_, rfl⟩
        · rw [updPd_pd_same]
        · rw [updPd_pd_same]
      all_goals exact hack t h

theorem answered_pdDecodeXwr (data : Bytes) :
    Ends (Accounted env) (Answered env cmdXwr)
      (pdDecodeXwr env run 0 data) := by
  unfold pdDecodeXwr
  refine .bind (keeps_getPd 0) fun p => ?_
  split
  refine .bind (keeps_updPd_sameReply (fun _ => rfl) (fun _ => rfl)
    fun _ h => h) fun _ => ?_
  split
  · exact answered_return _
  · exact answered_of_keeps (.bind (keeps_setReply 0 rfl) fun _ => .pure _)
  · exact answered_of_keeps (.bind (keeps_setReply 0 rfl) fun _ => .pure _)
  · exact answered_pdXwrToApp hrun _

/-- A status request: a report that was submitted, or one that is built
on the spot. -/
theorem answered_pdDecodeStatus (id : Nat) (data : Bytes) (type : StatusType)
    {reply : Nat} (need : Bool) (h : ordinaryReply reply = true) :
    Ends (Accounted env) (Answered env id)
      (pdDecodeStatus env run 0 data type reply need) := by
  have hset : Keeps (Accounted env) (setReply 0 reply) := keeps_setReply 0 h
  have hpre (r : StatusReport) :
      Keeps (Accounted env) (pdPrebuildStatusReply env 0 reply r) := by
    have hstage (n : Nat) : Keeps (Accounted env) (pdStage 0 n) :=
      fun s _ _ e => updPd_ok.mp e ▸ accounted_updPd s 0 fun _ => rfl
    have hstaged (n : Nat) : Keeps (Accounted env) (pdStaged 0 n) :=
      fun s _ _ e => updPd_ok.mp e ▸ accounted_updPd s 0 fun _ => rfl
    unfold pdPrebuildStatusReply
    refine .bind (keeps_getPd 0) fun p =>
      .bind (keeps_osdpPhyPacketInit 0 _) fun hdr => ?_
    split
    · exact .pure _
    · refine .bind (keeps_getPd 0) fun q =>
        .bind (keeps_readBuf .tx) fun buf => ?_
      grind
  have htail : Ends (Accounted env) (Answered env id)
      (pdStatusReply env run 0 type reply) := by
    unfold pdStatusReply
    refine answered_ask hrun id _ fun ok out => ?_
    dsimp only
    split
    · exact answered_return _
    · refine .last fun s ret t h => ?_
      obtain ⟨ok, u, hu, hk⟩ := bind_ok.mp h
      rcases pdTakeInlineReply_ok id hu with ⟨e, htake⟩ | ⟨e, hsame⟩
      · rw [e, if_pos rfl] at hk
        obtain ⟨rfl, rfl⟩ := pure_ok.mp hk
        exact .inr ⟨rfl, htake⟩
      · rw [e, if_neg (by decide), hsame] at hk
        obtain ⟨built, v, hv, hk⟩ := bind_ok.mp hk
        refine .inl (trans_of (Accounted env) ((hpre _).of hv) ?_)
        split at hk
        · obtain ⟨-, rfl⟩ := pure_ok.mp hk
          exact refl_of (Accounted env) v
        · obtain ⟨_, w, hw, hk⟩ := bind_ok.mp hk
          obtain ⟨-, rfl⟩ := pure_ok.mp hk
          exact hset.of hw
  unfold pdDecodeStatus
  split
  · exact answered_return _
  · split
    · refine .bind (keeps_pdCmdCapOk 0 none) fun ok => ?_
      split
      · exact answered_return _
      · exact htail
    · exact htail

/-- A challenge ends the session: what the application does on being told
is on the account. -/
theorem accounted_pdDecodeChlng (data : Bytes) :
    Keeps (Accounted env) (pdDecodeChlng env run 0 data) := by
  have hu (f : OsdpPd → OsdpPd)
      (hf : ∀ p : OsdpPd, (f p).queueView = p.queueView) :
      Keeps (Accounted env) (updPd 0 f) :=
    fun s _ _ e => updPd_ok.mp e ▸ accounted_updPd s 0 hf
  have hn (n : Notification) :
      Keeps (Accounted env) (pdDeliverNotification env run 0 n) := by
    have hask := accounted_callCommandCallback hrun 0 (.notification n)
    unfold pdDeliverNotification
    grind
  have hd : Keeps (Accounted env) (pdScDeactivate env run 0) := by
    have hoff : Keeps (Accounted env) (scDeactivate 0) := hu _ fun _ => rfl
    unfold pdScDeactivate notifyScStatus
    grind
  have hsetup : Keeps (Accounted env) (osdpScSetup env 0) := by
    have hr : Keeps (Accounted env) (osdpFillRandom env 8) := by
      intro s a t e hs
      cases e
      exact ⟨[_], ⟨rfl, ⟨[], .refl _⟩, fun _ => rfl,
        fun e => absurd e Bool.false_ne_true, rfl, rfl,
        ⟨hs.mode, hs.live, hs.owner⟩⟩⟩
    unfold osdpScSetup
    refine .bind (keeps_getPd 0) fun p => ?_
    split
    · exact hu _ fun _ => rfl
    · exact .bind hr fun r => hu _ fun _ => rfl
  unfold pdDecodeChlng
  split
  · exact .pure _
  · refine .bind (keeps_pdCmdCapOk 0 none) fun ok => ?_
    split
    · exact .pure _
    · exact .bind hd fun _ => .bind hsetup fun _ =>
        .bind (hu _ fun _ => rfl) fun _ => .pure _

omit hrun in
theorem accounted_pdDecodeScrypt (data : Bytes) :
    Keeps (Accounted env) (pdDecodeScrypt env 0 data) := by
  have hu (f : OsdpPd → OsdpPd)
      (hf : ∀ p : OsdpPd, (f p).queueView = p.queueView) :
      Keeps (Accounted env) (updPd 0 f) :=
    fun s _ _ e => updPd_ok.mp e ▸ accounted_updPd s 0 hf
  have hrmac : Keeps (Accounted env) (setReply 0 replyRmacI) :=
    hu _ fun _ => rfl
  have hsc : Keeps (Accounted env) (updPd 0 fun p =>
      { p with sc := { p.sc with cpCryptogram := data } }) :=
    hu _ fun _ => rfl
  unfold pdDecodeScrypt
  grind

omit hrun in
theorem accounted_pdDecodeAcurxsize (data : Bytes) :
    Keeps (Accounted env) (pdDecodeAcurxsize 0 data) := by
  unfold pdDecodeAcurxsize
  split
  · exact .pure _
  · refine .bind (fun s _ _ e => ?_) fun _ => .pure _
    exact updPd_ok.mp e ▸ accounted_updPd s 0 fun _ => rfl

/-- Every command but CMD_POLL, which is there to empty the queue: by
cases on the id. -/
theorem answered_pdDecodeCases {id : Nat} (data : Bytes)
    (hpoll : id ≠ cmdPoll) :
    Ends (Accounted env)
      (fun s r t => Accounted env s t ∨
        r = some pdErrNone ∧ TakesHead id s t)
      (pdDecodeCases env run 0 id data) := by
  have hask := accounted_callCommandCallback hrun
  have hnote := accounted_osdpMpPdNotify hrun
  have lift {m : OsdpM Int}
      (h : Ends (Accounted env) (Answered env id) m) :
      Ends (Accounted env)
        (fun s r t => Accounted env s t ∨
          r = some pdErrNone ∧ TakesHead id s t)
        (m >>= fun r => pure (some r)) :=
    h.map fun s r t hst => hst.imp_right fun ⟨hret, htake⟩ =>
      ⟨congrArg some hret, htake⟩
  unfold pdDecodeCases
  split
  case h_1 => exact absurd rfl hpoll
  case h_2 => exact lift (answered_pdDecodeStatus hrun _ data _ _ rfl)
  case h_3 => exact lift (answered_pdDecodeStatus hrun _ data _ _ rfl)
  case h_4 => exact lift (answered_pdDecodeStatus hrun _ data _ _ rfl)
  case h_5 => exact lift (answered_pdDecodeStatus hrun _ data _ _ rfl)
  case h_6 => exact lift (answered_of_keeps (keeps_pdDecodeIdentity 0 data rfl))
  case h_7 => exact lift (answered_of_keeps (keeps_pdDecodeIdentity 0 data rfl))
  case h_8 => exact lift (answered_pdDecodeOut hrun _ data)
  case h_9 => exact lift (answered_of_keeps (keeps_pdDecodeLed hask 0 data))
  case h_10 => exact lift (answered_of_keeps (keeps_pdDecodeBuz hask 0 data))
  case h_11 => exact lift (answered_of_keeps (keeps_pdDecodeText hask 0 data))
  case h_12 => exact lift (answered_of_keeps (keeps_pdDecodeTdset hask 0 data))
  case h_13 => exact lift (answered_of_keeps (keeps_pdDecodeComset hask 0 data))
  case h_14 => exact lift (answered_pdDecodeMfg hrun _ data)
  case h_15 => exact lift (answered_pdDecodeBioread hrun _ data)
  case h_16 => exact lift (answered_pdDecodeBiomatch hrun _ data)
  case h_17 => exact lift (answered_of_keeps (accounted_pdDecodeAcurxsize data))
  case h_18 => exact lift (answered_of_keeps (keeps_pdDecodeKeepactive 0 data))
  case h_19 => exact lift (answered_of_keeps (keeps_pdDecodeAbort hnote 0 data))
  case h_20 =>
    exact lift (answered_of_keeps (keeps_pdDecodeFiletransfer hnote hask 0 data))
  case h_21 => exact lift (answered_pdDecodePivdata hrun _ data)
  case h_22 => exact lift (answered_pdDecodeAuth hrun _ _ data)
  case h_23 => exact lift (answered_pdDecodeAuth hrun _ _ data)
  case h_24 => exact lift (answered_pdDecodeXwr hrun data)
  case h_25 => exact lift (answered_of_keeps (keeps_pdDecodeKeyset hask 0 data))
  case h_26 => exact lift (answered_of_keeps (accounted_pdDecodeChlng hrun data))
  case h_27 => exact lift (answered_of_keeps (accounted_pdDecodeScrypt data))
  case h_28 => exact .of_keeps (.pure _) fun _ _ _ hst => .inl hst

/-- A command as a whole: the account is kept from where the switch is
entered up to the taking of an answer, if one is taken. -/
theorem pdDecodeCommand_outcome {payload : Bytes} {ret : Int}
    (h : pdDecodeCommand env run 0 payload s = .ok ret t)
    (hs : Backed env s) (hpoll : (byteAt payload 0).toNat ≠ cmdPoll) :
    ∃ r u, (r.pd 0).eventQueue = (s.pd 0).eventQueue ∧
      (r.pd 0).activeEvent = (s.pd 0).activeEvent ∧
      (r.pd 0).cmdId = (byteAt payload 0).toNat ∧ r.log = s.log ∧
      Backed env r ∧ Accounted env r u ∧
      (t = u ∨ TakesHead (byteAt payload 0).toNat u t) := by
  unfold pdDecodeCommand at h
  obtain ⟨_, v, hv, h⟩ := bind_ok.mp h
  obtain ⟨_, w, hw, h⟩ := bind_ok.mp h
  obtain rfl := updPd_ok.mp hv
  obtain rfl := updPd_ok.mp hw
  obtain ⟨p, x, hg, h⟩ := bind_ok.mp h
  obtain ⟨rfl, rfl⟩ := getPd_ok.mp hg
  rw [updPd_updPd] at h
  obtain ⟨r, hr⟩ : ∃ r, r = s.updPd 0
      ((fun p => { p with cmdId := (byteAt payload 0).toNat }) ∘
        fun p => p.nak nakRecord) := ⟨_, rfl⟩
  rw [← hr] at h
  have hpd : (r.pd 0) = { (s.pd 0).nak nakRecord with
      cmdId := (byteAt payload 0).toNat } := by
    rw [hr, updPd_pd_same]
    rfl
  have hback : Backed env r := by
    refine ⟨fun j => ?_, by rw [hr]; exact hs.live, ?_⟩
    · by_cases e : j = 0
      · subst e
        rw [hpd]
        exact hs.mode 0
      · rw [hr, updPd_pd_ne _ _ e]
        exact hs.mode j
    · rw [hpd]
      exact hs.owner
  have done {u : Osdp} (hru : Accounted env r u)
      (ht : t = u ∨ TakesHead (byteAt payload 0).toNat u t) :=
    (⟨r, u, by rw [hpd]; rfl, by rw [hpd]; rfl, by rw [hpd],
      by rw [hr]; rfl, hback, hru, ht⟩ :
      ∃ r u, (r.pd 0).eventQueue = (s.pd 0).eventQueue ∧
        (r.pd 0).activeEvent = (s.pd 0).activeEvent ∧
        (r.pd 0).cmdId = (byteAt payload 0).toNat ∧ r.log = s.log ∧
        Backed env r ∧ Accounted env r u ∧
        (t = u ∨ TakesHead (byteAt payload 0).toNat u t))
  split at h
  · obtain ⟨_, y, hy, h⟩ := bind_ok.mp h
    obtain ⟨-, rfl⟩ := pure_ok.mp h
    exact done ((keeps_setNakCode 0 _).of hy) (.inl rfl)
  · obtain ⟨res, y, hy, h⟩ := bind_ok.mp h
    obtain ⟨u, hru, hlast⟩ :=
      answered_pdDecodeCases hrun _ hpoll _ _ _ hy
    rcases hlast with huy | ⟨rfl, htake⟩
    · refine done (u := t) (trans_of (Accounted env) hru
        (trans_of (Accounted env) huy ?_)) (.inl rfl)
      cases res with
      | none =>
        obtain ⟨_, z, hz, h⟩ := bind_ok.mp h
        obtain ⟨-, rfl⟩ := pure_ok.mp h
        exact (keeps_replyWithNak 0 _).of hz
      | some ret' =>
        dsimp only at h
        split at h
        · obtain ⟨_, z, hz, h⟩ := bind_ok.mp h
          obtain ⟨-, rfl⟩ := pure_ok.mp h
          exact (keeps_replyWithNak 0 _).of hz
        · obtain ⟨-, rfl⟩ := pure_ok.mp h
          exact refl_of (Accounted env) y
    · obtain ⟨-, rfl⟩ := pure_ok.mp h
      exact done hru (.inr htake)

end Commands

-- ================================================================ result

/-- The event at the head of the queue would answer the command `id`. -/
def headAnswers (p : OsdpPd) (id : Nat) : Bool :=
  match p.eventQueue with
  | [] => false
  | ev :: _ => answers id id ev.event

/-- The application flushed its events while it was asked. -/
def FlushedMeanwhile (env : Env) (s t : Osdp) : Prop :=
  flushAsked env s.log (madeSince s t) = true

/-- The event taken as the answer came in while the command was handled:
counting what was queued in `s` and then what came in, in order, the
events handed back came before it, and so did all that was queued. -/
def OwnReply (s t : Osdp) (ev : SubmittedEvent) : Prop :=
  ∃ new, Fifo (s.pd 0).eventQueue new (handedBack (madeSince s t) + 1)
      (t.pd 0).eventQueue ∧
    ((s.pd 0).eventQueue ++ new)[handedBack (madeSince s t)]? = some ev ∧
    (s.pd 0).eventQueue.length ≤ handedBack (madeSince s t)

/-- **Inline replies.**  Whatever is queued when a command other than
CMD_POLL arrives: a command that takes no event leaves the queue in front,
in order, for the polls to come, unless the application flushes it; and an
event it takes as its answer was submitted since it arrived exactly where
the head of the queue was no answer to it, or the application flushed the
queue. -/
theorem inline_reply_own_iff (env : Env) (depth : Nat) {s t : Osdp}
    {payload : Bytes} {ret : Int} (hs : Backed env s)
    (hidle : (s.pd 0).activeEvent = none)
    (hpoll : (byteAt payload 0).toNat ≠ cmdPoll)
    (h : pdDecodeCommand env (pdRunCalls env depth) 0 payload s
      = .ok ret t) :
    ((t.pd 0).activeEvent = none → ¬ FlushedMeanwhile env s t →
      (s.pd 0).eventQueue <+: (t.pd 0).eventQueue) ∧
    ∀ ev, (t.pd 0).activeEvent = some ev →
      (OwnReply s t ev ↔
        headAnswers (s.pd 0) (byteAt payload 0).toNat = false ∨
          FlushedMeanwhile env s t) := by
  obtain ⟨r, u, hq, hact, hcmd, hlog, hback, hru, hend⟩ :=
    pdDecodeCommand_outcome (account_pdRunCalls env depth) h hs hpoll
  obtain ⟨l, hl⟩ := hru hback
  obtain ⟨new, hfifo⟩ := hl.fifo
  have hul : u.log = l ++ s.log := by rw [hl.log, hlog]
  have hnone : (u.pd 0).activeEvent = none := by
    rw [hl.active, hact, hidle]
  rcases hend with rfl | ⟨ev', rest, hhead, hans, hrest, htaken, htl⟩
  · refine ⟨fun _ hno => ?_, fun ev he => ?_⟩
    · have hflush : flushAsked env r.log l = false := by
        rw [hlog, ← madeSince_eq hul]
        exact Bool.eq_false_iff.mpr hno
      rw [hl.still hflush, hq] at hfifo
      exact hfifo.prefix_of_zero
    · rw [hnone] at he
      cases he
  · have hsince : madeSince s t = l := madeSince_eq (htl.trans hul)
    refine ⟨fun e => ?_, fun ev he => ?_⟩
    · rw [htaken] at e
      cases e
    obtain rfl : ev' = ev := Option.some.inj (htaken.symm.trans he)
    rw [hl.cmd, hcmd] at hans
    rw [hhead] at hfifo
    have hown : OwnReply s t ev' ↔
        (s.pd 0).eventQueue.length ≤ handedBack l := by
      unfold OwnReply
      rw [hsince]
      refine ⟨fun ⟨_, _, _, hle⟩ => hle, fun hle => ⟨new, ⟨?_, ?_⟩, ?_, hle⟩⟩
      · have e := congrArg List.length hfifo.left
        rw [List.length_cons, List.length_drop] at e
        rw [← hq]
        omega
      · rw [hrest, ← hq, ← List.drop_drop, ← hfifo.left]
        rfl
      · rw [← hq]
        exact hfifo.head
    rw [hown]
    constructor
    · intro hle
      by_cases hflush : FlushedMeanwhile env s t
      · exact .inr hflush
      · have hf : flushAsked env r.log l = false := by
          rw [hlog, ← hsince]
          exact Bool.eq_false_iff.mpr hflush
        rw [hl.still hf] at hle
        have hnil := List.eq_nil_of_length_eq_zero (Nat.le_zero.mp hle)
        left
        unfold headAnswers
        rw [hnil]
    · rintro (hhd | hflush)
      · by_cases hflush : flushAsked env r.log l = true
        · rw [← hq]
          exact hl.flushed hflush
        · rw [hl.still (Bool.eq_false_iff.mpr hflush), hq] at hfifo
          have hpre := hfifo.prefix_of_zero
          cases hold : (s.pd 0).eventQueue with
          | nil => exact Nat.zero_le _
          | cons x old =>
            rw [hold] at hpre
            obtain ⟨rfl, -⟩ := List.cons_prefix_cons.mp hpre
            unfold headAnswers at hhd
            rw [hold] at hhd
            exact absurd (hans.symm.trans hhd) (by decide)
      · rw [← hq]
        apply hl.flushed
        rw [hlog, ← hsince]
        exact hflush

-- =============================================================== examples

/-- A PD with this in its queue. -/
def waitingPd (q : List SubmittedEvent) : Osdp :=
  { pd := fun _ => { flags := { pdMode := true }, eventQueue := q } }

/-- A manufacturer command without data. -/
def mfgPayload : Bytes := [UInt8.ofNat cmdMfg, 0, 0, 0]

/-- An application that answers whatever it is asked there and then. -/
def promptEnv : Env :=
  { plainEnv (knownCipher []) (fun _ => 0) with
    commandCallback := some fun _ _ =>
      { calls := [.pdSubmitEvent ⟨1, .mfgrep 0 0 []⟩] } }

/-- Its answer is the one that goes out when nothing was waiting. -/
theorem inline_reply_prompt :
    ∃ t ev, (t.pd 0).activeEvent = some ev ∧ OwnReply (waitingPd []) t ev := by
  obtain ⟨t, hrun, htaken⟩ := Reaches.ok
    (show Reaches (fun t => (t.pd 0).activeEvent
        = some ⟨1, .mfgrep 0 0 []⟩)
      ((do
        let _ ← pdDecodeCommand promptEnv (pdRunCalls promptEnv 1) 0
          mfgPayload) (waitingPd [])) by decide +kernel)
  obtain ⟨ret, u, hdec, hrun⟩ := bind_ok.mp hrun
  obtain ⟨-, rfl⟩ := pure_ok.mp hrun
  have hs : Backed promptEnv (waitingPd []) := ⟨fun _ => rfl, rfl, .inl rfl⟩
  exact ⟨u, _, htaken,
    ((inline_reply_own_iff promptEnv 1 hs rfl (by decide) hdec).2 _
      htaken).mpr (.inl rfl)⟩

/-- An application that answers later: the answer to its first command is
still waiting when the second one comes, and goes out as the answer to
that. -/
theorem inline_reply_stale :
    ¬ ∀ (env : Env) (depth : Nat) (s t : Osdp) (payload : Bytes) (ret : Int)
        (ev : SubmittedEvent), Backed env s →
      (s.pd 0).activeEvent = none → (byteAt payload 0).toNat ≠ cmdPoll →
      pdDecodeCommand env (pdRunCalls env depth) 0 payload s = .ok ret t →
      (t.pd 0).activeEvent = some ev → OwnReply s t ev := by
  intro hall
  let env := plainEnv (knownCipher []) fun _ => 0
  let s := waitingPd [⟨7, .mfgrep 0 0 []⟩]
  obtain ⟨t, hrun, htaken, hkept⟩ := Reaches.ok
    (show Reaches (fun t =>
        (t.pd 0).activeEvent = some ⟨7, .mfgrep 0 0 []⟩ ∧
          handedBack (madeSince s t) = 0)
      ((do
        let _ ← pdDecodeCommand env (pdRunCalls env 0) 0 mfgPayload) s)
      by decide +kernel)
  obtain ⟨ret, u, hdec, hrun⟩ := bind_ok.mp hrun
  obtain ⟨-, rfl⟩ := pure_ok.mp hrun
  obtain ⟨new, -, -, hle⟩ := hall env 0 s u mfgPayload ret _
    ⟨fun _ => rfl, rfl, .inl rfl⟩ rfl (by decide) hdec htaken
  rw [hkept] at hle
  exact absurd hle (by decide)

end LibOsdp
