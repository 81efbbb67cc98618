/-
What a PD's callbacks can change: the event queue, through the calls they
make, and through the engines' notifications the engines themselves.

`Quiet` is the strongest relation that the engines and the application
stay within; `decode`, `build` and `send` step outside it in the places
the modules after this one name.
-/
import LibOsdp.Pd.Api
import LibOsdp.Engine.Proofs.Notices

namespace LibOsdp

open Lib

-- ================================================================== quiet

/-- The entries callbacks and engines make. -/
@[grind] def Obs.isApp : Obs → Bool
  | .command _ (.notification _) _ => true
  | .event .. | .evDone .. | .file .. | .cmdDone .. => true
  | _ => false

/-- A PD without what callbacks and engines may change. -/
@[grind] def OsdpPd.sansApp (p : OsdpPd) : OsdpPd :=
  { p.sansEngines with eventQueue := [], engineCmd := none }

/-- Nothing but the application and the engines moved. -/
abbrev Quiet : Osdp → Osdp → Prop := Frame OsdpPd.sansApp id Obs.isApp

/-- What `sansEngines` keeps, `sansApp` keeps. -/
theorem sansApp_of_sansEngines {p q : OsdpPd}
    (h : p.sansEngines = q.sansEngines) : p.sansApp = q.sansApp := by
  have e := congrArg (fun r : OsdpPd =>
    ({ r with eventQueue := [], engineCmd := none } : OsdpPd)) h
  exact e

/-- What callbacks and engines note, the application notes. -/
theorem isApp_of_isNotice {o : Obs} (h : o.isNotice) : o.isApp := by
  unfold Obs.isNotice at h
  split at h <;> first | rfl | cases h

instance : NoticeMoves Quiet where
  engines _ _ _ h := Frame.updPd _ _ fun p => sansApp_of_sansEngines (h p)
  fileOp _ _ _ := ⟨fun _ => rfl, rfl, LogExt.cons rfl⟩
  notice _ _ h := ⟨fun _ => rfl, rfl, LogExt.cons (isApp_of_isNotice h)⟩
  release _ _ := Frame.updPd _ _ fun _ => rfl

-- ============================================================== callbacks

/-- The entries made when the application is told something. -/
@[grind] def Obs.isTold : Obs → Bool
  | .command _ (.notification _) _ | .evDone .. => true
  | _ => false

/-- A preorder on states that an application which is told something stays
within: all it can reach from there is the event queue. -/
class AppMoves (R : Osdp → Osdp → Prop) : Prop extends
    IsPreorder Osdp R where
  queue : ∀ s i (q : List SubmittedEvent → List SubmittedEvent),
    R s (s.updPd i fun p => { p with eventQueue := q p.eventQueue })
  told : ∀ s o, Obs.isTold o → R s { s with log := o :: s.log }
  running : ∀ s b, R s { s with running := b }

/-- A view that does not look at the queue. -/
theorem appMoves_frame {V W : Type} {v : OsdpPd → V} {w : Osdp → W}
    {E : Obs → Bool}
    (hv : ∀ (p : OsdpPd) (q : List SubmittedEvent),
      v { p with eventQueue := q } = v p)
    (hE : ∀ o : Obs, o.isTold → E o) : AppMoves (Frame v w E) where
  queue _ _ _ := Frame.updPd _ _ fun p => hv p _
  told _ o ho := ⟨fun _ => rfl, rfl, LogExt.cons (hE o ho)⟩
  running s _ := ⟨fun _ => rfl, rfl, refl_of (LogExt _) s⟩

/-- What the application is told, it notes. -/
theorem isApp_of_isTold {o : Obs} (h : o.isTold) : o.isApp := by
  unfold Obs.isTold at h
  split at h <;> first | rfl | cases h

instance : AppMoves Quiet := appMoves_frame (fun _ _ => rfl)
  fun _ => isApp_of_isTold

section Callbacks

variable {env : Env} {run : List ApiCall → OsdpM Unit}
variable {R : Osdp → Osdp → Prop} [AppMoves R]

@[grind ←]
theorem keeps_observe_told {o : Obs} (h : o.isTold) :
    Keeps R (observe o) := by
  intro s a t e
  cases e
  exact AppMoves.told s o h

theorem keeps_updPd_queue (i : Nat)
    (q : List SubmittedEvent → List SubmittedEvent) :
    Keeps R (updPd i fun p => { p with eventQueue := q p.eventQueue }) := by
  intro s a t e
  cases e
  exact AppMoves.queue s i q

theorem keeps_setRunning (b : Osdp → Bool) :
    Keeps R (modify fun s => { s with running := b s } : OsdpM Unit) :=
  .modify fun s => AppMoves.running s (b s)

@[grind ←]
theorem keeps_osdpPdSubmitEvent (i : Nat) (ev : SubmittedEvent) :
    Keeps R (osdpPdSubmitEvent env i ev) := by
  have hu : Keeps R (updPd i fun p =>
      { p with eventQueue := p.eventQueue ++ [ev] }) :=
    keeps_updPd_queue i (· ++ [ev])
  unfold osdpPdSubmitEvent
  grind

variable (hr : ∀ calls, Keeps R (run calls))
include hr

@[grind ←]
theorem keeps_pdCompleteEvent (ev : Option SubmittedEvent)
    (st : CompletionStatus) : Keeps R (pdCompleteEvent env run ev st) := by
  have ho (n : Nat) : Keeps R (observe (.evDone n st)) :=
    keeps_observe_told rfl
  unfold pdCompleteEvent
  grind

@[grind ←]
theorem keeps_pdDeliverNotification (i : Nat) (n : Notification) :
    Keeps R (pdDeliverNotification env run i n) := by
  have ho (ret : Int) :
      Keeps R (observe (.command i (.notification n) ret)) :=
    keeps_observe_told rfl
  unfold pdDeliverNotification callCommandCallback
  grind

@[grind ←]
theorem keeps_notifyPdStatus (i : Nat) (online : Bool) :
    Keeps R (notifyPdStatus env run i online) :=
  keeps_pdDeliverNotification hr i _

@[grind ←]
theorem keeps_notifyScStatus (i : Nat) :
    Keeps R (notifyScStatus env run i) := by
  unfold notifyScStatus
  grind

-- ========================================================= nested calls

theorem keeps_pdDrain (st : CompletionStatus) (l : List SubmittedEvent) :
    Keeps R (pdDrain env run st l) := by
  induction l with
  | nil => exact .pure _
  | cons ev rest ih =>
    unfold pdDrain
    exact .bind (keeps_pdCompleteEvent hr (some ev) st) fun _ => ih

@[grind ←]
theorem keeps_pdDrainQueue (i : Nat) (st : CompletionStatus) :
    Keeps R (pdDrainQueue env run i st) := by
  unfold pdDrainQueue
  exact .bind (keeps_getPd i) fun p =>
    .bind (keeps_updPd_queue i fun _ => []) fun _ => keeps_pdDrain hr st _

@[grind ←]
theorem keeps_osdpPdFlushEvents (i : Nat) :
    Keeps R (osdpPdFlushEvents env run i) := by
  unfold osdpPdFlushEvents
  refine .bind .get fun s => ?_
  split
  · exact .pure _
  · exact .bind (keeps_setRunning fun _ => true) fun _ =>
      .bind (keeps_pdDrainQueue hr i _) fun _ =>
      keeps_setRunning fun _ => s.running

@[grind ←]
theorem keeps_pdApiCall (c : ApiCall) : Keeps R (pdApiCall env run c) := by
  unfold pdApiCall
  grind

theorem keeps_pdCalls (l : List ApiCall) : Keeps R (pdCalls env run l) := by
  induction l with
  | nil => exact .pure _
  | cons c rest ih =>
    unfold pdCalls
    exact .bind (keeps_pdApiCall hr c) fun _ => ih

end Callbacks

/-- The calls a callback makes reach the event queue only, however deep
they nest. -/
theorem keeps_pdRunCalls {R : Osdp → Osdp → Prop} [AppMoves R] (env : Env)
    (n : Nat) (calls : List ApiCall) : Keeps R (pdRunCalls env n calls) := by
  induction n generalizing calls with
  | zero =>
    cases calls with
    | nil => exact .pure _
    | cons c rest => exact .throw _
  | succ n ih => exact keeps_pdCalls ih calls

/-- So they stay within `Quiet`. -/
theorem quiet_pdRunCalls (env : Env) (n : Nat) (calls : List ApiCall) :
    Keeps Quiet (pdRunCalls env n calls) :=
  keeps_pdRunCalls env n calls

-- ========================================================= configuration

/-- A PD without its capabilities and what they decide. -/
@[grind] def OsdpPd.sansCaps (p : OsdpPd) : OsdpPd :=
  { p with cap := fun _ => {}, flags := { p.flags with scDisabled := false } }

/-- The capabilities were set. -/
abbrev Configures : Osdp → Osdp → Prop :=
  Frame OsdpPd.sansCaps id Obs.isNone

@[grind =]
theorem sansCaps_setCaps (cap : List PdCap) :
    ∀ p : OsdpPd, (setCaps p cap).sansCaps = p.sansCaps := by
  induction cap with
  | nil => exact fun _ => rfl
  | cons c rest ih =>
    intro p
    unfold setCaps
    split
    · rfl
    · exact ih _

theorem configures_osdpPdSetCapabilities (i : Nat) (cap : List PdCap) :
    Keeps Configures (osdpPdSetCapabilities i cap) := by
  unfold osdpPdSetCapabilities
  grind

end LibOsdp
