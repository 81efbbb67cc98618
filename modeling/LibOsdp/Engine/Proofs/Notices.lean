/-
What is passed to the application outside a command: events, completions
and notifications.

A callback may call back into the library, which is the `run` all of these
take; whatever relation those calls stay within, so does handing the
notice over.
-/
import LibOsdp.Engine.Proofs.Footprint

namespace LibOsdp

open Lib

/-- The entries a notice makes. -/
@[grind] def Obs.isNotice : Obs → Bool
  | .command _ (.notification _) _ => true
  | .event .. | .cmdDone .. => true
  | _ => false

/-- A preorder on states that engines and notices stay within. -/
class NoticeMoves (R : Osdp → Osdp → Prop) : Prop extends
    EngineMoves R where
  notice : ∀ s o, Obs.isNotice o → R s { s with log := o :: s.log }
  release : ∀ s i, R s (s.updPd i fun p => { p with engineCmd := none })

section Notices

variable {env : Env} {run : List ApiCall → OsdpM Unit}
variable {R : Osdp → Osdp → Prop} [NoticeMoves R]

theorem keeps_observe_notice {o : Obs} (h : o.isNotice) :
    Keeps R (observe o) := by
  intro s a t e
  cases e
  exact NoticeMoves.notice s o h

variable (hr : ∀ calls, Keeps R (run calls))
include hr

@[grind ←]
theorem keeps_cpDispatchEvent (i : Nat) (ev : OsdpEvent) :
    Keeps R (cpDispatchEvent env run i ev) := by
  have ho : Keeps R (observe (.event i ev)) := keeps_observe_notice rfl
  unfold cpDispatchEvent
  grind

@[grind ←]
theorem keeps_cpCompleteCmd (i : Nat) (c : Option SubmittedCmd)
    (st : CompletionStatus) : Keeps R (cpCompleteCmd env run i c st) := by
  have ho (n : Nat) : Keeps R (observe (.cmdDone i n st)) :=
    keeps_observe_notice rfl
  unfold cpCompleteCmd
  grind

@[grind ←]
theorem keeps_callNotification (i : Nat) (n : Notification) :
    Keeps R (callCommandCallback env run i (.notification n)) := by
  have ho (ret : Int) :
      Keeps R (observe (.command i (.notification n) ret)) :=
    keeps_observe_notice rfl
  unfold callCommandCallback
  grind

/-- The notification of a transfer, which is what the engines' own lemmas
ask for. -/
@[grind ←]
theorem keeps_osdpMpPdNotify (i : Nat) (phase : MpPhase) (g : MpProgress) :
    Keeps R (osdpMpPdNotify env run i phase g) := by
  have hu : Keeps R (updPd i fun p => { p with engineCmd := none }) := by
    intro s a t e
    cases e
    exact NoticeMoves.release s i
  unfold osdpMpPdNotify mpDeliverNotification
  grind

/-- The engines' moves, their notification in place. -/
@[grind ←]
theorem keeps_engines (i : Nat) : Keeps R (osdpEnginesAbort env run i) :=
  keeps_osdpEnginesAbort (fun j ph g => keeps_osdpMpPdNotify hr j ph g) i

end Notices

end LibOsdp
