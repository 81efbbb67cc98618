/-
What the PD's application is handed: the calls of its command callback,
in the order they were made.

# However the decoder ends

`callbacks` reads those calls off a history.  The statements here are
about the state a run leaves, so they hold also where a nested call or a
reply under construction fails behind the callback: by then the
application has been asked, and it is not asked again.

# One call per command

`Hands j c m s` says that `m`, started in `s`, asks the application of
PD `j` once, about `c`.  What comes before must leave the history alone,
and what comes behind must not ask (`SameCalls`).
-/
import LibOsdp.Pd.Api
import LibOsdp.Common.Frame
import LibOsdp.Lib.Abides

namespace LibOsdp

open Lib

-- ============================================================= the calls

/-- One call of a command callback: the PD and the command. -/
def callbackOf : Obs → Option (Nat × OsdpCmd)
  | .command j c _ => some (j, c)
  | _ => none

/-- The calls of the command callbacks, newest first. -/
def callbacks (log : List Obs) : List (Nat × OsdpCmd) :=
  log.filterMap callbackOf

/-- No command callback was called. -/
def SameCalls (s t : Osdp) : Prop := callbacks t.log = callbacks s.log

instance : IsPreorder Osdp SameCalls where
  refl _ := rfl
  trans _ _ _ h k := k.trans h

/-- An entry that is no call of the callback. -/
theorem sameCalls_cons {o : Obs} (h : callbackOf o = none) (s : Osdp) :
    SameCalls s { s with log := o :: s.log } := by
  show (o :: s.log).filterMap callbackOf = _
  rw [List.filterMap_cons_none h]
  rfl

-- ========================================================== what is silent

@[grind ←]
theorem abides_updPd (i : Nat) (f : OsdpPd → OsdpPd) :
    Abides SameCalls (updPd i f) := fun _ => rfl

@[grind ←]
theorem abides_getPd (i : Nat) : Abides SameCalls (getPd i) := fun _ => rfl

@[grind ←]
theorem abides_readBuf (ref : BufRef) : Abides SameCalls (readBuf ref) :=
  fun _ => rfl

@[grind ←]
theorem abides_writeBuf (ref : BufRef) (off : Nat) (data : Bytes) :
    Abides SameCalls (writeBuf ref off data) := by
  intro s
  unfold leaves writeBuf
  by_cases h : ref = .tx ∨ s.rxIsTx
  · rw [if_pos h]
    rfl
  · rw [if_neg h]
    rfl

@[grind ←]
theorem abides_observe {o : Obs} (h : callbackOf o = none) :
    Abides SameCalls (observe o) := fun s => sameCalls_cons h s

@[grind ←]
theorem abides_osdpPhyPacketInit (i maxLen : Nat) :
    Abides SameCalls (osdpPhyPacketInit i maxLen) := by
  have hmark : Abides SameCalls (phySetMark i true) := abides_updPd i _
  have hstart (c : UInt8) : Abides SameCalls (phyPacketStarted i c) :=
    abides_updPd i _
  have hhead (p : OsdpPd) : Abides SameCalls (phyWriteHeader i p) := by
    unfold phyWriteHeader
    grind
  unfold osdpPhyPacketInit
  grind

@[grind ←]
theorem abides_osdpPhyFinalizePacket (env : Env) (i len maxLen : Nat) :
    Abides SameCalls (osdpPhyFinalizePacket env i len maxLen) := by
  have hseal (pkt : Bytes) (n : Nat) :
      Abides SameCalls (phySealChannel env i pkt n) := abides_updPd i _
  unfold osdpPhyFinalizePacket
  split
  · exact .pure _
  refine .bind (abides_getPd i) fun p => .bind (abides_readBuf _) fun buf =>
    ?_
  dsimp only
  split
  · exact .pure _
  split
  · exact .pure _
  split
  · exact .bind (.throw _) fun _ => .bind (hseal _ _) fun _ => by grind
  refine .bind (hseal _ _) fun _ => ?_
  split
  · exact .pure _
  · exact .bind (abides_writeBuf _ _ _) fun _ => .pure _

@[grind ←]
theorem abides_pdPrebuildStatusReply (env : Env) (i replyId : Nat)
    (r : StatusReport) :
    Abides SameCalls (pdPrebuildStatusReply env i replyId r) := by
  have hstage (n : Nat) : Abides SameCalls (pdStage i n) := abides_updPd i _
  have hstaged (n : Nat) : Abides SameCalls (pdStaged i n) :=
    abides_updPd i _
  unfold pdPrebuildStatusReply
  refine .bind (abides_getPd i) fun p =>
    .bind (abides_osdpPhyPacketInit i _) fun hdr => ?_
  split
  · exact .pure _
  refine .bind (abides_getPd i) fun q => .bind (abides_readBuf _) fun buf =>
    ?_
  dsimp only
  split
  · exact .pure _
  split
  · exact .pure _
  · refine .bind (abides_writeBuf _ _ _) fun _ => .bind (hstage _) fun _ =>
      .bind (abides_osdpPhyFinalizePacket env i _ _) fun n => ?_
    split
    · exact .pure _
    · exact .bind (hstaged _) fun _ => .pure _

@[grind ←]
theorem abides_pdTakeInlineReply (i : Nat) :
    Abides SameCalls (pdTakeInlineReply i) := by
  unfold pdTakeInlineReply pdTakeEvent
  grind

@[grind ←]
theorem abides_setReply (i id : Nat) : Abides SameCalls (setReply i id) :=
  abides_updPd i _

@[grind ←]
theorem abides_pdInlineReplyOrAck (i : Nat) :
    Abides SameCalls (pdInlineReplyOrAck i) := by
  unfold pdInlineReplyOrAck
  grind

-- ========================================================== nested calls

section Nested

variable {env : Env} {run : List ApiCall → OsdpM Unit}
variable (hr : ∀ calls, Abides SameCalls (run calls))
include hr

theorem abides_pdCompleteEvent (ev : Option SubmittedEvent)
    (st : CompletionStatus) :
    Abides SameCalls (pdCompleteEvent env run ev st) := by
  have ho (n : Nat) : Abides SameCalls (observe (.evDone n st)) :=
    abides_observe rfl
  unfold pdCompleteEvent
  split
  · exact .bind .get fun _ => .bind (ho _) fun _ => hr _
  · exact .pure _

theorem abides_pdDrain (st : CompletionStatus) (l : List SubmittedEvent) :
    Abides SameCalls (pdDrain env run st l) := by
  induction l with
  | nil => exact .pure _
  | cons ev rest ih =>
    unfold pdDrain
    exact .bind (abides_pdCompleteEvent hr (some ev) st) fun _ => ih

theorem abides_osdpPdFlushEvents (i : Nat) :
    Abides SameCalls (osdpPdFlushEvents env run i) := by
  have hdrain : Abides SameCalls (pdDrainQueue env run i .flushed) := by
    unfold pdDrainQueue
    exact .bind (abides_getPd i) fun p =>
      .bind (abides_updPd i _) fun _ => abides_pdDrain hr _ _
  unfold osdpPdFlushEvents
  refine .bind .get fun s => ?_
  split
  · exact .pure _
  · exact .bind (.modify fun _ => rfl) fun _ =>
      .bind hdrain fun _ => .modify fun _ => rfl

omit hr in
theorem abides_osdpPdSubmitEvent (i : Nat) (ev : SubmittedEvent) :
    Abides SameCalls (osdpPdSubmitEvent env i ev) := by
  unfold osdpPdSubmitEvent
  grind

theorem abides_pdCalls (l : List ApiCall) :
    Abides SameCalls (pdCalls env run l) := by
  have hcall (c : ApiCall) : Abides SameCalls (pdApiCall env run c) := by
    unfold pdApiCall
    split
    · exact .bind (abides_osdpPdSubmitEvent 0 _) fun _ => .pure _
    · exact abides_osdpPdFlushEvents hr 0
    · exact .pure _
  induction l with
  | nil => exact .pure _
  | cons c rest ih =>
    unfold pdCalls
    exact .bind (hcall c) fun _ => ih

end Nested

/-- A callback's own calls do not ask the application about a command. -/
theorem abides_pdRunCalls (env : Env) (n : Nat) (calls : List ApiCall) :
    Abides SameCalls (pdRunCalls env n calls) := by
  induction n generalizing calls with
  | zero =>
    cases calls with
    | nil => exact .pure _
    | cons c rest => exact .throw _
  | succ n ih => exact abides_pdCalls ih calls

-- ============================================================== one call

/-- `m`, started in `s`, asks the application of PD `j` once, about `c`. -/
def Hands {α : Type} (j : Nat) (c : OsdpCmd) (m : OsdpM α) (s : Osdp) :
    Prop :=
  callbacks (leaves m s).log = (j, c) :: callbacks s.log

section Hands

variable {α β : Type} {j : Nat} {c : OsdpCmd}

/-- What comes behind does not ask. -/
theorem Hands.settle {m : OsdpM α} {k : α → OsdpM β} {s : Osdp}
    (h : Hands j c m s) (hk : ∀ a, Abides SameCalls (k a)) :
    Hands j c (m >>= k) s :=
  (settles_bind hk s).trans h

/-- What comes before leaves the history alone. -/
theorem Hands.after {m : OsdpM α} {k : α → OsdpM β} {s t : Osdp} {a : α}
    (hm : m s = .ok a t) (hlog : t.log = s.log) (h : Hands j c (k a) t) :
    Hands j c (m >>= k) s := by
  unfold Hands
  rw [leaves_bind hm, ← hlog]
  exact h

variable {env : Env} {run : List ApiCall → OsdpM Unit}
variable (hr : ∀ calls, Abides SameCalls (run calls))
variable (hreg : env.commandCallback.isSome = true)
include hr hreg

/-- The application is asked about a command that passes the checks. -/
theorem hands_doCommandCallback {s : Osdp}
    (hv : validateCommand (s.pd j) c = true) :
    Hands j c (doCommandCallback env run j c) s := by
  obtain ⟨f, hf⟩ := Option.isSome_iff_exists.mp hreg
  have hask : Hands j c (callCommandCallback env run j c) s := by
    unfold callCommandCallback
    rw [hf]
    refine Hands.after (get_ok.mpr ⟨rfl, rfl⟩) rfl ?_
    refine Hands.settle ?_ fun _ => .bind (hr _) fun _ => .pure _
    rfl
  have hoffer : Hands j c (offerCommand env run j c) s := by
    unfold offerCommand
    refine Hands.after (getPd_ok.mpr ⟨rfl, rfl⟩) rfl ?_
    rw [if_pos hv]
    exact hask
  unfold doCommandCallback
  refine hoffer.settle fun r => ?_
  have hnak := abides_updPd j fun p => p.nak (pdNakCodeFromCallback r.1)
  unfold replyWithNak
  grind

end Hands

end LibOsdp
