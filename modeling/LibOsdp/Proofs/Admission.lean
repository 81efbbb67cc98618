/-
What may be submitted, and what the library can carry out.

# Two switches

A submission is checked when it is made and translated when its turn
comes: `cp_submit_command` and `cp_translate_cmd` for a command,
`osdp_pd_submit_event` and `pd_translate_event` for an event.  The second
of each pair ends the process in a `BUG()` on what it does not know, so it
has to know everything the first lets through.

An event's type is range-checked, a command's id is not.  And both
enumerations have members that only the library itself hands out:
OSDP_CMD_COMSET_DONE, OSDP_CMD_NOTIFICATION, OSDP_EVENT_NOTIFICATION.

# The result

`submissions_never_abort` is exact: of what is accepted, these members and
the ids past the enumeration end in a `BUG()`, in whatever state they are
met, and nothing else does on any route.
-/
import LibOsdp.Cp.Proofs.Run
import LibOsdp.Engine.Proofs.NoBug
import LibOsdp.Pd.Proofs.Build
import LibOsdp.Common.PlainEnv

namespace LibOsdp

open Lib

-- ============================================================= the calls

@[grind ←]
theorem noBug_readBuf (ref : BufRef) : NoBug (readBuf ref) := by
  intro s t h
  cases h

@[grind ←]
theorem noBug_writeBuf (ref : BufRef) (off : Nat) (data : Bytes) :
    NoBug (writeBuf ref off data) := by
  intro s t h
  unfold writeBuf at h
  split at h <;> cases h

@[grind ←]
theorem noBug_makeRequest (i : Nat) (r : CpReq) :
    NoBug (makeRequest i r) := avoids_updPd i _

@[grind ←]
theorem noBug_updTrs (i : Nat) (f : OsdpTrs → OsdpTrs) :
    NoBug (updTrs i f) := avoids_updPd i _

@[grind ←]
theorem noBug_setActiveCmd (i : Nat) (c : Option SubmittedCmd) :
    NoBug (setActiveCmd i c) := avoids_updPd i _

section Calls

variable {env : Env}

@[grind ←]
theorem noBug_cpSubmitQueued (i : Nat) (cmd : SubmittedCmd) :
    NoBug (cpSubmitQueued i cmd) := by
  unfold cpSubmitQueued
  grind

@[grind ←]
theorem noBug_cpSubmitEngine (i : Nat) (cmd : SubmittedCmd) (t : MpMsg)
    (b : Bool) : NoBug (cpSubmitEngine i cmd t b) := by
  unfold cpSubmitEngine cpOwnEngineCmd
  grind

@[grind ←]
theorem noBug_cpSubmitCommand (i : Nat) (cmd : SubmittedCmd) :
    NoBug (cpSubmitCommand env i cmd) := by
  unfold cpSubmitCommand
  grind

@[grind ←]
theorem noBug_osdpCpSubmitCommand (i : Nat) (cmd : SubmittedCmd) :
    NoBug (osdpCpSubmitCommand env i cmd) := by
  unfold osdpCpSubmitCommand
  grind

@[grind ←]
theorem noBug_osdpPdSubmitEvent (i : Nat) (ev : SubmittedEvent) :
    NoBug (osdpPdSubmitEvent env i ev) := by
  unfold osdpPdSubmitEvent
  grind

variable {run : List ApiCall → OsdpM Unit}
variable (hr : ∀ calls, NoBug (run calls))
include hr

theorem noBug_cpDrain (i : Nat) (status : CompletionStatus)
    (l : List SubmittedCmd) : NoBug (cpDrain env run i status l) := by
  induction l with
  | nil => exact .pure ()
  | cons cmd rest ih =>
    exact .bind (noBug_cpCompleteCmd hr i _ _) fun _ => ih

@[grind ←]
theorem noBug_osdpCpFlushCommands (i : Nat) :
    NoBug (osdpCpFlushCommands env run i) := by
  have hdrain : ∀ l, NoBug (cpDrain env run i .flushed l) :=
    noBug_cpDrain hr i .flushed
  unfold osdpCpFlushCommands cpDrainQueue
  grind

theorem noBug_cpApiCall (c : ApiCall) : NoBug (cpApiCall env run c) := by
  unfold cpApiCall osdpCpCancel osdpCpModifyFlag osdpCpDisablePd
    osdpCpEnablePd osdpCpTrsScanEnable osdpCpTrsScanDisable
  cases c <;> grind

theorem noBug_pdDrain (status : CompletionStatus)
    (l : List SubmittedEvent) : NoBug (pdDrain env run status l) := by
  induction l with
  | nil => exact .pure ()
  | cons ev rest ih =>
    exact .bind (noBug_pdCompleteEvent hr _ _) fun _ => ih

theorem noBug_pdApiCall (c : ApiCall) : NoBug (pdApiCall env run c) := by
  have hdrain : ∀ l, NoBug (pdDrain env run .flushed l) :=
    noBug_pdDrain hr .flushed
  unfold pdApiCall osdpPdFlushEvents pdDrainQueue
  cases c <;> grind

end Calls

/-- The calls a CP's callbacks make. -/
theorem noBug_cpRunCalls (env : Env) (depth : Nat) :
    ∀ calls, NoBug (cpRunCalls env depth calls) := by
  induction depth with
  | zero =>
    intro calls
    cases calls with
    | nil => exact .pure ()
    | cons c rest => exact .throw (by decide)
  | succ depth ih =>
    intro calls
    show NoBug (cpCalls env (cpRunCalls env depth) calls)
    induction calls with
    | nil => exact .pure ()
    | cons c rest ihl => exact .bind (noBug_cpApiCall ih c) fun _ => ihl

/-- The calls a PD's callbacks make. -/
theorem noBug_pdRunCalls (env : Env) (depth : Nat) :
    ∀ calls, NoBug (pdRunCalls env depth calls) := by
  induction depth with
  | zero =>
    intro calls
    cases calls with
    | nil => exact .pure ()
    | cons c rest => exact .throw (by decide)
  | succ depth ih =>
    intro calls
    show NoBug (pdCalls env (pdRunCalls env depth) calls)
    induction calls with
    | nil => exact .pure ()
    | cons c rest ihl => exact .bind (noBug_pdApiCall ih c) fun _ => ihl

-- ============================================================== commands

section Commands

variable {env : Env} {run : List ApiCall → OsdpM Unit}

/-- The translation knows the command, or refuses it. -/
def OsdpCmd.untranslated : OsdpCmd → Bool
  | .comsetDone .. | .notification _ | .unlisted _ => true
  | _ => false

/-- The command is carried out by a transfer engine. -/
def OsdpCmd.forEngine : OsdpCmd → Bool
  | .fileTx .. | .pivdata _ | .genauth _ | .crauth _ => true
  | _ => false

/-- What does not go to an engine and is not one of those is translated. -/
theorem wireCmdOf_none {c : OsdpCmd} (h : wireCmdOf c = none)
    (hu : c.untranslated = false) (he : c.forEngine = false) :
    statusUnlisted c = true := by
  cases c with
  | status r =>
    obtain ⟨type, n, report⟩ := r
    cases type with
    | unlisted code => rfl
    | _ => cases h
  | comsetDone | notification | unlisted => cases hu
  | fileTx | pivdata | genauth | crauth => cases he
  | _ => cases h

theorem noBug_cpTranslateCmd (p : OsdpPd) {c : OsdpCmd}
    (hu : c.untranslated = false) (he : c.forEngine = false) :
    NoBug (cpTranslateCmd p c) := by
  unfold cpTranslateCmd
  by_cases hno : (keysetRefused p c || statusUnlisted c) = true
  · rw [if_pos hno]
    exact .pure cmdInvalid
  · rw [if_neg hno]
    cases hw : wireCmdOf c with
    | some id => exact .pure id
    | none =>
      have hst := wireCmdOf_none hw hu he
      rw [hst, Bool.or_true] at hno
      exact absurd rfl hno

/-- The members that are no commands have no translation. -/
theorem cpTranslateCmd_untranslated (p : OsdpPd) {c : OsdpCmd} (s : Osdp)
    (h : c.untranslated = true) : cpTranslateCmd p c s = .error .bug s := by
  cases c <;> first | rfl | cases h

section Handled

variable (hr : ∀ calls, NoBug (run calls))
include hr

theorem noBug_cpSetupActiveCmd (i : Nat) {c : SubmittedCmd}
    (hu : c.cmd.untranslated = false) (he : c.cmd.forEngine = false) :
    NoBug (cpSetupActiveCmd env run i c) := by
  unfold cpSetupActiveCmd
  refine .bind (avoids_getPd i) fun p => ?_
  refine .bind (noBug_cpTranslateCmd p hu he) fun id => ?_
  grind

theorem noBug_cpGetBandCommand (i : Nat) {c : SubmittedCmd}
    (hu : c.cmd.untranslated = false) (he : c.cmd.forEngine = false) :
    NoBug (cpGetBandCommand env run i c) := by
  unfold cpGetBandCommand
  by_cases hstop : isTrsStop c = true
  · rw [if_pos hstop]
    refine .bind ?_ fun _ => .bind (noBug_updTrs i _) fun _ => .pure _
    exact .bind (noBug_cpCompleteCmd hr i _ _) fun _ =>
      noBug_setActiveCmd i none
  · rw [if_neg hstop]
    exact noBug_cpSetupActiveCmd hr i hu he

theorem noBug_cpGetEngineCommand (i : Nat) :
    NoBug (cpGetEngineCommand env run i) := by
  have hidle : NoBug (cpGetIdleCommand i) := by
    unfold cpGetIdleCommand cpGetPollCommand
    grind
  have hstaged : NoBug (cpGetStagedCommand env run i) := by
    unfold cpGetStagedCommand
    refine .bind (noBug_osdpPivCpGetCommand hr i) fun piv => ?_
    split
    · exact .pure piv
    · refine .bind (noBug_osdpBioCpGetCommand hr i) fun bio => ?_
      split
      · exact .pure bio
      · exact hidle
  unfold cpGetEngineCommand
  refine .bind (noBug_osdpFileTxGetCommand hr i) fun e => ?_
  cases e with
  | send id => exact .pure id
  | hold => exact .pure cmdInvalid
  | nothing => exact hstaged

theorem noBug_cpBuildCases (i : Nat) (cmd : Option OsdpCmd)
    (smb : Option Nat) (maxLen : Int) :
    NoBug (cpBuildCases env run i cmd smb maxLen) := by
  have happ : NoBug (buildAppCmd env i cmd maxLen) := by
    unfold buildAppCmd
    grind
  have hfile : NoBug (buildFiletransfer env run i maxLen) := by
    unfold buildFiletransfer
    exact .bind (noBug_osdpFileCmdTxBuild hr i _) fun _ => .pure _
  have hpiv : NoBug (buildPiv env run i maxLen) := by
    unfold buildPiv
    grind
  have hchlng : NoBug (buildChlng i smb maxLen) := by
    unfold buildChlng
    grind
  have hscrypt : NoBug (buildScrypt env i smb maxLen) := by
    unfold buildScrypt
    grind
  unfold cpBuildCases
  refine .bind (avoids_getPd i) fun p => ?_
  split <;> first | exact .pure _ | assumption

theorem noBug_cpBuildCommand (i : Nat) (cmd : Option OsdpCmd)
    (size : Nat) : NoBug (cpBuildCommand env run i cmd size) := by
  have hbody (smb : Option Nat) (maxLen : Int) :
      NoBug (cpBuildCases env run i cmd smb maxLen) :=
    noBug_cpBuildCases hr i cmd smb maxLen
  have hpick (smb : Option Nat) (len : Nat) :
      NoBug (cpPickBlockType i smb len) := by
    unfold cpPickBlockType
    grind
  have hend (off : Nat) (smb : Option Nat) (b : CmdBody) :
      NoBug (cpFinishCommand i off smb b) := by
    cases b with
    | fail => exact .pure none
    | data d =>
      exact .bind (noBug_writeBuf _ _ _) fun _ =>
        .bind (hpick _ _) fun _ => .pure _
    | abort =>
      exact .bind (noBug_writeBuf _ _ _) fun _ =>
        .bind (hpick _ _) fun _ => .pure _
  unfold cpBuildCommand
  grind

end Handled

end Commands

-- ================================================================ events

section Events

variable {env : Env} {run : List ApiCall → OsdpM Unit}

/-- The member that is no event of a PD's. -/
def OsdpEvent.untranslated : OsdpEvent → Bool
  | .notification _ => true
  | _ => false

/-- What is let through, that one apart, picks a reply. -/
theorem pdTranslateEvent_some {p : OsdpPd} {ev : OsdpEvent}
    (h : eventSubmittable p ev = true) (hu : ev.untranslated = false) :
    ∃ id, pdTranslateEvent ev = some id := by
  cases ev with
  | cardread readerNo format n data =>
    have hformat : cardFormatOk format = true :=
      (Bool.and_eq_true_iff.mp h).1
    cases format with
    | rawUnspecified | rawWiegand => exact ⟨_, rfl⟩
    | ascii | reserved code => cases hformat
  | notification n => cases hu
  | unlisted type =>
    have hno : false = true := (Bool.and_eq_true_iff.mp h).1
    cases hno
  | _ => exact ⟨_, rfl⟩

theorem noBug_pdTakeEvent (i : Nat) {ev : SubmittedEvent} {id : Nat}
    (h : pdTranslateEvent ev.event = some id)
    (rest : List SubmittedEvent) : NoBug (pdTakeEvent i ev rest) := by
  unfold pdTakeEvent
  rw [h]
  exact avoids_updPd i _

/-- The replies an event may pick. -/
def eventReplies : List Nat :=
  [replyRaw, replyKeypad, replyIstatr, replyOstatr, replyLstatr,
   replyRstatr, replyAck, replyMfgrep, replyMfgstatr, replyMfgerrr,
   replyBioreadr, replyBiomatchr, replyPivdatar, replyGenauthr,
   replyCrauthr, replyXrd]

theorem pdTranslateEvent_mem {ev : OsdpEvent} {id : Nat}
    (h : pdTranslateEvent ev = some id) : id ∈ eventReplies := by
  unfold pdTranslateEvent at h
  split at h
  case h_5 r =>
    obtain rfl : _ = id := Option.some.inj h
    split <;> decide
  all_goals first
    | (cases h; decide)
    | cases h

section Handled

variable (hr : ∀ calls, NoBug (run calls))
include hr

/-- `pd_build_reply` has a case for each of them. -/
theorem noBug_pdBuildCases (i : Nat) {id : Nat} (h : id ∈ eventReplies)
    (ev : Option OsdpEvent) (smb : Option Nat) (maxLen : Int) :
    NoBug (pdBuildCases env run i id ev smb maxLen) := by
  have hbio : NoBug (buildBioreadr env run i ev maxLen) := by
    unfold buildBioreadr
    refine .bind (avoids_getPd i) fun p => ?_
    split
    · exact noBug_osdpBioPdReplyBuild hr i _ _
    · cases ev with
      | none => exact .throw (by decide)
      | some ev => exact .pure _
  have hpiv (p : OsdpPd) :
      NoBug (osdpPivPdReplyBuild env run i (pivSeedOf p ev) maxLen) :=
    noBug_osdpPivPdReplyBuild hr i (pivSeedOf p ev) maxLen
  unfold eventReplies at h
  simp only [List.mem_cons, List.not_mem_nil, or_false] at h
  rcases h with rfl | rfl | rfl | rfl | rfl | rfl | rfl | rfl | rfl | rfl |
    rfl | rfl | rfl | rfl | rfl | rfl
  all_goals
    refine .bind (avoids_getPd i) fun p => ?_
    first | exact .pure _ | exact hpiv p | exact hbio

theorem noBug_pdFinishReply (i off : Nat) (smb : Option Nat)
    (maxLen : Int) (body : Option Bytes) :
    NoBug (pdFinishReply env run i off smb maxLen body) := by
  have hpick (len : Nat) : NoBug (pdPickBlockType i smb len) := by
    unfold pdPickBlockType
    grind
  have hend : NoBug (pdCompleteActive env run i .failed) := by
    unfold pdCompleteActive
    refine .bind (avoids_getPd i) fun p => ?_
    split
    · exact .bind (noBug_pdCompleteEvent hr _ _) fun _ => avoids_updPd i _
    · exact .pure ()
  unfold pdFinishReply
  cases body with
  | some data =>
    exact .bind (noBug_writeBuf _ _ _) fun _ =>
      .bind (hpick _) fun _ => .pure _
  | none =>
    dsimp only
    split
    · exact .pure _
    · exact .bind (noBug_writeBuf _ _ _) fun _ => .bind hend fun _ =>
        .bind (hpick _) fun _ => .pure _

theorem noBug_pdBuildBody (i size : Nat) {p : OsdpPd}
    (h : p.replyId ∈ eventReplies) :
    NoBug (pdBuildBody env run i size p) := by
  have hdata (smb : Option Nat) (maxLen : Int) :
      NoBug (pdBuildData env run i p smb maxLen) := by
    unfold pdBuildData
    dsimp only
    split
    · exact .pure none
    · exact noBug_pdBuildCases hr i h _ smb maxLen
  unfold pdBuildBody
  refine .bind (noBug_readBuf _) fun buf => ?_
  dsimp only
  split
  · exact .pure _
  · refine .bind (noBug_writeBuf _ _ _) fun _ => ?_
    refine .bind (hdata _ _) fun body => ?_
    exact noBug_pdFinishReply hr i _ _ _ body

/-- Building the reply an event has picked. -/
theorem pdBuildReply_ne_bug {i size : Nat} {s t : Osdp}
    (h : (s.pd i).replyId ∈ eventReplies) :
    pdBuildReply env run i size s ≠ .error .bug t := by
  have hbody : NoBug (do
      observe (.build i (s.pd i).replyId (s.pd i).flags.scActive)
      pdBuildBody env run i size (s.pd i)) :=
    .bind (avoids_observe _) fun _ => noBug_pdBuildBody hr i size h
  exact hbody s t

end Handled

end Events

-- ============================================================== accepted

section Accepted

variable {env : Env} {i : Nat} {s t : Osdp}

/-- The queue of PD `i` is as it was. -/
def SameQueue (i : Nat) (s t : Osdp) : Prop :=
  (t.pd i).cmdQueue = (s.pd i).cmdQueue

instance (i : Nat) : EngineMoves (SameQueue i) where
  refl _ := rfl
  trans _ _ _ h k := k.trans h
  engines s j f h := by
    unfold SameQueue
    by_cases e : i = j
    · subst e
      rw [updPd_pd_same]
      have e := congrArg OsdpPd.cmdQueue (h (s.pd i))
      exact e
    · rw [updPd_pd_ne s f e]
  fileOp _ _ _ := rfl

/-- Where an accepted command goes. -/
inductive Admitted (i : Nat) (c : SubmittedCmd) (s t : Osdp) : Prop
  | engine (kind : c.cmd.forEngine = true)
      (owned : (t.pd i).engineCmd = some c) (same : SameQueue i s t)
  | queued (kind : c.cmd.forEngine = false)
      (joins : (t.pd i).cmdQueue = (s.pd i).cmdQueue ++ [c])

theorem submitEngine_ok {c : SubmittedCmd} {m : OsdpM Bool} {type : MpMsg}
    (hm : Keeps (SameQueue i) m)
    (h : (do
      let ok ← m
      cpSubmitEngine i c type ok) s = .ok true t) :
    (t.pd i).engineCmd = some c ∧ SameQueue i s t := by
  obtain ⟨ok, u, hu, h⟩ := bind_ok.mp h
  have hsame : SameQueue i s u := hm.of hu
  cases ok with
  | false =>
    obtain ⟨e, -⟩ := pure_ok.mp h
    cases e
  | true =>
    obtain ⟨_, v, hv, h⟩ := bind_ok.mp h
    obtain ⟨-, rfl⟩ := pure_ok.mp h
    rw [← updPd_ok.mp hv, SameQueue, updPd_pd_same]
    exact ⟨rfl, hsame⟩

theorem submitQueued_ok {c : SubmittedCmd}
    (h : cpSubmitQueued i c s = .ok true t) :
    (t.pd i).cmdQueue = (s.pd i).cmdQueue ++ [c] := by
  obtain ⟨p, u, hp, h⟩ := bind_ok.mp h
  obtain ⟨rfl, rfl⟩ := getPd_ok.mp hp
  split at h
  · obtain ⟨e, -⟩ := pure_ok.mp h
    cases e
  · cases hband : cpBandAdmit (s.pd i) c.cmd with
    | none =>
      rw [hband] at h
      obtain ⟨e, -⟩ := pure_ok.mp h
      cases e
    | some isOpen =>
      rw [hband] at h
      obtain ⟨_, v, hv, h⟩ := bind_ok.mp h
      obtain ⟨_, w, hw, h⟩ := bind_ok.mp h
      obtain ⟨-, rfl⟩ := pure_ok.mp h
      rw [← updPd_ok.mp hw, ← updPd_ok.mp hv, updPd_pd_same, updPd_pd_same]

/-- The checks passed, a command goes to its engine or joins the queue. -/
theorem submitCommand_ok {c : SubmittedCmd}
    (h : cpSubmitCommand env i c s = .ok true t) : Admitted i c s t := by
  obtain ⟨s', u, hg, h⟩ := bind_ok.mp h
  obtain ⟨rfl, rfl⟩ := get_ok.mp hg
  obtain ⟨p, u, hp, h⟩ := bind_ok.mp h
  obtain ⟨rfl, rfl⟩ := getPd_ok.mp hp
  split at h
  · obtain ⟨e, -⟩ := pure_ok.mp h
    cases e
  · cases hc : c.cmd with
    | fileTx id flags =>
      rw [hc] at h
      obtain ⟨ho, hs⟩ := submitEngine_ok (keeps_osdpFileTxCommand i _ _) h
      exact .engine (by rw [hc]; rfl) ho hs
    | pivdata req =>
      rw [hc] at h
      obtain ⟨ho, hs⟩ := submitEngine_ok (keeps_osdpPivCpSubmit i _) h
      exact .engine (by rw [hc]; rfl) ho hs
    | genauth auth =>
      rw [hc] at h
      obtain ⟨ho, hs⟩ := submitEngine_ok (keeps_osdpPivCpSubmit i _) h
      exact .engine (by rw [hc]; rfl) ho hs
    | crauth auth =>
      rw [hc] at h
      obtain ⟨ho, hs⟩ := submitEngine_ok (keeps_osdpPivCpSubmit i _) h
      exact .engine (by rw [hc]; rfl) ho hs
    | _ =>
      rw [hc] at h
      exact .queued (by rw [hc]; rfl) (submitQueued_ok h)

theorem osdpCpSubmitCommand_ok {c : SubmittedCmd}
    (h : osdpCpSubmitCommand env i c s = .ok true t) :
    Admitted i c s t := by
  obtain ⟨s', u, hg, h⟩ := bind_ok.mp h
  obtain ⟨rfl, rfl⟩ := get_ok.mp hg
  split at h
  · obtain ⟨e, -⟩ := pure_ok.mp h
    cases e
  · obtain ⟨_, u, hu, h⟩ := bind_ok.mp h
    obtain ⟨ok, v, hv, h⟩ := bind_ok.mp h
    obtain ⟨_, w, hw, h⟩ := bind_ok.mp h
    have hu := modify_ok.mp hu
    have hw := modify_ok.mp hw
    cases ok with
    | false =>
      obtain ⟨e, -⟩ := pure_ok.mp h
      cases e
    | true =>
      obtain ⟨_, x, hx, h⟩ := bind_ok.mp h
      obtain ⟨-, rfl⟩ := pure_ok.mp h
      have hpd : x.pd = v.pd := by
        rw [← observe_ok.mp hx, ← hw]
      have hstart : u.pd = s.pd := by rw [← hu]
      cases submitCommand_ok hv with
      | engine kind owned same =>
        refine .engine kind (by rw [hpd]; exact owned) ?_
        rw [SameQueue, hpd, ← hstart]
        exact same
      | queued kind joins =>
        exact .queued kind (by rw [hpd, ← hstart]; exact joins)

/-- An accepted event has passed the checks, and waits. -/
theorem osdpPdSubmitEvent_ok {ev : SubmittedEvent}
    (h : osdpPdSubmitEvent env i ev s = .ok 0 t) :
    eventSubmittable (s.pd i) ev.event = true ∧
      (t.pd i).eventQueue = (s.pd i).eventQueue ++ [ev] := by
  obtain ⟨s', u, hg, h⟩ := bind_ok.mp h
  obtain ⟨rfl, rfl⟩ := get_ok.mp hg
  split at h
  · obtain ⟨e, -⟩ := pure_ok.mp h
    cases e
  · obtain ⟨p, u, hp, h⟩ := bind_ok.mp h
    obtain ⟨rfl, rfl⟩ := getPd_ok.mp hp
    split at h
    · obtain ⟨e, -⟩ := pure_ok.mp h
      cases e
    · next hok =>
      obtain ⟨_, v, hv, h⟩ := bind_ok.mp h
      obtain ⟨-, rfl⟩ := pure_ok.mp h
      refine ⟨by simpa using hok, ?_⟩
      rw [← updPd_ok.mp hv, updPd_pd_same]

end Accepted

-- =============================================================== results

/-- A queued command meets no `BUG()`, whenever its turn comes and
whatever has become of the PD. -/
structure CmdHandled (env : Env) (depth i : Nat) (c : SubmittedCmd) :
    Prop where
  setup : NoBug (cpSetupActiveCmd env (cpRunCalls env depth) i c)
  band : NoBug (cpGetBandCommand env (cpRunCalls env depth) i c)
  build : ∀ size, NoBug
    (cpBuildCommand env (cpRunCalls env depth) i (some c.cmd) size)

/-- Nor does one the engines carry out. -/
structure EngineHandled (env : Env) (depth i : Nat) : Prop where
  pick : NoBug (cpGetEngineCommand env (cpRunCalls env depth) i)
  build : ∀ cmd size, NoBug
    (cpBuildCommand env (cpRunCalls env depth) i cmd size)

/-- The command, accepted between `s` and `t`, is carried out without a
`BUG()` on the route it takes. -/
inductive CmdSafe (env : Env) (depth i : Nat) (c : SubmittedCmd)
    (s t : Osdp) : Prop
  | engine (owned : (t.pd i).engineCmd = some c) (same : SameQueue i s t)
      (handled : EngineHandled env depth i)
  | queued (joins : (t.pd i).cmdQueue = (s.pd i).cmdQueue ++ [c])
      (handled : CmdHandled env depth i c)

/-- The event, accepted between `s` and `t`, is taken and its reply built
without a `BUG()`. -/
structure EventSafe (env : Env) (depth i : Nat) (ev : SubmittedEvent)
    (s t : Osdp) : Prop where
  joins : (t.pd i).eventQueue = (s.pd i).eventQueue ++ [ev]
  take : ∀ rest, NoBug (pdTakeEvent i ev rest)
  build : ∀ size u v, pdTranslateEvent ev.event = some (u.pd i).replyId →
    pdBuildReply env (pdRunCalls env depth) i size u ≠ .error .bug v

/-- What the library accepts it carries out, in every state it may meet it
in, unless it is one of the members of the two enumerations that are not
for the application to submit, or an id outside them. -/
theorem submissions_never_abort (env : Env) (depth i : Nat) :
    (∀ c s t, osdpCpSubmitCommand env i c s = .ok true t →
      (CmdSafe env depth i c s t ↔ c.cmd.untranslated = false)) ∧
    (∀ ev s t, osdpPdSubmitEvent env i ev s = .ok 0 t →
      (EventSafe env depth i ev s t ↔ ev.event.untranslated = false)) := by
  have hcp := noBug_cpRunCalls env depth
  have hpd := noBug_pdRunCalls env depth
  constructor
  · intro c s t h
    constructor
    · intro hsafe
      cases hu : c.cmd.untranslated with
      | false => rfl
      | true =>
        have herr : cpSetupActiveCmd env (cpRunCalls env depth) i c t
            = .error .bug t := by
          show (cpTranslateCmd (t.pd i) c.cmd >>= _) t = _
          simp only [Bind.bind, EStateM.bind,
            cpTranslateCmd_untranslated (t.pd i) t hu]
        have hkind : c.cmd.forEngine = false := by
          cases hc : c.cmd <;> rw [hc] at hu <;> first | rfl | cases hu
        cases hsafe with
        | queued joins handled => exact absurd herr (handled.setup t t)
        | engine owned same handled =>
          cases osdpCpSubmitCommand_ok h with
          | engine kind owned' same' => cases hkind.symm.trans kind
          | queued kind joins =>
            have hlen := congrArg List.length (joins.symm.trans same)
            simp at hlen
    · intro hu
      cases osdpCpSubmitCommand_ok h with
      | engine kind owned same =>
        exact .engine owned same ⟨noBug_cpGetEngineCommand hcp i,
          noBug_cpBuildCommand hcp i⟩
      | queued kind joins =>
        exact .queued joins ⟨noBug_cpSetupActiveCmd hcp i hu kind,
          noBug_cpGetBandCommand hcp i hu kind,
          noBug_cpBuildCommand hcp i _⟩
  · intro ev s t h
    obtain ⟨hok, hjoins⟩ := osdpPdSubmitEvent_ok h
    constructor
    · intro hsafe
      cases hu : ev.event.untranslated with
      | false => rfl
      | true =>
        have herr : pdTakeEvent i ev [] t = .error .bug t := by
          unfold pdTakeEvent
          cases hev : ev.event <;> rw [hev] at hu <;>
            first | rfl | cases hu
        exact absurd herr (hsafe.take [] t t)
    · intro hu
      obtain ⟨id, hid⟩ := pdTranslateEvent_some hok hu
      exact ⟨hjoins, noBug_pdTakeEvent i hid, fun size u v hp =>
        pdBuildReply_ne_bug hpd (pdTranslateEvent_mem hp)⟩

/-- A CP with one PD that is online. -/
def onlineCp : Osdp where
  numPd := 1
  pd _ := { state := .online, address := 1, baudRate := 9600 }

/-- The surroundings it runs in. -/
abbrev onlineEnv : Env := plainEnv (knownCipher []) fun _ => 0

/-- A CP that asks for the buzzer. -/
theorem submissions_never_abort_buzzer :
    ∃ t, osdpCpSubmitCommand onlineEnv 0
        { node := 1, cmd := .buzzer 0 2 1 1 3 } onlineCp = .ok true t ∧
      CmdSafe onlineEnv 1 0 { node := 1, cmd := .buzzer 0 2 1 1 3 }
        onlineCp t := by
  have h : ∃ t, osdpCpSubmitCommand onlineEnv 0
      { node := 1, cmd := .buzzer 0 2 1 1 3 } onlineCp = .ok true t :=
    ⟨_, rfl⟩
  obtain ⟨t, h⟩ := h
  exact ⟨t, h,
    ((submissions_never_abort onlineEnv 1 0).1 _ _ _ h).mpr rfl⟩

/-- A PD's link, set up, and a command that is none of the CP's. -/
def comsetDoneInputs : List CpInput :=
  [.refresh 0 [], .refresh 1 [],
   .refresh 10 (writeBe 21 0xFF538114000445000000000000000000000000235B),
   .refresh 11 [], .refresh 12 [],
   .refresh 20 (writeBe 12 0xFF53810B0005460C01013238), .refresh 21 [],
   .call (.cpSubmitCommand 0 { node := 7, cmd := .comsetDone 1 9600 })]

/-- OSDP_CMD_COMSET_DONE is accepted from the application, and ends the
process in the refresh after. -/
theorem submissions_never_abort_comsetDone :
    ∃ s t, osdpCpSetup onlineEnv [{ address := 1 }] = some s ∧
      CpRun onlineEnv 1 anyCpInput s comsetDoneInputs t ∧
      .accepted 0 7 ∈ t.log ∧
      ∃ v, cpStep onlineEnv 1 (.refresh 30 []) t = .error .bug v := by
  obtain ⟨s, t, hs, hrun, hlog, hbug⟩ :=
    run_of_setup (cpStep onlineEnv 1) anyCpInput
      (osdpCpSetup onlineEnv [{ address := 1 }]) comsetDoneInputs
      (fun t => .accepted 0 7 ∈ t.log ∧
        endsIn .bug (cpStep onlineEnv 1 (.refresh 30 []) t) = true)
      (by decide +kernel)
  exact ⟨s, t, hs, hrun, hlog, endsIn_iff.mp hbug⟩

end LibOsdp
