/-
The engines never reach a `BUG()`.

Each engine function is looked at once, with the application's calls as a
parameter that never gets there either.  The errors the engines do end in
are others: a failed assertion, an access out of bounds.
-/
import LibOsdp.Engine.Proofs.Notices
import LibOsdp.Lib.Avoids

namespace LibOsdp

open Lib

variable {e : Fault}

/-- No run of it ends the process in a `BUG()`. -/
abbrev NoBug {α : Type} (m : OsdpM α) : Prop := Avoids Fault.bug m

-- =========================================================== primitives

@[grind ←]
theorem avoids_getPd (i : Nat) : Avoids e (getPd i) := by
  intro s t h
  cases h

@[grind ←]
theorem avoids_updPd (i : Nat) (f : OsdpPd → OsdpPd) :
    Avoids e (updPd i f) := by
  intro s t h
  cases h

@[grind ←]
theorem avoids_observe (o : Obs) : Avoids e (observe o) := by
  intro s t h
  cases h

@[grind ←]
theorem avoids_osdpMillisNow : Avoids e osdpMillisNow := by
  intro s t h
  cases h

@[grind ←]
theorem avoids_osdpMillisSince (last : Int) :
    Avoids e (osdpMillisSince last) := by
  intro s t h
  cases h

@[grind ←]
theorem noBug_assertC (c : Bool) : NoBug (assertC c) := by
  unfold assertC
  split
  · exact .pure ()
  · exact .throw (by decide)

@[grind ←]
theorem avoids_getMp (i : Nat) (slot : MpSlot) : Avoids e (getMp i slot) := by
  unfold getMp
  exact .bind (avoids_getPd i) fun _ => .pure _

@[grind ←]
theorem avoids_updMp (i : Nat) (slot : MpSlot) (f : Multipart → Multipart) :
    Avoids e (updMp i slot f) := avoids_updPd i _

@[grind ←]
theorem avoids_updFile (i : Nat) (f : OsdpFile → OsdpFile) :
    Avoids e (updFile i f) := avoids_updPd i _

@[grind ←]
theorem avoids_updPiv (i : Nat) (f : OsdpPiv → OsdpPiv) :
    Avoids e (updPiv i f) := avoids_updPd i _

@[grind ←]
theorem avoids_updBio (i : Nat) (f : OsdpBio → OsdpBio) :
    Avoids e (updBio i f) := avoids_updPd i _

@[grind ←]
theorem avoids_pivGet (i : Nat) : Avoids e (pivGet i) := avoids_updPd i _

@[grind ←]
theorem avoids_bioGet (i : Nat) : Avoids e (bioGet i) := avoids_updPd i _

-- ============================================================= transfers

section Transfers

variable {env : Env}

@[grind ←]
theorem avoids_osdpMpTxInit (i : Nat) (slot : MpSlot) (total : Nat)
    (w : MpWidth) : Avoids e (osdpMpTxInit i slot total w) := by
  unfold osdpMpTxInit
  grind

@[grind ←]
theorem noBug_mpRead (i : Nat) (slot : MpSlot) (size offset : Nat) :
    NoBug (mpRead env i slot size offset) := by
  unfold mpRead
  refine .bind (avoids_getPd i) fun p => ?_
  split
  · exact .throw (by decide)
  · grind
  · grind

@[grind ←]
theorem noBug_osdpMpTxBuildEx (i : Nat) (slot : MpSlot) (maxLen : Int)
    (pfx : Bytes) : NoBug (osdpMpTxBuildEx env i slot maxLen pfx) := by
  unfold osdpMpTxBuildEx
  grind

@[grind ←]
theorem avoids_osdpMpRxInit (i : Nat) (slot : MpSlot) (w : MpWidth)
    (total : Nat) : Avoids e (osdpMpRxInit i slot w total) := avoids_updMp i _ _

@[grind ←]
theorem avoids_osdpMpTxBuildIdle (i : Nat) (slot : MpSlot) :
    Avoids e (osdpMpTxBuildIdle i slot) := by
  unfold osdpMpTxBuildIdle
  grind

@[grind ←]
theorem avoids_fileCloseIfOpen (i : Nat) : Avoids e (fileCloseIfOpen i) := by
  unfold fileCloseIfOpen
  grind

@[grind ←]
theorem avoids_fileStateReset (i : Nat) : Avoids e (fileStateReset i) :=
  avoids_updFile i _

@[grind ←]
theorem avoids_pivOpReset (i : Nat) : Avoids e (pivOpReset i) :=
  avoids_updPiv i _

@[grind ←]
theorem avoids_pivOpSetup (i : Nat) (f : PivFamily) (objectId : Nat) :
    Avoids e (pivOpSetup i f objectId) := by
  unfold pivOpSetup
  grind

@[grind ←]
theorem avoids_bioOpReset (i : Nat) : Avoids e (bioOpReset i) :=
  avoids_updBio i _

@[grind ←]
theorem avoids_osdpFileTxRequestCancel (i : Nat) :
    Avoids e (osdpFileTxRequestCancel i) := by
  unfold osdpFileTxRequestCancel
  grind

@[grind ←]
theorem avoids_osdpPivRequestCancel (i : Nat) (msg : MpMsg) :
    Avoids e (osdpPivRequestCancel i msg) := by
  unfold osdpPivRequestCancel
  grind

@[grind ←]
theorem avoids_osdpBioRequestCancel (i : Nat) :
    Avoids e (osdpBioRequestCancel i) := by
  unfold osdpBioRequestCancel
  grind

@[grind ←]
theorem avoids_osdpFileTxCommand (i fileId : Nat) (flags : UInt32) :
    Avoids e (osdpFileTxCommand env i fileId flags) := by
  unfold osdpFileTxCommand
  grind

@[grind ←]
theorem avoids_pivSubmitAuth (i : Nat) (f : PivFamily) (auth : AuthArgs) :
    Avoids e (pivSubmitAuth i f auth) := by
  unfold pivSubmitAuth
  grind

@[grind ←]
theorem avoids_osdpPivCpSubmit (i : Nat) (cmd : OsdpCmd) :
    Avoids e (osdpPivCpSubmit i cmd) := by
  unfold osdpPivCpSubmit
  grind

end Transfers

-- ========================================================= notifications

section Notices

variable {env : Env} {run : List ApiCall → OsdpM Unit}
variable (hr : ∀ calls, NoBug (run calls))
include hr

@[grind ←]
theorem noBug_callCommandCallback (i : Nat) (cmd : OsdpCmd) :
    NoBug (callCommandCallback env run i cmd) := by
  unfold callCommandCallback
  split
  · exact .pure _
  · refine .bind .get fun s => .bind (avoids_observe _) fun _ => ?_
    exact .bind (hr _) fun _ => .pure _

@[grind ←]
theorem noBug_pdCompleteEvent (ev : Option SubmittedEvent)
    (status : CompletionStatus) :
    NoBug (pdCompleteEvent env run ev status) := by
  unfold pdCompleteEvent
  split
  · refine .bind .get fun s => ?_
    exact .bind (avoids_observe _) fun _ => hr _
  · exact .pure ()

@[grind ←]
theorem noBug_cpDispatchEvent (i : Nat) (ev : OsdpEvent) :
    NoBug (cpDispatchEvent env run i ev) := by
  unfold cpDispatchEvent
  split
  · exact .pure ()
  · exact .bind .get fun s => .bind (avoids_observe _) fun _ => hr _

@[grind ←]
theorem noBug_cpCompleteCmd (i : Nat) (cmd : Option SubmittedCmd)
    (status : CompletionStatus) :
    NoBug (cpCompleteCmd env run i cmd status) := by
  unfold cpCompleteCmd
  split
  · exact .bind .get fun s => .bind (avoids_observe _) fun _ => hr _
  · exact .pure ()

theorem noBug_mpDeliverNotification (i : Nat) (phase : MpPhase)
    (g : MpProgress) : NoBug (mpDeliverNotification env run i phase g) := by
  unfold mpDeliverNotification
  refine .bind (avoids_getPd i) fun p => ?_
  split
  · split
    · exact .bind (noBug_callCommandCallback hr i _) fun _ => .pure ()
    · exact noBug_cpDispatchEvent hr i _
  · exact .pure ()

@[grind ←]
theorem noBug_osdpMpPdNotify (i : Nat) (phase : MpPhase)
    (g : MpProgress) : NoBug (osdpMpPdNotify env run i phase g) := by
  unfold osdpMpPdNotify
  refine .bind (noBug_mpDeliverNotification hr i phase g) fun _ => ?_
  refine .bind (avoids_getPd i) fun p => ?_
  split
  · refine .bind (avoids_updPd i _) fun _ => .bind .get fun s => ?_
    exact noBug_cpCompleteCmd hr i _ _
  · exact .pure ()

@[grind ←]
theorem noBug_mpEmit (i : Nat) (slot : MpSlot) (phase : MpPhase) :
    NoBug (mpEmit env run i slot phase) := by
  unfold mpEmit
  refine .bind (avoids_getMp i slot) fun m => ?_
  split
  · exact noBug_osdpMpPdNotify hr i _ _
  · exact .pure ()

@[grind ←]
theorem noBug_osdpMpEmitStart (i : Nat) (slot : MpSlot) :
    NoBug (osdpMpEmitStart env run i slot) := by
  unfold osdpMpEmitStart
  refine .bind (avoids_getMp i slot) fun m => ?_
  split
  · exact .bind (avoids_updMp i slot _) fun _ => noBug_mpEmit hr i slot _
  · exact .pure ()

@[grind ←]
theorem noBug_osdpMpFinish (i : Nat) (slot : MpSlot)
    (outcome : MpOutcome) : NoBug (osdpMpFinish env run i slot outcome) := by
  unfold osdpMpFinish
  refine .bind (avoids_getMp i slot) fun m => ?_
  split
  · exact .pure ()
  · exact .bind (avoids_updMp i slot _) fun _ => noBug_mpEmit hr i slot _

@[grind ←]
theorem noBug_osdpMpTxCommit (i : Nat) (slot : MpSlot) :
    NoBug (osdpMpTxCommit env run i slot) := by
  unfold osdpMpTxCommit
  refine .bind (avoids_getMp i slot) fun m => ?_
  refine .bind (avoids_updMp i slot _) fun _ => ?_
  split
  · exact noBug_mpEmit hr i slot _
  · exact .pure ()

@[grind ←]
theorem noBug_fileTransitionDone (i : Nat) (outcome : MpOutcome) :
    NoBug (fileTransitionDone env run i outcome) := by
  unfold fileTransitionDone
  refine .bind (avoids_updFile i _) fun _ => ?_
  refine .bind (noBug_osdpMpEmitStart hr i _) fun _ => ?_
  refine .bind (noBug_osdpMpFinish hr i _ _) fun _ => ?_
  refine .bind (avoids_fileCloseIfOpen i) fun _ => ?_
  refine .bind (avoids_getPd i) fun p => ?_
  split
  · exact .bind (avoids_updPd i _) fun _ => avoids_fileStateReset i
  · exact avoids_fileStateReset i

@[grind ←]
theorem noBug_pivEmitStart (i : Nat) : NoBug (pivEmitStart env run i) := by
  unfold pivEmitStart
  refine .bind (avoids_getPd i) fun p => ?_
  split
  · refine .bind (avoids_updPiv i _) fun _ => ?_
    exact noBug_osdpMpEmitStart hr i _
  · exact .pure ()

@[grind ←]
theorem noBug_osdpPivAbort (i : Nat) : NoBug (osdpPivAbort env run i) := by
  unfold osdpPivAbort
  refine .bind (avoids_getPd i) fun p => ?_
  split
  · refine .bind (noBug_pivEmitStart hr i) fun _ => ?_
    refine .bind (noBug_osdpMpFinish hr i _ _) fun _ => ?_
    exact avoids_pivOpReset i
  · exact .pure ()

@[grind ←]
theorem noBug_bioEmitStart (i : Nat) : NoBug (bioEmitStart env run i) := by
  unfold bioEmitStart
  refine .bind (avoids_getPd i) fun p => ?_
  split
  · refine .bind (avoids_updBio i _) fun _ => ?_
    exact noBug_osdpMpEmitStart hr i _
  · exact .pure ()

@[grind ←]
theorem noBug_osdpBioAbort (i : Nat) : NoBug (osdpBioAbort env run i) := by
  unfold osdpBioAbort
  refine .bind (avoids_getPd i) fun p => ?_
  split
  · refine .bind (noBug_bioEmitStart hr i) fun _ => ?_
    refine .bind (noBug_osdpMpFinish hr i _ _) fun _ => ?_
    exact avoids_bioOpReset i
  · exact .pure ()

@[grind ←]
theorem noBug_bioOpOpen (i : Nat) (reader : UInt8) :
    NoBug (bioOpOpen env run i reader) := by
  unfold bioOpOpen
  refine .bind (noBug_osdpBioAbort hr i) fun _ => ?_
  exact .bind avoids_osdpMillisNow fun now => avoids_updBio i _

-- =============================================================== senders

@[grind ←]
theorem noBug_osdpFileCmdTxBuild (i : Nat) (maxLen : Int) :
    NoBug (osdpFileCmdTxBuild env run i maxLen) := by
  have hend : NoBug (do
      fileTransitionDone env run i .aborted
      return (none : Option Bytes)) :=
    .bind (noBug_fileTransitionDone hr i _) fun _ => .pure none
  unfold osdpFileCmdTxBuild
  refine .bind (avoids_getPd i) fun p => ?_
  refine .bind (noBug_assertC _) fun _ => .bind (noBug_assertC _) fun _ => ?_
  dsimp only
  split
  · exact hend
  · split
    · exact .bind (avoids_osdpMpTxBuildIdle i _) fun _ => .pure _
    · split
      · exact hend
      · refine .bind (noBug_osdpMpTxBuildEx i _ _ _) fun frag => ?_
        cases frag with
        | none => exact hend
        | some frag =>
          refine .bind (avoids_getMp i _) fun m => ?_
          split
          · split
            · exact .bind (avoids_updFile i _) fun _ => .pure _
            · exact .pure _
          · exact .bind (avoids_updFile i _) fun _ => .pure _

@[grind ←]
theorem noBug_osdpPivCpCmdBuild (i : Nat) (maxLen : Int) :
    NoBug (osdpPivCpCmdBuild env run i maxLen) := by
  unfold osdpPivCpCmdBuild
  grind

@[grind ←]
theorem noBug_osdpFileTxGetCommand (i : Nat) :
    NoBug (osdpFileTxGetCommand env run i) := by
  unfold osdpFileTxGetCommand
  grind

@[grind ←]
theorem noBug_osdpPivCpGetCommand (i : Nat) :
    NoBug (osdpPivCpGetCommand env run i) := by
  unfold osdpPivCpGetCommand
  grind

@[grind ←]
theorem noBug_osdpBioCpGetCommand (i : Nat) :
    NoBug (osdpBioCpGetCommand env run i) := by
  unfold osdpBioCpGetCommand
  grind

@[grind ←]
theorem noBug_pivSeed (i length : Nat) (data : Bytes) :
    NoBug (pivSeed env run i length data) := by
  unfold pivSeed
  grind

@[grind ←]
theorem noBug_pivPdFragment (i : Nat) (maxLen : Int) :
    NoBug (pivPdFragment env run i maxLen) := by
  unfold pivPdFragment
  refine .bind (noBug_osdpMpTxBuildEx i _ _ _) fun frag => ?_
  cases frag with
  | none => exact .bind (noBug_osdpPivAbort hr i) fun _ => .pure none
  | some frag =>
    refine .bind (noBug_osdpMpTxCommit hr i _) fun _ => ?_
    refine .bind avoids_osdpMillisNow fun now => ?_
    refine .bind (avoids_updPiv i _) fun _ => ?_
    refine .bind (avoids_getMp i _) fun m => ?_
    split
    · refine .bind (noBug_osdpMpFinish hr i _ _) fun _ => ?_
      exact .bind (avoids_pivOpReset i) fun _ => .pure _
    · exact .pure _

@[grind ←]
theorem noBug_osdpPivPdReplyBuild (i : Nat) (seed : Option (Nat × Bytes))
    (maxLen : Int) : NoBug (osdpPivPdReplyBuild env run i seed maxLen) := by
  unfold osdpPivPdReplyBuild
  grind

@[grind ←]
theorem noBug_bioPdFragment (i : Nat) (maxLen : Int) :
    NoBug (bioPdFragment env run i maxLen) := by
  unfold bioPdFragment
  refine .bind (avoids_getMp i _) fun m => ?_
  refine .bind (noBug_osdpMpTxBuildEx i _ _ _) fun frag => ?_
  cases frag with
  | none => exact .bind (noBug_osdpBioAbort hr i) fun _ => .pure none
  | some frag =>
    refine .bind (avoids_getPd i) fun p => ?_
    refine .bind (noBug_osdpMpTxCommit hr i _) fun _ => ?_
    refine .bind avoids_osdpMillisNow fun now => ?_
    refine .bind (avoids_updBio i _) fun _ => ?_
    refine .bind (avoids_getMp i _) fun m => ?_
    dsimp only
    split
    · refine .bind (noBug_osdpMpFinish hr i _ _) fun _ => ?_
      exact .bind (avoids_bioOpReset i) fun _ => .pure _
    · exact .pure _

@[grind ←]
theorem noBug_osdpBioPdReplyBuild (i : Nat) (seed : Option BioReadr)
    (maxLen : Int) : NoBug (osdpBioPdReplyBuild env run i seed maxLen) := by
  unfold osdpBioPdReplyBuild
  cases seed with
  | none =>
    refine .bind (avoids_getPd i) fun p => ?_
    split
    · exact .pure none
    · exact noBug_bioPdFragment hr i maxLen
  | some r =>
    refine .bind (avoids_bioGet i) fun _ => ?_
    dsimp only
    split
    · exact .pure none
    · refine .bind (avoids_updBio i _) fun _ => ?_
      split
      · exact .bind (avoids_getPd i) fun p => .pure _
      · refine .bind (noBug_bioOpOpen hr i _) fun _ => ?_
        refine .bind (avoids_updBio i _) fun _ => ?_
        refine .bind (avoids_updMp i _ _) fun _ => ?_
        refine .bind (avoids_osdpMpTxInit i _ _ _) fun _ => ?_
        refine .bind (noBug_bioEmitStart hr i) fun _ => ?_
        refine .bind (avoids_updBio i _) fun _ => ?_
        exact noBug_bioPdFragment hr i maxLen

end Notices

end LibOsdp
