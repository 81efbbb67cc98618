/-
What the engines touch: their own contexts, the registered file
operations, and the one request bit a finished file transfer raises.
Everything else they do goes through the transfer notification.

# One traversal for every relation

The lemmas are stated for an arbitrary preorder on states that is closed
under the engines' own moves (`EngineMoves`) and kept by the
notification.  A role's relation only has to supply those two; what the
notification may do depends on the role and on its callbacks.
-/
import LibOsdp.Engine.Engines
import LibOsdp.Common.Frame

namespace LibOsdp

open Lib

/-- A PD without what belongs to the engines. -/
@[grind] def OsdpPd.sansEngines (p : OsdpPd) : OsdpPd :=
  { p with
    file := none
    piv := none
    bio := none
    request := { p.request with offline := false } }

/-- A preorder on states that the engines' own moves stay within. -/
class EngineMoves (R : Osdp → Osdp → Prop) : Prop extends
    IsPreorder Osdp R where
  engines : ∀ s i f, (∀ p : OsdpPd, (f p).sansEngines = p.sansEngines) →
    R s (s.updPd i f)
  fileOp : ∀ s i op, R s { s with log := .file i op :: s.log }

section Primitive

variable {R : Osdp → Osdp → Prop} [IsPreorder Osdp R]

@[grind ←]
theorem keeps_getMp (i : Nat) (slot : MpSlot) : Keeps R (getMp i slot) := by
  unfold getMp
  exact .bind (keeps_getPd i) fun _ => .pure _

end Primitive

section Engine

variable {env : Env} {run : List ApiCall → OsdpM Unit}
variable {R : Osdp → Osdp → Prop} [EngineMoves R]

-- ============================================================ primitives

/-- An update of the engines' contexts. -/
theorem keeps_updPd_engines {i : Nat} {f : OsdpPd → OsdpPd}
    (h : ∀ p : OsdpPd, (f p).sansEngines = p.sansEngines) :
    Keeps R (updPd i f) := by
  intro s a t e
  cases e
  exact EngineMoves.engines s i f h

@[grind ←]
theorem keeps_observe_file (i : Nat) (op : FileOp) :
    Keeps R (observe (.file i op)) := by
  intro s a t e
  cases e
  exact EngineMoves.fileOp s i op

theorem sansEngines_setMp (p : OsdpPd) (slot : MpSlot) (m : Multipart) :
    (p.setMp slot m).sansEngines = p.sansEngines := by
  cases slot <;> rfl

theorem sansEngines_setStaging (p : OsdpPd) (slot : MpSlot) (d : Bytes) :
    (p.setStaging slot d).sansEngines = p.sansEngines := by
  cases slot <;> rfl

@[grind ←]
theorem keeps_updMp (i : Nat) (slot : MpSlot) (f : Multipart → Multipart) :
    Keeps R (updMp i slot f) :=
  keeps_updPd_engines fun p => sansEngines_setMp p slot _

@[grind ←]
theorem keeps_updFile (i : Nat) (f : OsdpFile → OsdpFile) :
    Keeps R (updFile i f) :=
  keeps_updPd_engines fun _ => rfl

@[grind ←]
theorem keeps_updPiv (i : Nat) (f : OsdpPiv → OsdpPiv) :
    Keeps R (updPiv i f) :=
  keeps_updPd_engines fun _ => rfl

@[grind ←]
theorem keeps_updBio (i : Nat) (f : OsdpBio → OsdpBio) :
    Keeps R (updBio i f) :=
  keeps_updPd_engines fun _ => rfl

@[grind ←]
theorem keeps_pivGet (i : Nat) : Keeps R (pivGet i) :=
  keeps_updPd_engines fun _ => rfl

@[grind ←]
theorem keeps_bioGet (i : Nat) : Keeps R (bioGet i) :=
  keeps_updPd_engines fun _ => rfl

@[grind ←]
theorem keeps_osdpMpTxInit (i : Nat) (slot : MpSlot) (total : Nat)
    (w : MpWidth) : Keeps R (osdpMpTxInit i slot total w) := by
  unfold osdpMpTxInit
  grind

@[grind ←]
theorem keeps_osdpMpRxInit (i : Nat) (slot : MpSlot) (w : MpWidth)
    (total : Nat) : Keeps R (osdpMpRxInit i slot w total) :=
  keeps_updMp i slot _

@[grind ←]
theorem keeps_mpRead (i : Nat) (slot : MpSlot) (size offset : Nat) :
    Keeps R (mpRead env i slot size offset) := by
  unfold mpRead
  grind

@[grind ←]
theorem keeps_osdpMpTxBuildEx (i : Nat) (slot : MpSlot) (maxLen : Int)
    (pfx : Bytes) : Keeps R (osdpMpTxBuildEx env i slot maxLen pfx) := by
  unfold osdpMpTxBuildEx
  grind

@[grind ←]
theorem keeps_osdpMpTxBuildIdle (i : Nat) (slot : MpSlot) :
    Keeps R (osdpMpTxBuildIdle i slot) := by
  unfold osdpMpTxBuildIdle
  grind

@[grind ←]
theorem keeps_mpWrite (i : Nat) (slot : MpSlot) (data : Bytes)
    (offset : Nat) : Keeps R (mpWrite env i slot data offset) := by
  have hfail : Keeps R (updPd i fun p =>
      { p with file := p.file.map fun f => { f with writeFailed := true } }) :=
    keeps_updPd_engines fun _ => rfl
  have hstage : Keeps R (updPd i fun p =>
      p.setStaging slot (writeAt (p.staging slot) offset data)) :=
    keeps_updPd_engines fun p => sansEngines_setStaging p slot _
  unfold mpWrite
  grind

@[grind ←]
theorem keeps_osdpMpRxConsumeEx (i : Nat) (slot : MpSlot) (buf : Bytes)
    (pfxLen : Nat) : Keeps R (osdpMpRxConsumeEx env i slot buf pfxLen) := by
  unfold osdpMpRxConsumeEx
  grind

@[grind ←]
theorem keeps_fileStateReset (i : Nat) : Keeps R (fileStateReset i) :=
  keeps_updFile i _

@[grind ←]
theorem keeps_fileCloseIfOpen (i : Nat) : Keeps R (fileCloseIfOpen i) := by
  unfold fileCloseIfOpen
  grind

@[grind ←]
theorem keeps_pivOpReset (i : Nat) : Keeps R (pivOpReset i) :=
  keeps_updPiv i _

@[grind ←]
theorem keeps_pivOpSetup (i : Nat) (f : PivFamily) (objectId : Nat) :
    Keeps R (pivOpSetup i f objectId) := by
  unfold pivOpSetup
  grind

@[grind ←]
theorem keeps_bioOpReset (i : Nat) : Keeps R (bioOpReset i) :=
  keeps_updBio i _

@[grind ←]
theorem keeps_osdpFileTxRequestCancel (i : Nat) :
    Keeps R (osdpFileTxRequestCancel i) := by
  unfold osdpFileTxRequestCancel
  grind

@[grind ←]
theorem keeps_osdpPivRequestCancel (i : Nat) (msg : MpMsg) :
    Keeps R (osdpPivRequestCancel i msg) := by
  unfold osdpPivRequestCancel
  grind

@[grind ←]
theorem keeps_osdpBioRequestCancel (i : Nat) :
    Keeps R (osdpBioRequestCancel i) := by
  unfold osdpBioRequestCancel
  grind

-- ========================================================= notifications

variable (hn : ∀ i phase g, Keeps R (osdpMpPdNotify env run i phase g))
include hn

@[grind ←]
theorem keeps_mpEmit (i : Nat) (slot : MpSlot) (phase : MpPhase) :
    Keeps R (mpEmit env run i slot phase) := by
  unfold mpEmit
  grind

@[grind ←]
theorem keeps_osdpMpEmitStart (i : Nat) (slot : MpSlot) :
    Keeps R (osdpMpEmitStart env run i slot) := by
  unfold osdpMpEmitStart
  grind

@[grind ←]
theorem keeps_osdpMpFinish (i : Nat) (slot : MpSlot) (o : MpOutcome) :
    Keeps R (osdpMpFinish env run i slot o) := by
  unfold osdpMpFinish
  grind

@[grind ←]
theorem keeps_osdpMpTxCommit (i : Nat) (slot : MpSlot) :
    Keeps R (osdpMpTxCommit env run i slot) := by
  unfold osdpMpTxCommit
  grind

@[grind ←]
theorem keeps_osdpMpRxCommit (i : Nat) (slot : MpSlot) :
    Keeps R (osdpMpRxCommit env run i slot) := by
  unfold osdpMpRxCommit
  grind

-- ================================================================== file

@[grind ←]
theorem keeps_fileTransitionDone (i : Nat) (o : MpOutcome) :
    Keeps R (fileTransitionDone env run i o) := by
  have hreq : Keeps R (updPd i fun p =>
      { p with request := { p.request with offline := true } }) :=
    keeps_updPd_engines fun _ => rfl
  unfold fileTransitionDone
  grind

@[grind ←]
theorem keeps_osdpFileTxAbort (i : Nat) :
    Keeps R (osdpFileTxAbort env run i) := by
  unfold osdpFileTxAbort
  grind

@[grind ←]
theorem keeps_osdpFileCmdTxBuild (i : Nat) (maxLen : Int) :
    Keeps R (osdpFileCmdTxBuild env run i maxLen) := by
  have hfail : Keeps R (do
      fileTransitionDone env run i .aborted
      pure (none : Option Bytes)) := by grind
  unfold osdpFileCmdTxBuild
  dsimp only
  refine .bind (keeps_getPd i) fun p => .bind (keeps_assertC _) fun _ =>
    .bind (keeps_assertC _) fun _ => ?_
  split
  · exact hfail
  · split
    · grind
    · split
      · exact hfail
      · grind

@[grind ←]
theorem keeps_osdpFileCmdStatDecode (i : Nat) (buf : Bytes) :
    Keeps R (osdpFileCmdStatDecode env run i buf) := by
  unfold osdpFileCmdStatDecode
  refine .bind (keeps_getPd i) fun p => ?_
  split
  · exact .pure _
  · split
    · exact .pure _
    · refine .bind (keeps_assertC _) fun _ =>
        .bind (keeps_updFile i _) fun _ =>
        .bind (keeps_osdpMpTxCommit hn i .file) fun _ => ?_
      grind

@[grind ←]
theorem keeps_osdpFileTxGetCommand (i : Nat) :
    Keeps R (osdpFileTxGetCommand env run i) := by
  unfold osdpFileTxGetCommand
  grind

@[grind ←]
theorem keeps_fileStatAtEof (i : Nat) :
    Keeps R (fileStatAtEof env run i) := by
  unfold fileStatAtEof
  split
  · grind
  · refine .bind .get fun s => .bind (keeps_observe_file i _) fun _ => ?_
    split
    split
    · grind
    · grind

@[grind ←]
theorem keeps_osdpFileCmdStatBuild (i : Nat) (maxLen : Int) :
    Keeps R (osdpFileCmdStatBuild env run i maxLen) := by
  unfold osdpFileCmdStatBuild
  grind

-- ============================================================= smartcard

@[grind ←]
theorem keeps_pivEmitStart (i : Nat) : Keeps R (pivEmitStart env run i) := by
  unfold pivEmitStart
  grind

@[grind ←]
theorem keeps_osdpPivAbort (i : Nat) : Keeps R (osdpPivAbort env run i) := by
  unfold osdpPivAbort
  grind

@[grind ←]
theorem keeps_osdpPivCpGetCommand (i : Nat) :
    Keeps R (osdpPivCpGetCommand env run i) := by
  unfold osdpPivCpGetCommand
  grind

@[grind ←]
theorem keeps_osdpPivCpCmdBuild (i : Nat) (maxLen : Int) :
    Keeps R (osdpPivCpCmdBuild env run i maxLen) := by
  unfold osdpPivCpCmdBuild
  grind

@[grind ←]
theorem keeps_pivCpReplyBegin (i : Nat) :
    Keeps R (pivCpReplyBegin env run i) := by
  unfold pivCpReplyBegin
  grind

@[grind ←]
theorem keeps_pivCpCmdLegDone (i : Nat) :
    Keeps R (pivCpCmdLegDone env run i) := by
  unfold pivCpCmdLegDone
  grind

@[grind ←]
theorem keeps_osdpPivCpCmdAcked (i : Nat) :
    Keeps R (osdpPivCpCmdAcked env run i) := by
  unfold osdpPivCpCmdAcked
  grind

@[grind ←]
theorem keeps_pivCpVerdict (i : Nat) (rc : MpRc) :
    Keeps R (pivCpVerdict env run i rc) := by
  unfold pivCpVerdict
  grind

@[grind ←]
theorem keeps_osdpPivCpReplyConsume (i : Nat) (buf : Bytes) :
    Keeps R (osdpPivCpReplyConsume env run i buf) := by
  unfold osdpPivCpReplyConsume
  grind

@[grind ←]
theorem keeps_osdpPivCpReplyFinish (i : Nat) :
    Keeps R (osdpPivCpReplyFinish env run i) := by
  unfold osdpPivCpReplyFinish
  grind

@[grind ←]
theorem keeps_osdpPivPdOpen (i wireCmd objectId : Nat) :
    Keeps R (osdpPivPdOpen env run i wireCmd objectId) := by
  unfold osdpPivPdOpen
  grind

@[grind ←]
theorem keeps_pivPdFragVerdict (i off : Nat) (rc : MpRc) (pfx : Bytes) :
    Keeps R (pivPdFragVerdict env run i off rc pfx) := by
  unfold pivPdFragVerdict
  grind

@[grind ←]
theorem keeps_osdpPivPdCmdFrag (i wireCmd : Nat) (buf : Bytes) :
    Keeps R (osdpPivPdCmdFrag env run i wireCmd buf) := by
  unfold osdpPivPdCmdFrag
  split
  · exact .pure _
  · split
    · split
      · exact .pure _
      · refine .bind (keeps_osdpPivPdOpen hn i wireCmd 0) fun _ => ?_
        grind
    · grind

@[grind ←]
theorem keeps_pivSeed (i length : Nat) (data : Bytes) :
    Keeps R (pivSeed env run i length data) := by
  unfold pivSeed
  grind

@[grind ←]
theorem keeps_pivPdFragment (i : Nat) (maxLen : Int) :
    Keeps R (pivPdFragment env run i maxLen) := by
  unfold pivPdFragment
  refine .bind (keeps_osdpMpTxBuildEx i .piv _ _) fun frag => ?_
  cases frag with
  | none => grind
  | some frag =>
    refine .bind (keeps_osdpMpTxCommit hn i .piv) fun _ => ?_
    grind

@[grind ←]
theorem keeps_osdpPivPdReplyBuild (i : Nat) (seed : Option (Nat × Bytes))
    (maxLen : Int) : Keeps R (osdpPivPdReplyBuild env run i seed maxLen) := by
  unfold osdpPivPdReplyBuild
  grind

-- ============================================================= biometric

@[grind ←]
theorem keeps_bioEmitStart (i : Nat) : Keeps R (bioEmitStart env run i) := by
  unfold bioEmitStart
  grind

@[grind ←]
theorem keeps_osdpBioAbort (i : Nat) : Keeps R (osdpBioAbort env run i) := by
  unfold osdpBioAbort
  grind

@[grind ←]
theorem keeps_bioOpOpen (i : Nat) (reader : UInt8) :
    Keeps R (bioOpOpen env run i reader) := by
  unfold bioOpOpen
  grind

@[grind ←]
theorem keeps_bioPdFragment (i : Nat) (maxLen : Int) :
    Keeps R (bioPdFragment env run i maxLen) := by
  unfold bioPdFragment
  refine .bind (keeps_getMp i .bio) fun m =>
    .bind (keeps_osdpMpTxBuildEx i .bio _ _) fun frag => ?_
  cases frag with
  | none => grind
  | some frag =>
    refine .bind (keeps_getPd i) fun p =>
      .bind (keeps_osdpMpTxCommit hn i .bio) fun _ => ?_
    grind

@[grind ←]
theorem keeps_osdpBioPdReplyBuild (i : Nat) (seed : Option BioReadr)
    (maxLen : Int) : Keeps R (osdpBioPdReplyBuild env run i seed maxLen) := by
  unfold osdpBioPdReplyBuild
  cases seed with
  | none => grind
  | some r =>
    refine .bind (keeps_bioGet i) fun _ => ?_
    split
    · exact .pure _
    · refine .bind (keeps_updBio i _) fun _ => ?_
      dsimp only
      split
      · exact .bind (keeps_getPd i) fun _ => .pure _
      · refine .bind (keeps_bioOpOpen hn i _) fun _ =>
          .bind (keeps_updBio i _) fun _ => .bind (keeps_updMp i .bio _) fun _ =>
          .bind (keeps_osdpMpTxInit i .bio _ _) fun _ => ?_
        grind

@[grind ←]
theorem keeps_osdpBioCpGetCommand (i : Nat) :
    Keeps R (osdpBioCpGetCommand env run i) := by
  unfold osdpBioCpGetCommand
  grind

@[grind ←]
theorem keeps_bioCpVerdict (i : Nat) (rc : MpRc) :
    Keeps R (bioCpVerdict env run i rc) := by
  unfold bioCpVerdict
  grind

@[grind ←]
theorem keeps_bioCpFirstFragment (i : Nat) (buf : Bytes) :
    Keeps R (bioCpFirstFragment env run i buf) := by
  unfold bioCpFirstFragment
  split
  · exact .pure _
  · refine .bind (keeps_bioGet i) fun _ => .bind (keeps_updBio i _) fun _ => ?_
    dsimp only
    split
    · exact .pure _
    · refine .bind (keeps_getPd i) fun p => ?_
      split
      · grind
      · refine .bind (keeps_bioOpOpen hn i _) fun _ =>
          .bind (keeps_updMp i .bio _) fun _ =>
          .bind (keeps_osdpMpRxInit i .bio _ _) fun _ => ?_
        grind

@[grind ←]
theorem keeps_osdpBioCpReplyConsume (i : Nat) (buf : Bytes) :
    Keeps R (osdpBioCpReplyConsume env run i buf) := by
  unfold osdpBioCpReplyConsume
  grind

@[grind ←]
theorem keeps_osdpBioCpReplyFinish (i : Nat) :
    Keeps R (osdpBioCpReplyFinish env run i) := by
  unfold osdpBioCpReplyFinish
  grind

-- ================================================================== all

@[grind ←]
theorem keeps_osdpEnginesAbort (i : Nat) :
    Keeps R (osdpEnginesAbort env run i) := by
  unfold osdpEnginesAbort
  grind

@[grind ←]
theorem keeps_fileArmReceive (i type total : Nat) :
    Keeps R (fileArmReceive env run i type total) := by
  unfold fileArmReceive
  refine .bind .get fun s => .bind (keeps_observe_file i _) fun _ => ?_
  split
  · exact .pure _
  · grind

@[grind ←]
theorem keeps_fileOpenReceive (i : Nat) (buf : Bytes)
    (hc : ∀ id flags,
      Keeps R (callCommandCallback env run i (.fileTx id flags))) :
    Keeps R (fileOpenReceive env run i buf) := by
  unfold fileOpenReceive
  grind

@[grind ←]
theorem keeps_fileRxVerdict (i : Nat) (openedNow : Bool) (mrc : MpRc) :
    Keeps R (fileRxVerdict env run i openedNow mrc) := by
  unfold fileRxVerdict
  grind

@[grind ←]
theorem keeps_osdpFileCmdTxDecode (i : Nat) (buf : Bytes)
    (hc : ∀ id flags,
      Keeps R (callCommandCallback env run i (.fileTx id flags))) :
    Keeps R (osdpFileCmdTxDecode env run i buf) := by
  unfold osdpFileCmdTxDecode
  have htail (opened : Bool) : Keeps R (do
      let r ← osdpMpRxConsumeEx env i .file (buf.drop 1) 0
      fileRxVerdict env run i opened r.1) := by grind
  refine .bind (keeps_getPd i) fun p => ?_
  split
  · exact .pure _
  · split
    · exact .pure _
    · dsimp only
      split
      · refine .bind (keeps_fileOpenReceive hn i buf hc) fun ok => ?_
        split
        · exact .pure _
        · exact htail _
      · exact htail _

omit hn in
@[grind ←]
theorem keeps_osdpFileTxCommand (i fileId : Nat) (flags : UInt32) :
    Keeps R (osdpFileTxCommand env i fileId flags) := by
  unfold osdpFileTxCommand
  grind

omit hn in
@[grind ←]
theorem keeps_pivSubmitAuth (i : Nat) (f : PivFamily) (auth : AuthArgs) :
    Keeps R (pivSubmitAuth i f auth) := by
  unfold pivSubmitAuth
  grind

omit hn in
@[grind ←]
theorem keeps_osdpPivCpSubmit (i : Nat) (cmd : OsdpCmd) :
    Keeps R (osdpPivCpSubmit i cmd) := by
  unfold osdpPivCpSubmit
  grind

end Engine

end LibOsdp
