/-
A file on its way from a CP to a PD, through the file engines of both.

# The exchange

A fragment goes out in CMD_FILETRANSFER and is answered by REPLY_FTSTAT.
The CP builds the packet anew for every try; the PD decodes the first try
that arrives, and answers every later one with the reply it has stored.
`FileMove` lists what can happen, in whatever order: tries that get lost
before the PD has seen one and after it, applications that have nothing
to read yet, cannot store what they get or need time to finish, calls
they make from callbacks and between exchanges, and a transfer that is
cancelled or given up.

# What the application sees

`AppFile` is the PD application's file by itself: it is opened, written
at its end and closed.  The theorem says that this is all the PD does to
it, that what is in it is the beginning of the CP's file, and that the
whole of it is there, and closed, by the time the CP learns that the
transfer has succeeded.
-/
import LibOsdp.Cp.Api
import LibOsdp.Cp.Decode
import LibOsdp.Engine.Proofs.FileSteps
import LibOsdp.Pd.Proofs.Quiet

namespace LibOsdp

open Lib

-- ================================================================= calls

section Calls

variable {i : Nat}

/-- A PD's application cannot reach a transfer. -/
instance : AppMoves (SameFile i) where
  queue s j q c ops h := h.same (by
    by_cases hj : i = j
    · subst hj
      rw [updPd_pd_same]
    · rw [updPd_pd_ne s _ hj]) rfl
  told s o ho c ops h := h.same rfl (by
    rw [fileMoves_cons]
    have hnone : o.fileMove i = none := by
      cases o with
      | file j op => cases ho
      | _ => rfl
    rw [hnone, Option.toList_none, List.append_nil])
  running s b c ops h := h.same rfl rfl

variable {env : Env} {run : List ApiCall → OsdpM Unit}

/-- What is done beside a transfer. -/
theorem held_updPd {j : Nat} {f : OsdpPd → OsdpPd}
    (h : ∀ p : OsdpPd, (f p).file = p.file) :
    Keeps (HeldFile i) (updPd j f) :=
  (same_updPd fun p => by rw [h]).mono fun _ _ => held_of_same

theorem held_observe {o : Obs} (h : o.fileMove i = none) :
    Keeps (HeldFile i) (observe o) :=
  (same_observe h).mono fun _ _ => held_of_same

theorem held_running (b : Osdp → Bool) :
    Keeps (HeldFile i)
      (modify fun s => { s with running := b s } : OsdpM Unit) :=
  .modify fun _ _ _ h _ => h.same rfl rfl

/-- Another engine's context is changed. -/
theorem held_updMp {j : Nat} {slot : MpSlot} (h : slot ≠ .file)
    (f : Multipart → Multipart) : Keeps (HeldFile i) (updMp j slot f) := by
  refine held_updPd fun p => ?_
  cases slot with
  | file => exact absurd rfl h
  | piv => rfl
  | bio => rfl

/-- A transfer that is under way turns the next one away. -/
theorem held_osdpFileTxCommand (j id : Nat) (flags : UInt32) :
    Keeps (HeldFile i) (osdpFileTxCommand env j id flags) := by
  by_cases hj : i = j
  · subst hj
    intro s a t e c ops h hb
    obtain ⟨p, u, hg, e⟩ := bind_ok.mp e
    obtain ⟨rfl, rfl⟩ := getPd_ok.mp hg
    obtain ⟨f, hf, rfl⟩ := h.file
    rw [h.txIsActive, hf] at e
    by_cases hterm : f.inTerminal = true
    · rw [if_pos (by simp [hterm])] at e
      exact (pure_ok.mp e).2 ▸ h
    · have hact : f.core.isActive = true := by
        have hbusy : (f.core.isActive || f.inTerminal) = true := hb
        rwa [Bool.eq_false_iff.mpr hterm, Bool.or_false] at hbusy
      rw [if_neg (by simp [hterm]), if_pos (by rw [hact, Bool.true_or])] at e
      exact (pure_ok.mp e).2 ▸ h
  · -- another PD's transfer
    have hu (f : OsdpPd → OsdpPd) : Keeps (SameFile i) (updPd j f) :=
      same_updPd_ne hj f
    have ho (op : FileOp) : Keeps (SameFile i) (observe (.file j op)) :=
      same_observe (if_neg fun h => hj h.1.symm)
    have hinit (total : Nat) : Keeps (SameFile i)
        (osdpMpTxInit j .file total .w32) := by
      unfold osdpMpTxInit
      exact .ite (.pure _) (.bind (hu _) fun _ => .pure _)
    refine Keeps.mono ?_ fun _ _ => held_of_same
    unfold osdpFileTxCommand
    refine .bind (keeps_getPd j) fun p => .ite (.pure _) (.ite (.pure _) ?_)
    refine .bind .get fun s => .bind (ho _) fun _ => ?_
    dsimp only
    exact .ite (.pure _) (.ite (.bind (ho _) fun _ => .pure _)
      (.bind (hu _) fun _ => .bind (hu _) fun _ => .bind (hinit _) fun _ =>
        .pure _))

theorem held_pivOpSetup (j : Nat) (f : PivFamily) (objectId : Nat) :
    Keeps (HeldFile i) (pivOpSetup j f objectId) := by
  have hinit : Keeps (HeldFile i) (osdpMpRxInit j .piv .w16 0) :=
    held_updMp (by decide) _
  unfold pivOpSetup
  exact .bind keeps_osdpMillisNow fun _ =>
    .bind (held_updPd fun _ => rfl) fun _ => .bind hinit fun _ =>
    held_updPd fun _ => rfl

theorem held_pivSubmitAuth (j : Nat) (f : PivFamily) (auth : AuthArgs) :
    Keeps (HeldFile i) (pivSubmitAuth j f auth) := by
  have hinit (total : Nat) : Keeps (HeldFile i)
      (osdpMpTxInit j .piv total .w16) := by
    unfold osdpMpTxInit
    exact .ite (.pure _) (.bind (held_updMp (by decide) _) fun _ => .pure _)
  unfold pivSubmitAuth
  exact .ite (.pure _) (.bind (held_pivOpSetup j f _) fun _ =>
    .bind (held_updPd fun _ => rfl) fun _ =>
    .bind (held_updMp (by decide) _) fun _ => .bind (hinit _) fun _ =>
    .pure _)

theorem held_osdpPivCpSubmit (j : Nat) (cmd : OsdpCmd) :
    Keeps (HeldFile i) (osdpPivCpSubmit j cmd) := by
  unfold osdpPivCpSubmit
  refine .bind (held_updPd fun _ => rfl) fun _ =>
    .bind (keeps_getPd j) fun p => .ite (.pure _) ?_
  split
  · exact .bind (held_updPd fun _ => rfl) fun _ =>
      .bind (held_pivOpSetup j _ _) fun _ => .pure _
  · exact held_pivSubmitAuth j _ _
  · exact held_pivSubmitAuth j _ _
  · exact .pure _

theorem held_cpSubmitCommand (j : Nat) (cmd : SubmittedCmd) :
    Keeps (HeldFile i) (cpSubmitCommand env j cmd) := by
  have hengine (t : MpMsg) (b : Bool) :
      Keeps (HeldFile i) (cpSubmitEngine j cmd t b) :=
    .ite (.bind (held_updPd fun _ => rfl) fun _ => .pure _) (.pure _)
  have hqueued : Keeps (HeldFile i) (cpSubmitQueued j cmd) := by
    unfold cpSubmitQueued
    refine .bind (keeps_getPd j) fun p => .ite (.pure _) ?_
    split
    · exact .pure _
    · exact .bind (held_updPd fun _ => rfl) fun _ =>
        .bind (held_updPd fun _ => rfl) fun _ => .pure _
  unfold cpSubmitCommand
  refine .bind .get fun s => .bind (keeps_getPd j) fun p => .ite (.pure _) ?_
  split
  · exact .bind (held_osdpFileTxCommand j _ _) fun _ => hengine _ _
  · exact .bind (held_osdpPivCpSubmit j _) fun _ => hengine _ _
  · exact .bind (held_osdpPivCpSubmit j _) fun _ => hengine _ _
  · exact .bind (held_osdpPivCpSubmit j _) fun _ => hengine _ _
  · exact hqueued

theorem held_osdpCpSubmitCommand (j : Nat) (cmd : SubmittedCmd) :
    Keeps (HeldFile i) (osdpCpSubmitCommand env j cmd) := by
  unfold osdpCpSubmitCommand
  exact .bind .get fun s => .ite (.pure _)
    (.bind (held_running _) fun _ => .bind (held_cpSubmitCommand j cmd)
      fun _ => .bind (held_running _) fun _ =>
      .ite (.bind (held_observe rfl) fun _ => .pure _) (.pure _))

/-- A transfer can be asked to stop; it does so on its own. -/
theorem held_osdpCpCancel (j : Nat) (what : MpMsg) :
    Keeps (HeldFile i) (osdpCpCancel j what) := by
  have hfile : Keeps (HeldFile i) (osdpFileTxRequestCancel j) := by
    have hu : Keeps (HeldFile i)
        (updMp j .file fun m => { m with cancelReq := true }) := by
      refine Keeps.mono (same_updPd fun p => ?_) fun _ _ => held_of_same
      unfold OsdpPd.setMp OsdpPd.mp
      cases p.file <;> rfl
    unfold osdpFileTxRequestCancel
    exact .bind (keeps_getPd j) fun _ => .ite (.pure _)
      (.bind hu fun _ => .pure _)
  have hpiv (msg : MpMsg) :
      Keeps (HeldFile i) (osdpPivRequestCancel j msg) := by
    unfold osdpPivRequestCancel
    exact .bind (keeps_getPd j) fun _ => .ite (.pure _)
      (.bind (held_updMp (by decide) _) fun _ => .pure _)
  have hbio : Keeps (HeldFile i) (osdpBioRequestCancel j) := by
    unfold osdpBioRequestCancel
    exact .bind (keeps_getPd j) fun _ => .ite (.pure _)
      (.bind (held_updMp (by decide) _) fun _ => .pure _)
  unfold osdpCpCancel
  refine .bind .get fun s => .ite (.pure _) ?_
  cases what with
  | fileTransfer => exact hfile
  | bioread => exact hbio
  | _ => exact hpiv _

variable (hr : ∀ calls, Keeps (HeldFile i) (run calls))
include hr

theorem held_osdpCpFlushCommands (j : Nat) :
    Keeps (HeldFile i) (osdpCpFlushCommands env run j) := by
  have hdone (x : Option SubmittedCmd) (st : CompletionStatus) :
      Keeps (HeldFile i) (cpCompleteCmd env run j x st) := by
    unfold cpCompleteCmd
    split
    · exact .bind .get fun _ => .bind (held_observe rfl) fun _ => hr _
    · exact .pure _
  have hdrain (l : List SubmittedCmd) (st : CompletionStatus) :
      Keeps (HeldFile i) (cpDrain env run j st l) := by
    induction l with
    | nil => exact .pure _
    | cons x rest ih =>
      unfold cpDrain
      exact .bind (hdone _ _) fun _ => ih
  unfold osdpCpFlushCommands cpDrainQueue
  exact .bind .get fun s => .ite (.pure _)
    (.bind (held_running _) fun _ =>
      .bind (.bind (keeps_getPd j) fun p => .bind (held_updPd fun _ => rfl)
        fun _ => hdrain _ _) fun _ =>
      .bind (held_running _) fun _ => held_updPd fun _ => rfl)

/-- Whatever a CP's application calls, a transfer under way goes on. -/
theorem held_cpApiCall (c : ApiCall) :
    Keeps (HeldFile i) (cpApiCall env run c) := by
  have hflag (j : Nat) (m : CpFlagMask) (b : Bool) :
      Keeps (HeldFile i) (osdpCpModifyFlag j m b) := by
    unfold osdpCpModifyFlag
    exact .bind .get fun _ => .ite (.pure _) (.bind (keeps_getPd j) fun _ =>
      .ite (.pure _) (.bind (held_updPd fun _ => rfl) fun _ => .pure _))
  have hdis (j : Nat) : Keeps (HeldFile i) (osdpCpDisablePd j) := by
    unfold osdpCpDisablePd
    exact .bind .get fun _ => .bind (keeps_getPd j) fun _ => .ite (.pure _)
      (.bind (held_updPd fun _ => rfl) fun _ => .pure _)
  have hen (j : Nat) : Keeps (HeldFile i) (osdpCpEnablePd j) := by
    unfold osdpCpEnablePd
    exact .bind .get fun _ => .bind (keeps_getPd j) fun _ => .ite (.pure _)
      (.bind (held_updPd fun _ => rfl) fun _ => .pure _)
  have hscan (j : Nat) (params : TrsScanParams) :
      Keeps (HeldFile i) (osdpCpTrsScanEnable j params) := by
    unfold osdpCpTrsScanEnable
    exact .bind .get fun _ => .ite (.pure _)
      (.bind (held_updPd fun _ => rfl) fun _ => .pure _)
  have hstop (j : Nat) : Keeps (HeldFile i) (osdpCpTrsScanDisable j) := by
    unfold osdpCpTrsScanDisable
    exact .bind .get fun _ => .ite (.pure _)
      (.bind (held_updPd fun _ => rfl) fun _ => .pure _)
  unfold cpApiCall
  cases c with
  | cpSubmitCommand j cmd =>
    exact .bind (held_osdpCpSubmitCommand j cmd) fun _ => .pure _
  | cpCancel j what => exact .bind (held_osdpCpCancel j what) fun _ => .pure _
  | cpFlushCommands j => exact held_osdpCpFlushCommands hr j
  | cpModifyFlag j m b => exact .bind (hflag j m b) fun _ => .pure _
  | cpDisablePd j => exact .bind (hdis j) fun _ => .pure _
  | cpEnablePd j => exact .bind (hen j) fun _ => .pure _
  | cpTrsScanEnable j params => exact .bind (hscan j params) fun _ => .pure _
  | cpTrsScanDisable j => exact .bind (hstop j) fun _ => .pure _
  | pdSubmitEvent ev => exact .pure _
  | pdFlushEvents => exact .pure _

omit hr in
theorem held_cpRunCalls (n : Nat) (calls : List ApiCall) :
    Keeps (HeldFile i) (cpRunCalls env n calls) := by
  induction n generalizing calls with
  | zero =>
    cases calls with
    | nil => exact .pure _
    | cons c rest => exact .throw _
  | succ n ih =>
    unfold cpRunCalls
    induction calls with
    | nil => exact .pure _
    | cons c rest ih' =>
      unfold cpCalls
      exact .bind (held_cpApiCall ih c) fun _ => ih'

end Calls

-- ============================================================== the packets

section Packets

variable {env : Env} {run : List ApiCall → OsdpM Unit} {i : Nat}
variable {s t : Osdp}

/-- A command a PD carries out: what `pd_decode_command` does around it
has nothing to do with a transfer. -/
theorem pdDecodeCommand_beside {id : Nat} {data : Bytes} {ret : Int}
    (hid : (UInt8.ofNat id).toNat = id)
    (e : pdDecodeCommand env run i (UInt8.ofNat id :: data) s = .ok ret t) :
    ret ≠ pdErrNone ∧ SameFile i s t ∨ ∃ u v r, SameFile i s u ∧
      pdDecodeCases env run i id data u = .ok r v ∧ SameFile i v t ∧
        (ret = pdErrNone → r = some pdErrNone) := by
  have hbyte : (byteAt (UInt8.ofNat id :: data) 0).toNat = id := hid
  have hdata : (UInt8.ofNat id :: data).drop 1 = data := rfl
  have hnak (c : UInt8) : Keeps (SameFile i) (replyWithNak i c) :=
    same_updPd fun _ => rfl
  unfold pdDecodeCommand at e
  rw [hbyte, hdata] at e
  obtain ⟨_, u, hu, e⟩ := bind_ok.mp e
  obtain ⟨_, v, hv, e⟩ := bind_ok.mp e
  have hsv : SameFile i s v := trans_of _ ((hnak _).of hu)
    fun c ops h => h.updPd hv fun _ => rfl
  obtain ⟨p, w, hg, e⟩ := bind_ok.mp e
  obtain ⟨rfl, rfl⟩ := getPd_ok.mp hg
  split at e
  · obtain ⟨_, w, hw, e⟩ := bind_ok.mp e
    obtain ⟨rfl, rfl⟩ := pure_ok.mp e
    exact .inl ⟨by decide, trans_of _ hsv
      fun c ops h => h.updPd hw fun _ => rfl⟩
  · obtain ⟨r, w, hw, e⟩ := bind_ok.mp e
    refine .inr ⟨v, w, r, hsv, hw, ?_⟩
    cases r with
    | none =>
      obtain ⟨_, x, hx, e⟩ := bind_ok.mp e
      obtain ⟨rfl, rfl⟩ := pure_ok.mp e
      exact ⟨(hnak _).of hx, fun h => absurd h (by decide)⟩
    | some r =>
      dsimp only at e
      split at e
      · obtain ⟨_, x, hx, e⟩ := bind_ok.mp e
        obtain ⟨rfl, rfl⟩ := pure_ok.mp e
        exact ⟨(hnak _).of hx, fun h => absurd h (by decide)⟩
      · obtain ⟨rfl, rfl⟩ := pure_ok.mp e
        exact ⟨refl_of _ _, fun h => congrArg some h⟩

/-- CMD_FILETRANSFER, carried out. -/
theorem pdDecodeCommand_filetransfer {data : Bytes}
    (e : pdDecodeCommand env run i (UInt8.ofNat cmdFiletransfer :: data) s
      = .ok pdErrNone t) :
    ∃ u v, SameFile i s u ∧ osdpFileCmdTxDecode env run i data u = .ok true v ∧
      SameFile i v t := by
  rcases pdDecodeCommand_beside rfl e with ⟨hno, -⟩ |
    ⟨u, v, r, hsu, hcase, hvt, hret⟩
  · exact absurd rfl hno
  obtain rfl := hret rfl
  obtain ⟨ret, w, hw, hcase⟩ := bind_ok.mp hcase
  obtain ⟨hr, rfl⟩ := pure_ok.mp hcase
  obtain rfl := Option.some.inj hr
  obtain ⟨ok, x, hx, hw⟩ := bind_ok.mp hw
  cases ok with
  | false =>
    rw [if_pos (by decide)] at hw
    obtain ⟨_, y, hy, hw⟩ := bind_ok.mp hw
    obtain ⟨hno, -⟩ := pure_ok.mp hw
    exact absurd hno (by decide)
  | true =>
    rw [if_neg (by decide)] at hw
    obtain ⟨_, y, hy, hw⟩ := bind_ok.mp hw
    obtain ⟨-, rfl⟩ := pure_ok.mp hw
    exact ⟨u, x, hsu, hx, trans_of _
      (fun c ops h => h.updPd hy fun _ => rfl) hvt⟩

section Abort

variable (hr : ∀ calls, Keeps (SameFile i) (run calls))
include hr

theorem same_mpEmit (slot : MpSlot) (phase : MpPhase) :
    Keeps (SameFile i) (mpEmit env run i slot phase) := by
  have hu : Keeps (SameFile i)
      (updPd i fun p => { p with engineCmd := none }) :=
    fun s a t e c ops h => h.updPd e fun _ => rfl
  exact keeps_mpEmit_of hr (fun o => same_observe) hu slot phase

/-- Another engine ends what it is at. -/
theorem same_osdpMpFinish {slot : MpSlot} (hslot : slot ≠ .file)
    (o : MpOutcome) : Keeps (SameFile i) (osdpMpFinish env run i slot o) := by
  have hu (f : Multipart → Multipart) :
      Keeps (SameFile i) (updMp i slot f) := by
    refine same_updPd fun p => ?_
    cases slot with
    | file => exact absurd rfl hslot
    | piv => rfl
    | bio => rfl
  unfold osdpMpFinish
  exact .bind (keeps_getMp i slot) fun _ => .ite (.pure _)
    (.bind (hu _) fun _ => same_mpEmit hr slot .done)

theorem same_osdpMpEmitStart {slot : MpSlot} (hslot : slot ≠ .file) :
    Keeps (SameFile i) (osdpMpEmitStart env run i slot) := by
  have hu (f : Multipart → Multipart) :
      Keeps (SameFile i) (updMp i slot f) := by
    refine same_updPd fun p => ?_
    cases slot with
    | file => exact absurd rfl hslot
    | piv => rfl
    | bio => rfl
  unfold osdpMpEmitStart
  exact .bind (keeps_getMp i slot) fun _ => .ite
    (.bind (hu _) fun _ => same_mpEmit hr slot .start) (.pure _)

theorem same_osdpPivAbort : Keeps (SameFile i) (osdpPivAbort env run i) := by
  have hu (f : OsdpPiv → OsdpPiv) : Keeps (SameFile i) (updPiv i f) :=
    same_updPd fun _ => rfl
  unfold osdpPivAbort pivEmitStart
  exact .bind (keeps_getPd i) fun _ => .ite
    (.bind (.bind (keeps_getPd i) fun _ => .ite (.bind (hu _) fun _ =>
      same_osdpMpEmitStart hr (by decide)) (.pure _)) fun _ =>
    .bind (same_osdpMpFinish hr (by decide) _) fun _ => hu _) (.pure _)

theorem same_osdpBioAbort : Keeps (SameFile i) (osdpBioAbort env run i) := by
  have hu (f : OsdpBio → OsdpBio) : Keeps (SameFile i) (updBio i f) :=
    same_updPd fun _ => rfl
  unfold osdpBioAbort bioEmitStart
  exact .bind (keeps_getPd i) fun _ => .ite
    (.bind (.bind (keeps_getPd i) fun _ => .ite (.bind (hu _) fun _ =>
      same_osdpMpEmitStart hr (by decide)) (.pure _)) fun _ =>
    .bind (same_osdpMpFinish hr (by decide) _) fun _ => hu _) (.pure _)

/-- CMD_ABORT, carried out or refused. -/
theorem pdDecodeCommand_abort {ret : Int}
    (e : pdDecodeCommand env run i [UInt8.ofNat cmdAbort] s = .ok ret t) :
    SameFile i s t ∨ ∃ u v, SameFile i s u ∧
      osdpFileTxAbort env run i u = .ok () v ∧ SameFile i v t := by
  rcases pdDecodeCommand_beside rfl e with ⟨-, hst⟩ |
    ⟨u, v, r, hsu, hcase, hvt, -⟩
  · exact .inl hst
  obtain ⟨ret, w, hw, hcase⟩ := bind_ok.mp hcase
  obtain ⟨-, rfl⟩ := pure_ok.mp hcase
  unfold pdDecodeAbort at hw
  rw [if_neg (by decide)] at hw
  obtain ⟨_, x, hx, hw⟩ := bind_ok.mp hw
  obtain ⟨_, y, hy, hw⟩ := bind_ok.mp hw
  obtain ⟨-, rfl⟩ := pure_ok.mp hw
  obtain ⟨_, z, hz, hx⟩ := bind_ok.mp hx
  have hrest : Keeps (SameFile i) (do
      osdpPivAbort env run i
      osdpBioAbort env run i) :=
    .bind (same_osdpPivAbort hr) fun _ => same_osdpBioAbort hr
  exact .inr ⟨u, z, hsu, hz, trans_of _ (hrest.of hx)
    (trans_of _ (fun c ops h => h.updPd hy fun _ => rfl) hvt)⟩

end Abort

/-- REPLY_FTSTAT, decoded. -/
theorem cpDecodeResponse_ftstat {data : Bytes} {ret : Int}
    (e : cpDecodeResponse env run i (UInt8.ofNat replyFtstat :: data) s
      = .ok ret t) :
    ∃ u ok, SameFile i s u ∧
      osdpFileCmdStatDecode env run i data u = .ok ok t := by
  obtain ⟨_, u, hu, e⟩ := bind_ok.mp e
  obtain ⟨p, v, hg, e⟩ := bind_ok.mp e
  obtain ⟨rfl, rfl⟩ := getPd_ok.mp hg
  obtain ⟨ok, w, hw, e⟩ := bind_ok.mp e
  have hwt : w = t := by
    split at e <;> exact (pure_ok.mp e).2
  subst hwt
  exact ⟨u, ok, fun c ops h => h.updPd hu fun _ => rfl, hw⟩

/-- CMD_FILETRANSFER, built. -/
theorem buildFiletransfer_ok {maxLen : Int} {body : CmdBody}
    (e : buildFiletransfer env run i maxLen s = .ok body t) :
    ∃ r, osdpFileCmdTxBuild env run i maxLen s = .ok r t ∧
      body = .ofEngine r := by
  obtain ⟨r, u, hu, e⟩ := bind_ok.mp e
  obtain ⟨rfl, rfl⟩ := pure_ok.mp e
  exact ⟨r, hu, rfl⟩

end Packets

-- ============================================================== the file

/-- The file of an application that receives one: written at its end
only. -/
structure AppFile where
  isOpen : Bool := false
  content : Bytes := []
  deriving DecidableEq, Repr

/-- What it allows to be done to it. -/
def AppFile.step (a : AppFile) : FileOp → Option AppFile
  | .open _ _ => if a.isOpen then none else some ⟨true, []⟩
  | .write data off =>
    if a.isOpen ∧ off = a.content.length then
      some ⟨true, a.content ++ data⟩
    else none
  | .close => if a.isOpen then some ⟨false, a.content⟩ else none
  | .read .. | .finalize => some a

/-- One thing after the other. -/
def AppFile.replay (a : AppFile) : List FileOp → Option AppFile
  | [] => some a
  | op :: rest => (a.step op).bind fun b => b.replay rest

theorem AppFile.replay_snoc {a b c : AppFile} {l : List FileOp} {op : FileOp}
    (h : a.replay l = some b) (e : b.step op = some c) :
    a.replay (l ++ [op]) = some c := by
  induction l generalizing a with
  | nil =>
    cases h
    show (b.step op).bind (fun d => d.replay []) = some c
    rw [e]
    rfl
  | cons x l ih =>
    obtain ⟨d, hd, h⟩ := Option.bind_eq_some_iff.mp h
    show (a.step x).bind (fun b => b.replay (l ++ [op])) = some c
    rw [hd, Option.bind_some]
    exact ih h

/-- The bytes written next are the payload's next. -/
theorem AppFile.replay_write {payload : Bytes} {l : List FileOp} {k n : Nat}
    (h : AppFile.replay {} l = some ⟨true, payload.take k⟩)
    (hn : k + n ≤ payload.length) :
    AppFile.replay {} (l ++ writeOf payload ⟨k, n⟩)
      = some ⟨true, payload.take (k + n)⟩ := by
  by_cases hz : n = 0
  · subst hz
    rw [writeOf_nil, List.append_nil, Nat.add_zero]
    exact h
  · have hw : writeOf payload ⟨k, n⟩
        = [.write (sliceOf payload ⟨k, n⟩) k] := if_neg hz
    rw [hw]
    refine AppFile.replay_snoc h ?_
    have hlen : k = (payload.take k).length := by
      rw [List.length_take]
      omega
    have hcat : payload.take k ++ sliceOf payload ⟨k, n⟩
        = payload.take (k + n) := List.take_add.symm
    show (if _ then _ else _) = _
    rw [if_pos ⟨rfl, hlen⟩, hcat]

-- ============================================================== the link

/-- A CP and a PD, and what is on the line between them. -/
structure FileLink where
  cp : Osdp
  pd : Osdp
  /-- the data block of the command the CP waits for an answer to -/
  frame : Option Bytes := none
  /-- the data block of the answer the PD has stored -/
  answer : Option Bytes := none
  /-- the status in the last answer the CP took -/
  told : Option Nat := none

/-- How a run can end other than by going on. -/
inductive LinkEnd where
  | fault (f : Fault)
  /-- there is nothing to be done -/
  | idle
  /-- the PD refused the command -/
  | refused
  /-- a retry read other bytes than the try before it -/
  | reread
  deriving DecidableEq, Repr

abbrev LinkM := EStateM LinkEnd FileLink

/-- The CP runs. -/
def onCp {α : Type} (m : OsdpM α) : LinkM α := fun x =>
  match m x.cp with
  | .ok a s => .ok a { x with cp := s }
  | .error f s => .error (.fault f) { x with cp := s }

/-- The PD runs. -/
def onPd {α : Type} (m : OsdpM α) : LinkM α := fun x =>
  match m x.pd with
  | .ok a s => .ok a { x with pd := s }
  | .error f s => .error (.fault f) { x with pd := s }

/-- What can happen while a file is sent. -/
inductive FileMove where
  /-- the CP looks for its next command -/
  | select
  /-- it builds the packet, for the first try or another -/
  | build (maxLen : Nat)
  /-- the PD gets a try, the first one to arrive, and answers -/
  | take (maxLen : Int)
  /-- the CP gets the answer -/
  | settle
  /-- the CP gives up -/
  | cpAbort
  /-- CMD_ABORT gets to the PD -/
  | pdAbort
  | cpCall (c : ApiCall)
  | pdCall (c : ApiCall)
  | cpClock (now : Int)
  | pdClock (now : Int)

section Link

variable (cpEnv pdEnv : Env) (depth i : Nat)

/-- CMD_FILETRANSFER is built.  A retry after the PD has answered repeats
the command: the PD does not look at it again. -/
def FileLink.build (maxLen : Nat) : LinkM Unit := do
  let body ← onCp (buildFiletransfer cpEnv (cpRunCalls cpEnv depth) i maxLen)
  let x ← get
  match body with
  | .data d =>
    if x.answer.isNone then
      modify fun x => { x with frame := some d }
    else if x.frame ≠ some d then
      throw .reread
  | _ => modify fun x => { x with frame := none, answer := none }

/-- CMD_FILETRANSFER is decoded, and REPLY_FTSTAT built. -/
def FileLink.take (maxLen : Int) : LinkM Unit := do
  let x ← get
  match x.frame, x.answer with
  | some f, none =>
    let ret ← onPd (pdDecodeCommand pdEnv (pdRunCalls pdEnv depth) 0
      (UInt8.ofNat cmdFiletransfer :: f))
    if ret ≠ pdErrNone then
      throw .refused
    let d ← onPd (pdBuildCases pdEnv (pdRunCalls pdEnv depth) 0 replyFtstat
      none none maxLen)
    if d.isNone then
      throw .refused
    modify fun x => { x with answer := d }
  | _, _ => throw .idle

/-- REPLY_FTSTAT is decoded. -/
def FileLink.settle : LinkM Unit := do
  let x ← get
  match x.answer with
  | none => throw .idle
  | some d =>
    let _ ← onCp (cpDecodeResponse cpEnv (cpRunCalls cpEnv depth) i
      (UInt8.ofNat replyFtstat :: d))
    modify fun x =>
      { x with
        frame := none, answer := none, told := some (readLe 2 (d.drop 3)) }

/-- CMD_ABORT takes the place of whatever was on the line. -/
def FileLink.drop : LinkM Unit := do
  let _ ← onPd (pdDecodeCommand pdEnv (pdRunCalls pdEnv depth) 0
    [UInt8.ofNat cmdAbort])
  modify fun x => { x with frame := none, answer := none }

/-- One thing that happens. -/
def FileLink.step : FileMove → LinkM Unit
  | .select => do
    let _ ← onCp (osdpFileTxGetCommand cpEnv (cpRunCalls cpEnv depth) i)
  | .build maxLen => FileLink.build cpEnv depth i maxLen
  | .take maxLen => FileLink.take pdEnv depth maxLen
  | .settle => FileLink.settle cpEnv depth i
  | .cpAbort => onCp (osdpFileTxAbort cpEnv (cpRunCalls cpEnv depth) i)
  | .pdAbort => FileLink.drop pdEnv depth
  | .cpCall c => onCp (cpApiCall cpEnv (cpRunCalls cpEnv depth) c)
  | .pdCall c => onPd (pdApiCall pdEnv (pdRunCalls pdEnv depth) c)
  | .cpClock now => onCp (modify fun s => { s with now := now })
  | .pdClock now => onPd (modify fun s => { s with now := now })

/-- A packet has the size of a buffer at most; CMD_ABORT is sent when the
CP has given up; and what the CP's application does once the transfer is
over is another story. -/
def FileLink.accepts (x : FileLink) : FileMove → Bool
  | .build maxLen => decide (maxLen ≤ packetBufSize)
  | .cpCall _ => osdpFileTxIsActive (x.cp.pd i)
  | .pdAbort => !osdpFileTxIsActive (x.cp.pd i)
  | _ => true

/-- Runs of the link. -/
abbrev FileRun : FileLink → List FileMove → FileLink → Prop :=
  Run (FileLink.step cpEnv pdEnv depth i) (FileLink.accepts i)

end Link

-- =========================================================== the invariant

/-- Where the PD's transfer stands, and its application's file. -/
def PdAt (base : List FileOp) (t : Osdp) (c : FileCore) (a : AppFile) : Prop :=
  ∃ new, FileAt 0 t c (base ++ new) ∧ AppFile.replay {} new = some a

/-- The PD has `k` bytes, and waits for the next. -/
inductive PdStands (payload : Bytes) (base : List FileOp) (t : Osdp)
    (k : Nat) : Prop where
  | before (c : FileCore) (zero : k = 0) (free : c.isActive = false)
      (stands : PdAt base t c {})
  | amid (c : FileCore) (rec : c.Receives payload) (offset : c.offset = k)
      (stands : PdAt base t c ⟨true, payload.take k⟩)

/-- The PD has answered the fragment of `n` bytes at `k`. -/
inductive PdAnswered (payload : Bytes) (base : List FileOp) (t : Osdp)
    (k n : Nat) : Nat → Prop where
  | under (left : k + n ≠ payload.length)
      (stands : PdStands payload base t (k + n)) :
      PdAnswered payload base t k n fileTxStatusAck
  | finishing (whole : k + n = payload.length)
      (stands : PdStands payload base t (k + n)) :
      PdAnswered payload base t k n fileTxStatusKeepAlive
  | ended (whole : k + n = payload.length) (o : MpOutcome)
      (stop : PdAt base t .idle ⟨false, payload⟩) :
      PdAnswered payload base t k n (fileWireStatusFromOutcome o)
  | failed (stop : PdAt base t .idle ⟨false, payload.take (k + n)⟩) :
      PdAnswered payload base t k n fileTxStatusErrAbort

/-- The line and the PD, around the fragment of `n` bytes at `k`. -/
inductive PdLine (payload : Bytes) (base : List FileOp) (x : FileLink)
    (k n : Nat) : Prop where
  | quiet (frame : x.frame = none) (answer : x.answer = none)
      (pd : PdStands payload base x.pd k)
  | asked (id : UInt8)
      (frame : x.frame
        = some (id :: fragmentOf payload [] .w32 ⟨k, n⟩))
      (answer : x.answer = none) (fits : Fits payload ⟨k, n⟩)
      (pd : PdStands payload base x.pd k)
  | answered (id : UInt8)
      (frame : x.frame
        = some (id :: fragmentOf payload [] .w32 ⟨k, n⟩))
      (fits : Fits payload ⟨k, n⟩) (status delay : Nat)
      (answer : x.answer = some (fileStatBytes status delay))
      (pd : PdAnswered payload base x.pd k n status)

/-- The PD, whatever became of the transfer. -/
structure PdLeft (payload : Bytes) (base : List FileOp) (t : Osdp)
    (a : AppFile) : Prop where
  pd : ∃ c, PdAt base t c a ∧ c.isActive = a.isOpen ∧
    (c.isActive = true → c.isOpen = true)
  content : ∃ k, a.content = payload.take k

/-- What the status the CP was told last means for the application's
file. -/
def ToldOf (payload : Bytes) (told : Option Nat) (a : AppFile) : Prop :=
  ∀ st, told = some st → st ≠ fileTxStatusAck →
    (st < 0x8000 → a.content = payload) ∧
    (st ≠ fileTxStatusKeepAlive → a.isOpen = false)

section Invariant

variable (payload : Bytes) (i : Nat) (cpBase pdBase : List FileOp)

/-- A transfer is under way, or over. -/
inductive FileInv (x : FileLink) : Prop where
  | underway (c : FileCore) (cp : FileAt i x.cp c cpBase)
      (sends : c.Sends payload)
      (line : PdLine payload pdBase x c.offset c.lastLen)
      (told : ∀ st, x.told = some st → st ≠ fileTxStatusAck →
        st = fileTxStatusKeepAlive ∧ c.offset = payload.length)
  | closed (cp : FileAt i x.cp .idle (cpBase ++ [.close])) (k n : Nat)
      (line : PdLine payload pdBase x k n)
      (told : ∀ st, x.told = some st → st ≠ fileTxStatusAck →
        st = fileTxStatusKeepAlive ∧ k = payload.length)
  | gone (cp : FileAt i x.cp .idle (cpBase ++ [.close]))
      (frame : x.frame = none) (answer : x.answer = none) (a : AppFile)
      (pd : PdLeft payload pdBase x.pd a)
      (told : ToldOf payload x.told a)

end Invariant

section Step

variable {payload : Bytes} {i k n : Nat} {cpBase base : List FileOp}
variable {x y : FileLink} {s t : Osdp} {c : FileCore} {a : AppFile}

-- ======================================================= the PD's side

theorem PdAt.same (h : PdAt base s c a) (hst : SameFile 0 s t) :
    PdAt base t c a := by
  obtain ⟨new, hat, hre⟩ := h
  exact ⟨new, hst _ _ hat, hre⟩

theorem PdStands.same (h : PdStands payload base s k) (hst : SameFile 0 s t) :
    PdStands payload base t k := by
  cases h with
  | before c zero free stands => exact .before c zero free (stands.same hst)
  | amid c rec offset stands => exact .amid c rec offset (stands.same hst)

theorem PdAnswered.same {st : Nat} (h : PdAnswered payload base s k n st)
    (hst : SameFile 0 s t) : PdAnswered payload base t k n st := by
  cases h with
  | under left stands => exact .under left (stands.same hst)
  | finishing whole stands => exact .finishing whole (stands.same hst)
  | ended whole o stop => exact .ended whole o (stop.same hst)
  | failed stop => exact .failed (stop.same hst)

/-- The PD did something else. -/
theorem PdLine.same (h : PdLine payload base x k n) (hst : SameFile 0 x.pd t) :
    PdLine payload base { x with pd := t } k n := by
  cases h with
  | quiet frame answer pd => exact .quiet frame answer (pd.same hst)
  | asked id frame answer fits pd =>
    exact .asked id frame answer fits (pd.same hst)
  | answered id frame fits status delay answer pd =>
    exact .answered id frame fits status delay answer (pd.same hst)

/-- So did the CP. -/
theorem PdLine.cp (h : PdLine payload base x k n) (s : Osdp) :
    PdLine payload base { x with cp := s } k n := by
  cases h with
  | quiet frame answer pd => exact .quiet frame answer pd
  | asked id frame answer fits pd => exact .asked id frame answer fits pd
  | answered id frame fits status delay answer pd =>
    exact .answered id frame fits status delay answer pd

/-- A PD that stands somewhere has the beginning of the file. -/
theorem PdStands.left (h : PdStands payload base t k) :
    ∃ a, PdLeft payload base t a ∧ a.content = payload.take k := by
  cases h with
  | before c zero free stands =>
    refine ⟨{}, ⟨⟨c, stands, free, fun h => ?_⟩, 0, rfl⟩, ?_⟩
    · rw [free] at h
      cases h
    · rw [zero]
      rfl
  | amid c rec offset stands =>
    exact ⟨_, ⟨⟨c, stands, rec.active, fun _ => rec.opened⟩, k, rfl⟩, rfl⟩

theorem PdAt.left {m : Nat} (h : PdAt base t .idle ⟨false, payload.take m⟩) :
    PdLeft payload base t ⟨false, payload.take m⟩ :=
  ⟨⟨_, h, rfl, fun h => by cases h⟩, m, rfl⟩

/-- What the answer means for what is there. -/
theorem PdAnswered.left {st : Nat} (h : PdAnswered payload base t k n st) :
    ∃ a, PdLeft payload base t a ∧ ToldOf payload (some st) a ∧
      (k = payload.length → a.content = payload) := by
  have hall {m : Nat} (hm : payload.length ≤ m) : payload.take m = payload :=
    List.take_of_length_le hm
  cases h with
  | under left stands =>
    obtain ⟨a, ha, hc⟩ := stands.left
    refine ⟨a, ha, fun st e hno => ?_, fun e => by rw [hc, hall (by omega)]⟩
    cases e
    exact absurd rfl hno
  | finishing whole stands =>
    obtain ⟨a, ha, hc⟩ := stands.left
    have hwhole : a.content = payload := by rw [hc, hall (by omega)]
    refine ⟨a, ha, fun st e _ => ?_, fun _ => hwhole⟩
    cases e
    exact ⟨fun _ => hwhole, fun hno => absurd rfl hno⟩
  | ended whole o stop =>
    have hstop : PdLeft payload base t ⟨false, payload⟩ := by
      have h : PdAt base t .idle ⟨false, payload.take payload.length⟩ := by
        rw [List.take_length]
        exact stop
      have hl := h.left
      rwa [List.take_length] at hl
    exact ⟨_, hstop, fun _ _ _ => ⟨fun _ => rfl, fun _ => rfl⟩, fun _ => rfl⟩
  | failed stop =>
    refine ⟨_, stop.left, fun st e _ => ?_, fun e => hall (by omega)⟩
    cases e
    exact ⟨fun hlt => absurd hlt (by decide), fun _ => rfl⟩

theorem PdLine.left (h : PdLine payload base x k n) :
    ∃ a, PdLeft payload base x.pd a ∧
      (k = payload.length → a.content = payload) := by
  have hstands (hs : PdStands payload base x.pd k) :
      ∃ a, PdLeft payload base x.pd a ∧
        (k = payload.length → a.content = payload) := by
    obtain ⟨a, ha, hc⟩ := hs.left
    refine ⟨a, ha, fun e => ?_⟩
    rw [hc, e, List.take_length]
  cases h with
  | quiet frame answer pd => exact hstands pd
  | asked id frame answer fits pd => exact hstands pd
  | answered id frame fits status delay answer pd =>
    obtain ⟨a, ha, -, hc⟩ := pd.left
    exact ⟨a, ha, hc⟩

/-- The line is given up. -/
theorem PdLine.ends (h : PdLine payload base x k n)
    (told : ∀ st, x.told = some st → st ≠ fileTxStatusAck →
      st = fileTxStatusKeepAlive ∧ k = payload.length) :
    ∃ a, PdLeft payload base x.pd a ∧ ToldOf payload x.told a := by
  obtain ⟨a, ha, hwhole⟩ := h.left
  refine ⟨a, ha, fun st e hno => ?_⟩
  obtain ⟨rfl, hk⟩ := told st e hno
  exact ⟨fun _ => hwhole hk, fun hno => absurd rfl hno⟩

theorem PdLeft.same (h : PdLeft payload base s a) (hst : SameFile 0 s t) :
    PdLeft payload base t a := by
  obtain ⟨⟨c, hat, hact⟩, hc⟩ := h
  exact ⟨⟨c, hat.same hst, hact⟩, hc⟩

/-- The receiver's answer, seen from the application's file. -/
theorem FileAnswers.shown {new : List FileOp} {st : Nat}
    (hc : c.Receives payload)
    (hre : AppFile.replay {} new = some ⟨true, payload.take c.offset⟩)
    (hn : c.offset + n ≤ payload.length)
    (h : FileAnswers payload 0 c (base ++ new) n t st) :
    PdAnswered payload base t c.offset n st := by
  have hwrite := AppFile.replay_write hre hn
  have hclose : AppFile.replay {}
      (new ++ writeOf payload ⟨c.offset, n⟩ ++ [.close])
        = some ⟨false, payload.take (c.offset + n)⟩ :=
    AppFile.replay_snoc hwrite rfl
  -- the transfer goes on
  have hamid {c' : FileCore}
      (hat : FileAt 0 t c' (base ++ new ++ writeOf payload ⟨c.offset, n⟩))
      (hc' : c'.Receives payload) (hoff : c'.offset = c.offset + n) :
      PdStands payload base t (c.offset + n) := by
    rw [List.append_assoc] at hat
    exact .amid c' hc' hoff ⟨_, hat, hwrite⟩
  cases h with
  | failed stop =>
    rw [List.append_assoc, List.append_assoc, ← List.append_assoc new] at stop
    exact .failed ⟨_, stop, hclose⟩
  | under left lo move =>
    exact .under left (hamid move ⟨hc.active, hc.width, hc.total,
      hc.binding, hc.opened, hn, rfl, rfl, hc.writeFailed⟩ rfl)
  | finishing whole lo move =>
    exact .finishing whole (hamid move ⟨hc.active, hc.width, hc.total,
      hc.binding, hc.opened, hn, rfl, rfl, hc.writeFailed⟩ rfl)
  | ended whole o stop =>
    rw [List.append_assoc, List.append_assoc, ← List.append_assoc new] at stop
    rw [whole, List.take_length] at hclose
    exact .ended whole o ⟨_, stop, hclose⟩

-- ======================================================== the exchange

variable {cpEnv pdEnv : Env} {depth : Nat}

theorem onCp_ok {α : Type} {m : OsdpM α} {r : α} :
    onCp m x = .ok r y ↔ ∃ s, m x.cp = .ok r s ∧ y = { x with cp := s } := by
  unfold onCp
  cases h : m x.cp with
  | ok r' s =>
    constructor
    · intro e
      cases e
      exact ⟨s, rfl, rfl⟩
    · rintro ⟨s', e, rfl⟩
      cases e
      rfl
  | error f s =>
    constructor
    · intro e
      cases e
    · rintro ⟨s', e, -⟩
      cases e

theorem onPd_ok {α : Type} {m : OsdpM α} {r : α} :
    onPd m x = .ok r y ↔ ∃ s, m x.pd = .ok r s ∧ y = { x with pd := s } := by
  unfold onPd
  cases h : m x.pd with
  | ok r' s =>
    constructor
    · intro e
      cases e
      exact ⟨s, rfl, rfl⟩
    · rintro ⟨s', e, rfl⟩
      cases e
      rfl
  | error f s =>
    constructor
    · intro e
      cases e
    · rintro ⟨s', e, -⟩
      cases e

/-- The PD gets the fragment due next. -/
theorem PdStands.took {id : UInt8} {maxLen : Int} {d : Bytes} {u : Osdp}
    (hpos : 0 < payload.length) (hfits : payload.length < 256 ^ 4)
    (h : PdStands payload base s k) (hx : Fits payload ⟨k, n⟩)
    (hdec : pdDecodeCommand pdEnv (pdRunCalls pdEnv depth) 0
      (UInt8.ofNat cmdFiletransfer :: id :: fragmentOf payload [] .w32 ⟨k, n⟩)
      s = .ok pdErrNone t)
    (hbuild : pdBuildCases pdEnv (pdRunCalls pdEnv depth) 0 replyFtstat none
      none maxLen t = .ok (some d) u) :
    ∃ status delay, d = fileStatBytes status delay ∧
      PdAnswered payload base u k n status := by
  have hr (calls : List ApiCall) :
      Keeps (SameFile 0) (pdRunCalls pdEnv depth calls) :=
    keeps_pdRunCalls pdEnv depth calls
  have hheld (calls : List ApiCall) :
      Keeps (HeldFile 0) (pdRunCalls pdEnv depth calls) :=
    (hr calls).mono fun _ _ => held_of_same
  have hn : k + n ≤ payload.length := hx.inside
  obtain ⟨v, w, hsv, hcase, hwt⟩ := pdDecodeCommand_filetransfer hdec
  obtain ⟨p, x, hg, hbuild⟩ := bind_ok.mp hbuild
  obtain ⟨rfl, rfl⟩ := getPd_ok.mp hg
  -- what the command came to is still there when the reply is built
  have hsame {c : FileCore} {ops : List FileOp}
      (h : FileTook payload 0 c ops n w) : FileTook payload 0 c ops n t := by
    cases h with
    | ping none lo stay => exact .ping none lo (hwt _ _ stay)
    | failed some stop => exact .failed some (hwt _ _ stop)
    | stored some move => exact .stored some (hwt _ _ move)
  cases h with
  | before c zero free stands =>
    subst zero
    obtain ⟨new, hat, hre⟩ := stands
    have htook := hsame ((hsv _ _ hat).cmdTxDecode_first hr free hfits
      (by omega) hx.short hcase)
    have hrec := FileCore.receives_armed id.toNat payload
    obtain ⟨st, delay, hd, hans⟩ := htook.statBuild hheld hrec hpos hbuild
    rw [List.append_assoc] at hans
    exact ⟨st, delay, hd,
      hans.shown hrec (AppFile.replay_snoc hre rfl) (by exact hn)⟩
  | amid c rec offset stands =>
    subst offset
    obtain ⟨new, hat, hre⟩ := stands
    have htook := hsame ((hsv _ _ hat).cmdTxDecode rec hfits hn hx.short hcase)
    obtain ⟨st, delay, hd, hans⟩ := htook.statBuild hheld rec hpos hbuild
    exact ⟨st, delay, hd, hans.shown rec hre hn⟩

/-- So the line goes from a command to its answer. -/
theorem PdLine.take {maxLen : Int} (hpos : 0 < payload.length)
    (hfits : payload.length < 256 ^ 4) (h : PdLine payload base x k n)
    (e : FileLink.take pdEnv depth maxLen x = .ok () y) :
    PdLine payload base y k n ∧ y.cp = x.cp ∧ y.told = x.told := by
  unfold FileLink.take at e
  obtain ⟨x', z, hg, e⟩ := bind_ok.mp e
  obtain ⟨rfl, rfl⟩ := get_ok.mp hg
  cases h with
  | quiet frame answer pd =>
    rw [frame] at e
    exact absurd e throw_ok
  | answered id frame fits status delay answer pd =>
    rw [frame, answer] at e
    exact absurd e throw_ok
  | asked id frame answer fits pd =>
    rw [frame, answer] at e
    dsimp only at e
    obtain ⟨ret, z, hz, e⟩ := bind_ok.mp e
    obtain ⟨t, hdec, rfl⟩ := onPd_ok.mp hz
    split at e
    · exact absurd e throw_ok
    next hret =>
    rw [not_not] at hret
    subst hret
    obtain ⟨d, z, hz, e⟩ := bind_ok.mp e
    obtain ⟨u, hbuild, rfl⟩ := onPd_ok.mp hz
    cases d with
    | none => exact absurd e throw_ok
    | some d =>
      rw [Option.isNone_some, if_neg Bool.false_ne_true] at e
      have hy := modify_ok.mp e
      obtain ⟨st, delay, rfl, hans⟩ := pd.took hpos hfits fits hdec hbuild
      subst hy
      exact ⟨.answered id frame fits st delay rfl hans, rfl, rfl⟩

/-- The status of an answer is read off its bytes. -/
theorem status_fileStatBytes {status : Nat} (h : status < 65536)
    (delay : Nat) :
    readLe 2 ((fileStatBytes status delay).drop 3) = status ∧
      (fileStatBytes status delay).length = 7 := by
  have hbytes : fileStatBytes status delay
      = (0x01 :: writeLe 2 delay) ++ (writeLe 2 status ++ [0, 0]) := by
    unfold fileStatBytes
    rw [List.append_assoc]
    rfl
  rw [hbytes]
  have hlen : ((0x01 : UInt8) :: writeLe 2 delay).length = 3 := by
    rw [List.length_cons, length_writeLe]
  constructor
  · rw [List.drop_left' hlen]
    exact readLe_writeLe_two h _
  · rw [List.length_append, hlen, List.length_append, length_writeLe]
    rfl

theorem PdAnswered.status_lt {st : Nat}
    (h : PdAnswered payload base t k n st) : st < 65536 := by
  cases h with
  | under => decide
  | finishing => decide
  | failed => decide
  | ended whole o stop => cases o <;> decide

/-- An answer that does not end the sender's transfer leaves the
receiver's open as well. -/
theorem PdAnswered.stands {st : Nat}
    (h : PdAnswered payload base t c.offset c.lastLen st)
    (hc : c.Sends payload) (hgo : c.endedBy st = false) :
    PdStands payload base t c.moved.offset ∧
      (st ≠ fileTxStatusAck → st = fileTxStatusKeepAlive ∧
        c.moved.offset = payload.length) := by
  have hmoved : c.moved.offset = c.offset + c.lastLen := rfl
  unfold FileCore.endedBy at hgo
  rw [Bool.or_eq_false_iff, Bool.and_eq_false_iff] at hgo
  obtain ⟨hsmall, hgo⟩ := hgo
  have hsmall := of_decide_eq_false hsmall
  cases h with
  | under left stands => exact ⟨stands, fun hno => absurd rfl hno⟩
  | finishing whole stands => exact ⟨stands, fun _ => ⟨rfl, whole⟩⟩
  | failed stop => exact absurd (by decide) hsmall
  | ended whole o stop =>
    -- every outcome ends the transfer at the end of the file
    rw [hmoved, whole, hc.total] at hgo
    exfalso
    rcases hgo with hgo | hgo
    · rw [BEq.rfl] at hgo
      cases hgo
    · cases o with
      | ok => cases hgo
      | okRebooting => cases hgo
      | _ => exact hsmall (by decide)

/-- The CP gets the answer. -/
theorem FileInv.settle
    (h : FileInv payload i cpBase base x)
    (e : FileLink.settle cpEnv depth i x = .ok () y) :
    FileInv payload i cpBase base y := by
  have hr (calls : List ApiCall) :
      Keeps (HeldFile i) (cpRunCalls cpEnv depth calls) :=
    held_cpRunCalls depth calls
  unfold FileLink.settle at e
  obtain ⟨x', z, hg, e⟩ := bind_ok.mp e
  obtain ⟨rfl, rfl⟩ := get_ok.mp hg
  cases hans : x.answer with
  | none =>
    rw [hans] at e
    exact absurd e throw_ok
  | some d =>
    rw [hans] at e
    obtain ⟨ret, z, hz, e⟩ := bind_ok.mp e
    obtain ⟨s, hdec, rfl⟩ := onCp_ok.mp hz
    have hy := modify_ok.mp e
    subst hy
    obtain ⟨u, ok, hsame, hstat⟩ := cpDecodeResponse_ftstat hdec
    cases h with
    | underway c cp sends line told =>
      cases line with
      | quiet frame answer pd =>
        rw [answer] at hans
        cases hans
      | asked id frame answer fits pd =>
        rw [answer] at hans
        cases hans
      | answered id frame fits status delay answer pd =>
        rw [answer] at hans
        cases hans
        obtain ⟨hread, hlen⟩ := status_fileStatBytes pd.status_lt delay
        obtain ⟨-, hcase⟩ := (hsame _ _ cp).cmdStatDecode hr sends hlen hstat
        rw [hread] at hcase ⊢
        rcases hcase with ⟨hend, hat⟩ | ⟨hgo, st, hst, hat⟩
        · obtain ⟨a, ha, htold, -⟩ := pd.left
          exact .gone hat rfl rfl a ha htold
        · obtain ⟨hstands, htold⟩ := pd.stands sends hgo
          have hsends : ({ c.moved with state := st } : FileCore).Sends
              payload := by
            refine ⟨?_, sends.width, sends.total, sends.binding,
              sends.opened, fits.inside⟩
            rcases hst with rfl | rfl
            · exact sends.active
            · rfl
          refine .underway _ hat hsends (.quiet rfl rfl hstands) ?_
          intro st e hno
          cases e
          exact htold hno
    | closed cp k n line told =>
      cases line with
      | quiet frame answer pd =>
        rw [answer] at hans
        cases hans
      | asked id frame answer fits pd =>
        rw [answer] at hans
        cases hans
      | answered id frame fits status delay answer pd =>
        rw [answer] at hans
        cases hans
        obtain ⟨hread, -⟩ := status_fileStatBytes pd.status_lt delay
        obtain rfl := (hsame _ _ cp).cmdStatDecode_idle rfl hstat
        obtain ⟨a, ha, htold, -⟩ := pd.left
        rw [hread]
        exact .gone (hsame _ _ cp) rfl rfl a ha htold
    | gone cp frame answer a pd told =>
      rw [answer] at hans
      cases hans

/-- The CP builds the command, again or for the first time. -/
theorem FileInv.build {maxLen : Nat} (hread : ReadsPayload cpEnv payload)
    (hmax : maxLen ≤ packetBufSize)
    (h : FileInv payload i cpBase base x)
    (e : FileLink.build cpEnv depth i maxLen x = .ok () y) :
    FileInv payload i cpBase base y := by
  have hr (calls : List ApiCall) :
      Keeps (HeldFile i) (cpRunCalls cpEnv depth calls) :=
    held_cpRunCalls depth calls
  unfold FileLink.build at e
  obtain ⟨body, z, hz, e⟩ := bind_ok.mp e
  obtain ⟨s, hbuild, rfl⟩ := onCp_ok.mp hz
  obtain ⟨r, hbuilt, rfl⟩ := buildFiletransfer_ok hbuild
  obtain ⟨x', z, hg, e⟩ := bind_ok.mp e
  obtain ⟨rfl, rfl⟩ := get_ok.mp hg
  cases h with
  | closed cp k n line told => exact absurd hbuilt (cp.cmdTxBuild_idle rfl)
  | gone cp frame answer a pd told =>
    exact absurd hbuilt (cp.cmdTxBuild_idle rfl)
  | underway c cp sends line told =>
    rcases cp.cmdTxBuild hr sends hread hbuilt with ⟨rfl, hat⟩ |
      ⟨n, st, rfl, hn, hlen, hst, hat⟩
    · -- the transfer ends, and CMD_ABORT goes out instead
      have hy := modify_ok.mp e
      subst hy
      obtain ⟨a, ha, htold⟩ := line.ends told
      exact .gone hat rfl rfl a ha htold
    · have hfits : Fits payload ⟨c.offset, n⟩ := ⟨hn, by
        have hbuf : packetBufSize ≤ 65535 := by decide
        show n < 65536
        omega⟩
      have hsends : (c.built n st).Sends payload := by
        refine ⟨?_, sends.width, sends.total, sends.binding, sends.opened,
          sends.offset⟩
        rcases hst with rfl | rfl <;> rfl
      have hfirst (hans : x.answer = none)
          (hpd : PdStands payload base x.pd c.offset)
          (hy : y = { x with cp := s, frame := some (UInt8.ofNat c.fileId ::
            fragmentOf payload [] .w32 ⟨c.offset, n⟩) }) :
          FileInv payload i cpBase base y := by
        subst hy
        exact .underway (c.built n st) hat hsends
          (.asked _ rfl hans hfits hpd) told
      dsimp only [CmdBody.ofEngine] at e
      cases line with
      | quiet frame answer pd =>
        rw [if_pos (by rw [answer]; rfl)] at e
        exact hfirst answer pd (modify_ok.mp e).symm
      | asked id frame answer fits pd =>
        rw [if_pos (by rw [answer]; rfl)] at e
        exact hfirst answer pd (modify_ok.mp e).symm
      | answered id frame fits status delay answer pd =>
        rw [if_neg (by rw [answer]; exact Bool.false_ne_true)] at e
        split at e
        · exact absurd e throw_ok
        next hframe =>
        obtain ⟨-, rfl⟩ := pure_ok.mp e
        rw [not_not] at hframe
        -- the same frame carries as much
        have hsame : n = c.lastLen := by
          rw [frame] at hframe
          have e := congrArg (Option.map List.length) hframe
          have hinside : Slice.stop ⟨c.offset, c.lastLen⟩ ≤ payload.length :=
            fits.inside
          have hinside' : Slice.stop ⟨c.offset, n⟩ ≤ payload.length := hn
          rw [Option.map_some, Option.map_some, List.length_cons,
            List.length_cons, length_fragmentOf hinside,
            length_fragmentOf hinside'] at e
          have e := Option.some.inj e
          dsimp only at e
          omega
        subst hsame
        exact .underway (c.built c.lastLen st) hat hsends
          (.answered id frame fits status delay answer pd) told

-- ======================================================== other moves

/-- The CP did something beside the transfer. -/
theorem FileInv.cpSame (h : FileInv payload i cpBase base x)
    (hst : SameFile i x.cp s) :
    FileInv payload i cpBase base { x with cp := s } := by
  cases h with
  | underway c cp sends line told =>
    exact .underway c (hst _ _ cp) sends (line.cp s) told
  | closed cp k n line told => exact .closed (hst _ _ cp) k n (line.cp s) told
  | gone cp frame answer a pd told =>
    exact .gone (hst _ _ cp) frame answer a pd told

/-- The PD did. -/
theorem FileInv.pdSame (h : FileInv payload i cpBase base x)
    (hst : SameFile 0 x.pd t) :
    FileInv payload i cpBase base { x with pd := t } := by
  cases h with
  | underway c cp sends line told =>
    exact .underway c cp sends (line.same hst) told
  | closed cp k n line told => exact .closed cp k n (line.same hst) told
  | gone cp frame answer a pd told =>
    exact .gone cp frame answer a (pd.same hst) told

/-- While its transfer is active, the CP is at it. -/
theorem FileInv.active (h : FileInv payload i cpBase base x) :
    osdpFileTxIsActive (x.cp.pd i) = true ↔
      ∃ c, FileAt i x.cp c cpBase ∧ c.Sends payload := by
  have hidle (cp : FileAt i x.cp .idle (cpBase ++ [.close])) :
      osdpFileTxIsActive (x.cp.pd i) = true ↔
        ∃ c, FileAt i x.cp c cpBase ∧ c.Sends payload := by
    have hno : osdpFileTxIsActive (x.cp.pd i) = false :=
      cp.txIsActive.trans rfl
    constructor
    · intro hyes
      rw [hno] at hyes
      cases hyes
    · rintro ⟨c, hat, hc⟩
      exact hat.txIsActive.trans hc.active
  cases h with
  | underway c cp sends line told =>
    exact ⟨fun _ => ⟨c, cp, sends⟩, fun _ => cp.txIsActive.trans sends.active⟩
  | closed cp k n line told => exact hidle cp
  | gone cp frame answer a pd told => exact hidle cp

/-- The CP looks for its next command. -/
theorem FileInv.select {r : EngineCmd}
    (h : FileInv payload i cpBase base x)
    (e : osdpFileTxGetCommand cpEnv (cpRunCalls cpEnv depth) i x.cp
      = .ok r s) : FileInv payload i cpBase base { x with cp := s } := by
  have hr (calls : List ApiCall) :
      Keeps (HeldFile i) (cpRunCalls cpEnv depth calls) :=
    held_cpRunCalls depth calls
  cases h with
  | underway c cp sends line told =>
    rcases cp.getCommand hr sends e with hat | hat
    · exact .underway c hat sends (line.cp s) told
    · exact .closed hat _ _ (line.cp s) told
  | closed cp k n line told =>
    obtain rfl := cp.getCommand_idle rfl e
    exact .closed cp k n line told
  | gone cp frame answer a pd told =>
    obtain rfl := cp.getCommand_idle rfl e
    exact .gone cp frame answer a pd told

/-- The CP gives up. -/
theorem FileInv.cpAbort (h : FileInv payload i cpBase base x)
    (e : osdpFileTxAbort cpEnv (cpRunCalls cpEnv depth) i x.cp = .ok () s) :
    FileInv payload i cpBase base { x with cp := s } := by
  have hr (calls : List ApiCall) :
      Keeps (HeldFile i) (cpRunCalls cpEnv depth calls) :=
    held_cpRunCalls depth calls
  cases h with
  | underway c cp sends line told =>
    have hat := cp.abort hr sends.active e
    rw [sends.opened] at hat
    exact .closed hat _ _ (line.cp s) told
  | closed cp k n line told =>
    obtain rfl := cp.abort_idle rfl e
    exact .closed cp k n line told
  | gone cp frame answer a pd told =>
    obtain rfl := cp.abort_idle rfl e
    exact .gone cp frame answer a pd told

/-- The CP's application calls. -/
theorem FileInv.cpCall {call : ApiCall}
    (h : FileInv payload i cpBase base x)
    (hact : osdpFileTxIsActive (x.cp.pd i) = true)
    (e : cpApiCall cpEnv (cpRunCalls cpEnv depth) call x.cp = .ok () s) :
    FileInv payload i cpBase base { x with cp := s } := by
  have hheld : HeldFile i x.cp s :=
    (held_cpApiCall (held_cpRunCalls depth) call).of e
  cases h with
  | underway c cp sends line told =>
    exact .underway c (hheld _ _ cp (busy_of_active sends.active)) sends
      (line.cp s) told
  | closed cp k n line told =>
    rw [cp.txIsActive] at hact
    cases hact
  | gone cp frame answer a pd told =>
    rw [cp.txIsActive] at hact
    cases hact

/-- The PD gives up what it has open. -/
theorem PdLeft.abort {told : Option Nat} (h : PdLeft payload base s a)
    (htold : ToldOf payload told a)
    (e : osdpFileTxAbort pdEnv (pdRunCalls pdEnv depth) 0 s = .ok () t) :
    ∃ b, PdLeft payload base t b ∧ ToldOf payload told b := by
  have hr (calls : List ApiCall) :
      Keeps (HeldFile 0) (pdRunCalls pdEnv depth calls) :=
    Keeps.mono (keeps_pdRunCalls pdEnv depth calls) fun _ _ => held_of_same
  obtain ⟨⟨c, ⟨new, hat, hre⟩, hact, hopen⟩, m, hm⟩ := h
  by_cases hc : c.isActive = true
  · have hdone := hat.abort hr hc e
    rw [hopen hc, List.append_assoc] at hdone
    have hclose : AppFile.replay {} (new ++ [.close])
        = some ⟨false, a.content⟩ :=
      AppFile.replay_snoc hre (if_pos (hact.symm.trans hc))
    refine ⟨⟨false, a.content⟩,
      ⟨⟨_, ⟨_, hdone, hclose⟩, rfl, fun h => by cases h⟩, m, hm⟩, ?_⟩
    intro st e hno
    exact ⟨(htold st e hno).1, fun _ => rfl⟩
  · rw [Bool.not_eq_true] at hc
    obtain rfl := hat.abort_idle hc e
    exact ⟨a, ⟨⟨c, ⟨new, hat, hre⟩, hact, hopen⟩, m, hm⟩, htold⟩

/-- CMD_ABORT gets to the PD. -/
theorem FileInv.drop (h : FileInv payload i cpBase base x)
    (hact : osdpFileTxIsActive (x.cp.pd i) = false)
    (e : FileLink.drop pdEnv depth x = .ok () y) :
    FileInv payload i cpBase base y := by
  have hr (calls : List ApiCall) :
      Keeps (SameFile 0) (pdRunCalls pdEnv depth calls) :=
    keeps_pdRunCalls pdEnv depth calls
  obtain ⟨ret, z, hz, e⟩ := bind_ok.mp e
  obtain ⟨t, hdec, rfl⟩ := onPd_ok.mp hz
  have hy := modify_ok.mp e
  subst hy
  have hgone (cp : FileAt i x.cp .idle (cpBase ++ [.close]))
      (hleft : ∃ a, PdLeft payload base x.pd a ∧ ToldOf payload x.told a) :
      FileInv payload i cpBase base
        { x with pd := t, frame := none, answer := none } := by
    obtain ⟨a, ha, htold⟩ := hleft
    rcases pdDecodeCommand_abort hr hdec with hst | ⟨u, v, hsu, hab, hvt⟩
    · exact .gone cp rfl rfl a (ha.same hst) htold
    · obtain ⟨b, hb, htold⟩ := (ha.same hsu).abort htold hab
      exact .gone cp rfl rfl b (hb.same hvt) htold
  cases h with
  | underway c cp sends line told =>
    rw [cp.txIsActive, sends.active] at hact
    cases hact
  | closed cp k n line told => exact hgone cp (line.ends told)
  | gone cp frame answer a pd told => exact hgone cp ⟨a, pd, told⟩

/-- Whatever happens next. -/
theorem FileInv.step (hread : ReadsPayload cpEnv payload)
    (hpos : 0 < payload.length) (hfits : payload.length < 256 ^ 4)
    (m : FileMove) (haccept : x.accepts i m = true)
    (h : FileInv payload i cpBase base x)
    (e : FileLink.step cpEnv pdEnv depth i m x = .ok () y) :
    FileInv payload i cpBase base y := by
  cases m with
  | select =>
    obtain ⟨r, z, hz, e⟩ := bind_ok.mp e
    obtain ⟨s, hsel, rfl⟩ := onCp_ok.mp hz
    obtain ⟨-, rfl⟩ := pure_ok.mp e
    exact h.select hsel
  | build maxLen => exact h.build hread (of_decide_eq_true haccept) e
  | take maxLen =>
    cases h with
    | underway c cp sends line told =>
      obtain ⟨hline, hcp, htold⟩ := line.take hpos hfits e
      rw [← hcp] at cp
      rw [← htold] at told
      exact .underway c cp sends hline told
    | closed cp k n line told =>
      obtain ⟨hline, hcp, htold⟩ := line.take hpos hfits e
      rw [← hcp] at cp
      rw [← htold] at told
      exact .closed cp k n hline told
    | gone cp frame answer a pd told =>
      unfold FileLink.step FileLink.take at e
      obtain ⟨x', z, hg, e⟩ := bind_ok.mp e
      obtain ⟨rfl, rfl⟩ := get_ok.mp hg
      rw [frame] at e
      exact absurd e throw_ok
  | settle => exact h.settle e
  | cpAbort =>
    obtain ⟨s, hab, rfl⟩ := onCp_ok.mp e
    exact h.cpAbort hab
  | pdAbort =>
    refine h.drop ?_ e
    have hno : (!osdpFileTxIsActive (x.cp.pd i)) = true := haccept
    rwa [Bool.not_eq_true'] at hno
  | cpCall call =>
    obtain ⟨s, hcall, rfl⟩ := onCp_ok.mp e
    exact h.cpCall haccept hcall
  | pdCall call =>
    obtain ⟨t, hcall, rfl⟩ := onPd_ok.mp e
    exact h.pdSame
      ((keeps_pdApiCall (keeps_pdRunCalls pdEnv depth) call).of hcall)
  | cpClock now =>
    unfold FileLink.step at e
    obtain ⟨s, hnow, rfl⟩ := onCp_ok.mp e
    have hs := modify_ok.mp hnow
    subst hs
    exact h.cpSame fun c ops hat => hat.same rfl rfl
  | pdClock now =>
    unfold FileLink.step at e
    obtain ⟨t, hnow, rfl⟩ := onPd_ok.mp e
    have ht := modify_ok.mp hnow
    subst ht
    exact h.pdSame fun c ops hat => hat.same rfl rfl

end Step

-- ========================================================= the delivery

/-- A CP has just been asked for a transfer, and has taken it on; the PD
is at none. -/
structure FileLink.Starts (cpEnv : Env) (i : Nat) (payload : Bytes)
    (x : FileLink) : Prop where
  asked : ∃ s id flags,
    (cpEnv.fileOps.openFile s.log id 0).2 = payload.length ∧
      osdpFileTxCommand cpEnv i id flags s = .ok true x.cp
  there : (x.pd.pd 0).file.isSome = true
  free : osdpFileTxIsActive (x.pd.pd 0) = false
  quiet : x.frame = none ∧ x.answer = none ∧ x.told = none

/-- What became of a transfer between `x` and `y`. -/
structure FileDelivered (payload : Bytes) (i : Nat) (x y : FileLink)
    (new : List FileOp) (a : AppFile) : Prop where
  /-- what the PD's application was handed since is a file written at its
  end only -/
  handed : y.pd.fileMoves 0 = x.pd.fileMoves 0 ++ new
  replayed : AppFile.replay {} new = some a
  /-- and holds the beginning of the CP's -/
  content : a.content <+: payload
  /-- as much of it as the CP thinks, between two exchanges -/
  offset : osdpFileTxIsActive (y.cp.pd i) = true → y.frame = none →
    a.content.length = ((y.cp.pd i).mp .file).offset
  /-- a status that is no error comes once it holds all of it -/
  success : ∀ st, y.told = some st → st ≠ fileTxStatusAck → st < 0x8000 →
    a.content = payload
  /-- and one that ends the transfer once both files are closed -/
  closed : ∀ st, y.told = some st → st ≠ fileTxStatusAck →
    st ≠ fileTxStatusKeepAlive →
    a.isOpen = false ∧ osdpFileTxIsActive (y.cp.pd i) = false
  /-- the CP closes its file once, when the transfer ends -/
  sender : y.cp.fileMoves i = x.cp.fileMoves i ++
    if osdpFileTxIsActive (y.cp.pd i) then [] else [.close]

section Delivery

variable {payload : Bytes} {i : Nat} {base : List FileOp}
variable {x y : FileLink} {t : Osdp} {a : AppFile}

/-- Before the first move. -/
theorem FileLink.Starts.inv {cpEnv : Env}
    (h : x.Starts cpEnv i payload) :
    FileInv payload i (x.cp.fileMoves i) (x.pd.fileMoves 0) x ∧
      0 < payload.length := by
  obtain ⟨s, id, flags, hlen, hcmd⟩ := h.asked
  obtain ⟨hcp, hpos⟩ := fileTxCommand_ok hlen hcmd
  obtain ⟨hframe, hanswer, htold⟩ := h.quiet
  obtain ⟨f, hf⟩ := Option.isSome_iff_exists.mp h.there
  have hat : FileAt 0 x.pd f.core (x.pd.fileMoves 0) :=
    ⟨by rw [hf]; rfl, rfl⟩
  have hfree : f.core.isActive = false := hat.txIsActive.symm.trans h.free
  have hstands : PdStands payload (x.pd.fileMoves 0) x.pd 0 :=
    .before f.core rfl hfree ⟨[], by rw [List.append_nil]; exact hat, rfl⟩
  refine ⟨.underway _ hcp (FileCore.sends_asked id payload)
    (.quiet hframe hanswer hstands) ?_, hpos⟩
  intro st e
  rw [htold] at e
  cases e

/-- What the PD has at the end. -/
theorem PdLeft.delivered {x : FileLink}
    (h : PdLeft payload (x.pd.fileMoves 0) t a) :
    ∃ new, t.fileMoves 0 = x.pd.fileMoves 0 ++ new ∧
      AppFile.replay {} new = some a ∧ a.content <+: payload := by
  obtain ⟨⟨c, ⟨new, hat, hre⟩, -⟩, m, hm⟩ := h
  refine ⟨new, hat.moves, hre, ?_⟩
  rw [hm]
  exact List.take_prefix m payload

/-- The invariant says what became of the transfer. -/
theorem FileInv.delivered
    (h : FileInv payload i (x.cp.fileMoves i) (x.pd.fileMoves 0) y) :
    ∃ new a, FileDelivered payload i x y new a := by
  have hover (cp : FileAt i y.cp .idle (x.cp.fileMoves i ++ [.close]))
      (hleft : ∃ a, PdLeft payload (x.pd.fileMoves 0) y.pd a ∧
        ToldOf payload y.told a) :
      ∃ new a, FileDelivered payload i x y new a := by
    obtain ⟨a, ha, htold⟩ := hleft
    obtain ⟨new, hmoves, hre, hpre⟩ := ha.delivered
    have hno : osdpFileTxIsActive (y.cp.pd i) = false :=
      cp.txIsActive.trans rfl
    refine ⟨new, a, hmoves, hre, hpre, fun hyes => ?_,
      fun st e hack => (htold st e hack).1,
      fun st e hack hkeep => ⟨(htold st e hack).2 hkeep, hno⟩, ?_⟩
    · rw [hno] at hyes
      cases hyes
    · rw [cp.moves, hno, if_neg Bool.false_ne_true]
  cases h with
  | closed cp k n line told => exact hover cp (line.ends told)
  | gone cp frame answer a pd told => exact hover cp ⟨a, pd, told⟩
  | underway c cp sends line told =>
    have hyes : osdpFileTxIsActive (y.cp.pd i) = true :=
      cp.txIsActive.trans sends.active
    have hoffset : ((y.cp.pd i).mp .file).offset = c.offset := cp.mp.2.2.2.1
    have hsender : y.cp.fileMoves i = x.cp.fileMoves i ++
        if osdpFileTxIsActive (y.cp.pd i) then [] else [.close] := by
      rw [cp.moves, hyes, if_pos rfl, List.append_nil]
    have hclosed (a : AppFile) (st : Nat) (e : y.told = some st)
        (hack : st ≠ fileTxStatusAck) (hkeep : st ≠ fileTxStatusKeepAlive) :
        a.isOpen = false ∧ osdpFileTxIsActive (y.cp.pd i) = false :=
      absurd (told st e hack).1 hkeep
    by_cases hframe : y.frame = none
    · -- between two exchanges
      have hstands : PdStands payload (x.pd.fileMoves 0) y.pd c.offset := by
        cases line with
        | quiet frame answer pd => exact pd
        | asked id frame answer fits pd =>
          rw [hframe] at frame
          cases frame
        | answered id frame fits status delay answer pd =>
          rw [hframe] at frame
          cases frame
      obtain ⟨a, ha, hc⟩ := hstands.left
      obtain ⟨new, hmoves, hre, hpre⟩ := ha.delivered
      refine ⟨new, a, hmoves, hre, hpre, fun _ _ => ?_,
        fun st e hack _ => ?_, hclosed a, hsender⟩
      · rw [hc, hoffset, List.length_take]
        exact Nat.min_eq_left sends.offset
      · rw [hc, (told st e hack).2, List.take_length]
    · obtain ⟨a, ha, htold⟩ := line.ends told
      obtain ⟨new, hmoves, hre, hpre⟩ := ha.delivered
      exact ⟨new, a, hmoves, hre, hpre, fun _ h => absurd h hframe,
        fun st e hack => (htold st e hack).1, hclosed a, hsender⟩

/-- Wherever a transfer gets to, the PD's application has written the
beginning of the CP's file, every byte of it once and in its place; and a
CP that is told of success is told so when all of it is there. -/
theorem file_delivered {cpEnv pdEnv : Env} {depth : Nat}
    {moves : List FileMove} (hread : ReadsPayload cpEnv payload)
    (hfits : payload.length < 256 ^ 4)
    (hstart : x.Starts cpEnv i payload)
    (hrun : FileRun cpEnv pdEnv depth i x moves y) :
    ∃ new a, FileDelivered payload i x y new a := by
  obtain ⟨hinv, hpos⟩ := hstart.inv
  have hlast : FileInv payload i (x.cp.fileMoves i) (x.pd.fileMoves 0) y :=
    hrun.invariant hinv fun m v w haccept hv e =>
      hv.step hread hpos hfits m haccept e
  exact hlast.delivered

end Delivery

-- ============================================================ an example

/-- Applications that send `payload`, take what they get, and need a
second look at the whole of it. -/
def fileEnv (payload : Bytes) : Env :=
  { plainEnv (knownCipher []) fun _ => 0 with
    fileOps :=
      { openFile := fun _ _ _ => (0, payload.length)
        readFile := fun _ n off => (n, (payload.drop off).take n)
        writeFile := fun _ data _ => data.length
        closeFile := fun _ => 0
        finalize := some fun log =>
          (log.contains (.file 0 .finalize), .ok, 0) } }

theorem reads_fileEnv (payload : Bytes) :
    ReadsPayload (fileEnv payload) payload := by
  intro log size off h
  refine ⟨le_rfl, fun _ => ?_⟩
  show ((payload.drop off).take size).take size = _
  rw [List.take_take, Nat.min_self]
  rfl

/-- Two devices that know of file transfers. -/
def fileDevice (pdMode : Bool) : Osdp :=
  { pd := fun _ => { flags := { pdMode := pdMode }, file := some fileReset } }

/-- The CP has been asked to send file 7. -/
def fileLink (payload : Bytes) : Option FileLink :=
  match osdpFileTxCommand (fileEnv payload) 0 7 0 (fileDevice false) with
  | .ok true s => some { cp := s, pd := fileDevice true }
  | _ => none

theorem starts_fileLink {payload : Bytes} {x : FileLink}
    (h : fileLink payload = some x) :
    x.Starts (fileEnv payload) 0 payload := by
  unfold fileLink at h
  cases e : osdpFileTxCommand (fileEnv payload) 0 7 0 (fileDevice false) with
  | error f s =>
    rw [e] at h
    cases h
  | ok b s =>
    rw [e] at h
    cases b with
    | false => cases h
    | true =>
      cases h
      exact ⟨⟨_, 7, 0, rfl, e⟩, rfl, rfl, rfl, rfl, rfl⟩

/-- A transfer in two fragments.  The first try of the first is lost, and
so is the first answer; the PD's application takes a while at the end. -/
def twoFragments : List FileMove :=
  [.select, .build 29, .build 29, .take 64, .build 29, .settle,
    .select, .build 29, .take 64, .settle,
    .select, .build 29, .take 64, .settle]

theorem file_delivered_fragments :
    ∃ x y, fileLink [1, 2, 3] = some x ∧
      FileRun (fileEnv [1, 2, 3]) (fileEnv [1, 2, 3]) 0 0 x twoFragments y ∧
      y.told = some fileTxStatusContentsProcessed ∧
      ∃ new a, FileDelivered [1, 2, 3] 0 x y new a := by
  obtain ⟨x, y, hx, hrun, htold⟩ :=
    run_of_setup (FileLink.step (fileEnv [1, 2, 3]) (fileEnv [1, 2, 3]) 0 0)
      (FileLink.accepts 0) (fileLink [1, 2, 3]) twoFragments
      (fun y => y.told = some fileTxStatusContentsProcessed)
      (by decide +kernel)
  exact ⟨x, y, hx, hrun, htold,
    file_delivered (reads_fileEnv _) (by decide) (starts_fileLink hx) hrun⟩

end LibOsdp
