/-
What each function of the file engine does to a transfer, one lemma for
each.

# What is looked at

`FileCore` is what a transfer goes by: the counters of the engine, the
flags that choose an answer, and whether the application's file is open.
`Obs.fileMove` picks out of the history what the application's file is
put through.  `FileAt` says where both stand, and the lemmas are about
`FileAt` before and after.

# Callbacks

A transfer tells the application about itself, and the application may
call back.  Such calls can ask for a transfer to be cancelled and can do
no more to one that is under way (`HeldFile`): a second transfer is turned
away, and so is one out of the notification that ends the first.
-/
import LibOsdp.Engine.Proofs.Footprint
import LibOsdp.Engine.Proofs.Reassembly

namespace LibOsdp

open Lib

-- ================================================================= views

/-- What a transfer goes by. -/
structure FileCore where
  state : MpState
  width : MpWidth
  total : Nat
  offset : Nat
  lastLen : Nat
  lastOff : Nat
  binding : MpBinding
  fileId : Nat
  isOpen : Bool
  keepAlive : Bool
  writeFailed : Bool
  inTerminal : Bool
  deriving DecidableEq, Repr

/-- That of a file context. -/
def OsdpFile.core (f : OsdpFile) : FileCore where
  state := f.mp.state
  width := f.mp.width
  total := f.mp.total
  offset := f.mp.offset
  lastLen := f.mp.lastLen
  lastOff := f.mp.lastOff
  binding := f.mp.binding
  fileId := f.fileId
  isOpen := f.isOpen
  keepAlive := f.keepAlivePending
  writeFailed := f.writeFailed
  inTerminal := f.inTerminal

/-- `osdp_mp_is_active`. -/
def FileCore.isActive (c : FileCore) : Bool :=
  c.state == .inprog || c.state == .wait

/-- No other transfer may start. -/
def FileCore.isBusy (c : FileCore) : Bool := c.isActive || c.inTerminal

/-- The operations that do something to the application's file. -/
def FileOp.moves : FileOp → Bool
  | .open .. | .write .. | .close => true
  | .read .. | .finalize => false

/-- What an entry of the history does to the file of PD `i`. -/
def Obs.fileMove (i : Nat) : Obs → Option FileOp
  | .file j op => if j = i ∧ op.moves then some op else none
  | _ => none

/-- What the file of PD `i` has been put through, the oldest first. -/
def Osdp.fileMoves (s : Osdp) (i : Nat) : List FileOp :=
  s.log.reverse.filterMap (Obs.fileMove i)

/-- Where the transfer of PD `i` and its file stand. -/
structure FileAt (i : Nat) (s : Osdp) (c : FileCore) (ops : List FileOp) :
    Prop where
  core : (s.pd i).file.map OsdpFile.core = some c
  moves : s.fileMoves i = ops

/-- Nothing happened to the transfer. -/
def SameFile (i : Nat) (s t : Osdp) : Prop :=
  ∀ c ops, FileAt i s c ops → FileAt i t c ops

/-- Nothing happened to it as long as it was under way. -/
def HeldFile (i : Nat) (s t : Osdp) : Prop :=
  ∀ c ops, FileAt i s c ops → c.isBusy = true → FileAt i t c ops

instance (i : Nat) : IsPreorder Osdp (SameFile i) where
  refl _ _ _ h := h
  trans _ _ _ h k c ops hc := k c ops (h c ops hc)

instance (i : Nat) : IsPreorder Osdp (HeldFile i) where
  refl _ _ _ h _ := h
  trans _ _ _ h k c ops hc hb := k c ops (h c ops hc hb) hb

theorem held_of_same {i : Nat} {s t : Osdp} (h : SameFile i s t) :
    HeldFile i s t :=
  fun c ops hc _ => h c ops hc

theorem busy_of_active {c : FileCore} (h : c.isActive = true) :
    c.isBusy = true := by
  unfold FileCore.isBusy
  rw [h, Bool.true_or]

section At

variable {i : Nat} {s t : Osdp} {c c' : FileCore} {ops : List FileOp}

theorem fileMoves_cons (s : Osdp) (i : Nat) (o : Obs) :
    ({ s with log := o :: s.log } : Osdp).fileMoves i
      = s.fileMoves i ++ (o.fileMove i).toList := by
  unfold Osdp.fileMoves
  rw [List.reverse_cons, List.filterMap_append]
  cases h : o.fileMove i with
  | none => simp [h]
  | some op => simp [h]

/-- The context behind the view. -/
theorem FileAt.file (h : FileAt i s c ops) :
    ∃ f, (s.pd i).file = some f ∧ f.core = c := by
  have e := h.core
  cases hf : (s.pd i).file with
  | none =>
    rw [hf] at e
    cases e
  | some f =>
    rw [hf] at e
    exact ⟨f, rfl, Option.some.inj e⟩

theorem FileAt.isSome (h : FileAt i s c ops) : (s.pd i).file.isSome := by
  obtain ⟨f, hf, -⟩ := h.file
  rw [hf]
  rfl

/-- The engine behind the view. -/
theorem FileAt.mp (h : FileAt i s c ops) :
    ((s.pd i).mp .file).state = c.state ∧
      ((s.pd i).mp .file).width = c.width ∧
      ((s.pd i).mp .file).total = c.total ∧
      ((s.pd i).mp .file).offset = c.offset ∧
      ((s.pd i).mp .file).lastLen = c.lastLen ∧
      ((s.pd i).mp .file).lastOff = c.lastOff ∧
      ((s.pd i).mp .file).binding = c.binding := by
  obtain ⟨f, hf, rfl⟩ := h.file
  unfold OsdpPd.mp
  rw [hf]
  exact ⟨rfl, rfl, rfl, rfl, rfl, rfl, rfl⟩

theorem FileAt.isActive (h : FileAt i s c ops) :
    ((s.pd i).mp .file).isActive = c.isActive := by
  unfold Multipart.isActive FileCore.isActive
  rw [h.mp.1]

theorem FileAt.txIsActive (h : FileAt i s c ops) :
    osdpFileTxIsActive (s.pd i) = c.isActive := by
  unfold osdpFileTxIsActive
  rw [h.isSome, Bool.true_and, h.isActive]

/-- Neither the context nor the history changed. -/
theorem FileAt.same (h : FileAt i s c ops)
    (hf : (t.pd i).file.map OsdpFile.core
      = (s.pd i).file.map OsdpFile.core)
    (hl : t.fileMoves i = s.fileMoves i) : FileAt i t c ops :=
  ⟨hf.trans h.core, hl.trans h.moves⟩

-- =============================================================== updates

/-- A PD is changed beside its transfer. -/
theorem same_updPd {j : Nat} {f : OsdpPd → OsdpPd}
    (h : ∀ p : OsdpPd, (f p).file.map OsdpFile.core
      = p.file.map OsdpFile.core) : Keeps (SameFile i) (updPd j f) := by
  intro s a t e c ops hc
  rw [← updPd_ok.mp e]
  refine hc.same ?_ rfl
  by_cases hj : i = j
  · subst hj
    rw [updPd_pd_same]
    exact h _
  · rw [updPd_pd_ne s f hj]

theorem FileAt.updPd {j : Nat} {f : OsdpPd → OsdpPd} {a : Unit}
    (h : FileAt i s c ops) (e : updPd j f s = .ok a t)
    (hf : ∀ p : OsdpPd, (f p).file.map OsdpFile.core
      = p.file.map OsdpFile.core) : FileAt i t c ops :=
  (same_updPd hf).of e c ops h

/-- Another PD is changed. -/
theorem same_updPd_ne {j : Nat} (hj : i ≠ j) (f : OsdpPd → OsdpPd) :
    Keeps (SameFile i) (updPd j f) := by
  intro s a t e c ops hc
  rw [← updPd_ok.mp e]
  exact hc.same (by rw [updPd_pd_ne s f hj]) rfl

/-- An entry that does nothing to the file. -/
theorem same_observe {o : Obs} (h : o.fileMove i = none) :
    Keeps (SameFile i) (observe o) := by
  intro s a t e c ops hc
  rw [← observe_ok.mp e]
  refine hc.same rfl ?_
  rw [fileMoves_cons, h, Option.toList_none, List.append_nil]

/-- The file context is changed. -/
theorem FileAt.updFile {g : OsdpFile → OsdpFile} {a : Unit}
    (h : FileAt i s c ops) (e : updFile i g s = .ok a t)
    (hg : ∀ f : OsdpFile, f.core = c → (g f).core = c') :
    FileAt i t c' ops := by
  obtain ⟨f, hf, hc⟩ := h.file
  refine ⟨?_, ?_⟩
  · rw [← updPd_ok.mp e, updPd_pd_same, hf]
    exact congrArg some (hg f hc)
  · rw [← updPd_ok.mp e]
    exact h.moves

/-- The engine is changed. -/
theorem FileAt.updMp {g : Multipart → Multipart} {a : Unit}
    (h : FileAt i s c ops) (e : updMp i .file g s = .ok a t)
    (hg : ∀ f : OsdpFile, f.core = c →
      ({ f with mp := g f.mp } : OsdpFile).core = c') :
    FileAt i t c' ops := by
  obtain ⟨f, hf, hc⟩ := h.file
  refine ⟨?_, ?_⟩
  · rw [← updPd_ok.mp e, updPd_pd_same]
    unfold OsdpPd.setMp OsdpPd.mp
    rw [hf]
    exact congrArg some (hg f hc)
  · rw [← updPd_ok.mp e]
    exact h.moves

/-- The application's file is put through something. -/
theorem FileAt.observe {op : FileOp} {a : Unit} (h : FileAt i s c ops)
    (e : observe (.file i op) s = .ok a t) (hop : op.moves = true) :
    FileAt i t c (ops ++ [op]) := by
  rw [← observe_ok.mp e]
  refine ⟨h.core, ?_⟩
  have hmove : (Obs.file i op).fileMove i = some op := if_pos ⟨rfl, hop⟩
  rw [fileMoves_cons, h.moves, hmove, Option.toList_some]

theorem fileMove_quiet {op : FileOp} (j : Nat) (h : op.moves = false) :
    (Obs.file j op).fileMove i = none := by
  refine if_neg fun hop => ?_
  rw [h] at hop
  exact Bool.false_ne_true hop.2

end At

-- =============================================================== notices

section Steps

variable {env : Env} {run : List ApiCall → OsdpM Unit}
variable {i : Nat} {s t : Osdp} {c : FileCore} {ops : List FileOp}

/-- A notification comes to calls of the application. -/
theorem keeps_mpEmit_of {R : Osdp → Osdp → Prop} [IsPreorder Osdp R]
    (hr : ∀ calls, Keeps R (run calls))
    (ho : ∀ o : Obs, o.fileMove i = none → Keeps R (observe o))
    (hu : Keeps R (updPd i fun p => { p with engineCmd := none }))
    (slot : MpSlot) (phase : MpPhase) :
    Keeps R (mpEmit env run i slot phase) := by
  have hcall (cmd : OsdpCmd) :
      Keeps R (callCommandCallback env run i cmd) := by
    unfold callCommandCallback
    split
    · exact .pure _
    · exact .bind .get fun _ => .bind (ho _ rfl) fun _ =>
        .bind (hr _) fun _ => .pure _
  have hev (ev : OsdpEvent) : Keeps R (cpDispatchEvent env run i ev) := by
    unfold cpDispatchEvent
    split
    · exact .pure _
    · exact .bind .get fun _ => .bind (ho _ rfl) fun _ => hr _
  have hdone (x : Option SubmittedCmd) (st : CompletionStatus) :
      Keeps R (cpCompleteCmd env run i x st) := by
    unfold cpCompleteCmd
    split
    · exact .bind .get fun _ => .bind (ho _ rfl) fun _ => hr _
    · exact .pure _
  have hnotify (ph : MpPhase) (g : MpProgress) :
      Keeps R (osdpMpPdNotify env run i ph g) := by
    unfold osdpMpPdNotify mpDeliverNotification
    refine .bind (.bind (keeps_getPd i) fun p => .ite (.ite ?_ (hev _))
      (.pure _)) fun _ => .bind (keeps_getPd i) fun p => .ite ?_ (.pure _)
    · exact .bind (hcall _) fun _ => .pure _
    · exact .bind hu fun _ => .bind .get fun _ => hdone _ _
  unfold mpEmit
  refine .bind (keeps_getMp i slot) fun m => ?_
  split
  · exact hnotify _ _
  · exact .pure _

section HeldFile

variable (hr : ∀ calls, Keeps (HeldFile i) (run calls))
include hr

theorem held_mpEmit (slot : MpSlot) (phase : MpPhase) :
    Keeps (HeldFile i) (mpEmit env run i slot phase) := by
  have ho (o : Obs) (h : o.fileMove i = none) :
      Keeps (HeldFile i) (observe o) :=
    (same_observe h).mono fun _ _ => held_of_same
  have hu : Keeps (HeldFile i)
      (updPd i fun p => { p with engineCmd := none }) :=
    fun s a t e c ops h _ => h.updPd e fun _ => rfl
  exact keeps_mpEmit_of hr ho hu slot phase

/-- The announcement of a transfer. -/
theorem held_osdpMpEmitStart :
    Keeps (HeldFile i) (osdpMpEmitStart env run i .file) := by
  have hu : Keeps (HeldFile i)
      (updMp i .file fun m => { m with startEmitted := true }) := by
    intro s a t e c ops hc _
    exact hc.updMp e fun f hf => by rw [← hf]; rfl
  unfold osdpMpEmitStart
  exact .bind (keeps_getMp i .file) fun m =>
    .ite (.bind hu fun _ => held_mpEmit hr .file .start) (.pure _)

-- ============================================================ the ending

/-- A context without a transfer. -/
def FileCore.idle : FileCore := fileReset.core

/-- The engine reports the outcome. -/
theorem FileAt.finish {o : MpOutcome} {a : Unit} (h : FileAt i s c ops)
    (hact : c.isActive = true) (hterm : c.inTerminal = true)
    (e : osdpMpFinish env run i .file o s = .ok a t) :
    FileAt i t { c with state := .done } ops := by
  obtain ⟨m, u, hm, e⟩ := bind_ok.mp e
  obtain ⟨rfl, rfl⟩ := getMp_ok.mp hm
  have hon : ¬ (((s.pd i).mp .file).state = .done ∨
      ((s.pd i).mp .file).state = .idle) := by
    rw [h.mp.1]
    unfold FileCore.isActive at hact
    intro hst
    rcases hst with hst | hst <;> rw [hst] at hact <;> cases hact
  rw [if_neg hon] at e
  obtain ⟨_, v, hv, e⟩ := bind_ok.mp e
  have hdone : FileAt i v { c with state := .done } ops :=
    h.updMp hv fun f hf => by rw [← hf]; rfl
  refine (held_mpEmit hr .file .done).of e _ _ hdone ?_
  show (_ || c.inTerminal) = true
  rw [hterm, Bool.or_true]

omit hr in
/-- The file is closed if it is open. -/
theorem FileAt.close {a : Unit} (h : FileAt i s c ops)
    (e : fileCloseIfOpen i s = .ok a t) :
    FileAt i t { c with isOpen := false }
      (ops ++ if c.isOpen then [.close] else []) := by
  obtain ⟨p, u, hg, e⟩ := bind_ok.mp e
  obtain ⟨rfl, rfl⟩ := getPd_ok.mp hg
  obtain ⟨f, hf, hc⟩ := h.file
  have hopen : ((s.pd i).file.getD {}).isOpen = c.isOpen := by
    rw [hf, ← hc]
    rfl
  rw [hopen] at e
  by_cases ho : c.isOpen = true
  · rw [if_pos ho] at e ⊢
    obtain ⟨_, v, hv, e⟩ := bind_ok.mp e
    exact (h.observe hv rfl).updFile e fun g hg => by rw [← hg]; rfl
  · rw [if_neg ho] at e ⊢
    obtain ⟨-, rfl⟩ := pure_ok.mp e
    have hcl : ({ c with isOpen := false } : FileCore) = c := by
      rw [Bool.not_eq_true] at ho
      rw [← ho]
    rw [hcl, List.append_nil]
    exact h

/-- A transfer ends: the file is closed, and the engine is free. -/
theorem FileAt.done {o : MpOutcome} {a : Unit} (h : FileAt i s c ops)
    (hact : c.isActive = true)
    (e : fileTransitionDone env run i o s = .ok a t) :
    FileAt i t .idle (ops ++ if c.isOpen then [.close] else []) := by
  obtain ⟨_, u, hu, e⟩ := bind_ok.mp e
  have hterm : FileAt i u { c with inTerminal := true } ops :=
    h.updFile hu fun f hf => by rw [← hf]; rfl
  obtain ⟨_, v, hv, e⟩ := bind_ok.mp e
  have hstart := (held_osdpMpEmitStart hr).of hv _ _ hterm
    (busy_of_active hact)
  obtain ⟨_, w, hw, e⟩ := bind_ok.mp e
  have hfin := hstart.finish hr hact rfl hw
  obtain ⟨_, x, hx, e⟩ := bind_ok.mp e
  have hclose := hfin.close hx
  obtain ⟨p, y, hg, e⟩ := bind_ok.mp e
  obtain ⟨rfl, rfl⟩ := getPd_ok.mp hg
  by_cases hoff : (!(x.pd i).flags.pdMode && o == .okRebooting) = true
  · rw [if_pos hoff] at e
    obtain ⟨_, y, hy, e⟩ := bind_ok.mp e
    exact (hclose.updPd hy fun _ => rfl).updFile e fun _ _ => rfl
  · rw [if_neg hoff] at e
    exact hclose.updFile e fun _ _ => rfl

/-- A transfer is given up. -/
theorem FileAt.abort {a : Unit} (h : FileAt i s c ops)
    (hact : c.isActive = true)
    (e : osdpFileTxAbort env run i s = .ok a t) :
    FileAt i t .idle (ops ++ if c.isOpen then [.close] else []) := by
  obtain ⟨p, u, hg, e⟩ := bind_ok.mp e
  obtain ⟨rfl, rfl⟩ := getPd_ok.mp hg
  rw [if_pos (h.txIsActive.trans hact)] at e
  exact h.done hr hact e

omit hr in
/-- There is none to give up. -/
theorem FileAt.abort_idle {a : Unit} (h : FileAt i s c ops)
    (hact : c.isActive = false)
    (e : osdpFileTxAbort env run i s = .ok a t) : t = s := by
  obtain ⟨p, u, hg, e⟩ := bind_ok.mp e
  obtain ⟨rfl, rfl⟩ := getPd_ok.mp hg
  rw [h.txIsActive, hact, if_neg Bool.false_ne_true] at e
  exact (pure_ok.mp e).2.symm

end HeldFile

-- ================================================================ sending

/-- The read operation gives the payload's bytes, as many as it likes. -/
def ReadsPayload (env : Env) (payload : Bytes) : Prop :=
  ∀ log size off, off + size ≤ payload.length →
    (env.fileOps.readFile log size off).1 ≤ size ∧
    (0 ≤ (env.fileOps.readFile log size off).1 →
      (env.fileOps.readFile log size off).2.take
          (env.fileOps.readFile log size off).1.toNat
        = sliceOf payload
          ⟨off, (env.fileOps.readFile log size off).1.toNat⟩)

/-- The sender of a payload, at work. -/
structure FileCore.Sends (c : FileCore) (payload : Bytes) : Prop where
  active : c.isActive = true
  width : c.width = .w32
  total : c.total = payload.length
  binding : c.binding = .fileOps
  opened : c.isOpen = true
  offset : c.offset ≤ payload.length

/-- A fragment with `n` bytes has been built. -/
def FileCore.built (c : FileCore) (n : Nat) (st : MpState) : FileCore :=
  { c with lastLen := n, state := st }

section Sender

variable {payload : Bytes}

/-- What the read operation does. -/
theorem FileAt.read {size off : Nat} {r : Int × Bytes}
    (h : FileAt i s c ops) (hb : c.binding = .fileOps)
    (e : mpRead env i .file size off s = .ok r t) :
    r = env.fileOps.readFile s.log size off ∧ FileAt i t c ops := by
  obtain ⟨p, u, hg, e⟩ := bind_ok.mp e
  obtain ⟨rfl, rfl⟩ := getPd_ok.mp hg
  rw [h.mp.2.2.2.2.2.2, hb] at e
  obtain ⟨s', v, hg, e⟩ := bind_ok.mp e
  obtain ⟨rfl, rfl⟩ := get_ok.mp hg
  obtain ⟨_, w, hw, e⟩ := bind_ok.mp e
  obtain ⟨rfl, rfl⟩ := pure_ok.mp e
  exact ⟨rfl, (same_observe (fileMove_quiet i rfl)).of hw _ _ h⟩

/-- A slice that is there in full is what is cut to its length. -/
theorem take_padded {n : Nat} {data : Bytes} {x : Slice}
    (hx : x.stop ≤ payload.length) (hlen : x.len = n)
    (hdata : data.take n = sliceOf payload x) :
    (data ++ zeros n).take n = sliceOf payload x := by
  have hfull : n ≤ data.length := by
    have e := congrArg List.length hdata
    rw [length_sliceOf hx, hlen, List.length_take] at e
    omega
  rw [List.take_append_of_le_length hfull, hdata]

/-- The engine builds the next fragment, or finds no way to. -/
theorem FileAt.txBuildEx {maxLen : Int} {r : Option Bytes}
    (h : FileAt i s c ops) (hc : c.Sends payload)
    (hread : ReadsPayload env payload)
    (e : osdpMpTxBuildEx env i .file maxLen [] s = .ok r t) :
    r = none ∧ FileAt i t c ops ∨
      ∃ n st, r = some (fragmentOf payload [] .w32 ⟨c.offset, n⟩) ∧
        c.offset + n ≤ payload.length ∧ (n : Int) ≤ max maxLen 0 ∧
        (st = .inprog ∨ st = .wait) ∧ FileAt i t (c.built n st) ops := by
  obtain ⟨m, u, hm, e⟩ := bind_ok.mp e
  obtain ⟨rfl, rfl⟩ := getMp_ok.mp hm
  obtain ⟨-, hw, ht, ho, -, -, -⟩ := h.mp
  dsimp only at e
  rw [ite_self, hw, ht, ho, hc.width, hc.total] at e
  split at e
  · obtain ⟨rfl, rfl⟩ := pure_ok.mp e
    exact .inl ⟨rfl, h⟩
  generalize hsize : min (maxLen - (mpHdrSize .w32 : Int) -
    (([] : Bytes).length : Int)).toNat (payload.length - c.offset) = size at e
  have hle : size ≤ payload.length - c.offset := by omega
  have hmax : (size : Int) ≤ max maxLen 0 := by
    rw [List.length_nil] at hsize
    omega
  have hoff := hc.offset
  obtain ⟨⟨n, data⟩, v, hv, e⟩ := bind_ok.mp e
  obtain ⟨hr, hat⟩ := h.read hc.binding hv
  obtain ⟨hn, hdata⟩ := hread s.log size c.offset (by omega)
  rw [← hr] at hn hdata
  dsimp only at e hn hdata
  split at e
  · obtain ⟨rfl, rfl⟩ := pure_ok.mp e
    exact .inl ⟨rfl, hat⟩
  next hpos =>
  right
  split at e
  · next hzero =>
    obtain ⟨_, w, hw', e⟩ := bind_ok.mp e
    obtain ⟨rfl, rfl⟩ := pure_ok.mp e
    refine ⟨0, .wait, ?_, hoff, by omega, .inr rfl,
      hat.updMp hw' fun f hf => by rw [← hf]; rfl⟩
    unfold fragmentOf
    rw [if_pos rfl, List.append_nil]
  · next hzero =>
    obtain ⟨_, w, hw', e⟩ := bind_ok.mp e
    obtain ⟨rfl, rfl⟩ := pure_ok.mp e
    refine ⟨n.toNat, .inprog, ?_, by omega, by omega, .inl rfl,
      hat.updMp hw' fun f hf => by rw [← hf]; rfl⟩
    have hstop : Slice.stop ⟨c.offset, n.toNat⟩ ≤ payload.length := by
      show c.offset + n.toNat ≤ payload.length
      omega
    unfold fragmentOf
    rw [if_neg (by show ¬ n.toNat = 0; omega), ite_self,
      take_padded hstop rfl (hdata (by omega)), List.append_nil,
      List.nil_append]

/-- The data block of CMD_FILETRANSFER is built, or the transfer ends. -/
theorem FileAt.cmdTxBuild {maxLen : Int} {r : Option Bytes}
    (hr : ∀ calls, Keeps (HeldFile i) (run calls))
    (h : FileAt i s c ops) (hc : c.Sends payload)
    (hread : ReadsPayload env payload)
    (e : osdpFileCmdTxBuild env run i maxLen s = .ok r t) :
    r = none ∧ FileAt i t .idle (ops ++ [.close]) ∨
      ∃ n st, r = some (UInt8.ofNat c.fileId ::
          fragmentOf payload [] .w32 ⟨c.offset, n⟩) ∧
        c.offset + n ≤ payload.length ∧ (n : Int) ≤ max maxLen 0 ∧
        (st = .inprog ∨ st = .wait) ∧ FileAt i t (c.built n st) ops := by
  -- the ways to give up
  have hfail {u v : Osdp} {a : Unit} {c' : FileCore}
      (hu : FileAt i u c' ops) (hc' : c'.isActive = true)
      (hopen : c'.isOpen = true)
      (e : fileTransitionDone env run i .aborted u = .ok a v) :
      FileAt i v .idle (ops ++ [.close]) := by
    have hd := hu.done hr hc' e
    rw [hopen] at hd
    exact hd
  obtain ⟨f, hf, hcore⟩ := h.file
  have hid : ((s.pd i).file.getD {}).fileId = c.fileId := by
    rw [hf, ← hcore]
    rfl
  unfold osdpFileCmdTxBuild at e
  obtain ⟨p, u, hg, e⟩ := bind_ok.mp e
  obtain ⟨rfl, rfl⟩ := getPd_ok.mp hg
  rw [h.isSome, h.isActive, hc.active] at e
  obtain ⟨_, u, hu, e⟩ := bind_ok.mp e
  obtain ⟨-, rfl⟩ := pure_ok.mp hu
  obtain ⟨_, u, hu, e⟩ := bind_ok.mp e
  obtain ⟨-, rfl⟩ := pure_ok.mp hu
  obtain ⟨hst, -, ht, ho, -, -, -⟩ := h.mp
  rw [hid, hst, ho, ht] at e
  split at e
  · obtain ⟨_, u, hu, e⟩ := bind_ok.mp e
    obtain ⟨rfl, rfl⟩ := pure_ok.mp e
    exact .inl ⟨rfl, hfail h hc.active hc.opened hu⟩
  split at e
  · -- the PD is finishing: nothing but the header
    next hidle =>
    obtain ⟨x, u, hu, e⟩ := bind_ok.mp e
    obtain ⟨rfl, rfl⟩ := pure_ok.mp e
    obtain ⟨_, v, hv, hu⟩ := bind_ok.mp hu
    obtain ⟨m, w, hm, hu⟩ := bind_ok.mp hu
    obtain ⟨rfl, rfl⟩ := getMp_ok.mp hm
    obtain ⟨rfl, rfl⟩ := pure_ok.mp hu
    have hat : FileAt i v (c.built 0 .wait) ops :=
      h.updMp hv fun f hf => by rw [← hf, FileCore.built, ← hidle.1, ← hf]; rfl
    obtain ⟨-, hw', ht', ho', -, -, -⟩ := hat.mp
    refine .inr ⟨0, .wait, ?_, hc.offset, Int.le_max_right _ _, .inr rfl, hat⟩
    unfold fragmentOf
    rw [hw', ht', ho', if_pos rfl, List.append_nil]
    show some (_ :: osdpMpHdrWrite c.width c.total c.offset 0) = _
    rw [hc.width, hc.total]
  dsimp only at e
  split at e
  · obtain ⟨_, u, hu, e⟩ := bind_ok.mp e
    obtain ⟨rfl, rfl⟩ := pure_ok.mp e
    exact .inl ⟨rfl, hfail h hc.active hc.opened hu⟩
  obtain ⟨o, u, hu, e⟩ := bind_ok.mp e
  rcases h.txBuildEx hc hread hu with ⟨rfl, hat⟩ |
    ⟨n, st, rfl, hn, hmax, hst, hat⟩
  · obtain ⟨_, v, hv, e⟩ := bind_ok.mp e
    obtain ⟨rfl, rfl⟩ := pure_ok.mp e
    exact .inl ⟨rfl, hfail hat hc.active hc.opened hv⟩
  · -- reading nothing is counted, and anything else clears the count
    have hcount {g : OsdpFile → OsdpFile} {v : Osdp} {a : Unit}
        (e : LibOsdp.updFile i g u = .ok a v)
        (hg : ∀ f, (g f).core = f.core) : FileAt i v (c.built n st) ops :=
      hat.updFile e fun f hf => (hg f).trans hf
    have hmax' : (n : Int) ≤ max maxLen 0 := by omega
    obtain ⟨m, v, hm, e⟩ := bind_ok.mp e
    obtain ⟨rfl, rfl⟩ := getMp_ok.mp hm
    split at e
    · split at e
      · obtain ⟨_, v, hv, e⟩ := bind_ok.mp e
        obtain ⟨rfl, rfl⟩ := pure_ok.mp e
        exact .inr ⟨n, st, rfl, hn, hmax', hst, hcount hv fun _ => rfl⟩
      · obtain ⟨rfl, rfl⟩ := pure_ok.mp e
        exact .inr ⟨n, st, rfl, hn, hmax', hst, hat⟩
    · obtain ⟨_, v, hv, e⟩ := bind_ok.mp e
      obtain ⟨rfl, rfl⟩ := pure_ok.mp e
      exact .inr ⟨n, st, rfl, hn, hmax', hst, hcount hv fun _ => rfl⟩

/-- The fragment built last is taken to have arrived. -/
def FileCore.moved (c : FileCore) : FileCore :=
  { c with offset := c.offset + c.lastLen, lastLen := 0 }

/-- FTSTAT with this status ends the transfer. -/
def FileCore.endedBy (c : FileCore) (status : Nat) : Bool :=
  decide (0x8000 ≤ status) ||
    (c.moved.offset == c.total && status != fileTxStatusKeepAlive)

/-- The sender commits. -/
theorem FileAt.txCommit {a : Unit}
    (hr : ∀ calls, Keeps (HeldFile i) (run calls)) (h : FileAt i s c ops)
    (hact : c.isActive = true)
    (e : osdpMpTxCommit env run i .file s = .ok a t) :
    FileAt i t c.moved ops := by
  obtain ⟨m, u, hm, e⟩ := bind_ok.mp e
  obtain ⟨rfl, rfl⟩ := getMp_ok.mp hm
  obtain ⟨_, v, hv, e⟩ := bind_ok.mp e
  have hat : FileAt i v c.moved ops :=
    h.updMp hv fun f hf => by rw [← hf]; rfl
  split at e
  · exact (held_mpEmit hr .file .progress).of e _ _ hat (busy_of_active hact)
  · obtain ⟨-, rfl⟩ := pure_ok.mp e
    exact hat

/-- REPLY_FTSTAT ends the transfer, or moves it on. -/
theorem FileAt.cmdStatDecode {buf : Bytes} {ok : Bool}
    (hr : ∀ calls, Keeps (HeldFile i) (run calls)) (h : FileAt i s c ops)
    (hc : c.Sends payload) (hlen : buf.length = 7)
    (e : osdpFileCmdStatDecode env run i buf s = .ok ok t) :
    ok = true ∧
      (c.endedBy (readLe 2 (buf.drop 3)) = true ∧
          FileAt i t .idle (ops ++ [.close]) ∨
        c.endedBy (readLe 2 (buf.drop 3)) = false ∧
          ∃ st, (st = c.state ∨ st = .wait) ∧
            FileAt i t { c.moved with state := st } ops) := by
  unfold osdpFileCmdStatDecode at e
  obtain ⟨p, u, hg, e⟩ := bind_ok.mp e
  obtain ⟨rfl, rfl⟩ := getPd_ok.mp hg
  have hsome : (s.pd i).file.isNone = false := by
    rw [← Option.not_isSome, h.isSome]
    rfl
  rw [hsome, h.isActive, hc.active, hlen] at e
  rw [if_neg (by decide), if_neg (by decide)] at e
  obtain ⟨_, u, hu, e⟩ := bind_ok.mp e
  obtain ⟨-, rfl⟩ := pure_ok.mp hu
  dsimp only at e
  generalize readLe 2 (buf.drop 3) = status at e ⊢
  obtain ⟨_, u, hu, e⟩ := bind_ok.mp e
  have hflags : FileAt i u c ops :=
    h.updFile hu fun f hf => by rw [← hf]; rfl
  obtain ⟨_, v, hv, e⟩ := bind_ok.mp e
  have hmoved := hflags.txCommit hr hc.active hv
  obtain ⟨now, w, hw, e⟩ := bind_ok.mp e
  cases hw
  obtain ⟨_, x, hx, e⟩ := bind_ok.mp e
  have hat : FileAt i x c.moved ops :=
    hmoved.updMp hx fun f hf => by rw [← hf]; rfl
  obtain ⟨m, y, hm, e⟩ := bind_ok.mp e
  obtain ⟨rfl, rfl⟩ := getMp_ok.mp hm
  obtain ⟨-, -, ht, ho, -, -, -⟩ := hat.mp
  rw [ho, ht] at e
  -- the transfer ends
  have hdone {y : Osdp} {o : MpOutcome} {a : Unit}
      (e : fileTransitionDone env run i o x = .ok a y) :
      FileAt i y .idle (ops ++ [.close]) := by
    have hd := hat.done hr hc.active e
    have hopen : c.moved.isOpen = true := hc.opened
    rw [hopen] at hd
    exact hd
  have htot : c.moved.total = c.total := rfl
  rw [htot] at e
  unfold FileCore.endedBy
  by_cases hneg : 0x8000 ≤ status
  · rw [if_pos hneg] at e
    obtain ⟨_, y, hy, e⟩ := bind_ok.mp e
    obtain ⟨rfl, rfl⟩ := pure_ok.mp e
    exact ⟨rfl, .inl ⟨by rw [decide_eq_true hneg, Bool.true_or], hdone hy⟩⟩
  rw [if_neg hneg] at e
  rw [decide_eq_false hneg, Bool.false_or]
  by_cases hleft : c.moved.offset = c.total
  · rw [if_neg (not_not_intro hleft)] at e
    rw [hleft, BEq.rfl, Bool.true_and]
    by_cases hkeep : status = fileTxStatusKeepAlive
    · rw [if_pos hkeep] at e
      obtain ⟨_, y, hy, e⟩ := bind_ok.mp e
      obtain ⟨rfl, rfl⟩ := pure_ok.mp e
      exact ⟨rfl, .inr ⟨by rw [hkeep]; rfl, .wait, .inr rfl,
        hat.updMp hy fun f hf => by rw [← hf]; rfl⟩⟩
    · rw [if_neg hkeep] at e
      obtain ⟨_, y, hy, e⟩ := bind_ok.mp e
      obtain ⟨rfl, rfl⟩ := pure_ok.mp e
      exact ⟨rfl, .inl ⟨bne_iff_ne.mpr hkeep, hdone hy⟩⟩
  · rw [if_pos hleft] at e
    obtain ⟨rfl, rfl⟩ := pure_ok.mp e
    exact ⟨rfl, .inr ⟨by rw [beq_eq_false_iff_ne.mpr hleft, Bool.false_and],
      c.state, .inl rfl, hat⟩⟩

/-- The choice of a command ends the transfer, or leaves it alone. -/
theorem FileAt.getCommand {r : EngineCmd}
    (hr : ∀ calls, Keeps (HeldFile i) (run calls)) (h : FileAt i s c ops)
    (hc : c.Sends payload)
    (e : osdpFileTxGetCommand env run i s = .ok r t) :
    FileAt i t c ops ∨ FileAt i t .idle (ops ++ [.close]) := by
  unfold osdpFileTxGetCommand at e
  obtain ⟨p, u, hg, e⟩ := bind_ok.mp e
  obtain ⟨rfl, rfl⟩ := getPd_ok.mp hg
  rw [h.txIsActive, hc.active, if_neg (by decide)] at e
  obtain ⟨_, u, hu, e⟩ := bind_ok.mp e
  have hat := (held_osdpMpEmitStart hr).of hu _ _ h (busy_of_active hc.active)
  obtain ⟨p, v, hg, e⟩ := bind_ok.mp e
  obtain ⟨rfl, rfl⟩ := getPd_ok.mp hg
  split at e
  · obtain ⟨_, v, hv, e⟩ := bind_ok.mp e
    obtain ⟨-, rfl⟩ := pure_ok.mp e
    have hd := hat.done hr hc.active hv
    rw [hc.opened] at hd
    exact .inr hd
  · obtain ⟨now, v, hv, e⟩ := bind_ok.mp e
    cases hv
    left
    generalize osdpMpTxNext _ _ = act at e
    cases act with
    | wait => exact (pure_ok.mp e).2 ▸ hat
    | data => exact (pure_ok.mp e).2 ▸ hat
    | done => exact (pure_ok.mp e).2 ▸ hat

/-- There is no transfer to choose a command for. -/
theorem FileAt.getCommand_idle {r : EngineCmd} (h : FileAt i s c ops)
    (hact : c.isActive = false)
    (e : osdpFileTxGetCommand env run i s = .ok r t) : t = s := by
  obtain ⟨p, u, hg, e⟩ := bind_ok.mp e
  obtain ⟨rfl, rfl⟩ := getPd_ok.mp hg
  rw [h.txIsActive, hact, if_pos (by decide)] at e
  exact (pure_ok.mp e).2.symm

/-- An answer that comes when the transfer is over. -/
theorem FileAt.cmdStatDecode_idle {buf : Bytes} {ok : Bool}
    (h : FileAt i s c ops) (hact : c.isActive = false)
    (e : osdpFileCmdStatDecode env run i buf s = .ok ok t) : t = s := by
  obtain ⟨p, u, hg, e⟩ := bind_ok.mp e
  obtain ⟨rfl, rfl⟩ := getPd_ok.mp hg
  rw [h.isActive, hact, Bool.not_false, Bool.or_true, if_pos rfl] at e
  exact (pure_ok.mp e).2.symm

/-- No fragment is built when there is no transfer. -/
theorem FileAt.cmdTxBuild_idle {maxLen : Int} {r : Option Bytes}
    (h : FileAt i s c ops) (hact : c.isActive = false) :
    osdpFileCmdTxBuild env run i maxLen s ≠ .ok r t := by
  intro e
  unfold osdpFileCmdTxBuild at e
  obtain ⟨p, u, hg, e⟩ := bind_ok.mp e
  obtain ⟨rfl, rfl⟩ := getPd_ok.mp hg
  rw [h.isSome, h.isActive, hact] at e
  obtain ⟨_, u, hu, e⟩ := bind_ok.mp e
  obtain ⟨_, v, hv, e⟩ := bind_ok.mp e
  exact throw_ok hv

/-- A sender that has opened its file and sent nothing yet. -/
def FileCore.asked (id total : Nat) : FileCore :=
  { FileCore.idle with
    state := .inprog, width := .w32, total := total, fileId := id
    isOpen := true }

theorem FileCore.sends_asked (id : Nat) (payload : Bytes) :
    (FileCore.asked id payload.length).Sends payload :=
  ⟨rfl, rfl, rfl, rfl, rfl, Nat.zero_le _⟩

/-- A transfer has been asked for, and was taken on. -/
theorem fileTxCommand_ok {id : Nat} {flags : UInt32}
    (hlen : (env.fileOps.openFile s.log id 0).2 = payload.length)
    (e : osdpFileTxCommand env i id flags s = .ok true t) :
    FileAt i t (.asked id payload.length) (t.fileMoves i) ∧
      0 < payload.length := by
  unfold osdpFileTxCommand at e
  obtain ⟨p, u, hg, e⟩ := bind_ok.mp e
  obtain ⟨rfl, rfl⟩ := getPd_ok.mp hg
  have hno {u : Osdp} : (pure false : OsdpM Bool) u ≠ .ok true t := by
    intro e
    obtain ⟨e, -⟩ := pure_ok.mp e
    cases e
  split at e
  · exact absurd e hno
  next hthere =>
  split at e
  · exact absurd e hno
  obtain ⟨s', u, hg, e⟩ := bind_ok.mp e
  obtain ⟨rfl, rfl⟩ := get_ok.mp hg
  obtain ⟨_, u, hu, e⟩ := bind_ok.mp e
  dsimp only at e
  rw [hlen] at e
  split at e
  · exact absurd e hno
  split at e
  · obtain ⟨_, v, hv, e⟩ := bind_ok.mp e
    exact absurd e hno
  next hsome =>
  obtain ⟨_, v, hv, e⟩ := bind_ok.mp e
  obtain ⟨_, w, hw, e⟩ := bind_ok.mp e
  obtain ⟨b, x, hx, e⟩ := bind_ok.mp e
  obtain ⟨-, rfl⟩ := pure_ok.mp e
  unfold osdpMpTxInit at hx
  rw [if_neg hsome] at hx
  obtain ⟨_, y, hy, hx⟩ := bind_ok.mp hx
  obtain ⟨-, rfl⟩ := pure_ok.mp hx
  -- the context is there
  have hfile : ∃ f, (s.pd i).file = some f := by
    cases hf : (s.pd i).file with
    | none =>
      rw [hf] at hthere
      exact absurd rfl hthere
    | some f => exact ⟨f, rfl⟩
  obtain ⟨f, hf⟩ := hfile
  have hopen : FileAt i u f.core (u.fileMoves i) := by
    refine ⟨?_, rfl⟩
    rw [← observe_ok.mp hu, hf]
    rfl
  have hreset : FileAt i v .idle (u.fileMoves i) :=
    hopen.updFile hv fun _ _ => rfl
  have hnamed : FileAt i w { FileCore.idle with fileId := id, isOpen := true }
      (u.fileMoves i) :=
    hreset.updFile hw fun f hf => by
      have e := congrArg (fun x : FileCore => { x with
        fileId := id, isOpen := true }) hf
      exact e
  have hasked : FileAt i y (.asked id payload.length) (u.fileMoves i) :=
    hnamed.updMp hy fun f hf => by
      have e := congrArg (fun x : FileCore => { x with
        state := .inprog, width := .w32, total := payload.length
        offset := 0, lastLen := 0 }) hf
      exact e
  rw [hasked.moves]
  exact ⟨hasked, Nat.pos_of_ne_zero hsome⟩

end Sender

-- ============================================================== receiving

/-- A receiver that has opened its file and taken nothing yet. -/
def FileCore.armed (id total : Nat) : FileCore where
  state := .inprog
  width := .w32
  total := total
  offset := 0
  lastLen := 0
  lastOff := 0
  binding := .fileOps
  fileId := id
  isOpen := true
  keepAlive := false
  writeFailed := false
  inTerminal := false

/-- The receiver of a payload, between two fragments. -/
structure FileCore.Receives (c : FileCore) (payload : Bytes) : Prop where
  active : c.isActive = true
  width : c.width = .w32
  total : c.total = payload.length
  binding : c.binding = .fileOps
  opened : c.isOpen = true
  offset : c.offset ≤ payload.length
  lastLen : c.lastLen = 0
  keepAlive : c.keepAlive = false
  writeFailed : c.writeFailed = false

theorem FileCore.receives_armed (id : Nat) (payload : Bytes) :
    (FileCore.armed id payload.length).Receives payload :=
  ⟨rfl, rfl, rfl, rfl, rfl, Nat.zero_le _, rfl, rfl, rfl⟩

section Receiver

variable {payload : Bytes}

/-- The file is opened. -/
theorem FileAt.arm {type total : Nat}
    (hr : ∀ calls, Keeps (HeldFile i) (run calls)) (h : FileAt i s c ops)
    (e : fileArmReceive env run i type total s = .ok true t) :
    FileAt i t (.armed type total) (ops ++ [.open type total]) := by
  obtain ⟨s', u, hg, e⟩ := bind_ok.mp e
  obtain ⟨rfl, rfl⟩ := get_ok.mp hg
  obtain ⟨_, u, hu, e⟩ := bind_ok.mp e
  have hopen := h.observe hu rfl
  split at e
  · obtain ⟨e, -⟩ := pure_ok.mp e
    cases e
  obtain ⟨_, v, hv, e⟩ := bind_ok.mp e
  have hreset : FileAt i v .idle (ops ++ [.open type total]) :=
    hopen.updFile hv fun _ _ => rfl
  obtain ⟨_, w, hw, e⟩ := bind_ok.mp e
  have hnamed : FileAt i w
      { FileCore.idle with fileId := type, isOpen := true }
      (ops ++ [.open type total]) :=
    hreset.updFile hw fun f hf => by rw [← hf]; rfl
  obtain ⟨_, x, hx, e⟩ := bind_ok.mp e
  have harmed : FileAt i x (.armed type total)
      (ops ++ [.open type total]) := by
    refine hnamed.updMp hx fun f hf => ?_
    have e := congrArg (fun x : FileCore => { x with
      state := .inprog, width := .w32, total := total, offset := 0
      lastLen := 0, lastOff := 0 }) hf
    exact e
  obtain ⟨_, y, hy, e⟩ := bind_ok.mp e
  obtain ⟨-, rfl⟩ := pure_ok.mp e
  exact (held_osdpMpEmitStart hr).of hy _ _ harmed rfl

/-- The first fragment opens it, unless the application will not have
it. -/
theorem FileAt.openReceive {id : UInt8} {frag : Bytes} {total off dlen : Nat}
    (hr : ∀ calls, Keeps (SameFile i) (run calls)) (h : FileAt i s c ops)
    (hhdr : osdpMpHdrRead .w32 frag = some (total, off, dlen))
    (e : fileOpenReceive env run i (id :: frag) s = .ok true t) :
    FileAt i t (.armed id.toNat total)
      (ops ++ [.open id.toNat total]) := by
  have hheld (calls : List ApiCall) : Keeps (HeldFile i) (run calls) :=
    (hr calls).mono fun _ _ => held_of_same
  have hcall (cmd : OsdpCmd) :
      Keeps (SameFile i) (callCommandCallback env run i cmd) := by
    unfold callCommandCallback
    split
    · exact .pure _
    · exact .bind .get fun _ => .bind (same_observe rfl) fun _ =>
        .bind (hr _) fun _ => .pure _
  unfold fileOpenReceive at e
  have hbody : (id :: frag).drop 1 = frag := rfl
  have hid : byteAt (id :: frag) 0 = id := rfl
  rw [hbody, hid] at e
  dsimp only at e
  rw [hhdr] at e
  dsimp only at e
  split at e
  · obtain ⟨e, -⟩ := pure_ok.mp e
    cases e
  obtain ⟨p, u, hg, e⟩ := bind_ok.mp e
  obtain ⟨rfl, rfl⟩ := getPd_ok.mp hg
  split at e
  · obtain ⟨⟨ret, cmd⟩, u, hu, e⟩ := bind_ok.mp e
    have hat := (hcall _).of hu c ops h
    dsimp only at e
    split at e
    · obtain ⟨e, -⟩ := pure_ok.mp e
      cases e
    · exact hat.arm hheld e
  · exact h.arm hheld e

/-- What a fragment hands to the application. -/
def writeOf (payload : Bytes) (x : Slice) : List FileOp :=
  if x.len = 0 then [] else [.write (sliceOf payload x) x.off]

/-- What the engine makes of the fragment due next. -/
inductive FileTakes (payload : Bytes) (i : Nat) (c : FileCore)
    (ops : List FileOp) (n : Nat) (t : Osdp) : MpRc → Prop where
  /-- nothing, at the end of the file -/
  | finished (none : n = 0) (stay : FileAt i t c ops) :
      FileTakes payload i c ops n t .earlyTerm
  /-- the application could not store it -/
  | failed (some : 0 < n)
      (stop : FileAt i t { c with writeFailed := true }
        (ops ++ writeOf payload ⟨c.offset, n⟩)) :
      FileTakes payload i c ops n t .err
  | taken (rc : MpRc) (rc_eq : rc = .more ∨ rc = .done)
      (move : FileAt i t { c with lastOff := c.offset, lastLen := n }
        (ops ++ writeOf payload ⟨c.offset, n⟩)) :
      FileTakes payload i c ops n t rc

/-- The write operation. -/
theorem FileAt.write {data : Bytes} {off : Nat} {st : MpRxStatus}
    (h : FileAt i s c ops) (hb : c.binding = .fileOps)
    (e : mpWrite env i .file data off s = .ok st t) :
    st = .abort ∧ FileAt i t { c with writeFailed := true }
        (ops ++ [.write data off]) ∨
      st = .ok ∧ FileAt i t c (ops ++ [.write data off]) := by
  obtain ⟨p, u, hg, e⟩ := bind_ok.mp e
  obtain ⟨rfl, rfl⟩ := getPd_ok.mp hg
  rw [h.mp.2.2.2.2.2.2, hb] at e
  obtain ⟨s', v, hg, e⟩ := bind_ok.mp e
  obtain ⟨rfl, rfl⟩ := get_ok.mp hg
  obtain ⟨_, w, hw, e⟩ := bind_ok.mp e
  have hat := h.observe hw rfl
  split at e
  · obtain ⟨_, x, hx, e⟩ := bind_ok.mp e
    obtain ⟨rfl, rfl⟩ := pure_ok.mp e
    have hx : LibOsdp.updFile i (fun f => { f with writeFailed := true }) w
        = .ok () x := hx
    exact .inl ⟨rfl, hat.updFile hx fun f hf => by rw [← hf]; rfl⟩
  · obtain ⟨rfl, rfl⟩ := pure_ok.mp e
    exact .inr ⟨rfl, hat⟩

/-- The data in a fragment. -/
theorem data_fragmentOf {x : Slice} (hx : x.stop ≤ payload.length) :
    ((fragmentOf payload [] .w32 x).drop (mpHdrSize .w32)).take x.len
      = sliceOf payload x := by
  unfold fragmentOf
  rw [List.drop_left' (length_osdpMpHdrWrite _ _ _ _)]
  by_cases hz : x.len = 0
  · unfold sliceOf
    rw [hz, List.take_zero, List.take_zero]
  · rw [if_neg hz, ite_self, List.nil_append, List.take_of_length_le]
    exact Nat.le_of_eq (length_sliceOf hx)

theorem length_fragmentOf {x : Slice} (hx : x.stop ≤ payload.length) :
    (fragmentOf payload [] .w32 x).length = mpHdrSize .w32 + x.len := by
  unfold fragmentOf
  rw [List.length_append, length_osdpMpHdrWrite]
  by_cases hz : x.len = 0
  · rw [if_pos hz, hz]
    rfl
  · rw [if_neg hz, ite_self, List.nil_append, length_sliceOf hx]

/-- The fragment due next is taken, or could not be stored. -/
theorem FileAt.rxConsume {n : Nat} {r : MpRc × Bytes}
    (h : FileAt i s c ops) (hc : c.Receives payload)
    (hfits : payload.length < 256 ^ 4)
    (hn : c.offset + n ≤ payload.length) (hshort : n < 65536)
    (e : osdpMpRxConsumeEx env i .file
      (fragmentOf payload [] .w32 ⟨c.offset, n⟩) 0 s = .ok r t) :
    FileTakes payload i c ops n t r.1 := by
  obtain ⟨-, hw, ht, ho, hl, -, hb⟩ := h.mp
  have hslice : Fits payload ⟨c.offset, n⟩ := ⟨hn, hshort⟩
  have hread := @hdrRead_fragmentOf payload [] .w32 ⟨c.offset, n⟩ hfits hslice
  have hdata : ((fragmentOf payload [] .w32 ⟨c.offset, n⟩).drop
      (mpHdrSize .w32)).take n = sliceOf payload ⟨c.offset, n⟩ :=
    data_fragmentOf hslice.inside
  have hlen : (fragmentOf payload [] .w32 ⟨c.offset, n⟩).length
      = mpHdrSize .w32 + n := length_fragmentOf hslice.inside
  obtain ⟨m, u, hm, e⟩ := bind_ok.mp e
  obtain ⟨rfl, rfl⟩ := getMp_ok.mp hm
  dsimp only at e
  rw [hw, ht, ho, hl, hb, hc.width, hc.total, hc.lastLen, hc.binding] at e
  rw [hread] at e
  dsimp only at e
  simp only [ite_self, Nat.add_zero, hlen, hdata, ↓reduceIte] at e
  rw [if_neg (Nat.lt_irrefl _), if_neg fun hno => hno.2 rfl,
    if_neg Bool.false_ne_true] at e
  -- the total is what it was
  have htotal (f : OsdpFile) (hf : f.core = c) :
      f.mp.total = payload.length := by
    rw [← hc.total, ← hf]
    rfl
  by_cases hend : c.offset ≥ payload.length ∧ n = 0
  · rw [if_pos hend] at e
    obtain ⟨_, v, hv, e⟩ := bind_ok.mp e
    obtain ⟨rfl, rfl⟩ := pure_ok.mp e
    refine .finished hend.2 (h.updMp hv fun f hf => ?_)
    rw [← htotal f hf]
    exact hf
  rw [if_neg hend, if_neg (by omega)] at e
  -- the engine has moved on
  have hmove {u v : Osdp} {a : Unit} {ops' : List FileOp}
      (hu : FileAt i u c ops')
      (e : LibOsdp.updMp i .file (fun m => { m with
        total := payload.length, lastOff := c.offset, lastLen := n }) u
          = .ok a v) :
      FileAt i v { c with lastOff := c.offset, lastLen := n } ops' := by
    refine hu.updMp e fun f hf => ?_
    rw [← htotal f hf, ← hf]
    rfl
  have hrc : (if n ≥ payload.length - c.offset then MpRc.done else .more)
      = .more ∨
      (if n ≥ payload.length - c.offset then MpRc.done else .more)
        = .done := by
    by_cases hall : n ≥ payload.length - c.offset
    · exact .inr (if_pos hall)
    · exact .inl (if_neg hall)
  by_cases hsome : n > 0
  · rw [if_pos hsome] at e
    have hwrite : writeOf payload ⟨c.offset, n⟩
        = [.write (sliceOf payload ⟨c.offset, n⟩) c.offset] :=
      if_neg (by show ¬ n = 0; omega)
    obtain ⟨st, v, hv, e⟩ := bind_ok.mp e
    rcases h.write hc.binding hv with ⟨rfl, hat⟩ | ⟨rfl, hat⟩
    · rw [if_neg (by decide), if_pos (by decide)] at e
      obtain ⟨rfl, rfl⟩ := pure_ok.mp e
      exact .failed hsome (by rw [hwrite]; exact hat)
    · rw [if_neg (by decide), if_neg (by decide)] at e
      obtain ⟨_, w, hw, e⟩ := bind_ok.mp e
      obtain ⟨rfl, rfl⟩ := pure_ok.mp e
      exact .taken _ hrc (by rw [hwrite]; exact hmove hat hw)
  · rw [if_neg hsome] at e
    have hwrite : writeOf payload ⟨c.offset, n⟩ = [] :=
      if_pos (by show n = 0; omega)
    obtain ⟨_, w, hw, e⟩ := bind_ok.mp e
    obtain ⟨rfl, rfl⟩ := pure_ok.mp e
    exact .taken _ hrc (by rw [hwrite, List.append_nil]; exact hmove h hw)

/-- Where the fragment due next has left the receiver. -/
inductive FileTook (payload : Bytes) (i : Nat) (c : FileCore)
    (ops : List FileOp) (n : Nat) (t : Osdp) : Prop where
  /-- it was no more than a sign of life -/
  | ping (none : n = 0) (lo : Nat)
      (stay : FileAt i t { c with
        lastOff := lo, lastLen := 0, keepAlive := true } ops)
  | failed (some : 0 < n)
      (stop : FileAt i t { c with writeFailed := true }
        (ops ++ writeOf payload ⟨c.offset, n⟩))
  | stored (some : 0 < n)
      (move : FileAt i t { c with lastOff := c.offset, lastLen := n }
        (ops ++ writeOf payload ⟨c.offset, n⟩))

theorem writeOf_nil (off : Nat) : writeOf payload ⟨off, 0⟩ = [] := rfl

/-- The engine's verdict is acted upon. -/
theorem FileTakes.verdict {n : Nat} {rc : MpRc} {opened : Bool}
    (hc : c.Receives payload) (h : FileTakes payload i c ops n s rc)
    (e : fileRxVerdict env run i opened rc s = .ok true t) :
    FileTook payload i c ops n t := by
  unfold fileRxVerdict at e
  obtain ⟨p, u, hg, e⟩ := bind_ok.mp e
  obtain ⟨rfl, rfl⟩ := getPd_ok.mp hg
  cases h with
  | finished none stay =>
    rw [if_neg (by decide), if_pos rfl] at e
    obtain ⟨_, v, hv, e⟩ := bind_ok.mp e
    obtain ⟨-, rfl⟩ := pure_ok.mp e
    refine .ping none c.lastOff (stay.updFile hv fun f hf => ?_)
    rw [← hc.lastLen, ← hf]
    rfl
  | failed some stop =>
    have hstop : ((s.pd i).file.getD {}).writeFailed = true := by
      obtain ⟨f, hf, hcore⟩ := stop.file
      rw [hf]
      exact congrArg FileCore.writeFailed hcore
    rw [if_pos rfl, if_pos hstop] at e
    obtain ⟨-, rfl⟩ := pure_ok.mp e
    exact .failed some stop
  | taken rc rc_eq move =>
    have herr : ¬ rc = .err := by rcases rc_eq with rfl | rfl <;> decide
    have hearly : ¬ rc = .earlyTerm := by
      rcases rc_eq with rfl | rfl <;> decide
    rw [if_neg herr, if_neg hearly, move.mp.2.2.2.2.1] at e
    by_cases hz : n = 0
    · subst hz
      rw [writeOf_nil, List.append_nil] at move
      rw [if_pos rfl] at e
      obtain ⟨_, v, hv, e⟩ := bind_ok.mp e
      obtain ⟨-, rfl⟩ := pure_ok.mp e
      refine .ping rfl c.offset (move.updFile hv fun f hf => ?_)
      have e := congrArg
        (fun x : FileCore => { x with keepAlive := true }) hf
      exact e
    · rw [if_neg hz] at e
      obtain ⟨-, rfl⟩ := pure_ok.mp e
      exact .stored (by omega) move

theorem length_frame {id : UInt8} {x : Slice} (hx : x.stop ≤ payload.length) :
    ¬ (id :: fragmentOf payload [] .w32 x).length < 11 := by
  rw [List.length_cons, length_fragmentOf hx]
  show ¬ 10 + x.len + 1 < 11
  omega

/-- CMD_FILETRANSFER with the fragment due next, in a transfer under
way. -/
theorem FileAt.cmdTxDecode {id : UInt8} {n : Nat} (h : FileAt i s c ops)
    (hc : c.Receives payload) (hfits : payload.length < 256 ^ 4)
    (hn : c.offset + n ≤ payload.length) (hshort : n < 65536)
    (e : osdpFileCmdTxDecode env run i
      (id :: fragmentOf payload [] .w32 ⟨c.offset, n⟩) s = .ok true t) :
    FileTook payload i c ops n t := by
  have hstop : Slice.stop ⟨c.offset, n⟩ ≤ payload.length := hn
  have hsome : (s.pd i).file.isNone = false := by
    rw [← Option.not_isSome, h.isSome]
    rfl
  unfold osdpFileCmdTxDecode at e
  obtain ⟨p, u, hg, e⟩ := bind_ok.mp e
  obtain ⟨rfl, rfl⟩ := getPd_ok.mp hg
  rw [hsome, if_neg Bool.false_ne_true, if_neg (length_frame hstop)] at e
  rw [h.isActive, hc.active] at e
  dsimp only at e
  rw [if_neg (by decide)] at e
  obtain ⟨⟨rc, pfx⟩, u, hu, e⟩ := bind_ok.mp e
  exact (h.rxConsume hc hfits hn hshort hu).verdict hc e

/-- The first one: the file is opened first. -/
theorem FileAt.cmdTxDecode_first {id : UInt8} {n : Nat}
    (hr : ∀ calls, Keeps (SameFile i) (run calls)) (h : FileAt i s c ops)
    (hidle : c.isActive = false) (hfits : payload.length < 256 ^ 4)
    (hn : n ≤ payload.length) (hshort : n < 65536)
    (e : osdpFileCmdTxDecode env run i
      (id :: fragmentOf payload [] .w32 ⟨0, n⟩) s = .ok true t) :
    FileTook payload i (.armed id.toNat payload.length)
      (ops ++ [.open id.toNat payload.length]) n t := by
  have hstop : Slice.stop ⟨0, n⟩ ≤ payload.length := by
    show 0 + n ≤ payload.length
    omega
  have hread := @hdrRead_fragmentOf payload [] .w32 ⟨0, n⟩ hfits
    ⟨hstop, hshort⟩
  have hsome : (s.pd i).file.isNone = false := by
    rw [← Option.not_isSome, h.isSome]
    rfl
  unfold osdpFileCmdTxDecode at e
  obtain ⟨p, u, hg, e⟩ := bind_ok.mp e
  obtain ⟨rfl, rfl⟩ := getPd_ok.mp hg
  rw [hsome, if_neg Bool.false_ne_true, if_neg (length_frame hstop)] at e
  rw [h.isActive, hidle] at e
  dsimp only at e
  rw [if_pos (by decide)] at e
  obtain ⟨ok, u, hu, e⟩ := bind_ok.mp e
  cases ok with
  | false =>
    obtain ⟨e, -⟩ := pure_ok.mp e
    cases e
  | true =>
    have harmed := h.openReceive hr hread hu
    have hrec := FileCore.receives_armed id.toNat payload
    obtain ⟨⟨rc, pfx⟩, v, hv, e⟩ := bind_ok.mp e
    have htake := harmed.rxConsume hrec hfits (n := n) (by
      show 0 + n ≤ payload.length
      omega) hshort hv
    exact htake.verdict hrec e

/-- The answer to the fragment due next, and where it leaves the
receiver. -/
inductive FileAnswers (payload : Bytes) (i : Nat) (c : FileCore)
    (ops : List FileOp) (n : Nat) (t : Osdp) : Nat → Prop where
  | failed
      (stop : FileAt i t .idle
        (ops ++ writeOf payload ⟨c.offset, n⟩ ++ [.close])) :
      FileAnswers payload i c ops n t fileTxStatusErrAbort
  | under (left : c.offset + n ≠ payload.length) (lo : Nat)
      (move : FileAt i t { c with
        offset := c.offset + n, lastOff := lo, lastLen := 0
        keepAlive := false } (ops ++ writeOf payload ⟨c.offset, n⟩)) :
      FileAnswers payload i c ops n t fileTxStatusAck
  | finishing (whole : c.offset + n = payload.length) (lo : Nat)
      (move : FileAt i t { c with
        offset := c.offset + n, lastOff := lo, lastLen := 0
        keepAlive := false } (ops ++ writeOf payload ⟨c.offset, n⟩)) :
      FileAnswers payload i c ops n t fileTxStatusKeepAlive
  | ended (whole : c.offset + n = payload.length) (o : MpOutcome)
      (stop : FileAt i t .idle
        (ops ++ writeOf payload ⟨c.offset, n⟩ ++ [.close])) :
      FileAnswers payload i c ops n t (fileWireStatusFromOutcome o)

/-- The end of the file: the application finishes, or asks for time. -/
theorem FileAt.statAtEof {r : Nat × Nat}
    (hr : ∀ calls, Keeps (HeldFile i) (run calls)) (h : FileAt i s c ops)
    (hact : c.isActive = true) (hopen : c.isOpen = true)
    (e : fileStatAtEof env run i s = .ok r t) :
    r.1 = fileTxStatusKeepAlive ∧ FileAt i t c ops ∨
      ∃ o, r.1 = fileWireStatusFromOutcome o ∧
        FileAt i t .idle (ops ++ [.close]) := by
  have hdone {u v : Osdp} {o : MpOutcome} {a : Unit} (hu : FileAt i u c ops)
      (e : fileTransitionDone env run i o u = .ok a v) :
      FileAt i v .idle (ops ++ [.close]) := by
    have hd := hu.done hr hact e
    rw [hopen] at hd
    exact hd
  unfold fileStatAtEof at e
  cases hfin : env.fileOps.finalize with
  | none =>
    rw [hfin] at e
    obtain ⟨_, u, hu, e⟩ := bind_ok.mp e
    obtain ⟨rfl, rfl⟩ := pure_ok.mp e
    exact .inr ⟨.ok, rfl, hdone h hu⟩
  | some fin =>
    rw [hfin] at e
    obtain ⟨s', u, hg, e⟩ := bind_ok.mp e
    obtain ⟨rfl, rfl⟩ := get_ok.mp hg
    obtain ⟨_, u, hu, e⟩ := bind_ok.mp e
    have hask := (same_observe (fileMove_quiet i rfl)).of hu _ _ h
    generalize fin s.log = verdict at e
    obtain ⟨ready, o, delay⟩ := verdict
    dsimp only at e
    split at e
    · obtain ⟨_, v, hv, e⟩ := bind_ok.mp e
      obtain ⟨rfl, rfl⟩ := pure_ok.mp e
      exact .inr ⟨o, rfl, hdone hask hv⟩
    · obtain ⟨now, v, hv, e⟩ := bind_ok.mp e
      cases hv
      obtain ⟨_, v, hv, e⟩ := bind_ok.mp e
      have hwait : FileAt i v c ops :=
        hask.updFile hv fun f hf => by rw [← hf]; rfl
      obtain ⟨p, w, hg, e⟩ := bind_ok.mp e
      obtain ⟨rfl, rfl⟩ := getPd_ok.mp hg
      split at e
      · obtain ⟨rfl, rfl⟩ := pure_ok.mp e
        exact .inl ⟨rfl, hwait⟩
      · obtain ⟨_, w, hw, e⟩ := bind_ok.mp e
        obtain ⟨rfl, rfl⟩ := pure_ok.mp e
        exact .inr ⟨.aborted, rfl, hdone hwait hw⟩

/-- The receiver commits. -/
theorem FileAt.rxCommit {a : Unit}
    (hr : ∀ calls, Keeps (HeldFile i) (run calls)) (h : FileAt i s c ops)
    (hact : c.isActive = true)
    (e : osdpMpRxCommit env run i .file s = .ok a t) :
    FileAt i t { c with
      offset := max c.offset (c.lastOff + c.lastLen), lastLen := 0 } ops := by
  obtain ⟨m, u, hm, e⟩ := bind_ok.mp e
  obtain ⟨rfl, rfl⟩ := getMp_ok.mp hm
  obtain ⟨_, v, hv, e⟩ := bind_ok.mp e
  obtain ⟨-, -, -, ho, hl, hlo, -⟩ := h.mp
  have hat : FileAt i v { c with
      offset := max c.offset (c.lastOff + c.lastLen), lastLen := 0 } ops := by
    refine h.updMp hv fun f hf => ?_
    rw [hl, hlo, ← hf]
    rfl
  split at e
  · exact (held_mpEmit hr .file .progress).of e _ _ hat (busy_of_active hact)
  · obtain ⟨-, rfl⟩ := pure_ok.mp e
    exact hat

/-- Past the commit: the answer goes by the offset. -/
theorem FileAt.answer {n lo : Nat}
    (hr : ∀ calls, Keeps (HeldFile i) (run calls)) (hc : c.Receives payload)
    (h : FileAt i s { c with
      offset := c.offset + n, lastOff := lo, lastLen := 0
      keepAlive := false } (ops ++ writeOf payload ⟨c.offset, n⟩))
    (hpos : 0 < payload.length) {d : Bytes}
    (e : (do
      let m ← getMp i .file
      if m.offset = m.total ∧ m.total ≠ 0 then
        let (st, delay) ← fileStatAtEof env run i
        return some (fileStatBytes st delay)
      return some (fileStatBytes fileTxStatusAck 0) : OsdpM (Option Bytes)) s
        = .ok (some d) t) :
    ∃ status delay, d = fileStatBytes status delay ∧
      FileAnswers payload i c ops n t status := by
  obtain ⟨m, u, hm, e⟩ := bind_ok.mp e
  obtain ⟨rfl, rfl⟩ := getMp_ok.mp hm
  obtain ⟨-, -, ht, ho, -, -, -⟩ := h.mp
  rw [ho, ht] at e
  dsimp only at e
  rw [hc.total] at e
  by_cases hend : c.offset + n = payload.length
  · rw [if_pos ⟨hend, by omega⟩] at e
    obtain ⟨⟨st, delay⟩, u, hu, e⟩ := bind_ok.mp e
    obtain ⟨hd, rfl⟩ := pure_ok.mp e
    rcases h.statAtEof hr hc.active hc.opened hu with ⟨hst, hat⟩ |
      ⟨o, hst, hat⟩
    · dsimp only at hst
      subst hst
      exact ⟨_, delay, (Option.some.inj hd).symm, .finishing hend lo hat⟩
    · dsimp only at hst
      subst hst
      exact ⟨_, delay, (Option.some.inj hd).symm, .ended hend o hat⟩
  · rw [if_neg fun hno => hend hno.1] at e
    obtain ⟨hd, rfl⟩ := pure_ok.mp e
    exact ⟨_, 0, (Option.some.inj hd).symm, .under hend lo h⟩

/-- REPLY_FTSTAT. -/
theorem FileTook.statBuild {n : Nat} {maxLen : Int} {d : Bytes}
    (hr : ∀ calls, Keeps (HeldFile i) (run calls)) (hc : c.Receives payload)
    (hpos : 0 < payload.length) (h : FileTook payload i c ops n s)
    (e : osdpFileCmdStatBuild env run i maxLen s = .ok (some d) t) :
    ∃ status delay, d = fileStatBytes status delay ∧
      FileAnswers payload i c ops n t status := by
  -- there is a transfer, and room for the answer
  have hstart {c' : FileCore} {ops' : List FileOp} (hat : FileAt i s c' ops')
      (hact : c'.isActive = true) :
      ¬ ((s.pd i).file.isNone || !((s.pd i).mp .file).isActive) = true := by
    rw [← Option.not_isSome, hat.isSome, hat.isActive, hact]
    decide
  unfold osdpFileCmdStatBuild at e
  obtain ⟨p, u, hg, e⟩ := bind_ok.mp e
  obtain ⟨rfl, rfl⟩ := getPd_ok.mp hg
  by_cases hroom : maxLen < 7
  · rw [if_pos hroom, ite_self] at e
    obtain ⟨e, -⟩ := pure_ok.mp e
    cases e
  cases h with
  | ping none lo stay =>
    obtain ⟨f, hf, hcore⟩ := stay.file
    have hkeep : f.keepAlivePending = true := congrArg FileCore.keepAlive hcore
    have hwrite : f.writeFailed = false :=
      (congrArg FileCore.writeFailed hcore).trans hc.writeFailed
    rw [if_neg (hstart stay hc.active), if_neg hroom, hf] at e
    dsimp only [Option.getD_some] at e
    rw [if_neg (Bool.eq_false_iff.mp hwrite), if_pos hkeep] at e
    obtain ⟨_, u, hu, e⟩ := bind_ok.mp e
    subst none
    have hat : FileAt i u { c with
        offset := c.offset + 0, lastOff := lo, lastLen := 0
        keepAlive := false } (ops ++ writeOf payload ⟨c.offset, 0⟩) := by
      rw [writeOf_nil, List.append_nil]
      refine stay.updFile hu fun g hg => ?_
      have e := congrArg
        (fun x : FileCore => { x with keepAlive := false }) hg
      exact e
    exact hat.answer hr hc hpos e
  | failed some stop =>
    obtain ⟨f, hf, hcore⟩ := stop.file
    have hwrite : f.writeFailed = true :=
      congrArg FileCore.writeFailed hcore
    rw [if_neg (hstart stop hc.active), if_neg hroom, hf] at e
    dsimp only [Option.getD_some] at e
    rw [if_pos hwrite] at e
    obtain ⟨_, u, hu, e⟩ := bind_ok.mp e
    obtain ⟨hd, rfl⟩ := pure_ok.mp e
    refine ⟨_, 0, (Option.some.inj hd).symm, .failed ?_⟩
    have hd := stop.done hr hc.active hu
    have hopen : ({ c with writeFailed := true } : FileCore).isOpen = true :=
      hc.opened
    rw [hopen] at hd
    exact hd
  | stored some move =>
    obtain ⟨f, hf, hcore⟩ := move.file
    have hkeep : f.keepAlivePending = false :=
      (congrArg FileCore.keepAlive hcore).trans hc.keepAlive
    have hwrite : f.writeFailed = false :=
      (congrArg FileCore.writeFailed hcore).trans hc.writeFailed
    have hlast : n = f.mp.lastLen := (congrArg FileCore.lastLen hcore).symm
    rw [if_neg (hstart move hc.active), if_neg hroom, hf] at e
    dsimp only [Option.getD_some] at e
    rw [if_neg (Bool.eq_false_iff.mp hwrite),
      if_neg (Bool.eq_false_iff.mp hkeep), if_pos (hlast ▸ some)] at e
    obtain ⟨_, u, hu, e⟩ := bind_ok.mp e
    have hat : FileAt i u { c with
        offset := c.offset + n, lastOff := c.offset, lastLen := 0
        keepAlive := false } (ops ++ writeOf payload ⟨c.offset, n⟩) := by
      have h := move.rxCommit hr hc.active hu
      dsimp only at h
      rw [Nat.max_eq_right (Nat.le_add_right _ _)] at h
      rw [← hc.keepAlive]
      exact h
    exact hat.answer hr hc hpos e

end Receiver

end Steps

end LibOsdp
