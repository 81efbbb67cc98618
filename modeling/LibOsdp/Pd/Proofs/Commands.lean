/-
What decoding a command does, for any relation that allows it.

`pd_decode_command` is twenty-seven cases, and most properties of a PD have
to look at every one of them.  As with the engines the cases are gone
through once, for an arbitrary preorder on states: `CommandMoves` lists
what a case stores in its PD (the reply it picks, the union, a time stamp,
the TRS mode), `TakeMoves` adds the event it may take from the queue, and
the application is asked through `callCommandCallback`, about which the
relation has its own lemma.

# What is left out

Four cases do more: CHLNG and SCRYPT are the handshake, ACURXSIZE stores a
packet size, and a status request may build its packet on the spot.
-/
import LibOsdp.Pd.Decode
import LibOsdp.Engine.Proofs.Footprint

namespace LibOsdp

open Lib

-- ================================================================= moves

/-- A PD without what a command stores there itself. -/
@[grind] def OsdpPd.sansCommand (p : OsdpPd) : OsdpPd :=
  { p with
    replyId := 0
    pending := []
    scTstamp := 0
    trs := { p.trs with mode := 0 } }

/-- The reply id is CCRYPT or RMAC_I. -/
abbrev hsReply (id : Nat) : Bool := osdpPhyInScHandshake true id

/-- The reply id is neither of these, nor that the PD is busy. -/
abbrev ordinaryReply (id : Nat) : Bool := !hsReply id && id != replyBusy

theorem ordinaryReply_iff {id : Nat} :
    ordinaryReply id = true ↔ hsReply id = false ∧ id ≠ replyBusy := by
  rw [Bool.and_eq_true, Bool.not_eq_true', bne_iff_ne]

/-- What a command may do to its PD: the reply it picks is an ordinary
one, and the union is not cut short. -/
structure CommandChange (f : OsdpPd → OsdpPd) : Prop where
  sans : ∀ p : OsdpPd, (f p).sansCommand = p.sansCommand
  reply : ∀ p : OsdpPd, hsReply p.replyId = false →
    hsReply (f p).replyId = false
  idle : ∀ p : OsdpPd, p.replyId ≠ replyBusy → (f p).replyId ≠ replyBusy
  union : ∀ p : OsdpPd, p.pending ≠ [] → (f p).pending ≠ []

/-- The reply id stays what it is. -/
theorem CommandChange.sameReply {f : OsdpPd → OsdpPd}
    (hf : ∀ p : OsdpPd, (f p).sansCommand = p.sansCommand)
    (hid : ∀ p : OsdpPd, (f p).replyId = p.replyId)
    (hun : ∀ p : OsdpPd, p.pending ≠ [] → (f p).pending ≠ []) :
    CommandChange f :=
  ⟨hf, fun p h => by rw [hid p]; exact h, fun p h => by rw [hid p]; exact h,
    hun⟩

/-- An ordinary reply is picked. -/
theorem CommandChange.setsReply (id : Nat) {f : OsdpPd → OsdpPd}
    (hf : ∀ p : OsdpPd, (f p).sansCommand = p.sansCommand)
    (hid : ∀ p : OsdpPd, (f p).replyId = id)
    (hun : ∀ p : OsdpPd, p.pending ≠ [] → (f p).pending ≠ [])
    (h : ordinaryReply id = true) : CommandChange f := by
  obtain ⟨hno, hidle⟩ := ordinaryReply_iff.mp h
  exact ⟨hf, fun p _ => by rw [hid p]; exact hno,
    fun p _ => by rw [hid p]; exact hidle, hun⟩

/-- A preorder that the engines and the cases of `pd_decode_command` stay
within, as long as they leave the event queue alone. -/
class CommandMoves (R : Osdp → Osdp → Prop) : Prop extends
    EngineMoves R where
  change : ∀ s i f, CommandChange f → R s (s.updPd i f)

/-- One they stay within when an event leaves the queue as well. -/
class TakeMoves (R : Osdp → Osdp → Prop) : Prop extends
    CommandMoves R where
  take : ∀ s i ev rest id, ordinaryReply id = true →
    R s (s.updPd i fun p =>
      { p with eventQueue := rest, activeEvent := some ev, replyId := id })

section Commands

variable {env : Env} {run : List ApiCall → OsdpM Unit}
variable {R : Osdp → Osdp → Prop} [CommandMoves R]

-- ============================================================ primitives

theorem keeps_updPd_command {i : Nat} {f : OsdpPd → OsdpPd}
    (h : CommandChange f) : Keeps R (updPd i f) := by
  intro s a t e
  cases e
  exact CommandMoves.change s i f h

/-- An ordinary reply is picked. -/
theorem keeps_updPd_setsReply {i : Nat} (id : Nat) {f : OsdpPd → OsdpPd}
    (hf : ∀ p : OsdpPd, (f p).sansCommand = p.sansCommand)
    (hid : ∀ p : OsdpPd, (f p).replyId = id)
    (hun : ∀ p : OsdpPd, p.pending ≠ [] → (f p).pending ≠ [])
    (h : ordinaryReply id = true) : Keeps R (updPd i f) :=
  keeps_updPd_command (.setsReply id hf hid hun h)

/-- The reply id stays what it is. -/
theorem keeps_updPd_sameReply {i : Nat} {f : OsdpPd → OsdpPd}
    (hf : ∀ p : OsdpPd, (f p).sansCommand = p.sansCommand)
    (hid : ∀ p : OsdpPd, (f p).replyId = p.replyId)
    (hun : ∀ p : OsdpPd, p.pending ≠ [] → (f p).pending ≠ []) :
    Keeps R (updPd i f) :=
  keeps_updPd_command (.sameReply hf hid hun)

/-- A NAK code goes into the union, which is no shorter for it. -/
theorem setNak_ne_nil {p : OsdpPd} (c : UInt8) (h : p.pending ≠ []) :
    (p.setNak c).pending ≠ [] := by
  cases e : p.pending with
  | nil => exact absurd e h
  | cons b l => simp [OsdpPd.setNak, e]

@[grind ←]
theorem keeps_setReply (i : Nat) {id : Nat}
    (h : ordinaryReply id = true) :
    Keeps R (setReply i id) :=
  keeps_updPd_setsReply id (fun _ => rfl) (fun _ => rfl) (fun _ h => h) h

@[grind ←]
theorem keeps_setNakCode (i : Nat) (c : UInt8) :
    Keeps R (setNakCode i c) :=
  keeps_updPd_sameReply (fun _ => rfl) (fun _ => rfl)
    fun _ => setNak_ne_nil c

@[grind ←]
theorem keeps_replyWithNak (i : Nat) (c : UInt8) :
    Keeps R (replyWithNak i c) :=
  keeps_updPd_setsReply replyNak (fun _ => rfl) (fun _ => rfl)
    (fun _ => setNak_ne_nil c) rfl

@[grind ←]
theorem keeps_pdCmdCapOk (i : Nat) (item : Option Nat) :
    Keeps R (pdCmdCapOk i item) := by
  unfold pdCmdCapOk
  refine .bind (keeps_getPd i) ?_
  intro p
  refine .ite (.pure _) ?_
  split
  all_goals exact .bind (keeps_replyWithNak i _) fun _ => .pure _

/-- Every event is answered with an ordinary reply. -/
theorem ordinary_pdTranslateEvent {ev : OsdpEvent} {id : Nat}
    (h : pdTranslateEvent ev = some id) : ordinaryReply id = true := by
  unfold pdTranslateEvent at h
  split at h <;> try cases h
  all_goals first
    | rfl
    | skip
  split <;> rfl

/-- So is a fragment of a smartcard reply. -/
theorem ordinary_osdpPivPdReplyId (p : OsdpPd) :
    ordinaryReply (osdpPivPdReplyId p) = true := by
  unfold osdpPivPdReplyId pivWireReply
  cases p.pivD.family with
  | none => rfl
  | some f => cases f <;> rfl

-- ============================================== commands without an app

@[grind ←]
theorem keeps_pdDecodeIdentity (i : Nat) (data : Bytes) {id : Nat}
    (h : ordinaryReply id = true) :
    Keeps R (pdDecodeIdentity i data id) := by
  unfold pdDecodeIdentity
  refine .ite (.pure _) ?_
  exact .bind (keeps_setReply i h) fun _ => .pure _

@[grind ←]
theorem keeps_pdDecodeKeepactive (i : Nat) (data : Bytes) :
    Keeps R (pdDecodeKeepactive i data) := by
  unfold pdDecodeKeepactive
  split
  · exact .pure _
  · exact .bind (keeps_updPd_setsReply replyAck (fun _ => rfl)
      (fun _ => rfl) (fun _ h => h) rfl) fun _ => .pure _

/-- The parked settings of a COMSET are no shorter than the union was. -/
theorem setComsetPending_ne_nil {p : OsdpPd} (address : UInt8)
    (baud : UInt32) (h : p.pending ≠ []) :
    (p.setComsetPending address baud).pending ≠ [] := by
  have hpos : 0 < (p.pending.set 0 address).length := by
    rw [List.length_set]
    exact List.length_pos_of_ne_nil h
  have hle := length_le_writeAt (p.pending.set 0 address) 4
    (writeLe 4 baud.toNat)
  exact List.ne_nil_of_length_pos (Nat.lt_of_lt_of_le hpos hle)

@[grind ←]
theorem keeps_pdParkComset (i : Nat) (address : UInt8) (baud : UInt32) :
    Keeps R (pdParkComset i address baud) :=
  keeps_updPd_setsReply replyCom (fun _ => rfl) (fun _ => rfl)
    (fun _ => setComsetPending_ne_nil address baud) rfl

@[grind ←]
theorem keeps_pdParkKey (i : Nat) {key : Bytes} (h : key ≠ []) :
    Keeps R (pdParkKey i key) :=
  keeps_updPd_setsReply replyAck (fun _ => rfl) (fun _ => rfl)
    (fun _ _ => h) rfl

-- ============================================================== the app

section App

variable (hask : ∀ i cmd, Keeps R (callCommandCallback env run i cmd))
include hask

@[grind ←]
theorem keeps_doCommandCallback (i : Nat) (cmd : OsdpCmd) :
    Keeps R (doCommandCallback env run i cmd) := by
  have ho : Keeps R (offerCommand env run i cmd) := by
    unfold offerCommand
    exact .bind (keeps_getPd i) fun p => .ite (hask i cmd) (.pure _)
  unfold doCommandCallback
  refine .bind ho ?_
  rintro ⟨ret, cmd'⟩
  refine .ite ?_ (.pure _)
  exact .bind (keeps_replyWithNak i _) fun _ => .pure _

variable (env) in
/-- The record loop: by induction on the number of records. -/
theorem keeps_pdRecords (i size : Nat) (parse : Bytes → OsdpCmd)
    (item : Bytes → Option Nat) (n : Nat) (data : Bytes) :
    Keeps R (pdRecords env run i size parse item n data) := by
  induction n generalizing data with
  | zero => exact .pure _
  | succ n ih =>
    unfold pdRecords
    refine .bind (keeps_pdCmdCapOk i _) ?_
    intro allowed
    refine .ite (.pure _) ?_
    refine .bind (keeps_doCommandCallback hask i _) ?_
    rintro ⟨ok, -⟩
    exact .ite (.pure _) (ih _)

@[grind ←]
theorem keeps_pdDecodeRecords (i size : Nat) (parse : Bytes → OsdpCmd)
    (item : Bytes → Option Nat) (data : Bytes) :
    Keeps R (pdDecodeRecords env run i size parse item data) := by
  unfold pdDecodeRecords
  refine .ite (.pure _) ?_
  refine .bind (keeps_pdRecords env hask i size parse item _ data) ?_
  intro taken
  refine .ite ?_ (.pure _)
  exact .bind (keeps_setReply i rfl) fun _ => .pure _

@[grind ←]
theorem keeps_pdDecodeLed (i : Nat) (data : Bytes) :
    Keeps R (pdDecodeLed env run i data) :=
  keeps_pdDecodeRecords hask i _ _ _ data

@[grind ←]
theorem keeps_pdDecodeBuz (i : Nat) (data : Bytes) :
    Keeps R (pdDecodeBuz env run i data) :=
  keeps_pdDecodeRecords hask i _ _ _ data

@[grind ←]
theorem keeps_pdCapThenAck (i : Nat) (cmd : OsdpCmd) :
    Keeps R (pdCapThenAck env run i cmd) := by
  unfold pdCapThenAck
  refine .bind (keeps_pdCmdCapOk i none) ?_
  intro allowed
  refine .ite (.pure _) ?_
  refine .bind (keeps_doCommandCallback hask i cmd) ?_
  rintro ⟨ok, -⟩
  refine .ite (.pure _) ?_
  exact .bind (keeps_setReply i rfl) fun _ => .pure _

@[grind ←]
theorem keeps_pdDecodeText (i : Nat) (data : Bytes) :
    Keeps R (pdDecodeText env run i data) := by
  unfold pdDecodeText
  refine .ite (.pure _) ?_
  exact .ite (.pure _) (keeps_pdCapThenAck hask i _)

@[grind ←]
theorem keeps_pdDecodeTdset (i : Nat) (data : Bytes) :
    Keeps R (pdDecodeTdset env run i data) := by
  unfold pdDecodeTdset
  exact .ite (.pure _) (keeps_pdCapThenAck hask i _)

@[grind ←]
theorem keeps_pdDecodeComset (i : Nat) (data : Bytes) :
    Keeps R (pdDecodeComset env run i data) := by
  unfold pdDecodeComset
  refine .ite (.pure _) ?_
  refine .ite (.pure _) ?_
  refine .bind (keeps_doCommandCallback hask i _) ?_
  rintro ⟨ok, cmd⟩
  refine .ite (.pure _) ?_
  exact .bind (keeps_pdParkComset i _ _) fun _ => .pure _

omit hask in
/-- The key of a CMD_KEYSET is not empty. -/
theorem keysetKey_ne_nil {data : Bytes} (cmd : OsdpCmd)
    (h : data.length = 18) : keysetKey data cmd ≠ [] := by
  refine List.ne_nil_of_length_pos ?_
  unfold keysetKey
  split
  · rw [length_fieldBytes]
    decide
  · rw [List.length_drop, h]
    decide

@[grind ←]
theorem keeps_pdDecodeKeyset (i : Nat) (data : Bytes) :
    Keeps R (pdDecodeKeyset env run i data) := by
  unfold pdDecodeKeyset
  split
  · exact .pure _
  · next hlen =>
    have hpark (cmd : OsdpCmd) :
        Keeps R (pdParkKey i (keysetKey data cmd)) :=
      keeps_pdParkKey i (keysetKey_ne_nil cmd (not_not.mp hlen))
    split
    · exact .pure _
    · refine .bind (keeps_setNakCode i _) ?_
      intro _
      refine .bind (keeps_pdCmdCapOk i none) ?_
      intro allowed
      refine .ite (.pure _) ?_
      refine .bind (keeps_getPd i) ?_
      intro p
      refine .ite (.pure _) ?_
      refine .bind (keeps_doCommandCallback hask i _) ?_
      rintro ⟨ok, cmd⟩
      apply Keeps.ite
      · exact .bind (keeps_setNakCode i _) fun _ => .pure _
      · exact .bind (hpark cmd) fun _ => .pure _

end App

-- ============================================================ transfers

section Transfers

variable (hnote : ∀ i ph g, Keeps R (osdpMpPdNotify env run i ph g))
include hnote

@[grind ←]
theorem keeps_pdDecodeAbort (i : Nat) (data : Bytes) :
    Keeps R (pdDecodeAbort env run i data) := by
  unfold pdDecodeAbort
  refine .ite (.pure _) ?_
  refine .bind (keeps_osdpEnginesAbort hnote i) ?_
  intro _
  exact .bind (keeps_setReply i rfl) fun _ => .pure _

@[grind ←]
theorem keeps_pdDecodeFiletransfer
    (hask : ∀ i cmd, Keeps R (callCommandCallback env run i cmd))
    (i : Nat) (data : Bytes) :
    Keeps R (pdDecodeFiletransfer env run i data) := by
  have hf : Keeps R (osdpFileCmdTxDecode env run i data) :=
    keeps_osdpFileCmdTxDecode hnote i data fun _ _ => hask i _
  unfold pdDecodeFiletransfer
  refine .bind hf ?_
  intro taken
  apply Keeps.ite
  · exact .bind (keeps_replyWithNak i _) fun _ => .pure _
  · exact .bind (keeps_setReply i rfl) fun _ => .pure _

end Transfers

end Commands

-- ========================================================= taken events

section Takes

variable {env : Env} {run : List ApiCall → OsdpM Unit}
variable {R : Osdp → Osdp → Prop} [TakeMoves R]

/-- An event leaves the queue and picks the reply. -/
theorem keeps_updPd_take {i id : Nat} (ev : SubmittedEvent)
    (rest : List SubmittedEvent) (h : ordinaryReply id = true) :
    Keeps R (updPd i fun p =>
      { p with eventQueue := rest, activeEvent := some ev, replyId := id }) := by
  intro s a t e
  cases e
  exact TakeMoves.take s i ev rest id h

@[grind ←]
theorem keeps_pdTakeEvent (i : Nat) (ev : SubmittedEvent)
    (rest : List SubmittedEvent) :
    Keeps R (pdTakeEvent i ev rest) := by
  unfold pdTakeEvent
  split
  · exact .throw _
  · next id h =>
    exact keeps_updPd_take ev rest (ordinary_pdTranslateEvent h)

@[grind ←]
theorem keeps_pdTakeInlineReply (i : Nat) :
    Keeps R (pdTakeInlineReply i) := by
  unfold pdTakeInlineReply
  refine .bind (keeps_getPd i) ?_
  intro p
  split
  · refine .ite ?_ (.pure _)
    exact .bind (keeps_pdTakeEvent i _ _) fun _ => .pure _
  · exact .pure _

@[grind ←]
theorem keeps_pdInlineReplyOrAck (i : Nat) :
    Keeps R (pdInlineReplyOrAck i) := by
  unfold pdInlineReplyOrAck
  refine .bind (keeps_pdTakeInlineReply i) ?_
  intro taken
  refine .ite ?_ (.pure _)
  exact .bind (keeps_setReply i rfl) fun _ => .pure _

@[grind ←]
theorem keeps_pdDecodePoll (i : Nat) (data : Bytes) :
    Keeps R (pdDecodePoll i data) := by
  have hpiv (p : OsdpPd) : Keeps R (setReply i (osdpPivPdReplyId p)) :=
    keeps_setReply i (ordinary_osdpPivPdReplyId p)
  unfold pdDecodePoll
  refine .ite (.pure _) ?_
  refine .bind (keeps_getPd i) ?_
  intro p
  refine .ite (.bind (hpiv p) fun _ => .pure _) ?_
  refine .ite (.bind (keeps_setReply i rfl) fun _ => .pure _) ?_
  split
  · exact .bind (keeps_pdTakeEvent i _ _) fun _ => .pure _
  · exact .bind (keeps_setReply i rfl) fun _ => .pure _

section App

variable (hask : ∀ i cmd, Keeps R (callCommandCallback env run i cmd))
variable (hnote : ∀ i ph g, Keeps R (osdpMpPdNotify env run i ph g))
include hask

@[grind ←]
theorem keeps_pdDecodeOut (i : Nat) (data : Bytes) :
    Keeps R (pdDecodeOut env run i data) := by
  unfold pdDecodeOut
  refine .ite (.pure _) ?_
  refine .bind (keeps_pdRecords env hask i 4 parseOutput _ _ data) ?_
  intro taken
  exact .ite (keeps_pdInlineReplyOrAck i) (.pure _)

@[grind ←]
theorem keeps_pdDecodeMfg (i : Nat) (data : Bytes) :
    Keeps R (pdDecodeMfg env run i data) := by
  unfold pdDecodeMfg
  refine .ite (.pure _) ?_
  refine .ite (.pure _) ?_
  refine .bind (keeps_doCommandCallback hask i _) ?_
  rintro ⟨ok, -⟩
  exact .ite (.pure _) (keeps_pdInlineReplyOrAck i)

@[grind ←]
theorem keeps_pdDecodeBioread (i : Nat) (data : Bytes) :
    Keeps R (pdDecodeBioread env run i data) := by
  unfold pdDecodeBioread
  refine .ite (.pure _) ?_
  refine .bind (keeps_pdCmdCapOk i none) ?_
  intro allowed
  refine .ite (.pure _) ?_
  refine .bind (keeps_doCommandCallback hask i _) ?_
  rintro ⟨ok, -⟩
  exact .ite (.pure _) (keeps_pdInlineReplyOrAck i)

@[grind ←]
theorem keeps_pdDecodeBiomatch (i : Nat) (data : Bytes) :
    Keeps R (pdDecodeBiomatch env run i data) := by
  unfold pdDecodeBiomatch
  refine .ite (.pure _) ?_
  refine .bind (keeps_pdCmdCapOk i none) ?_
  intro allowed
  refine .ite (.pure _) ?_
  refine .ite (.bind (keeps_setNakCode i _) fun _ => .pure _) ?_
  refine .bind (keeps_doCommandCallback hask i _) ?_
  rintro ⟨ok, -⟩
  exact .ite (.pure _) (keeps_pdInlineReplyOrAck i)

@[grind ←]
theorem keeps_pdXwrToApp (i : Nat) (c : TrsCmd) :
    Keeps R (pdXwrToApp env run i c) := by
  have hack : Keeps R (setReply i replyAck) := keeps_setReply i rfl
  unfold pdXwrToApp
  refine .bind (keeps_doCommandCallback hask i _) fun r => ?_
  split
  split
  · exact .pure _
  · refine .bind (keeps_getPd i) fun p => ?_
    split
    · exact .bind (keeps_updPd_take _ _ rfl) fun _ => .pure _
    · exact .bind hack fun _ => .pure _

@[grind ←]
theorem keeps_pdDecodeXwr (i : Nat) (data : Bytes) :
    Keeps R (pdDecodeXwr env run i data) := by
  unfold pdDecodeXwr
  refine .bind (keeps_getPd i) ?_
  intro p
  split
  refine .bind (keeps_updPd_sameReply (fun _ => rfl) (fun _ => rfl)
    fun _ h => h) ?_
  intro _
  split
  · exact .pure _
  · exact .bind (keeps_setReply i rfl) fun _ => .pure _
  · exact .bind (keeps_setReply i rfl) fun _ => .pure _
  · exact keeps_pdXwrToApp hask i _

include hnote

@[grind ←]
theorem keeps_pdDecodePivdata (i : Nat) (data : Bytes) :
    Keeps R (pdDecodePivdata env run i data) := by
  unfold pdDecodePivdata
  refine .ite (.pure _) ?_
  refine .bind (keeps_pdCmdCapOk i none) ?_
  intro allowed
  refine .ite (.pure _) ?_
  refine .bind (keeps_osdpPivPdOpen hnote i _ _) ?_
  intro opened
  refine .ite (.pure _) ?_
  refine .bind (keeps_doCommandCallback hask i _) ?_
  rintro ⟨ok, -⟩
  exact .ite (.pure _) (keeps_pdInlineReplyOrAck i)

@[grind ←]
theorem keeps_pdDecodeAuth (i cmdId : Nat) (data : Bytes) :
    Keeps R (pdDecodeAuth env run i cmdId data) := by
  unfold pdDecodeAuth
  refine .ite (.pure _) ?_
  refine .bind (keeps_pdCmdCapOk i none) ?_
  intro allowed
  refine .ite (.pure _) ?_
  refine .bind (keeps_osdpPivPdCmdFrag hnote i _ _) ?_
  intro got
  split
  · exact .pure _
  · exact .bind (keeps_setReply i rfl) fun _ => .pure _
  · refine .bind (keeps_doCommandCallback hask i _) ?_
    rintro ⟨ok, -⟩
    refine .ite ?_ (keeps_pdInlineReplyOrAck i)
    exact .bind (keeps_osdpPivAbort hnote i) fun _ => .pure _

/-- Every command but the two of the handshake, and the one that sets the
packet size: by cases on the id.  What a status request does beyond the
others is the caller's to say. -/
theorem keeps_pdDecodeSwitch (i : Nat) {id : Nat} (data : Bytes)
    (hst : ∀ type reply need, ordinaryReply reply = true →
      Keeps R (pdDecodeStatus env run i data type reply need))
    (hc : id ≠ cmdChlng) (hs : id ≠ cmdScrypt) (hx : id ≠ cmdAcurxsize) :
    Keeps R (pdDecodeCases env run i id data) := by
  have hpdid : Keeps R (pdDecodeIdentity i data replyPdid) :=
    keeps_pdDecodeIdentity i data rfl
  have hpdcap : Keeps R (pdDecodeIdentity i data replyPdcap) :=
    keeps_pdDecodeIdentity i data rfl
  unfold pdDecodeCases
  split
  case h_17 => exact absurd rfl hx
  case h_26 => exact absurd rfl hc
  case h_27 => exact absurd rfl hs
  case h_2 => exact .bind (hst _ _ _ rfl) fun _ => .pure _
  case h_3 => exact .bind (hst _ _ _ rfl) fun _ => .pure _
  case h_4 => exact .bind (hst _ _ _ rfl) fun _ => .pure _
  case h_5 => exact .bind (hst _ _ _ rfl) fun _ => .pure _
  all_goals grind

end App

end Takes

end LibOsdp
