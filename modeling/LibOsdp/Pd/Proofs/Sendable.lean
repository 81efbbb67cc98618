/-
Which replies can be sent, and what becomes of the others.

# The arithmetic

`pd_build_reply` compares the plain data block with the room behind the
header.  What goes out is longer: under the channel a block of more than
its id is padded to sixteens with its end marker, and four MAC bytes and
two check bytes follow.  `replySpan` counts all of it, so a reply is sent
exactly where its span fits the buffer (`finishes_iff`).

# What the code does with the others

They are dropped: `pd_build_reply_packet` fails, `osdp_pd_update` ends the
session and answers nothing (`unfit_unanswered`).  If only the check bytes
did not fit, the MAC chain has moved on by then.
-/
import LibOsdp.Pd.Proofs.Replies
import LibOsdp.Pd.Proofs.Stages
import LibOsdp.Lib.Avoids

namespace LibOsdp

open Lib

section Sendable

variable {env : Env} {run : List ApiCall → OsdpM Unit}

-- ============================================================== the span

/-- The length, mark byte included, of the packet a data block of `n`
bytes makes under the channel: header, security block and id, the padded
data if there are any, MAC and check bytes. -/
def replySpan (p : OsdpPd) (n : Nat) : Nat :=
  p.markLen + 14 + if n > 1 then padLen n else 0

/-- The data block of the reply `p` is to give is this long at most. -/
def replyFits (p : OsdpPd) (n : Nat) : Prop :=
  replySpan p n ≤ getTxBufSize p

instance (p : OsdpPd) (n : Nat) : Decidable (replyFits p n) :=
  inferInstanceAs (Decidable (_ ≤ _))

/-- The check bytes of a PD are a CRC. -/
theorem ctrlCrc_initControl {p : OsdpPd} {id : Nat}
    (h : p.flags.pdMode = true) : ctrlCrc (initControl p id) = true := by
  rw [ctrlCrc_initControl_eq, h]
  rfl

/-- The span counts what sealing a data block adds to it. -/
theorem replySpan_eq (p : OsdpPd) (n : Nat) :
    replySpan p n = sealedSpan p.markLen 2 n := by
  unfold replySpan sealedSpan
  omega

-- ============================================================= finishing

/-- A reply laid under the channel is ready to be sealed, and checked by
a CRC. -/
theorem sealable_reply {i size : Nat} {s t : Osdp} {block : Bytes}
    (h : ReplyLaid env run i size s block t)
    (hmode : (s.pd i).flags.pdMode = true)
    (hact : (s.pd i).flags.scActive = true)
    (hbusy : (s.pd i).replyId ≠ replyBusy) :
    Sealable i t block ∧
      checkLen (byteAt t.txBuf ((t.pd i).markLen + 4)) = 2 := by
  have hlen2 : initScbLen (s.pd i) (s.pd i).replyId = 2 := by
    unfold initScbLen
    rw [if_neg (by simp [hbusy]), if_pos hact]
  have hdp := h.pos
  rw [hlen2, ← markLen_of_sealView h.chan] at hdp
  have htype := h.type hact hbusy
  refine ⟨⟨h.laid, ?_, ?_, hdp, ?_, ?_⟩, ?_⟩
  · have e := congrArg (fun v => v.2.1) h.chan
    exact e.trans hact
  · rw [h.control, ctrlScb_initControl, hlen2]
    rfl
  · rw [htype]
    unfold finalType
    split <;> decide
  · rw [htype]
    unfold finalType
    by_cases hn : block.length > 1
    · rw [if_pos hn, decide_eq_true hn]
      rfl
    · rw [if_neg hn, decide_eq_false hn]
      rfl
  · unfold checkLen
    rw [h.control, ctrlCrc_initControl hmode]
    rfl

/-- A reply under the channel is finalized exactly where it fits. -/
theorem finalizes_iff {i size : Nat} {s t : Osdp} {block : Bytes}
    (h : ReplyLaid env run i size s block t) (hne : block ≠ [])
    (hmode : (s.pd i).flags.pdMode = true)
    (hact : (s.pd i).flags.scActive = true)
    (hbusy : (s.pd i).replyId ≠ replyBusy) (hsize : size ≤ packetBufSize)
    (hr : (s.pd i).sc.rMac.length = 16) (hc : (s.pd i).sc.cMac.length = 16) :
    Finalizes env i size (dataPos i t + block.length) t ↔
      replySpan (s.pd i) block.length ≤ size := by
  obtain ⟨hs, hcheck⟩ := sealable_reply h hmode hact hbusy
  have hsc : (t.pd i).sc = (s.pd i).sc := congrArg Prod.fst h.chan
  rw [hs.finalizes_iff hne hsize (hsc ▸ hr) (hsc ▸ hc), hcheck, replySpan_eq,
    markLen_of_sealView h.chan]

-- ============================================================= answering

/-- The end of a refresh whose reply is still to be built. -/
def pdAnswer (env : Env) (run : List ApiCall → OsdpM Unit) (i : Nat) :
    OsdpM Unit := do
  let built ← pdBuildReplyPacket env run i
  if built ≠ pdErrNone then
    pdErrorReset env run i
  else
    pdSendStage env run i

/-- Nothing was handed to the channel. -/
@[grind] def Obs.isUnsent : Obs → Bool
  | .sent .. => false
  | _ => true

/-- The PD answers: a frame is handed to the channel, and the session is
still on afterwards. -/
def AnswersInSession (env : Env) (run : List ApiCall → OsdpM Unit) (i : Nat)
    (s : Osdp) : Prop :=
  ∃ u l, pdAnswer env run i s = .ok () u ∧ u.log = l ++ s.log ∧
    (∃ frame ret, .sent i frame ret ∈ l) ∧
    (u.pd i).flags.scActive = true

/-- The MAC chain is where it was, however the finalizer ended. -/
def KeepsChain (env : Env) (i size total : Nat) (t : Osdp) : Prop :=
  ∀ done u, osdpPhyFinalizePacket env i total size t = .ok done u →
    (u.pd i).sc.rMac = (t.pd i).sc.rMac ∧
      (u.pd i).sc.cMac = (t.pd i).sc.cMac

/-- What is asked of a reply that was laid in `t`, building from `s`: if
it is the one that was to be given it can be sent, and if it cannot the
MAC chain is left alone and the PD still answers. -/
structure ReplySurvives (env : Env) (run : List ApiCall → OsdpM Unit)
    (i size total : Nat) (own : Prop) (s t : Osdp) : Prop where
  sent : own → Finalizes env i size total t
  chain : ¬ Finalizes env i size total t → KeepsChain env i size total t
  answered : ¬ Finalizes env i size total t → AnswersInSession env run i s

section Answer

variable (hr : ∀ calls, Keeps Quiet (run calls))

theorem isUnsent_of_isApp {o : Obs} (h : o.isApp) : o.isUnsent := by
  cases o <;> first | rfl | cases h

include hr

/-- Starting over sends nothing. -/
theorem unsent_pdErrorReset (i : Nat) :
    Keeps (Logs Obs.isUnsent) (pdErrorReset env run i) := by
  have hc : Keeps (Logs Obs.isUnsent) (pdCompleteActive env run i .failed) :=
    (completes_pdCompleteActive hr i .failed).mono
      fun _ _ h => h.logs fun _ => isUnsent_of_isApp
  have hd : Keeps (Logs Obs.isUnsent) (pdScDeactivate env run i) :=
    (ages_pdScDeactivate hr i).mono
      fun _ _ h => h.logs fun _ => isUnsent_of_isApp
  have hs : Keeps (Logs Obs.isUnsent) (osdpPhyStateReset env i false) := by
    unfold osdpPhyStateReset
    grind
  unfold pdErrorReset
  grind

/-- A reply that cannot be finalized is not answered at all. -/
theorem unfit_unanswered {i total : Nat} {s t : Osdp}
    (hlay : pdLayReply env run i (getTxBufSize (s.pd i)) s
      = .ok (some total) t)
    (h : ¬ Finalizes env i (getTxBufSize (s.pd i)) total t) :
    ¬ AnswersInSession env run i s := by
  rintro ⟨u, l, hok, hl, ⟨frame, ret, hsent⟩, -⟩
  obtain ⟨built, x, hbuild, hok⟩ := bind_ok.mp hok
  have hsx := (builds_pdBuildReplyPacket hr i).of hbuild
  have hgen : built = pdErrGeneric := by
    rw [pdBuildReplyPacket_eq] at hbuild
    obtain ⟨p, y, hg, hbuild⟩ := bind_ok.mp hbuild
    obtain ⟨rfl, rfl⟩ := getPd_ok.mp hg
    obtain ⟨o, y, hy, hbuild⟩ := bind_ok.mp hbuild
    rw [hlay] at hy
    cases hy
    obtain ⟨done, z, hz, hbuild⟩ := bind_ok.mp hbuild
    split at hbuild
    · exact (pure_ok.mp hbuild).1.symm
    · next hdone => exact absurd ⟨done, z, hz, by omega⟩ h
  rw [if_pos (by rw [hgen]; decide)] at hok
  have hxu := (unsent_pdErrorReset hr i).of hok
  have hsu : LogExt Obs.isUnsent s u :=
    trans_of (LogExt Obs.isUnsent)
      (hsx.log.mono fun o ho => by
        cases o <;> first | rfl | cases ho) hxu.log
  obtain ⟨l', hl', hE⟩ := hsu
  obtain rfl := List.append_cancel_right (hl.symm.trans hl')
  exact absurd (hE _ hsent) (by simp [Obs.isUnsent])

/-- A reply that was laid survives exactly where it fits. -/
theorem replySurvives_iff {i : Nat} {s t : Osdp} {block : Bytes}
    (h : ReplyLaid env run i (getTxBufSize (s.pd i)) s block t)
    (hne : block ≠ []) (hmode : (s.pd i).flags.pdMode = true)
    (hact : (s.pd i).flags.scActive = true)
    (hrMac : (s.pd i).sc.rMac.length = 16)
    (hcMac : (s.pd i).sc.cMac.length = 16)
    (hbusy : (s.pd i).replyId ≠ replyBusy) (own : Prop)
    (hlay : pdLayReply env run i (getTxBufSize (s.pd i)) s
      = .ok (some (dataPos i t + block.length)) t) :
    ReplySurvives env run i (getTxBufSize (s.pd i))
        (dataPos i t + block.length) own s t ↔
      replyFits (s.pd i) block.length := by
  have hfin := finalizes_iff h hne hmode hact hbusy
    (getTxBufSize_le (s.pd i)) hrMac hcMac
  constructor
  · intro hs
    by_contra hno
    have hnot := fun h => hno (hfin.mp h)
    exact unfit_unanswered hr hlay hnot (hs.answered hnot)
  · intro hfit
    have hyes := hfin.mpr hfit
    exact ⟨fun _ => hyes, fun hno => absurd hyes hno,
      fun hno => absurd hyes hno⟩

end Answer

-- ================================================================ result

/-- **Built replies.**  Take a PD with its channel up and an ordinary
reply to give, whose data block has been laid for the finalizer.  The
reply can be sent, or failing that the PD answers otherwise with its MAC
chain untouched, exactly where the whole packet fits: header, security
block, the block with its padding, MAC and check bytes. -/
theorem built_reply_survives_iff (env : Env) (depth : Nat) {s t : Osdp}
    {total : Nat} (hmode : (s.pd 0).flags.pdMode = true)
    (hact : (s.pd 0).flags.scActive = true)
    (hroom : packetBufSize ≤ s.txBuf.length)
    (hrMac : (s.pd 0).sc.rMac.length = 16)
    (hcMac : (s.pd 0).sc.cMac.length = 16)
    (hord : hsReply (s.pd 0).replyId = false)
    (hbusy : (s.pd 0).replyId ≠ replyBusy)
    (hlay : pdLayReply env (pdRunCalls env depth) 0 (getTxBufSize (s.pd 0)) s
      = .ok (some total) t) :
    ∃ block, block ≠ [] ∧ total = dataPos 0 t + block.length ∧
      ReplyLaid env (pdRunCalls env depth) 0 (getTxBufSize (s.pd 0)) s
        block t ∧
      (ReplySurvives env (pdRunCalls env depth) 0 (getTxBufSize (s.pd 0))
          total
          (Accepted env (pdRunCalls env depth) 0 (getTxBufSize (s.pd 0)) s
            block t) s t ↔
        replyFits (s.pd 0) block.length) := by
  have hr := quiet_pdRunCalls env depth
  obtain ⟨block, rfl, hne, hlaid⟩ := pdLayReply_ok hr hlay hmode hroom hord
  exact ⟨block, hne, rfl, hlaid,
    replySurvives_iff hr hlaid hne hmode hact hrMac hcMac hbusy _ hlay⟩

-- =============================================================== examples

/-- A reply was laid, and this is so of it. -/
def LaysSome (P : Nat → Osdp → Prop) :
    EStateM.Result Fault Osdp (Option Nat) → Prop
  | .ok (some total) t => P total t
  | _ => False

instance {P : Nat → Osdp → Prop} [∀ n t, Decidable (P n t)]
    (r : EStateM.Result Fault Osdp (Option Nat)) :
    Decidable (LaysSome P r) :=
  match r with
  | .ok (some n) t => inferInstanceAs (Decidable (P n t))
  | .ok none _ => inferInstanceAs (Decidable False)
  | .error _ _ => inferInstanceAs (Decidable False)

theorem laysSome_ok {P : Nat → Osdp → Prop}
    {r : EStateM.Result Fault Osdp (Option Nat)} (h : LaysSome P r) :
    ∃ total t, r = .ok (some total) t ∧ P total t := by
  cases r with
  | error e t => cases h
  | ok o t =>
    cases o with
    | none => cases h
    | some total => exact ⟨total, t, rfl, h⟩

/-- A PD with its channel up whose CP takes packets of 128 bytes, about to
give this reply. -/
def answeringPd (replyId : Nat) (ev : Option SubmittedEvent) : Osdp :=
  { pd := fun _ =>
      { flags := { pdMode := true, scActive := true, pktHasMark := true }
        peerRxSize := 128
        replyId := replyId
        activeEvent := ev } }

/-- Nothing but the MAC chain's cipher is asked for. -/
abbrev answeringEnv : Env := plainEnv (knownCipher []) fun _ => 0

/-- An ACK can be sent from there. -/
theorem built_reply_survives_ack :
    ∃ total t, pdLayReply answeringEnv (pdRunCalls answeringEnv 0) 0 128
        (answeringPd replyAck none) = .ok (some total) t ∧
      ∃ block, block ≠ [] ∧ total = dataPos 0 t + block.length ∧
        ReplyLaid answeringEnv (pdRunCalls answeringEnv 0) 0 128
          (answeringPd replyAck none) block t ∧
        (ReplySurvives answeringEnv (pdRunCalls answeringEnv 0) 0 128 total
            (Accepted answeringEnv (pdRunCalls answeringEnv 0) 0 128
              (answeringPd replyAck none) block t)
            (answeringPd replyAck none) t ↔
          replyFits ((answeringPd replyAck none).pd 0) block.length) := by
  obtain ⟨total, t, hlay, -⟩ := laysSome_ok
    (show LaysSome (fun _ _ => True)
      (pdLayReply answeringEnv (pdRunCalls answeringEnv 0) 0 128
        (answeringPd replyAck none)) by decide +kernel)
  exact ⟨total, t, hlay,
    built_reply_survives_iff answeringEnv 0 (s := answeringPd replyAck none)
      rfl rfl (by decide +kernel) rfl rfl rfl (by decide) hlay⟩

/-- A manufacturer reply of 109 bytes is accepted there, but its packet
would have 143. -/
theorem built_reply_too_long :
    ¬ ∀ (env : Env) (depth : Nat) (s t : Osdp) (block : Bytes),
      (s.pd 0).flags.pdMode = true → (s.pd 0).flags.scActive = true →
      hsReply (s.pd 0).replyId = false →
      pdLayReply env (pdRunCalls env depth) 0 (getTxBufSize (s.pd 0)) s
        = .ok (some (dataPos 0 t + block.length)) t →
      ReplyLaid env (pdRunCalls env depth) 0 (getTxBufSize (s.pd 0)) s
        block t →
      ReplySurvives env (pdRunCalls env depth) 0 (getTxBufSize (s.pd 0))
        (dataPos 0 t + block.length)
        (Accepted env (pdRunCalls env depth) 0 (getTxBufSize (s.pd 0)) s
          block t) s t := by
  intro hall
  let s := answeringPd replyMfgrep (some ⟨0, .mfgrep 0 109 (zeros 109)⟩)
  obtain ⟨total, t, hlay, hlen⟩ := laysSome_ok
    (show LaysSome (fun total t => total = dataPos 0 t + 113)
      (pdLayReply answeringEnv (pdRunCalls answeringEnv 0) 0 128 s)
      by decide +kernel)
  have hr := quiet_pdRunCalls answeringEnv 0
  have hlay' : pdLayReply answeringEnv (pdRunCalls answeringEnv 0) 0
      (getTxBufSize (s.pd 0)) s = .ok (some total) t := hlay
  obtain ⟨block, rfl, hne, hlaid⟩ :=
    pdLayReply_ok hr hlay' rfl (by decide +kernel) rfl
  have hs := hall answeringEnv 0 s t block rfl rfl rfl hlay' hlaid
  have hfit := (replySurvives_iff hr hlaid hne rfl rfl rfl rfl (by decide) _
    hlay').mp hs
  have hblock : block.length = 113 := by omega
  rw [hblock] at hfit
  exact absurd hfit (by decide)

end Sendable

end LibOsdp
