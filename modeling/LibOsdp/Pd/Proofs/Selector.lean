/-
Which key a PD derives its session keys from.

# Where the choice is kept

The security block of a CMD_CHLNG says whether the session is to be keyed
with the stored key or with SCBK-D.  The decoder of frames reads it, for
any frame with a block of that shape, and only ever sets
PD_FLAG_SC_USE_SCBKD; the keys are derived when REPLY_CCRYPT is built, by
the flag.  A KEYSET that goes through clears it.

# What that makes of the choice

Once set, the flag decides every later handshake up to the next KEYSET.
`selectorOk` is the condition on a frame under which the flag is what the
frame's own handshake asked for; `lastSelector` is what was asked for.
-/
import LibOsdp.Pd.Proofs.Answers
import LibOsdp.Pd.Proofs.Watch

namespace LibOsdp

open Lib

-- ============================================================ the choice

/-- The decoder takes the frame's choice of SCBK-D. -/
def latches (p : OsdpPd) (pkt : Bytes) : Bool :=
  (frameRefusal p pkt).isNone && ctrlScb (pktControl pkt) &&
    selectsScbkd p pkt

section Choice

variable (env : Env) (run : List ApiCall → OsdpM Unit) (s : Osdp)

/-- The frame of a refresh from `s` selects SCBK-D. -/
def selectorIn : Bool :=
  (receivedFrame env run 0 s).any fun u => latches (u.pd 0) (u.frameBuf 0)

/-- The refresh accepts a CMD_CHLNG. -/
def takesChallenge : Bool :=
  (receivedPayload env run 0 s).any fun (payload, v) =>
    payloadId payload == cmdChlng &&
      match pdDecodeCommand env run 0 payload
        { v with
          log := .decoded 0 payload (v.pd 0).flags.scActive :: v.log } with
      | .ok ret _ => ret == pdErrNone
      | .error _ _ => false

/-- The refresh decodes no frame against the choice of its handshake: a
CMD_CHLNG that is accepted finds PD_FLAG_SC_USE_SCBKD clear or selects
SCBK-D, and a frame without a payload does not set it while a
REPLY_CCRYPT is left over. -/
def selectorOk : Bool :=
  (receivedFrame env run 0 s).all fun u =>
    if takesChallenge env run s then
      !(u.pd 0).flags.scUseScbkd || latches (u.pd 0) (u.frameBuf 0)
    else
      (receivedPayload env run 0 s).isSome ||
        (u.pd 0).replyId != replyCcrypt || (u.pd 0).flags.scUseScbkd ||
        !latches (u.pd 0) (u.frameBuf 0)

end Choice

/-- What the last CMD_CHLNG that was accepted selected. -/
def lastSelector (env : Env) (run : List ApiCall → OsdpM Unit) :
    List Refresh → Bool
  | [] => false
  | x :: past =>
    if takesChallenge env run x.before then selectorIn env run x.before
    else lastSelector env run past

/-- Any session keys the entry derives are for a REPLY_CCRYPT, and derived
from SCBK-D exactly if `b`. -/
@[grind] def Obs.keysBy (id : Nat) (b : Bool) : Obs → Bool
  | .sessionKeys _ scbkd _ => id == replyCcrypt && scbkd == b
  | _ => true

/-- Session keys derived in a refresh are derived from SCBK-D exactly if
the challenge they answer selected it. -/
def KeysAsSelected (env : Env) (run : List ApiCall → OsdpM Unit)
    (x : Refresh) (past : List Refresh) : Prop :=
  ∀ scbkd sc, .sessionKeys 0 scbkd sc ∈ added x.before x.after →
    scbkd = lastSelector env run (x :: past)

-- ========================================================== what stays put

/-- No session keys are derived. -/
@[grind] def Obs.noKeys : Obs → Bool
  | .sessionKeys .. => false
  | _ => true

theorem keysBy_of_noKeys {o : Obs} (id : Nat) (b : Bool) (h : o.noKeys) :
    o.keysBy id b := by
  cases o <;> first | rfl | cases h

/-- The reply that is due and the flag. -/
@[grind] def keyingView (p : OsdpPd) : Nat × Bool :=
  (p.replyId, p.flags.scUseScbkd)

/-- Neither changed, and no keys were derived. -/
abbrev KeepsKeying : Osdp → Osdp → Prop :=
  Frame keyingView noContext Obs.noKeys

/-- The flag. -/
@[grind] def flagView (p : OsdpPd) : Bool := p.flags.scUseScbkd

/-- The flag did not change, and no keys were derived. -/
abbrev KeepsFlag : Osdp → Osdp → Prop :=
  Frame flagView noContext Obs.noKeys

theorem KeepsKeying.flag {s t : Osdp} (h : KeepsKeying s t) :
    KeepsFlag s t :=
  h.view Prod.snd (fun _ => rfl) fun _ => id

theorem noKeys_of_isApp {o : Obs} (h : o.isApp) : o.noKeys := by
  cases o <;> first | rfl | cases h

theorem Quiet.keepsKeying {s t : Osdp} (h : Quiet s t) : KeepsKeying s t :=
  h.view keyingView (fun _ => rfl) fun _ => noKeys_of_isApp

theorem Ages.keepsKeying {s t : Osdp} (h : Ages s t) : KeepsKeying s t :=
  h.view keyingView (fun _ => rfl) fun _ => noKeys_of_isApp

theorem Packs.keepsKeying {s t : Osdp} (h : Packs s t) : KeepsKeying s t :=
  h.view keyingView (fun _ => rfl) fun _ => noKeys_of_isApp

theorem Sends.keepsKeying {s t : Osdp} (h : Sends s t) : KeepsKeying s t :=
  h.view keyingView (fun _ => rfl) fun o ho => by
    cases o <;> first | rfl | cases ho

theorem Scans.keepsKeying {s t : Osdp} (h : Scans s t) : KeepsKeying s t :=
  h.view keyingView (fun _ => rfl) fun o ho => by
    cases o <;> first | rfl | cases ho

theorem Handles.keepsFlag {s t : Osdp} (h : Handles s t) :
    KeepsFlag s t := by
  refine ⟨fun j => ?_, rfl, h.log.mono fun o ho => ?_⟩
  · have e := congrArg flagView (h.pd j)
    exact e
  · cases o <;> first | rfl | cases ho

instance : PacketMoves KeepsKeying where
  packet _ _ _ h := Frame.updPd _ _ fun p => by
    have e := congrArg keyingView (h p)
    exact e
  txBuf _ _ _ := ⟨fun _ => rfl, rfl, refl_of (LogExt _) _⟩

/-- If a REPLY_CCRYPT is due to PD `i` now, it was so before, with the
flag as it is; and no keys were derived. -/
structure StillKeyed (i : Nat) (s t : Osdp) : Prop where
  flag : (t.pd i).replyId = replyCcrypt →
    (s.pd i).replyId = replyCcrypt ∧
      (t.pd i).flags.scUseScbkd = (s.pd i).flags.scUseScbkd
  log : LogExt Obs.noKeys s t

instance (i : Nat) : IsPreorder Osdp (StillKeyed i) where
  refl s := ⟨fun e => ⟨e, rfl⟩, refl_of _ s⟩
  trans _ _ _ h k := ⟨fun e =>
      ⟨(h.flag (k.flag e).1).1, (k.flag e).2.trans (h.flag (k.flag e).1).2⟩,
    trans_of _ h.log k.log⟩

theorem KeepsKeying.still {s t : Osdp} (h : KeepsKeying s t) (i : Nat) :
    StillKeyed i s t := by
  have hid : (t.pd i).replyId = (s.pd i).replyId :=
    congrArg Prod.fst (h.pd i)
  exact ⟨fun e => ⟨hid.symm.trans e, congrArg Prod.snd (h.pd i)⟩, h.log⟩

/-- An ordinary reply is no REPLY_CCRYPT. -/
theorem StillKeyed.of_ordinary {i : Nat} {s t : Osdp}
    (h : hsReply (t.pd i).replyId = false) (hl : LogExt Obs.noKeys s t) :
    StillKeyed i s t := by
  refine ⟨fun e => ?_, hl⟩
  rw [e] at h
  cases h

/-- The reply and the flag are the same, and any keys derived on the way
are for the reply `id` and by the flag. -/
structure KeysByFlag (i id : Nat) (s t : Osdp) : Prop where
  view : keyingView (t.pd i) = keyingView (s.pd i)
  log : LogExt (Obs.keysBy id (s.pd i).flags.scUseScbkd) s t

theorem KeysByFlag.flag {i id : Nat} {s t : Osdp}
    (h : KeysByFlag i id s t) :
    (t.pd i).flags.scUseScbkd = (s.pd i).flags.scUseScbkd :=
  congrArg Prod.snd h.view

instance (i id : Nat) : IsPreorder Osdp (KeysByFlag i id) where
  refl s := ⟨rfl, refl_of _ s⟩
  trans _ _ _ h k := by
    refine ⟨k.view.trans h.view, trans_of _ h.log ?_⟩
    rw [← h.flag]
    exact k.log

theorem KeepsKeying.byFlag {s t : Osdp} (h : KeepsKeying s t)
    (i id : Nat) : KeysByFlag i id s t :=
  ⟨h.pd i, h.log.mono fun _ => keysBy_of_noKeys _ _⟩

instance (i id : Nat) : PacketMoves (KeysByFlag i id) where
  packet s j f h :=
    (PacketMoves.packet (R := KeepsKeying) s j f h).byFlag i id
  txBuf s off d :=
    (PacketMoves.txBuf (R := KeepsKeying) s off d).byFlag i id

/-- The same, of the reply that is due. -/
def KeysOfReply (i : Nat) (s t : Osdp) : Prop :=
  KeysByFlag i (s.pd i).replyId s t

instance (i : Nat) : IsPreorder Osdp (KeysOfReply i) where
  refl s := refl_of (KeysByFlag i (s.pd i).replyId) s
  trans s u t h k := by
    have hid : (u.pd i).replyId = (s.pd i).replyId :=
      congrArg Prod.fst h.view
    unfold KeysOfReply at k
    rw [hid] at k
    exact trans_of (KeysByFlag i (s.pd i).replyId) h k

theorem KeepsKeying.ofReply {s t : Osdp} (h : KeepsKeying s t) (i : Nat) :
    KeysOfReply i s t :=
  h.byFlag i _

instance (i : Nat) : PacketMoves (KeysOfReply i) where
  packet s j f h :=
    (PacketMoves.packet (R := KeepsKeying) s j f h).ofReply i
  txBuf s off d := (PacketMoves.txBuf (R := KeepsKeying) s off d).ofReply i

-- ============================================================== the build

section Build

variable {env : Env} {run : List ApiCall → OsdpM Unit}

theorem byFlag_updPd {i id : Nat} {f : OsdpPd → OsdpPd}
    (h : ∀ p, keyingView (f p) = keyingView p) :
    Keeps (KeysByFlag i id) (updPd i f) := by
  intro s a t e
  have hk : KeepsKeying s t := frame_of_updPd e h
  exact hk.byFlag i id

/-- Session keys are derived by the flag. -/
theorem byFlag_osdpComputeSessionKeys (i : Nat) :
    Keeps (KeysByFlag i replyCcrypt) (osdpComputeSessionKeys env i) := by
  intro s a t h
  have hsteps := osdpComputeSessionKeys_ok h
  have hb : Builds s t := (builds_osdpComputeSessionKeys i).of h
  refine ⟨?_, [_], hsteps.2, fun o ho => ?_⟩
  · have e := congrArg keyingView (hb.pd i)
    exact e
  · rw [List.mem_singleton.mp ho]
    show (replyCcrypt == replyCcrypt && _ == _) = true
    rw [beq_self_eq_true, beq_self_eq_true]
    rfl

theorem byFlag_buildCcrypt (i : Nat) (smb : Option Nat) (maxLen : Int) :
    Keeps (KeysByFlag i replyCcrypt) (buildCcrypt env i smb maxLen) := by
  have hf (n : Nat) :
      Keeps (KeysByFlag i replyCcrypt) (osdpFillRandom env n) := by
    intro s a t e
    cases e
    exact ⟨rfl, LogExt.cons rfl⟩
  have hk : Keeps (KeysByFlag i replyCcrypt)
      (osdpComputeSessionKeys env i) := byFlag_osdpComputeSessionKeys i
  have hu {f : OsdpPd → OsdpPd}
      (h : ∀ p, keyingView (f p) = keyingView p) :
      Keeps (KeysByFlag i replyCcrypt) (updPd i f) := byFlag_updPd h
  unfold buildCcrypt
  cases smb with
  | none => exact .pure _
  | some smb =>
    dsimp only
    split
    · exact .pure _
    · refine .bind (hf 8) fun r => .bind (hu fun _ => rfl) fun _ =>
        .bind hk fun _ => .bind (hu fun _ => rfl) fun _ => ?_
      grind

variable (hr : ∀ calls, Keeps Quiet (run calls))
include hr

/-- REPLY_RMAC_I derives no keys. -/
theorem keepsKeying_buildRmacI (i : Nat) (smb : Option Nat)
    (maxLen : Int) : Keeps KeepsKeying (buildRmacI env run i smb maxLen) := by
  have hn : Keeps KeepsKeying (notifyScStatus env run i) :=
    (keeps_notifyScStatus hr i).mono fun _ _ h => Quiet.keepsKeying h
  have ha : Keeps KeepsKeying (scActivate i) := by
    have ho : Keeps KeepsKeying (observe (.scActivated i)) :=
      keeps_observe rfl
    unfold scActivate
    grind
  unfold buildRmacI
  cases smb with
  | none => exact .pure _
  | some smb =>
    dsimp only
    split
    · exact .pure _
    · refine .bind (keeps_updPd fun _ => rfl) fun _ =>
        .bind (keeps_getPd i) fun p => .bind (keeps_writeBuf_tx _ _) fun _ =>
        .bind ha fun _ => .bind hn fun _ =>
        .bind keeps_osdpMillisNow fun now =>
        .bind (keeps_updPd fun _ => rfl) fun _ => .pure _

/-- Any reply: the two of the handshake, or one of the others. -/
theorem byFlag_pdBuildCases (i id : Nat) (ev : Option OsdpEvent)
    (smb : Option Nat) (maxLen : Int) :
    Keeps (KeysByFlag i id) (pdBuildCases env run i id ev smb maxLen) := by
  cases h : hsReply id with
  | false =>
    exact (packs_pdBuildCases hr i ev smb maxLen h).mono fun _ _ h =>
      (Packs.keepsKeying h).byFlag i id
  | true =>
    have hid : id = replyCcrypt ∨ id = replyRmacI := by
      simpa [hsReply, osdpPhyInScHandshake] using h
    rcases hid with rfl | rfl
    · exact .bind (keeps_getPd i) fun _ => byFlag_buildCcrypt i smb maxLen
    · exact (Keeps.bind (keeps_getPd i) fun _ =>
        keepsKeying_buildRmacI hr i smb maxLen).mono
          fun _ _ h => KeepsKeying.byFlag h i _

theorem byFlag_pdBuildBody (i size : Nat) (p : OsdpPd) :
    Keeps (KeysByFlag i p.replyId) (pdBuildBody env run i size p) := by
  have hfin (off : Nat) (smb : Option Nat) (maxLen : Int)
      (body : Option Bytes) :
      Keeps (KeysByFlag i p.replyId)
        (pdFinishReply env run i off smb maxLen body) :=
    (packs_pdFinishReply hr i off smb maxLen body).mono fun _ _ h =>
      (Packs.keepsKeying h).byFlag i _
  have hdata (smb : Option Nat) (maxLen : Int) :
      Keeps (KeysByFlag i p.replyId)
        (pdBuildData env run i p smb maxLen) := by
    unfold pdBuildData
    dsimp only
    split
    · exact .pure _
    · exact byFlag_pdBuildCases hr i _ _ smb maxLen
  unfold pdBuildBody
  grind

theorem ofReply_pdBuildReply (i size : Nat) :
    Keeps (KeysOfReply i) (pdBuildReply env run i size) := by
  intro s a t h
  unfold pdBuildReply at h
  obtain ⟨p, u, hg, h⟩ := bind_ok.mp h
  obtain ⟨rfl, rfl⟩ := getPd_ok.mp hg
  obtain ⟨_, v, ho, h⟩ := bind_ok.mp h
  obtain rfl := observe_ok.mp ho
  have hb := (byFlag_pdBuildBody hr i size (s.pd i)).of h
  refine ⟨hb.view, trans_of (LogExt _) (LogExt.cons rfl) hb.log⟩

theorem ofReply_pdBuildReplyPacket (i : Nat) :
    Keeps (KeysOfReply i) (pdBuildReplyPacket env run i) := by
  have hu {f : OsdpPd → OsdpPd}
      (h : ∀ p, keyingView (f p) = keyingView p) :
      Keeps (KeysOfReply i) (updPd i f) := by
    intro s a t e
    have hk : KeepsKeying s t := frame_of_updPd e h
    exact hk.ofReply i
  have hs (len : Nat) : Keeps (KeysOfReply i) (pdStage i len) :=
    hu fun _ => rfl
  have hd (len : Nat) : Keeps (KeysOfReply i) (pdStaged i len) :=
    hu fun _ => rfl
  have hb (size : Nat) :
      Keeps (KeysOfReply i) (pdBuildReply env run i size) :=
    ofReply_pdBuildReply hr i size
  unfold pdBuildReplyPacket
  refine .bind (keeps_getPd i) fun p => ?_
  refine .bind (hu fun _ => rfl) fun _ => ?_
  refine .bind (keeps_osdpPhyPacketInit i _) fun hdr => ?_
  grind

end Build

-- =============================================================== the send

section Reply

variable {env : Env} {run : List ApiCall → OsdpM Unit}

theorem keepsKeying_osdpPhyStateReset (i : Nat) :
    Keeps KeepsKeying (osdpPhyStateReset env i false) := by
  have hs : Keeps KeepsKeying (scDeactivate i) := keeps_updPd fun _ => rfl
  unfold osdpPhyStateReset
  grind

variable (hr : ∀ calls, Keeps Quiet (run calls))
include hr

theorem keepsKeying_pdScDeactivate (i : Nat) :
    Keeps KeepsKeying (pdScDeactivate env run i) :=
  (ages_pdScDeactivate hr i).mono fun _ _ h => Ages.keepsKeying h

theorem keepsKeying_pdCompleteActive (i : Nat) (st : CompletionStatus) :
    Keeps KeepsKeying (pdCompleteActive env run i st) :=
  (completes_pdCompleteActive hr i st).mono fun _ _ h =>
    h.view keyingView (fun _ => rfl) fun _ => noKeys_of_isApp

theorem keepsKeying_pdErrorReset (i : Nat) :
    Keeps KeepsKeying (pdErrorReset env run i) := by
  have hd : Keeps KeepsKeying (pdScDeactivate env run i) :=
    keepsKeying_pdScDeactivate hr i
  have hc : Keeps KeepsKeying (pdCompleteActive env run i .failed) :=
    keepsKeying_pdCompleteActive hr i .failed
  have hs : Keeps KeepsKeying (osdpPhyStateReset env i false) :=
    keepsKeying_osdpPhyStateReset i
  unfold pdErrorReset
  grind

/-- What a sent reply commits: a KEYSET clears the flag, but that is not
over a REPLY_CCRYPT. -/
theorem stillKeyed_pdCommitKeyset {i : Nat} {s t : Osdp}
    (h : pdCommitKeyset env run i s = .ok () t)
    (hid : (s.pd i).replyId = replyAck) : StillKeyed i s t := by
  unfold pdCommitKeyset at h
  obtain ⟨p, u, hg, h⟩ := bind_ok.mp h
  obtain ⟨rfl, rfl⟩ := getPd_ok.mp hg
  obtain ⟨_, u, hu, h⟩ := bind_ok.mp h
  obtain rfl := observe_ok.mp hu
  obtain ⟨_, v, hv, h⟩ := bind_ok.mp h
  have hvt : KeepsKeying v t := (keepsKeying_pdScDeactivate hr i).of h
  obtain rfl := updPd_ok.mp hv
  refine trans_of (StillKeyed i) (.of_ordinary ?_ ?_) (hvt.still i)
  · rw [updPd_pd_same]
    show hsReply (s.pd i).replyId = false
    rw [hid]
    rfl
  · exact LogExt.cons rfl

theorem stillKeyed_pdCommit (i : Nat) :
    Keeps (StillKeyed i) (pdCommit env run i) := by
  intro s a t h
  unfold pdCommit at h
  obtain ⟨p, u, hg, h⟩ := bind_ok.mp h
  obtain ⟨rfl, rfl⟩ := getPd_ok.mp hg
  split at h
  · next hk => exact stillKeyed_pdCommitKeyset hr h hk.2
  · split at h
    · next hk =>
      unfold pdCommitComset at h
      obtain ⟨p, u, hg, h⟩ := bind_ok.mp h
      obtain ⟨rfl, rfl⟩ := getPd_ok.mp hg
      obtain ⟨r, v, hd, h⟩ := bind_ok.mp h
      have hH : Handles s v := (handles_doCommandCallback hr i _).of hd
      obtain rfl := updPd_ok.mp h
      refine .of_ordinary ?_ hH.keepsFlag.log
      rw [updPd_pd_same]
      refine hH.reply i ?_
      rw [hk.2]
      rfl
    · obtain ⟨-, rfl⟩ := pure_ok.mp h
      exact refl_of (StillKeyed i) _

theorem stillKeyed_pdSendStage (i : Nat) :
    Keeps (StillKeyed i) (pdSendStage env run i) := by
  have hs : Keeps (StillKeyed i) (pdSendReply env i) :=
    (sends_pdSendReply i).mono fun _ _ h => (Sends.keepsKeying h).still i
  have hc (st : CompletionStatus) :
      Keeps (StillKeyed i) (pdCompleteActive env run i st) :=
    (keepsKeying_pdCompleteActive hr i st).mono fun _ _ h =>
      KeepsKeying.still h i
  have hp : Keeps (StillKeyed i) (osdpPhyProgressSequence i) := by
    have hp : Keeps KeepsKeying (osdpPhyProgressSequence i) :=
      keeps_updPd fun _ => rfl
    exact hp.mono fun _ _ h => KeepsKeying.still h i
  have hrs : Keeps (StillKeyed i) (osdpPhyStateReset env i false) :=
    (keepsKeying_osdpPhyStateReset i).mono fun _ _ h =>
      KeepsKeying.still h i
  have hcm : Keeps (StillKeyed i) (pdCommit env run i) :=
    stillKeyed_pdCommit hr i
  unfold pdSendStage
  grind

end Reply

-- ============================================================ the decoder

section Decode

variable {env : Env} {run : List ApiCall → OsdpM Unit}

/-- The flag after a frame was decoded. -/
theorem Decoded.flag {p : OsdpPd} {pkt : Bytes} {n : Nat}
    {r : DecodeResult} (h : Decoded env p pkt n r) :
    r.pd.flags.scUseScbkd = (p.flags.scUseScbkd || latches p pkt) := by
  have hsel (href : frameRefusal p pkt = none) :
      (takeSelector p pkt).flags.scUseScbkd
        = (p.flags.scUseScbkd || latches p pkt) := by
    have hl : latches p pkt
        = decide (ctrlScb (pktControl pkt) = true ∧
          selectsScbkd p pkt = true) := by
      simp [latches, href]
    unfold takeSelector
    rw [hl]
    split
    · next hc => simp [hc]
    · next hc => simp [hc]
  cases h with
  | refused code href =>
    have hno : latches p pkt = false := by simp [latches, href]
    rw [hno, Bool.or_false]
    rfl
  | plain href hm => exact hsel href
  | dropped pkt' href hm hbad => exact hsel href
  | maced href hm hok he => exact hsel href
  | decrypted pkt' text href hm hok he => exact hsel href

/-- The reply after a frame was decoded: as it was, or a NAK. -/
theorem Decoded.reply {p : OsdpPd} {pkt : Bytes} {n : Nat}
    {r : DecodeResult} (h : Decoded env p pkt n r) :
    r.pd.replyId = p.replyId ∨ r.pd.replyId = replyNak := by
  cases h with
  | refused code href => exact .inr rfl
  | plain href hm => exact .inl takeSelector_replyId
  | dropped pkt' href hm hbad => exact .inr rfl
  | maced href hm hok he => exact .inl takeSelector_replyId
  | decrypted pkt' text href hm hok he => exact .inl takeSelector_replyId

theorem keepsFlag_osdpScSetup (i : Nat) :
    Keeps KeepsFlag (osdpScSetup env i) := by
  have hf (n : Nat) : Keeps KeepsFlag (osdpFillRandom env n) := by
    intro s a t e
    cases e
    exact ⟨fun _ => rfl, rfl, LogExt.cons rfl⟩
  unfold osdpScSetup
  grind

theorem keepsFlag_pdDecodeScrypt (i : Nat) (data : Bytes) :
    Keeps KeepsFlag (pdDecodeScrypt env i data) := by
  have hc (item : Option Nat) : Keeps KeepsFlag (pdCmdCapOk i item) :=
    (keeps_pdCmdCapOk (R := Handles) i item).mono fun _ _ h => Handles.keepsFlag h
  have hn (c : UInt8) : Keeps KeepsFlag (setNakCode i c) :=
    keeps_updPd fun _ => rfl
  have hs (id : Nat) : Keeps KeepsFlag (setReply i id) :=
    keeps_updPd fun _ => rfl
  unfold pdDecodeScrypt
  grind

variable (hr : ∀ calls, Keeps Quiet (run calls))
include hr

theorem keepsFlag_pdDecodeChlng (i : Nat) (data : Bytes) :
    Keeps KeepsFlag (pdDecodeChlng env run i data) := by
  have hc (item : Option Nat) : Keeps KeepsFlag (pdCmdCapOk i item) :=
    (keeps_pdCmdCapOk (R := Handles) i item).mono fun _ _ h => Handles.keepsFlag h
  have hd : Keeps KeepsFlag (pdScDeactivate env run i) :=
    (keepsKeying_pdScDeactivate hr i).mono fun _ _ h => KeepsKeying.flag h
  have hs : Keeps KeepsFlag (osdpScSetup env i) := keepsFlag_osdpScSetup i
  unfold pdDecodeChlng
  grind

theorem keepsFlag_pdDecodeCases (i id : Nat) (data : Bytes) :
    Keeps KeepsFlag (pdDecodeCases env run i id data) := by
  by_cases hc : id = cmdChlng
  · subst hc
    exact .bind (keepsFlag_pdDecodeChlng hr i data) fun _ => .pure _
  · by_cases hs : id = cmdScrypt
    · subst hs
      exact .bind (keepsFlag_pdDecodeScrypt i data) fun _ => .pure _
    · exact keeps_pdDecodeCases hr i data (fun _ _ h => Handles.keepsFlag h)
        (fun s _ => Frame.updPd s i fun _ => rfl) hc hs

/-- No command changes the flag. -/
theorem keepsFlag_pdDecodeCommand (i : Nat) (payload : Bytes) :
    Keeps KeepsFlag (pdDecodeCommand env run i payload) := by
  have hn (c : UInt8) : Keeps KeepsFlag (replyWithNak i c) :=
    keeps_updPd fun _ => rfl
  have hs (c : UInt8) : Keeps KeepsFlag (setNakCode i c) :=
    keeps_updPd fun _ => rfl
  have hd (id : Nat) (data : Bytes) :
      Keeps KeepsFlag (pdDecodeCases env run i id data) :=
    keepsFlag_pdDecodeCases hr i id data
  unfold pdDecodeCommand
  grind

end Decode

-- ============================================================ the refresh

/-- The entry derives no session keys but from SCBK-D exactly if `b`. -/
def Obs.keyedBy (b : Bool) : Obs → Bool
  | .sessionKeys _ scbkd _ => scbkd == b
  | _ => true

theorem keyedBy_of_noKeys {o : Obs} (b : Bool) (h : o.noKeys) :
    o.keyedBy b := by
  cases o <;> first | rfl | cases h

theorem keyedBy_of_keysBy {o : Obs} {id : Nat} {b c : Bool}
    (h : o.keysBy id b) (hb : id = replyCcrypt → b = c) :
    o.keyedBy c := by
  cases o with
  | sessionKeys j scbkd sc =>
    have h : (id == replyCcrypt && scbkd == b) = true := h
    obtain ⟨h₁, h₂⟩ := Bool.and_eq_true_iff.mp h
    rw [← hb (beq_iff_eq.mp h₁)]
    exact h₂
  | _ => rfl

/-- A REPLY_CCRYPT that is due finds the flag at `b`. -/
def KeysFrom (b : Bool) (s : Osdp) : Prop :=
  (s.pd 0).replyId = replyCcrypt → (s.pd 0).flags.scUseScbkd = b

theorem KeysFrom.still {b : Bool} {s t : Osdp} (h : KeysFrom b s)
    (hs : StillKeyed 0 s t) : KeysFrom b t := by
  intro e
  obtain ⟨hid, hflag⟩ := hs.flag e
  rw [hflag]
  exact h hid

theorem KeysFrom.of_reply {b : Bool} {s : Osdp}
    (h : (s.pd 0).replyId ≠ replyCcrypt) : KeysFrom b s :=
  fun e => absurd e h

section Refresh

variable {env : Env} {run : List ApiCall → OsdpM Unit}

theorem takesChallenge_none {s : Osdp}
    (h : receivedPayload env run 0 s = none) :
    takesChallenge env run s = false := by
  unfold takesChallenge
  rw [h]
  rfl

theorem takesChallenge_of {s v w : Osdp} {payload : Bytes} {ret : Int}
    (h : receivedPayload env run 0 s = some (payload, v))
    (command : pdDecodeCommand env run 0 payload
      { v with
        log := .decoded 0 payload (v.pd 0).flags.scActive :: v.log }
      = .ok ret w) (hid : payloadId payload = cmdChlng)
    (hret : ret = pdErrNone) : takesChallenge env run s = true := by
  unfold takesChallenge
  rw [h, Option.any_some]
  dsimp only
  rw [command, hid, hret]
  rfl

/-- What a refresh without a payload leaves of the choice. -/
theorem lastSelector_keep {x : Refresh} {past : List Refresh}
    (h : receivedPayload env run 0 x.before = none) :
    lastSelector env run (x :: past) = lastSelector env run past := by
  have hno := takesChallenge_none h
  show (if takesChallenge env run x.before then _ else _) = _
  rw [hno]
  rfl

/-- What a refresh that accepted a CMD_CHLNG leaves of it. -/
theorem lastSelector_take {x : Refresh} {past : List Refresh}
    (h : takesChallenge env run x.before = true) :
    lastSelector env run (x :: past) = selectorIn env run x.before :=
  if_pos h

/-- Checking a frame leaves the reply and the flag, or a NAK. -/
theorem stillKeyed_osdpPhyCheckPacket (i : Nat) :
    Keeps (StillKeyed i) (osdpPhyCheckPacket env i) := by
  intro s r t h
  obtain ⟨u, hS, hc⟩ := ends_osdpPhyCheckPacket i s r t h
  have hu := hS.keepsKeying.still i
  unfold SequenceChecked at hc
  split at hc
  · rw [hc]
    refine .of_ordinary ?_ hu.log
    rw [updPd_pd_same]
    rfl
  · rw [hc]
    exact hu

variable (hr : ∀ calls, Keeps Quiet (run calls))
include hr

/-- From a processed frame to the end of the refresh. -/
theorem keysFrom_pdReplyStage {b : Bool} {ret : Int} {s t : Osdp}
    (h : pdReplyStage env run 0 ret s = .ok () t) (hb : KeysFrom b s) :
    KeysFrom b t ∧ LogExt (Obs.keyedBy b) s t := by
  unfold pdReplyStage at h
  obtain ⟨_, u, hu, h⟩ := bind_ok.mp h
  obtain ⟨_, v, hv, h⟩ := bind_ok.mp h
  have hsv : StillKeyed 0 s v :=
    (trans_of KeepsKeying ((ages_pdMarkOnline hr 0).of hu).keepsKeying
      ((ages_pdTouchSession 0 ret).of hv).keepsKeying).still 0
  have hbv := hb.still hsv
  have hsvl := hsv.log.mono fun _ => keyedBy_of_noKeys b
  obtain ⟨p, w, hg, h⟩ := bind_ok.mp h
  obtain ⟨rfl, rfl⟩ := getPd_ok.mp hg
  split at h
  · have hvt := (stillKeyed_pdSendStage hr 0).of h
    exact ⟨hbv.still hvt, trans_of (LogExt (Obs.keyedBy b)) hsvl
      (hvt.log.mono fun _ => keyedBy_of_noKeys b)⟩
  · obtain ⟨built, w, hw, h⟩ := bind_ok.mp h
    have hvw := (ofReply_pdBuildReplyPacket hr 0).of hw
    have hid : (w.pd 0).replyId = (v.pd 0).replyId :=
      congrArg Prod.fst hvw.view
    have hbw : KeysFrom b w := by
      intro e
      rw [hvw.flag]
      exact hbv (hid.symm.trans e)
    have hswl : LogExt (Obs.keyedBy b) s w :=
      trans_of (LogExt (Obs.keyedBy b)) hsvl
        (hvw.log.mono fun _ ho => keyedBy_of_keysBy ho hbv)
    have hwt : StillKeyed 0 w t := by
      split at h
      · exact KeepsKeying.still ((keepsKeying_pdErrorReset hr 0).of h) 0
      · exact (stillKeyed_pdSendStage hr 0).of h
    exact ⟨hbw.still hwt, trans_of (LogExt (Obs.keyedBy b)) hswl
      (hwt.log.mono fun _ => keyedBy_of_noKeys b)⟩

/-- Looking for a frame in a refresh from `x`: what is due next finds the
flag as its handshake selected it. -/
theorem keysFrom_received {x : Refresh} {past : List Refresh}
    {u v w : Osdp} {ret : Int}
    (time : (do pdExpireSession env run 0; pdExpireLink env run 0) x.before
      = .ok () u)
    (free : (u.pd 0).replyPrebuilt = false)
    (listen : pdListen 0 u = .ok () v) (h : Received env run 0 v ret w)
    (hok : selectorOk env run x.before = true)
    (hb : KeysFrom (lastSelector env run past) v) :
    KeysFrom (lastSelector env run (x :: past)) w ∧
      LogExt Obs.noKeys v w := by
  cases h with
  | @none err y _ hne check reset skip =>
    have hno := receivedFrame_eq time free listen check
    rw [if_neg hne] at hno
    rw [lastSelector_keep (receivedPayload_none hno)]
    have hvy : StillKeyed 0 v y :=
      (stillKeyed_osdpPhyCheckPacket 0).of check
    rcases reset with rfl | hreset
    · exact ⟨hb.still hvy, hvy.log⟩
    · have hyw := KeepsKeying.still
        ((keepsKeying_osdpPhyStateReset 0).of hreset) 0
      exact ⟨(hb.still hvy).still hyw, trans_of (LogExt _) hvy.log hyw.log⟩
  | @refused len payload y _ check hlen decode =>
    have hframe := receivedFrame_of time free listen check
    have hno := receivedPayload_refused hframe hlen decode
    rw [lastSelector_keep hno]
    have hvy : StillKeyed 0 v y :=
      (stillKeyed_osdpPhyCheckPacket 0).of check
    have hby := hb.still hvy
    obtain ⟨r, hdec, -, -, hpd, -, hlog⟩ := osdpPhyDecodePacket_ok decode
    have hD := decoded_of hdec
    refine ⟨fun e => ?_, trans_of (LogExt _) hvy.log ⟨[], hlog, by simp⟩⟩
    have hid : (y.pd 0).replyId = replyCcrypt := by
      rw [hpd] at e
      rcases hD.reply with hr | hr
      · rw [← hr, e]
      · rw [hr] at e
        cases e
    -- the leftover reply keeps its handshake's flag, by the condition
    have hc : (y.pd 0).flags.scUseScbkd = true ∨
        latches (y.pd 0) (y.frameBuf 0) = false := by
      unfold selectorOk at hok
      rw [hframe, takesChallenge_none hno, hno] at hok
      simpa [hid] using hok
    rw [hpd, hD.flag, ← hby hid]
    rcases hc with hc | hc
    · rw [hc, Bool.true_or]
    · rw [hc, Bool.or_false]
  | @decoded len _ payload y z w check hlen decode command =>
    have hframe := receivedFrame_of time free listen check
    have hpay := receivedPayload_of hframe hlen decode
    have hvy : StillKeyed 0 v y :=
      (stillKeyed_osdpPhyCheckPacket 0).of check
    obtain ⟨r, hdec, -, -, hpd, -, hlog⟩ := osdpPhyDecodePacket_ok decode
    have hD := decoded_of hdec
    have hzw := (keepsFlag_pdDecodeCommand hr 0 payload).of command
    have hflag : (w.pd 0).flags.scUseScbkd
        = ((y.pd 0).flags.scUseScbkd || latches (y.pd 0) (y.frameBuf 0)) := by
      have hw : flagView (w.pd 0) = flagView (z.pd 0) := hzw.pd 0
      have hz : flagView (z.pd 0) = flagView r.pd := congrArg flagView hpd
      exact (hw.trans hz).trans hD.flag
    have hlog' : LogExt Obs.noKeys v
        { w with log := .verdict 0 payload ret :: w.log } := by
      have hyz : LogExt Obs.noKeys y z := ⟨[], hlog, by simp⟩
      exact trans_of (LogExt _) hvy.log (trans_of (LogExt _) hyz
        (trans_of (LogExt _) (LogExt.cons rfl)
          (trans_of (LogExt _) hzw.log (LogExt.cons rfl))))
    refine ⟨?_, hlog'⟩
    cases pdDecodeCommand_step hr command with
    | challenge hid hret log reply hcp =>
      have htake := takesChallenge_of hpay command hid hret
      rw [lastSelector_take htake]
      intro _
      show (w.pd 0).flags.scUseScbkd = selectorIn env run x.before
      unfold selectorOk at hok
      rw [hframe, htake] at hok
      unfold selectorIn
      rw [hflag, hframe]
      simp only [Option.all_some, Option.any_some, if_true] at hok ⊢
      cases hf : (y.pd 0).flags.scUseScbkd <;> simp_all
    | scrypt hid hret still reply hact hlen' hmet =>
      refine .of_reply ?_
      show (w.pd 0).replyId ≠ replyCcrypt
      rw [reply]
      decide
    | other hno still ord =>
      refine .of_reply fun e => ?_
      have e : (w.pd 0).replyId = replyCcrypt := e
      rw [e] at ord
      cases ord

/-- One refresh. -/
theorem keysFrom_osdpPdUpdate {s t : Osdp} {past : List Refresh}
    (h : osdpPdUpdate env run 0 s = .ok () t)
    (hok : selectorOk env run s = true)
    (hb : KeysFrom (lastSelector env run past) s) :
    KeysFrom (lastSelector env run (⟨s, t⟩ :: past)) t ∧
      KeysAsSelected env run ⟨s, t⟩ past := by
  obtain ⟨u, hu, hserved⟩ := refresh_cases h
  have hage : Keeps Ages (do
      pdExpireSession env run 0
      pdExpireLink env run 0) :=
    .bind (ages_pdExpireSession hr 0) fun _ => ages_pdExpireLink hr 0
  have hsu : StillKeyed 0 s u :=
    KeepsKeying.still (Ages.keepsKeying (hage.of hu)) 0
  have hbu := hb.still hsu
  suffices hgoal : KeysFrom (lastSelector env run (⟨s, t⟩ :: past)) t ∧
      LogExt (Obs.keyedBy (lastSelector env run (⟨s, t⟩ :: past))) u t by
    refine ⟨hgoal.1, fun scbkd sc hmem => ?_⟩
    obtain ⟨l, hl, hE⟩ := trans_of (LogExt (Obs.keyedBy _))
      (hsu.log.mono fun _ => keyedBy_of_noKeys _) hgoal.2
    rw [added_eq hl] at hmem
    exact beq_iff_eq.mp (hE _ hmem)
  cases hserved with
  | parked hp send =>
    have hno : receivedPayload env run 0 s = none := by
      refine receivedPayload_none ?_
      unfold receivedFrame
      rw [hu]
      exact if_pos hp
    rw [lastSelector_keep (x := ⟨s, t⟩) hno]
    have hut := (stillKeyed_pdSendStage hr 0).of send
    exact ⟨hbu.still hut, hut.log.mono fun _ => keyedBy_of_noKeys _⟩
  | @received v w ret hp listen got rest =>
    have huv : StillKeyed 0 u v := by
      have hk : Keeps KeepsKeying (pdListen 0) := by
        have ho : Keeps KeepsKeying (observe (.receive 0)) :=
          keeps_observe rfl
        unfold pdListen
        grind
      exact KeepsKeying.still (hk.of listen) 0
    obtain ⟨hbw, hvw⟩ := keysFrom_received (x := ⟨s, t⟩) hr hu hp listen got
      hok (hbu.still huv)
    have huw : LogExt Obs.noKeys u w := trans_of (LogExt _) huv.log hvw
    have hlog : LogExt (Obs.keyedBy
        (lastSelector env run (⟨s, t⟩ :: past))) u w :=
      huw.mono fun _ => keyedBy_of_noKeys _
    rcases rest with ⟨-, rfl⟩ | ⟨-, hreset⟩ | ⟨ha, hreply⟩
    · exact ⟨hbw, hlog⟩
    · have hwt := KeepsKeying.still
        ((keepsKeying_pdErrorReset hr 0).of hreset) 0
      exact ⟨hbw.still hwt, trans_of (LogExt _) hlog
        (hwt.log.mono fun _ => keyedBy_of_noKeys _)⟩
    · obtain ⟨hbt, hwt⟩ := keysFrom_pdReplyStage hr hreply hbw
      exact ⟨hbt, trans_of (LogExt _) hlog hwt⟩

end Refresh

-- ================================================================ the run

section Run

variable {env : Env} {depth : Nat}

/-- What every refresh of a run has to meet. -/
def selectorInput (env : Env) (depth : Nat) (s : Osdp) : PdInput → Bool
  | .refresh now rx =>
    s.tearingDown || s.running ||
      selectorOk env (pdRunCalls env depth) (s.begin now rx)
  | _ => true

/-- The refreshes so far derived their keys as their handshakes asked for,
and so will the next. -/
structure KeyedInv (env : Env) (depth : Nat) (past : List Refresh)
    (s : Osdp) : Prop where
  done : Always (KeysAsSelected env (pdRunCalls env depth)) past
  next : KeysFrom (lastSelector env (pdRunCalls env depth) past) s

theorem KeyedInv.still {past : List Refresh} {s t : Osdp}
    (h : KeyedInv env depth past s) (hs : StillKeyed 0 s t) :
    KeyedInv env depth past t :=
  ⟨h.done, h.next.still hs⟩

/-- Every run that meets the condition carries it. -/
theorem watch_keyedInv :
    PdWatch env depth (selectorInput env depth) (KeyedInv env depth) where
  congr _ _ _ hpd _ _ h := by
    refine ⟨h.done, fun e => ?_⟩
    rw [hpd] at e ⊢
    exact h.next e
  quiet _ _ _ hq h := h.still (hq.keepsKeying.still 0)
  configures _ s t hc h := by
    have hk : KeepsKeying s t :=
      hc.view keyingView (fun _ => rfl) fun _ e => by cases e
    exact h.still (hk.still 0)
  refresh past s t now rx htd hrun hok hu h := by
    have hsel : selectorOk env (pdRunCalls env depth) (s.begin now rx)
        = true := by
      simpa [selectorInput, htd, hrun] using hok
    obtain ⟨hnext, hkeys⟩ := keysFrom_osdpPdUpdate
      (quiet_pdRunCalls env depth) hu hsel h.next
    exact ⟨⟨hkeys, h.done⟩, hnext⟩

/-- Where a run begins no reply is due. -/
theorem keyedInv_setup {info : PdInfo} {s : Osdp}
    (h : osdpPdSetup env info = some s) : KeyedInv env depth [] s := by
  refine ⟨trivial, .of_reply fun e => ?_⟩
  have hid := congrArg OsdpPd.replyId (osdpPdSetup_pd h 0)
  have hid : (s.pd 0).replyId = 0 := hid
  rw [hid] at e
  cases e

/-- **Key selection on the PD.**  In a run in which no accepted CMD_CHLNG
that asks for the stored key finds PD_FLAG_SC_USE_SCBKD set, and no frame
without a payload sets it while a REPLY_CCRYPT is left over, all session
keys derive from SCBK-D exactly if the CMD_CHLNG of their handshake
selected it, in install mode. -/
theorem pd_keys_as_selected {info : PdInfo} {s t : Osdp}
    {l : List PdInput} (hs : osdpPdSetup env info = some s)
    (hrun : PdRun env depth (selectorInput env depth) s l t) :
    Always (KeysAsSelected env (pdRunCalls env depth))
      (runRefreshes env depth l s) :=
  (watch_keyedInv.run (fun _ _ h => h.done) hrun (keyedInv_setup hs)).past

end Run

-- =============================================================== examples

/-- Session keys were derived from SCBK-D exactly if `b`. -/
def Refresh.derives (x : Refresh) (b : Bool) : Bool :=
  (added x.before x.after).any fun
    | .sessionKeys j scbkd _ => j == 0 && scbkd == b
    | _ => false

/-- A handshake with the stored key is such a run. -/
theorem pd_keys_as_selected_handshake :
    ∃ s t, osdpPdSetup handshakeEnv keyedPd = some s ∧
      PdRun handshakeEnv 1 (selectorInput handshakeEnv 1) s handshakeInputs
        t ∧
      (runRefreshes handshakeEnv 1 handshakeInputs s).any (·.derives false)
        = true ∧
      Always (KeysAsSelected handshakeEnv (pdRunCalls handshakeEnv 1))
        (runRefreshes handshakeEnv 1 handshakeInputs s) := by
  obtain ⟨s, t, hs, hrun, -⟩ := pdRun_of_setup handshakeEnv 1
    (selectorInput handshakeEnv 1) keyedPd handshakeInputs
    (fun _ => True) (by decide +kernel)
  have hkeys : (osdpPdSetup handshakeEnv keyedPd).all (fun s =>
      (runRefreshes handshakeEnv 1 handshakeInputs s).any (·.derives false))
      = true := by decide +kernel
  rw [hs] at hkeys
  exact ⟨s, t, hs, hrun, hkeys, pd_keys_as_selected hs hrun⟩

/-- A PD with a key of its own, in install mode. -/
def installPd : PdInfo := { keyedPd with installMode := true }

/-- A challenge that selects SCBK-D, and then one that selects the stored
key. -/
def rechallengeInputs : List PdInput :=
  [.refresh 0 (writeBe 19 0x530113000C03110076B0B1B2B3B4B5B6B7769A),
   .refresh 1 (writeBe 19 0x530113000C03110176B0B1B2B3B4B5B6B733F5)]

/-- The second challenge is keyed with SCBK-D as well. -/
theorem pd_rechallenge_keeps_scbkd :
    ¬ ∀ (env : Env) (depth : Nat) (info : PdInfo) (s t : Osdp)
        (l : List PdInput), osdpPdSetup env info = some s →
      PdRun env depth anyInput s l t →
      Always (KeysAsSelected env (pdRunCalls env depth))
        (runRefreshes env depth l s) := by
  intro hall
  obtain ⟨s, t, hs, hrun, -⟩ := pdRun_of_setup handshakeEnv 1 anyInput
    installPd rechallengeInputs (fun _ => True) (by decide +kernel)
  have hbad : (osdpPdSetup handshakeEnv installPd).all (fun s =>
      let h := runRefreshes handshakeEnv 1 rechallengeInputs s
      (h.head?.any (·.derives true)) &&
        !lastSelector handshakeEnv (pdRunCalls handshakeEnv 1) h)
      = true := by decide +kernel
  rw [hs] at hbad
  have hkeys := hall handshakeEnv 1 installPd s t _ hs hrun
  cases hh : runRefreshes handshakeEnv 1 rechallengeInputs s with
  | nil =>
    rw [Option.all_some, hh] at hbad
    cases hbad
  | cons x past =>
    rw [Option.all_some, hh] at hbad
    rw [hh] at hkeys
    obtain ⟨hd, hlast⟩ := Bool.and_eq_true_iff.mp hbad
    obtain ⟨o, ho, hsel⟩ := List.any_eq_true.mp hd
    cases o with
    | sessionKeys j scbkd sc =>
      have hsel : (j == 0 && scbkd == true) = true := hsel
      obtain ⟨hj, hb⟩ := Bool.and_eq_true_iff.mp hsel
      rw [beq_iff_eq.mp hj, beq_iff_eq.mp hb] at ho
      have hlast : (!lastSelector handshakeEnv
        (pdRunCalls handshakeEnv 1) (x :: past)) = true := hlast
      rw [← hkeys.1 true sc ho] at hlast
      cases hlast
    | _ => cases hsel

end LibOsdp
