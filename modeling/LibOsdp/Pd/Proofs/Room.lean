/-
The PD's transmit buffer keeps its size.

The model's buffers are lists, and a store past the end of one would make
it longer instead of hitting what lies behind it.  `Roomy` says the weak
half of what an array guarantees: no step shortens the buffer, so from
`osdp_pd_setup` on it has its `OSDP_PACKET_BUF_SIZE` bytes.  That is what
lets a packet be read back from where it was stored.

Every move the layers name is within `Roomy`, so most of this module is
instances; what is left are the functions that build a reply, which no
class covers.
-/
import LibOsdp.Cp.Proofs.Footprint
import LibOsdp.Pd.Proofs.Stages
import LibOsdp.Pd.Proofs.Run

namespace LibOsdp

open Lib

-- ================================================================= moves

instance : NoticeMoves Roomy where
  engines _ _ _ _ := Nat.le_refl _
  fileOp _ _ _ := Nat.le_refl _
  notice _ _ _ := Nat.le_refl _
  release _ _ := Nat.le_refl _

instance : BusMoves Roomy where
  call _ _ _ _ := Nat.le_refl _
  enable _ _ _ := Nat.le_refl _
  disable _ _ := Nat.le_refl _
  note _ _ _ := Nat.le_refl _
  running _ _ := Nat.le_refl _
  entry _ _ _ := Nat.le_refl _
  txBuf s off data := PacketMoves.txBuf (R := Roomy) s off data
  flush _ := Nat.le_refl _
  drawn _ _ := Nat.le_refl _

instance (i : Nat) : ReadMoves i Roomy where
  read _ _ _ := Nat.le_refl _
  rxBuf _ _ := Nat.le_refl _
  line _ _ := Nat.le_refl _

instance (i : Nat) : PassMoves i Roomy where
  pass _ _ _ _ := Nat.le_refl _
  letGo _ _ _ _ := Nat.le_refl _

instance (i : Nat) : MarkMoves i Roomy where
  mark _ _ _ := Nat.le_refl _

section Room

variable {env : Env} {run : List ApiCall → OsdpM Unit}

-- ============================================================ primitives

/-- Nothing done to a PD reaches the buffer. -/
@[grind ←]
theorem roomy_updPd (i : Nat) (f : OsdpPd → OsdpPd) :
    Keeps Roomy (updPd i f) := by
  intro s a t e
  cases e
  exact Nat.le_refl _

@[grind ←]
theorem roomy_setReply (i id : Nat) : Keeps Roomy (setReply i id) :=
  roomy_updPd i _

@[grind ←]
theorem roomy_setNakCode (i : Nat) (c : UInt8) :
    Keeps Roomy (setNakCode i c) :=
  roomy_updPd i _

@[grind ←]
theorem roomy_observe (o : Obs) : Keeps Roomy (observe o) := by
  intro s a t e
  cases e
  exact Nat.le_refl _

@[grind ←]
theorem roomy_osdpFillRandom (n : Nat) :
    Keeps Roomy (osdpFillRandom env n) :=
  pass_osdpFillRandom n

/-- A frame that looks at the whole context keeps the buffer. -/
theorem Frame.roomy {V : Type} {v : OsdpPd → V} {E : Obs → Bool}
    {s t : Osdp} (h : Frame v id E s t) : Roomy s t := by
  have e := congrArg Osdp.txBuf h.rest
  exact roomy_of_eq e

@[grind ←]
theorem roomy_pdSendReply (i : Nat) : Keeps Roomy (pdSendReply env i) := by
  have hs (len : Nat) : Keeps Roomy (osdpPhySendPacket env i len) :=
    pass_osdpPhySendPacket len
  unfold pdSendReply
  grind

@[grind ←]
theorem roomy_osdpScSetup (i : Nat) : Keeps Roomy (osdpScSetup env i) := by
  unfold osdpScSetup
  grind

theorem roomy_pdDecodeScrypt (i : Nat) (data : Bytes) :
    Keeps Roomy (pdDecodeScrypt env i data) := by
  have hc : Keeps Roomy (pdCmdCapOk i none) :=
    (keeps_pdCmdCapOk (R := Handles) i none).mono fun _ _ => Handles.room
  unfold pdDecodeScrypt
  grind

@[grind ←]
theorem roomy_buildCcrypt (i : Nat) (smb : Option Nat) (maxLen : Int) :
    Keeps Roomy (buildCcrypt env i smb maxLen) := by
  have hk : Keeps Roomy (osdpComputeSessionKeys env i) := by
    unfold osdpComputeSessionKeys
    grind
  unfold buildCcrypt
  cases smb with
  | none => exact .pure _
  | some smb =>
    dsimp only
    split
    · exact .pure _
    · refine .bind (roomy_osdpFillRandom 8) fun r =>
        .bind (roomy_updPd i _) fun _ => .bind hk fun _ => ?_
      grind

variable (hr : ∀ calls, Keeps Quiet (run calls))
include hr

theorem roomy_run (calls : List ApiCall) : Keeps Roomy (run calls) :=
  (hr calls).mono fun _ _ => Frame.roomy

@[grind ←]
theorem roomy_pdScDeactivate (i : Nat) :
    Keeps Roomy (pdScDeactivate env run i) :=
  (ages_pdScDeactivate hr i).mono fun _ _ => Frame.roomy

@[grind ←]
theorem roomy_pdCompleteActive (i : Nat) (st : CompletionStatus) :
    Keeps Roomy (pdCompleteActive env run i st) :=
  (completes_pdCompleteActive hr i st).mono fun _ _ => Frame.roomy

-- ============================================================== decoding

theorem roomy_pdDecodeChlng (i : Nat) (data : Bytes) :
    Keeps Roomy (pdDecodeChlng env run i data) := by
  have hc : Keeps Roomy (pdCmdCapOk i none) :=
    (keeps_pdCmdCapOk (R := Handles) i none).mono fun _ _ => Handles.room
  unfold pdDecodeChlng
  grind

@[grind ←]
theorem roomy_pdDecodeCases (i id : Nat) (data : Bytes) :
    Keeps Roomy (pdDecodeCases env run i id data) := by
  by_cases hc : id = cmdChlng
  · subst hc
    exact .bind (roomy_pdDecodeChlng hr i data) fun _ => .pure _
  · by_cases hs : id = cmdScrypt
    · subst hs
      exact .bind (roomy_pdDecodeScrypt i data) fun _ => .pure _
    · exact keeps_pdDecodeCases hr i data (fun _ _ => Handles.room)
        (fun _ _ => Nat.le_refl _) hc hs

@[grind ←]
theorem roomy_pdDecodeCommand (i : Nat) (payload : Bytes) :
    Keeps Roomy (pdDecodeCommand env run i payload) := by
  have hn (c : UInt8) : Keeps Roomy (replyWithNak i c) := roomy_updPd i _
  unfold pdDecodeCommand
  grind

omit hr in
@[grind ←]
theorem roomy_osdpPhyStateReset (i : Nat) :
    Keeps Roomy (osdpPhyStateReset env i false) :=
  pass_osdpPhyStateReset false

omit hr in
@[grind ←]
theorem roomy_osdpPhyDecodePacket (i : Nat) :
    Keeps Roomy (osdpPhyDecodePacket env i) := by
  have hw (ref : BufRef) (off : Nat) (d : Bytes) :
      Keeps Roomy (writeBuf ref off d) := read_writeBuf i ref off d
  unfold osdpPhyDecodePacket
  refine .bind (keeps_getPd i) fun p => .bind (keeps_readBuf _) fun buf => ?_
  split
  · exact .throw _
  · grind

/-- Looking for a frame, and handling what it says. -/
@[grind ←]
theorem roomy_pdReceiveAndProcessCommand (i : Nat) :
    Keeps Roomy (pdReceiveAndProcessCommand env run i) := by
  have hc : Keeps Roomy (osdpPhyCheckPacket env i) :=
    read_osdpPhyCheckPacket
  have hl : Keeps Roomy (pdListen i) := by
    unfold pdListen
    grind
  have hp : Keeps Roomy (pdProcessFrame env run i) := by
    unfold pdProcessFrame
    grind
  unfold pdReceiveAndProcessCommand
  grind

-- =============================================================== building

@[grind ←]
theorem roomy_buildRmacI (i : Nat) (smb : Option Nat) (maxLen : Int) :
    Keeps Roomy (buildRmacI env run i smb maxLen) := by
  have hn : Keeps Roomy (notifyScStatus env run i) :=
    (keeps_notifyScStatus hr i).mono fun _ _ => Frame.roomy
  have ha : Keeps Roomy (scActivate i) := by
    unfold scActivate
    grind
  unfold buildRmacI
  cases smb with
  | none => exact .pure _
  | some smb =>
    dsimp only
    split
    · exact .pure _
    · refine .bind (roomy_updPd i _) fun _ => .bind (keeps_getPd i) fun p =>
        .bind (keeps_writeBuf_tx _ _) fun _ => .bind ha fun _ =>
        .bind hn fun _ => ?_
      grind

theorem roomy_osdpMpPdNotify (i : Nat) (phase : MpPhase) (g : MpProgress) :
    Keeps Roomy (osdpMpPdNotify env run i phase g) :=
  keeps_osdpMpPdNotify (roomy_run hr) i phase g

@[grind ←]
theorem roomy_buildBioreadr (i : Nat) (ev : Option OsdpEvent)
    (maxLen : Int) : Keeps Roomy (buildBioreadr env run i ev maxLen) := by
  have hb (seed : Option BioReadr) :
      Keeps Roomy (osdpBioPdReplyBuild env run i seed maxLen) :=
    keeps_osdpBioPdReplyBuild (roomy_osdpMpPdNotify hr) i seed maxLen
  unfold buildBioreadr
  grind

/-- Any reply: by cases on the id. -/
@[grind ←]
theorem roomy_pdBuildCases (i id : Nat) (ev : Option OsdpEvent)
    (smb : Option Nat) (maxLen : Int) :
    Keeps Roomy (pdBuildCases env run i id ev smb maxLen) := by
  have hpiv (seed : Option (Nat × Bytes)) :
      Keeps Roomy (osdpPivPdReplyBuild env run i seed maxLen) :=
    keeps_osdpPivPdReplyBuild (roomy_osdpMpPdNotify hr) i seed maxLen
  have hfile : Keeps Roomy (osdpFileCmdStatBuild env run i maxLen) :=
    keeps_osdpFileCmdStatBuild (roomy_osdpMpPdNotify hr) i maxLen
  unfold pdBuildCases
  refine .bind (keeps_getPd i) fun p => ?_
  split
  all_goals first
    | exact .throw _
    | grind

@[grind ←]
theorem roomy_pdBuildReply (i size : Nat) :
    Keeps Roomy (pdBuildReply env run i size) := by
  have hd (p : OsdpPd) (smb : Option Nat) (maxLen : Int) :
      Keeps Roomy (pdBuildData env run i p smb maxLen) := by
    unfold pdBuildData
    grind
  have hf (off : Nat) (smb : Option Nat) (maxLen : Int)
      (body : Option Bytes) :
      Keeps Roomy (pdFinishReply env run i off smb maxLen body) := by
    unfold pdFinishReply
    grind
  unfold pdBuildReply pdBuildBody
  grind

@[grind ←]
theorem roomy_pdBuildReplyPacket (i : Nat) :
    Keeps Roomy (pdBuildReplyPacket env run i) := by
  have hs (len : Nat) : Keeps Roomy (pdStage i len) := roomy_updPd i _
  have hd (len : Nat) : Keeps Roomy (pdStaged i len) := roomy_updPd i _
  unfold pdBuildReplyPacket
  refine .bind (keeps_getPd i) fun p => ?_
  refine .bind (roomy_updPd i _) fun _ => ?_
  refine .bind (keeps_osdpPhyPacketInit i _) fun hdr => ?_
  grind

-- ============================================================ the refresh

@[grind ←]
theorem roomy_doCommandCallback (i : Nat) (cmd : OsdpCmd) :
    Keeps Roomy (doCommandCallback env run i cmd) :=
  (handles_doCommandCallback hr i cmd).mono fun _ _ => Handles.room

/-- From the finalized reply to the end of the refresh. -/
@[grind ←]
theorem roomy_pdSendStage (i : Nat) :
    Keeps Roomy (pdSendStage env run i) := by
  have hc : Keeps Roomy (pdCommit env run i) := by
    unfold pdCommit pdCommitKeyset pdCommitComset
    grind
  have hp : Keeps Roomy (osdpPhyProgressSequence i) := roomy_updPd i _
  unfold pdSendStage
  grind

/-- No refresh shortens the buffer. -/
theorem roomy_osdpPdUpdate (i : Nat) :
    Keeps Roomy (osdpPdUpdate env run i) := by
  have hx : Keeps Roomy (pdExpireSession env run i) :=
    (ages_pdExpireSession hr i).mono fun _ _ => Frame.roomy
  have hl : Keeps Roomy (pdExpireLink env run i) :=
    (ages_pdExpireLink hr i).mono fun _ _ => Frame.roomy
  have hm : Keeps Roomy (pdMarkOnline env run i) :=
    (ages_pdMarkOnline hr i).mono fun _ _ => Frame.roomy
  have ht (ret : Int) : Keeps Roomy (pdTouchSession i ret) := by
    unfold pdTouchSession
    grind
  have he : Keeps Roomy (pdErrorReset env run i) := by
    unfold pdErrorReset
    grind
  have hrep (ret : Int) : Keeps Roomy (pdReplyStage env run i ret) := by
    unfold pdReplyStage
    grind
  unfold osdpPdUpdate pdServe
  grind

end Room

end LibOsdp
