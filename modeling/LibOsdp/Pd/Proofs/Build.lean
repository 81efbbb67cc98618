/-
What building and sending a reply can change on a PD.

`Packs` is the frame of building an ordinary reply: the packet, the
active event, and `Quiet`.  `Builds` is the frame of building any reply:
CCRYPT and RMAC_I also draw the PD's random number, derive the session
keys and raise the session.  Neither touches the command id, the reply id
or what is parked in the union, which is why the commit after the send
still sees the exchange that was decoded.
-/
import LibOsdp.Pd.Proofs.Handles

namespace LibOsdp

open Lib

-- ================================================================= frames

/-- A PD without what building an ordinary reply may change. -/
@[grind] def OsdpPd.sansBuild (p : OsdpPd) : OsdpPd :=
  { p.sansApp with
    activeEvent := none
    packetBuf := .tx
    packetBufLen := 0
    phyTxSeq := 0
    flags := { p.flags with pktBroadcast := false, pktHasMark := false }
    sc := { p.sc with rMac := [], cMac := [] } }

/-- The context without what any PD function stores outside its PD. -/
def Osdp.sansBufs (s : Osdp) : Osdp := { s with txBuf := [] }

/-- An ordinary reply was built. -/
abbrev Packs : Osdp → Osdp → Prop :=
  Frame OsdpPd.sansBuild Osdp.sansBufs Obs.isApp

theorem sansBuild_of_sansApp {p q : OsdpPd} (h : p.sansApp = q.sansApp) :
    p.sansBuild = q.sansBuild := by
  have e := congrArg OsdpPd.sansBuild h
  exact e

theorem sansBuild_of_sansPacket {p q : OsdpPd}
    (h : p.sansPacket = q.sansPacket) : p.sansBuild = q.sansBuild := by
  have e := congrArg OsdpPd.sansBuild h
  exact e

theorem packs_of_quiet {α : Type} {m : OsdpM α} (h : Keeps Quiet m) :
    Keeps Packs m :=
  h.mono fun _ _ q => q.mono (fun _ _ => sansBuild_of_sansApp)
    (fun _ _ => congrArg Osdp.sansBufs) fun _ => id

instance : PacketMoves Packs where
  packet _ _ _ h := Frame.updPd _ _ fun p => sansBuild_of_sansPacket (h p)
  txBuf _ _ _ := ⟨fun _ => rfl, rfl, refl_of (LogExt _) _⟩

instance : EngineMoves Packs where
  engines _ _ _ h := Frame.updPd _ _ fun p =>
    sansBuild_of_sansApp (sansApp_of_sansEngines (h p))
  fileOp _ _ _ := ⟨fun _ => rfl, rfl, LogExt.cons rfl⟩

/-- A PD without what handing back its active event may change. -/
@[grind] def OsdpPd.sansActive (p : OsdpPd) : OsdpPd :=
  { p.sansApp with activeEvent := none }

/-- The active event was handed back. -/
abbrev Completes : Osdp → Osdp → Prop :=
  Frame OsdpPd.sansActive id Obs.isApp

/-- A PD without what building any reply may change. -/
@[grind] def OsdpPd.sansAnyBuild (p : OsdpPd) : OsdpPd :=
  { p.sansBuild with
    replyPrebuilt := false
    scTstamp := 0
    flags :=
      { p.flags with
        pktBroadcast := false, pktHasMark := false, scActive := false }
    sc := { scbk := p.sc.scbk } }

/-- The context without what building any reply may change. -/
def Osdp.sansDrawn (s : Osdp) : Osdp := { s with txBuf := [], drawn := 0 }

/-- The entries made while a reply is built. -/
@[grind] def Obs.isBuilding : Obs → Bool
  | .random .. | .sessionKeys .. | .scActivated _ => true
  | o => o.isApp

/-- A reply was built. -/
abbrev Builds : Osdp → Osdp → Prop :=
  Frame OsdpPd.sansAnyBuild Osdp.sansDrawn Obs.isBuilding

theorem sansAnyBuild_of_sansBuild {p q : OsdpPd}
    (h : p.sansBuild = q.sansBuild) : p.sansAnyBuild = q.sansAnyBuild := by
  have e := congrArg OsdpPd.sansAnyBuild h
  exact e

theorem builds_of_packs {α : Type} {m : OsdpM α} (h : Keeps Packs m) :
    Keeps Builds m := by
  refine h.mono fun _ _ q => q.mono (fun _ _ => sansAnyBuild_of_sansBuild)
    (fun _ _ e => ?_) fun o ho => ?_
  · have e := congrArg Osdp.sansDrawn e
    exact e
  · cases o <;> first | exact ho | rfl

-- ========================================================= the data block

section Build

variable {env : Env} {run : List ApiCall → OsdpM Unit}
variable (hr : ∀ calls, Keeps Quiet (run calls))

section Common

variable {R : Osdp → Osdp → Prop} [PacketMoves R]

@[grind ←]
theorem keeps_pdPickBlockType (i : Nat) (smb : Option Nat) (len : Nat) :
    Keeps R (pdPickBlockType i smb len) := by
  unfold pdPickBlockType
  grind

end Common

include hr

theorem packs_osdpMpPdNotify (i : Nat) (phase : MpPhase) (g : MpProgress) :
    Keeps Packs (osdpMpPdNotify env run i phase g) :=
  packs_of_quiet (keeps_osdpMpPdNotify hr i phase g)

theorem completes_pdCompleteActive (i : Nat) (st : CompletionStatus) :
    Keeps Completes (pdCompleteActive env run i st) := by
  have hc (ev : Option SubmittedEvent) :
      Keeps Completes (pdCompleteEvent env run ev st) :=
    (keeps_pdCompleteEvent hr ev st).mono fun _ _ q =>
      q.mono (fun p q e => by
        have e := congrArg OsdpPd.sansActive e
        exact e) (fun _ _ => id) fun _ => id
  unfold pdCompleteActive
  grind

@[grind ←]
theorem packs_pdCompleteActive (i : Nat) (st : CompletionStatus) :
    Keeps Packs (pdCompleteActive env run i st) :=
  (completes_pdCompleteActive hr i st).mono fun _ _ q =>
    q.mono (fun p q e => by
      have e := congrArg OsdpPd.sansBuild e
      exact e) (fun _ _ => congrArg Osdp.sansBufs) fun _ => id

@[grind ←]
theorem packs_pdFinishReply (i off : Nat) (smb : Option Nat) (maxLen : Int)
    (body : Option Bytes) :
    Keeps Packs (pdFinishReply env run i off smb maxLen body) := by
  unfold pdFinishReply
  grind

@[grind ←]
theorem packs_buildBioreadr (i : Nat) (ev : Option OsdpEvent)
    (maxLen : Int) : Keeps Packs (buildBioreadr env run i ev maxLen) := by
  have hb (seed : Option BioReadr) :
      Keeps Packs (osdpBioPdReplyBuild env run i seed maxLen) :=
    keeps_osdpBioPdReplyBuild (packs_osdpMpPdNotify hr) i seed maxLen
  unfold buildBioreadr
  grind

/-- Every reply but the two of the handshake: by cases on the id. -/
theorem packs_pdBuildCases (i : Nat) {id : Nat} (ev : Option OsdpEvent)
    (smb : Option Nat) (maxLen : Int) (h : hsReply id = false) :
    Keeps Packs (pdBuildCases env run i id ev smb maxLen) := by
  have hpiv (seed : Option (Nat × Bytes)) :
      Keeps Packs (osdpPivPdReplyBuild env run i seed maxLen) :=
    keeps_osdpPivPdReplyBuild (packs_osdpMpPdNotify hr) i seed maxLen
  have hfile : Keeps Packs (osdpFileCmdStatBuild env run i maxLen) :=
    keeps_osdpFileCmdStatBuild (packs_osdpMpPdNotify hr) i maxLen
  unfold pdBuildCases
  refine .bind (keeps_getPd i) fun p => ?_
  split
  all_goals first
    | exact absurd h (by decide)
    | skip
  all_goals grind

@[grind ←]
theorem packs_pdBuildData (i : Nat) {p : OsdpPd} (smb : Option Nat)
    (maxLen : Int) (h : hsReply p.replyId = false) :
    Keeps Packs (pdBuildData env run i p smb maxLen) := by
  have hcases (ev : Option OsdpEvent) :
      Keeps Packs (pdBuildCases env run i p.replyId ev smb maxLen) :=
    packs_pdBuildCases hr i ev smb maxLen h
  unfold pdBuildData
  grind

theorem packs_pdBuildBody (i size : Nat) {p : OsdpPd}
    (h : hsReply p.replyId = false) :
    Keeps Packs (pdBuildBody env run i size p) := by
  unfold pdBuildBody
  grind

-- ===================================================== handshake replies

omit hr in
@[grind ←]
theorem builds_osdpFillRandom (n : Nat) :
    Keeps Builds (osdpFillRandom env n) := by
  intro s r t e
  cases e
  exact ⟨fun _ => rfl, rfl, LogExt.cons rfl⟩

omit hr in
@[grind ←]
theorem builds_osdpComputeSessionKeys (i : Nat) :
    Keeps Builds (osdpComputeSessionKeys env i) := by
  unfold osdpComputeSessionKeys
  refine .bind (keeps_updPd fun _ => rfl) fun _ => ?_
  grind

omit hr in
@[grind ←]
theorem builds_writeBuf (off : Nat) (data : Bytes) :
    Keeps Builds (writeBuf .tx off data) :=
  builds_of_packs (keeps_writeBuf_tx off data)

omit hr in
theorem builds_buildCcrypt (i : Nat) (smb : Option Nat) (maxLen : Int) :
    Keeps Builds (buildCcrypt env i smb maxLen) := by
  unfold buildCcrypt
  cases smb with
  | none => exact .pure _
  | some smb =>
    dsimp only
    split
    · exact .pure _
    · refine .bind (builds_osdpFillRandom 8) fun r =>
        .bind (keeps_updPd fun _ => rfl) fun _ =>
        .bind (builds_osdpComputeSessionKeys i) fun _ =>
        .bind (keeps_updPd fun _ => rfl) fun _ => ?_
      grind

omit hr in
@[grind ←]
theorem builds_scActivate (i : Nat) : Keeps Builds (scActivate i) := by
  unfold scActivate
  exact .bind (keeps_updPd fun _ => rfl) fun _ => keeps_observe rfl

theorem builds_buildRmacI (i : Nat) (smb : Option Nat) (maxLen : Int) :
    Keeps Builds (buildRmacI env run i smb maxLen) := by
  have hn : Keeps Builds (notifyScStatus env run i) :=
    builds_of_packs (packs_of_quiet (keeps_notifyScStatus hr i))
  unfold buildRmacI
  cases smb with
  | none => exact .pure _
  | some smb =>
    dsimp only
    split
    · exact .pure _
    · refine .bind (keeps_updPd fun _ => rfl) fun _ =>
        .bind (keeps_getPd i) fun p => .bind (builds_writeBuf _ _) fun _ =>
        .bind (builds_scActivate i) fun _ => .bind hn fun _ =>
        .bind keeps_osdpMillisNow fun now =>
        .bind (keeps_updPd fun _ => rfl) fun _ => .pure _

/-- Any reply: the two of the handshake, or one of the others. -/
theorem builds_pdBuildCases (i id : Nat) (ev : Option OsdpEvent)
    (smb : Option Nat) (maxLen : Int) :
    Keeps Builds (pdBuildCases env run i id ev smb maxLen) := by
  cases h : hsReply id with
  | false => exact builds_of_packs (packs_pdBuildCases hr i ev smb maxLen h)
  | true =>
    have hid : id = replyCcrypt ∨ id = replyRmacI := by
      simpa [osdpPhyInScHandshake] using h
    rcases hid with rfl | rfl
    · exact .bind (keeps_getPd i) fun _ => builds_buildCcrypt i smb maxLen
    · exact .bind (keeps_getPd i) fun _ => builds_buildRmacI hr i smb maxLen

@[grind ←]
theorem builds_pdBuildData (i : Nat) (p : OsdpPd) (smb : Option Nat)
    (maxLen : Int) : Keeps Builds (pdBuildData env run i p smb maxLen) := by
  have hcases (ev : Option OsdpEvent) :
      Keeps Builds (pdBuildCases env run i p.replyId ev smb maxLen) :=
    builds_pdBuildCases hr i _ ev smb maxLen
  unfold pdBuildData
  grind

theorem builds_pdBuildBody (i size : Nat) (p : OsdpPd) :
    Keeps Builds (pdBuildBody env run i size p) := by
  have hfin (off : Nat) (smb : Option Nat) (maxLen : Int)
      (body : Option Bytes) :
      Keeps Builds (pdFinishReply env run i off smb maxLen body) :=
    builds_of_packs (packs_pdFinishReply hr i off smb maxLen body)
  unfold pdBuildBody
  grind

-- ============================================================= the packet

/-- The entries made while a packet is built. -/
@[grind] def Obs.isPacking : Obs → Bool
  | .build .. => true
  | o => o.isBuilding

/-- A whole packet was built. -/
abbrev BuildsPacket : Osdp → Osdp → Prop :=
  Frame OsdpPd.sansAnyBuild Osdp.sansDrawn Obs.isPacking

omit hr in
theorem isPacking_of_isBuilding {o : Obs} (h : o.isBuilding) :
    o.isPacking := by
  unfold Obs.isPacking
  split
  · rfl
  · exact h

instance : PacketMoves BuildsPacket where
  packet _ _ _ h := Frame.updPd _ _ fun p => by
    have e := congrArg OsdpPd.sansAnyBuild (h p)
    exact e
  txBuf _ _ _ := ⟨fun _ => rfl, rfl, refl_of (LogExt _) _⟩

theorem builds_pdBuildReplyPacket (i : Nat) :
    Keeps BuildsPacket (pdBuildReplyPacket env run i) := by
  have hb (size : Nat) (p : OsdpPd) :
      Keeps BuildsPacket (pdBuildBody env run i size p) :=
    (builds_pdBuildBody hr i size p).mono fun _ _ h =>
      h.mono (fun _ _ => id) (fun _ _ => id)
        fun _ => isPacking_of_isBuilding
  have hs (len : Nat) : Keeps BuildsPacket (pdStage i len) :=
    keeps_updPd fun _ => rfl
  have hd (len : Nat) : Keeps BuildsPacket (pdStaged i len) :=
    keeps_updPd fun _ => rfl
  have hbr (size : Nat) :
      Keeps BuildsPacket (pdBuildReply env run i size) := by
    unfold pdBuildReply
    grind
  unfold pdBuildReplyPacket
  refine .bind (keeps_getPd i) fun p => ?_
  refine .bind (keeps_updPd fun _ => rfl) fun _ => ?_
  refine .bind (keeps_osdpPhyPacketInit i _) fun hdr => ?_
  grind

-- ================================================================ sending

/-- A PD without what handing a packet to the channel may change. -/
@[grind] def OsdpPd.sansSent (p : OsdpPd) : OsdpPd :=
  { p with
    replyPrebuilt := false, packetBufLen := 0, lastTxLen := 0, lastCmdId := 0 }

/-- The context without what the channel may change. -/
def Osdp.sansChannel (s : Osdp) : Osdp := { s with line := [] }

/-- The entry made when the channel is asked to take a packet. -/
@[grind] def Obs.isSent : Obs → Bool
  | .sent .. => true
  | _ => false

/-- A packet was handed to the channel. -/
abbrev Sends : Osdp → Osdp → Prop :=
  Frame OsdpPd.sansSent Osdp.sansChannel Obs.isSent

omit hr in
@[grind ←]
theorem sends_osdpPhySendPacket (i len : Nat) :
    Keeps Sends (osdpPhySendPacket env i len) := by
  have hs (data : Bytes) : Keeps Sends (osdpChannelSend env i data) := by
    intro s a t e
    cases e
    exact ⟨fun _ => rfl, rfl, LogExt.cons rfl⟩
  unfold osdpPhySendPacket
  grind

omit hr in
@[grind ←]
theorem sends_pdSendReply (i : Nat) : Keeps Sends (pdSendReply env i) := by
  unfold pdSendReply
  grind

end Build

end LibOsdp
