/-
The packet a PD's reply is built into.

`pd_build_reply_packet` starts a packet, lets `pd_build_reply` lay the
data block, and finalizes it.  `BuildsReply` lists how that can end on an
ordinary reply, one that is no handshake message: the buffer was too
small to start with, the builder had no room, the finished packet did not
fit, or it waits to be sent.  In the last two cases the data block that
was laid is part of the answer: the reply's own, or the NAK put in its
place.
-/
import LibOsdp.Phy.Proofs.Sealing
import LibOsdp.Pd.Proofs.Build

namespace LibOsdp

open Lib

section Replies

variable {env : Env} {run : List ApiCall → OsdpM Unit}

-- ========================================================== the data block

section Quiet

variable (hr : ∀ calls, Keeps Quiet (run calls))
include hr

@[grind ←]
theorem quiet_buildBioreadr (i : Nat) (ev : Option OsdpEvent)
    (maxLen : Int) : Keeps Quiet (buildBioreadr env run i ev maxLen) := by
  have hb (seed : Option BioReadr) :
      Keeps Quiet (osdpBioPdReplyBuild env run i seed maxLen) :=
    keeps_osdpBioPdReplyBuild (keeps_osdpMpPdNotify hr) i seed maxLen
  unfold buildBioreadr
  grind

/-- Working out the data block of an ordinary reply stores nothing: only
the transfers move on. -/
theorem quiet_pdBuildCases (i : Nat) {id : Nat} (ev : Option OsdpEvent)
    (smb : Option Nat) (maxLen : Int) (h : hsReply id = false) :
    Keeps Quiet (pdBuildCases env run i id ev smb maxLen) := by
  have hpiv (seed : Option (Nat × Bytes)) :
      Keeps Quiet (osdpPivPdReplyBuild env run i seed maxLen) :=
    keeps_osdpPivPdReplyBuild (keeps_osdpMpPdNotify hr) i seed maxLen
  have hfile : Keeps Quiet (osdpFileCmdStatBuild env run i maxLen) :=
    keeps_osdpFileCmdStatBuild (keeps_osdpMpPdNotify hr) i maxLen
  unfold pdBuildCases
  refine .bind (keeps_getPd i) fun p => ?_
  split
  all_goals first
    | exact absurd h (by decide)
    | skip
  all_goals grind

theorem quiet_pdBuildData (i : Nat) {p : OsdpPd} (smb : Option Nat)
    (maxLen : Int) (h : hsReply p.replyId = false) :
    Keeps Quiet (pdBuildData env run i p smb maxLen) := by
  have hcases (ev : Option OsdpEvent) :
      Keeps Quiet (pdBuildCases env run i p.replyId ev smb maxLen) :=
    quiet_pdBuildCases hr i ev smb maxLen h
  unfold pdBuildData
  grind

end Quiet

-- ============================================================ block type

/-- The final type of the security block over a data block of `n` bytes:
SCS_18 where there is something to encrypt, SCS_16 otherwise. -/
def finalType (n : Nat) : UInt8 := if n > 1 then 0x18 else 0x16

/-- The control byte is the same, and where the channel is up the block
has its final type. -/
structure Typed (i n : Nat) (s t : Osdp) : Prop where
  mark : (t.pd i).markLen = (s.pd i).markLen
  pos : dataPos i t = dataPos i s
  control : byteAt t.txBuf ((s.pd i).markLen + 4)
    = byteAt s.txBuf ((s.pd i).markLen + 4)
  type : (s.pd i).flags.scActive = true →
    ctrlScb (byteAt s.txBuf ((s.pd i).markLen + 4)) = true →
    byteAt t.txBuf ((s.pd i).markLen + 6) = finalType n

/-- The builder picks that type. -/
theorem pdPickBlockType_eq (i : Nat) (smb : Option Nat) (n : Nat) :
    pdPickBlockType i smb n = pickBlockType i smb (finalType n) := rfl

-- ============================================================== the block

/-- The NAK put in the place of a reply that could not be built. -/
def nakBlock : Bytes := [UInt8.ofNat replyNak, nakRecord]

/-- The reply's own data block: its id, and the data worked out for it on
a PD that is still the one of `s`. -/
def OwnBlock (env : Env) (run : List ApiCall → OsdpM Unit) (i size : Nat)
    (s : Osdp) (block : Bytes) : Prop :=
  ∃ data x y, x.pd = s.pd ∧
    pdBuildData env run i (s.pd i) (osdpPhyPacketGetSmb (s.pd i) s.txBuf)
      (size - dataPos i s - 1 : Nat) x = .ok (some data) y ∧
    block = UInt8.ofNat (s.pd i).replyId :: data

/-- There is no such block: none could be worked out on that PD. -/
def NoBlock (env : Env) (run : List ApiCall → OsdpM Unit) (i size : Nat)
    (s : Osdp) : Prop :=
  ∃ x y, x.pd = s.pd ∧
    pdBuildData env run i (s.pd i) (osdpPhyPacketGetSmb (s.pd i) s.txBuf)
      (size - dataPos i s - 1 : Nat) x = .ok none y

/-- A data block was laid behind the header. -/
structure BlockLaid (i : Nat) (block : Bytes) (s t : Osdp) : Prop where
  laid : Laid i t block (dataPos i s + block.length)
  typed : Typed i block.length s t

/-- Storing a block and picking its type, by way of a step that only the
application is part of. -/
theorem blockLaid_of {i hdr n : Nat} {block : Bytes} {s u v t : Osdp}
    (hl : Laid i s [] hdr) (hb : BlockStarted i s)
    (hpd : sealView (u.pd i) = sealView (s.pd i)) (hv : v.pd = u.pd)
    (htx : v.txBuf = writeAt s.txBuf (dataPos i s) block)
    (hn : n = block.length)
    (h : pdPickBlockType i (osdpPhyPacketGetSmb (s.pd i) s.txBuf) n v
      = .ok () t) :
    BlockLaid i block s t ∧ t.pd = v.pd := by
  rw [pdPickBlockType_eq, hn] at h
  obtain ⟨hlt, hty, htv⟩ := laid_typed hl hb (by rw [hv]; exact hpd) htx h
  exact ⟨⟨hlt, hty.mark, hty.pos, hty.control, hty.type⟩, htv⟩

section Build

variable (hr : ∀ calls, Keeps Quiet (run calls))
include hr

/-- How `pd_build_reply` ends on an ordinary reply. -/
theorem pdBuildReply_ok {i size hdr : Nat} {len : Int} {s t : Osdp}
    (h : pdBuildReply env run i size s = .ok len t) (hl : Laid i s [] hdr)
    (hb : BlockStarted i s) (hord : hsReply (s.pd i).replyId = false) :
    len = pdErrGeneric ∧ size < dataPos i s + 2 ∨
      ∃ block, len = block.length ∧ dataPos i s < size ∧
        BlockLaid i block s t ∧ sealView (t.pd i) = sealView (s.pd i) ∧
        (OwnBlock env run i size s block ∨
          NoBlock env run i size s ∧ block = nakBlock ∧
            dataPos i s + 2 ≤ size) := by
  unfold pdBuildReply at h
  obtain ⟨p, u, hg, h⟩ := bind_ok.mp h
  obtain ⟨rfl, rfl⟩ := getPd_ok.mp hg
  obtain ⟨_, u, hu, h⟩ := bind_ok.mp h
  obtain rfl := observe_ok.mp hu
  unfold pdBuildBody at h
  obtain ⟨buf, u, hread, h⟩ := bind_ok.mp h
  cases hread
  have hbuf : ({ s with
      log := .build i (s.pd i).replyId (s.pd i).flags.scActive :: s.log } :
      Osdp).buf .tx = s.txBuf := by
    simp [Osdp.buf]
  rw [hbuf] at h
  dsimp only at h
  split at h
  · next hsize =>
    have hsize : size ≤ dataPos i s := hsize
    exact .inl ⟨(pure_ok.mp h).1.symm, by omega⟩
  · next hsize =>
    have hsize : dataPos i s < size := Nat.not_le.mp hsize
    have hfit : dataPos i s ≤ s.txBuf.length := by
      have hstop := hl.stop
      have hroom := hl.room
      rw [List.length_nil] at hstop
      omega
    obtain ⟨_, v, hv, h⟩ := bind_ok.mp h
    cases hv
    obtain ⟨body, w, hdata, h⟩ := bind_ok.mp h
    have hq := (quiet_pdBuildData hr i _ _ hord).of hdata
    have hpd : sealView (w.pd i) = sealView (s.pd i) := by
      have e := congrArg sealView (hq.pd i)
      exact e
    have htx := congrArg Osdp.txBuf hq.rest
    have htx : w.txBuf = writeAt s.txBuf (dataPos i s)
        [UInt8.ofNat (s.pd i).replyId] := htx
    unfold pdFinishReply at h
    cases body with
    | some data =>
      obtain ⟨_, x, hx, h⟩ := bind_ok.mp h
      cases hx
      obtain ⟨_, y, hpick, h⟩ := bind_ok.mp h
      obtain ⟨rfl, rfl⟩ := pure_ok.mp h
      have hdone := blockLaid_of hl hb hpd (v := { w with
        txBuf := writeAt w.txBuf (dataPos i s + 1) data }) rfl
        (show writeAt w.txBuf (dataPos i s + 1) data
          = writeAt s.txBuf (dataPos i s)
            (UInt8.ofNat (s.pd i).replyId :: data) by
          rw [htx]
          exact writeAt_writeAt _ data hfit) rfl hpick
      refine .inr ⟨UInt8.ofNat (s.pd i).replyId :: data, rfl, hsize,
        hdone.1, ?_, .inl ⟨data, _, w, ?_, hdata, rfl⟩⟩
      · rw [hdone.2]
        exact hpd
      · rfl
    | none =>
      dsimp only at h
      split at h
      · next hmax =>
        have hmax : ((size - dataPos i s - 1 : Nat) : Int) < 1 := hmax
        exact .inl ⟨(pure_ok.mp h).1.symm, by omega⟩
      · next hmax =>
        obtain ⟨_, x, hx, h⟩ := bind_ok.mp h
        cases hx
        obtain ⟨_, y, hy, h⟩ := bind_ok.mp h
        obtain ⟨_, z, hpick, h⟩ := bind_ok.mp h
        obtain ⟨rfl, rfl⟩ := pure_ok.mp h
        have hc := (completes_pdCompleteActive hr i .failed).of hy
        have hroom : dataPos i s + 2 ≤ size := by
          have hmax : ¬ ((size - dataPos i s - 1 : Nat) : Int) < 1 := hmax
          omega
        have hpdy : sealView (y.pd i) = sealView (s.pd i) := by
          have e := congrArg sealView (hc.pd i)
          exact e.trans hpd
        have hdone : BlockLaid i nakBlock s _ ∧ _ := blockLaid_of hl hb hpdy rfl (by
          have e := congrArg Osdp.txBuf hc.rest
          have e : y.txBuf = writeAt w.txBuf (dataPos i s) nakBlock := e
          rw [e, htx]
          exact writeAt_writeAt_over hfit (by simp [nakBlock])) rfl hpick
        refine .inr ⟨nakBlock, rfl, hsize, hdone.1, ?_,
          .inr ⟨⟨_, w, ?_, hdata⟩, rfl, hroom⟩⟩
        · rw [hdone.2]
          exact hpdy
        · rfl

end Build

-- ============================================================= the packet

/-- `pd_build_reply_packet` up to the call of the finalizer: the length of
the packet that is to be finalized, if it gets that far. -/
def pdLayReply (env : Env) (run : List ApiCall → OsdpM Unit)
    (i size : Nat) : OsdpM (Option Nat) := do
  updPd i fun p => { p with packetBuf := .tx }
  let hdr ← osdpPhyPacketInit i size
  if hdr < 0 then
    return none
  pdStage i hdr.toNat
  let len ← pdBuildReply env run i size
  if len ≤ 0 then
    return none
  pdStage i (hdr.toNat + len.toNat)
  return some (hdr.toNat + len.toNat)

/-- The rest of it. -/
def pdFinishPacket (env : Env) (i size : Nat) :
    Option Nat → OsdpM Int
  | none => return pdErrGeneric
  | some total => do
    let done ← osdpPhyFinalizePacket env i total size
    if done < 0 then
      return pdErrGeneric
    pdStaged i done.toNat
    return pdErrNone

/-- Building a packet is laying it and finishing it. -/
theorem pdBuildReplyPacket_eq (i : Nat) :
    pdBuildReplyPacket env run i = (do
      let p ← getPd i
      let total ← pdLayReply env run i (getTxBufSize p)
      pdFinishPacket env i (getTxBufSize p) total) := by
  unfold pdBuildReplyPacket pdLayReply
  simp only [bind_assoc]
  refine bind_congr fun p => bind_congr fun _ => bind_congr fun hdr => ?_
  by_cases hh : hdr < 0
  · rw [if_pos hh, if_pos hh, pure_bind]
    rfl
  · rw [if_neg hh, if_neg hh]
    simp only [bind_assoc]
    refine bind_congr fun _ => bind_congr fun len => ?_
    by_cases hn : len ≤ 0
    · rw [if_pos hn, if_pos hn, pure_bind]
      rfl
    · rw [if_neg hn, if_neg hn]
      simp only [bind_assoc, pure_bind]
      rfl

/-- `pd_build_reply` accepted the reply: this is its own data block, not a
NAK in its place.  `u` is where it was called. -/
def Accepted (env : Env) (run : List ApiCall → OsdpM Unit) (i size : Nat)
    (s : Osdp) (block : Bytes) (t : Osdp) : Prop :=
  ∃ u, u.pd i = { startedPd { s.pd i with packetBuf := .tx } with
      packetBufLen := dataPos i t } ∧ dataPos i u = dataPos i t ∧
    OwnBlock env run i size u block

/-- `pd_build_reply` could not build the reply and substituted a NAK. -/
def Substituted (env : Env) (run : List ApiCall → OsdpM Unit) (i size : Nat)
    (s : Osdp) (block : Bytes) (t : Osdp) : Prop :=
  ∃ u, u.pd i = { startedPd { s.pd i with packetBuf := .tx } with
      packetBufLen := dataPos i t } ∧ dataPos i u = dataPos i t ∧
    NoBlock env run i size u ∧ block = nakBlock

/-- What the finalizer finds: the data block of PD `i`'s reply, laid
behind a header written for the PD as it was in `s`. -/
structure ReplyLaid (env : Env) (run : List ApiCall → OsdpM Unit)
    (i size : Nat) (s : Osdp) (block : Bytes) (t : Osdp) : Prop where
  laid : Laid i t block (dataPos i t + block.length)
  chan : sealView (t.pd i) = sealView (s.pd i)
  control : byteAt t.txBuf ((t.pd i).markLen + 4)
    = initControl (s.pd i) (s.pd i).replyId
  type : (s.pd i).flags.scActive = true → (s.pd i).replyId ≠ replyBusy →
    byteAt t.txBuf ((t.pd i).markLen + 6) = finalType block.length
  pos : dataPos i t = (s.pd i).markLen + 5 +
    initScbLen (s.pd i) (s.pd i).replyId
  large : minimumPacketSize ≤ size
  fits : dataPos i t < size
  what : Accepted env run i size s block t ∨
    Substituted env run i size s block t

/-- Where `pd_build_reply` starts: the header of the packet is written,
and the data block is empty. -/
structure LayStarted (i hdr : Nat) (s w : Osdp) : Prop where
  pd : w.pd i = { startedPd { s.pd i with packetBuf := .tx } with
    packetBufLen := hdr }
  laid : Laid i w [] hdr
  block : BlockStarted i w
  mark : (w.pd i).markLen = (s.pd i).markLen
  pos : dataPos i w = (s.pd i).markLen + 5 +
    initScbLen (s.pd i) (s.pd i).replyId
  control : byteAt w.txBuf ((w.pd i).markLen + 4)
    = initControl (s.pd i) (s.pd i).replyId

theorem layStarted {i size : Nat} {hdr : Int} {s v w : Osdp}
    (hinit : osdpPhyPacketInit i size
      (s.updPd i fun p => { p with packetBuf := .tx }) = .ok hdr v)
    (hhdr : ¬ hdr < 0) (hmode : (s.pd i).flags.pdMode = true)
    (hroom : packetBufSize ≤ s.txBuf.length)
    (hw : pdStage i hdr.toNat v = .ok () w) :
    LayStarted i hdr.toNat s w := by
  have hmode' : ((s.updPd i fun p => { p with packetBuf := .tx }).pd
      i).flags.pdMode = true := by
    rw [updPd_pd_same]
    exact hmode
  have htxid : txId { s.pd i with packetBuf := .tx } = (s.pd i).replyId :=
    if_pos hmode
  obtain ⟨hl, hpd, -, hctl, -, hposv⟩ := laid_init hinit
    (Int.not_lt.mp hhdr) hroom (markAgrees_pd hmode')
  rw [updPd_pd_same] at hpd hctl hposv
  rw [htxid] at hctl hposv
  have hwpd : w.pd i = { startedPd { s.pd i with packetBuf := .tx } with
      packetBufLen := hdr.toNat } := by
    rw [← updPd_ok.mp hw, updPd_pd_same, hpd]
    rfl
  have hwtx : w.txBuf = v.txBuf := by
    rw [← updPd_ok.mp hw]
    rfl
  have hwm : (w.pd i).markLen = (v.pd i).markLen := by
    rw [hwpd, hpd]
    rfl
  have hmark : (w.pd i).markLen = (s.pd i).markLen := by
    rw [hwpd]
    exact markLen_of_sealView
      (sealView_started (p := { s.pd i with packetBuf := .tx }) hmode)
  obtain ⟨hlw, hposw⟩ := hl.congr hwm hwtx
  refine ⟨hwpd, hlw, ?_, hmark, ?_, ?_⟩
  · exact blockStarted_init hinit (Int.not_lt.mp hhdr) hroom
      (markAgrees_pd hmode') (by rw [hwpd, updPd_pd_same]; rfl) hwm hwtx
  · rw [hposw, hposv, ← hwm, hmark]
    rfl
  · rw [hwm, hwtx]
    exact hctl

section Lay

variable (hr : ∀ calls, Keeps Quiet (run calls))
include hr

/-- Laying an ordinary reply of a PD. -/
theorem pdLayReply_ok {i size total : Nat} {s t : Osdp}
    (h : pdLayReply env run i size s = .ok (some total) t)
    (hmode : (s.pd i).flags.pdMode = true)
    (hroom : packetBufSize ≤ s.txBuf.length)
    (hord : hsReply (s.pd i).replyId = false) :
    ∃ block, total = dataPos i t + block.length ∧ block ≠ [] ∧
      ReplyLaid env run i size s block t := by
  unfold pdLayReply at h
  obtain ⟨_, u, hu, h⟩ := bind_ok.mp h
  obtain rfl := updPd_ok.mp hu
  obtain ⟨hdr, v, hinit, h⟩ := bind_ok.mp h
  split at h
  · cases (pure_ok.mp h).1
  · next hhdr =>
    obtain ⟨_, w, hw, h⟩ := bind_ok.mp h
    have hst := layStarted hinit hhdr hmode hroom hw
    obtain ⟨len, x, hx, h⟩ := bind_ok.mp h
    split at h
    · cases (pure_ok.mp h).1
    · next hpos =>
      obtain ⟨_, y, hy, h⟩ := bind_ok.mp h
      obtain rfl := updPd_ok.mp hy
      obtain ⟨e, rfl⟩ := pure_ok.mp h
      have htotal : hdr.toNat + len.toNat = total := Option.some.inj e
      have hid : (w.pd i).replyId = (s.pd i).replyId := by
        rw [hst.pd]
        rfl
      rcases pdBuildReply_ok hr hx hst.laid hst.block
          (by rw [hid]; exact hord) with
        ⟨rfl, -⟩ | ⟨block, rfl, hsize, hbl, hseal, hwhat⟩
      · exact absurd (by decide) hpos
      · -- the last store is of the length alone
        obtain ⟨t, htdef⟩ : ∃ t, t = x.updPd i fun p =>
          { p with
            packetBuf := .tx
            packetBufLen := hdr.toNat + (block.length : Int).toNat } :=
          ⟨_, rfl⟩
        rw [← htdef]
        have htm : (t.pd i).markLen = (x.pd i).markLen := by
          rw [htdef, updPd_pd_same]
          rfl
        have httx : t.txBuf = x.txBuf := by
          rw [htdef]
          rfl
        obtain ⟨hlt, hpost⟩ := hbl.laid.congr htm httx
        have hposx : dataPos i x = dataPos i w := hbl.typed.pos
        have hpost : dataPos i t = dataPos i w := by
          rw [hpost, hposx]
        have hmark : (t.pd i).markLen = (s.pd i).markLen := by
          rw [htm, hbl.typed.mark, hst.mark]
        have hseal : sealView (t.pd i) = sealView (s.pd i) := by
          have hx : sealView (t.pd i) = sealView (x.pd i) := by
            rw [htdef, updPd_pd_same]
            rfl
          rw [hx, hseal, hst.pd]
          exact sealView_started (p := { s.pd i with packetBuf := .tx }) hmode
        have hstop := hst.laid.stop
        rw [List.length_nil, Nat.add_zero] at hstop
        have hlarge : minimumPacketSize ≤ size := by
          rcases osdpPhyPacketInit_ok hinit with ⟨-, rfl, -⟩ | ⟨hge, -⟩
          · exact absurd (by decide) hhdr
          · exact hge
        refine ⟨block, ?_, ?_,
          ⟨?_, hseal, ?_, fun ha hne => ?_, ?_, hlarge, ?_, ?_⟩⟩
        · rw [← htotal, hpost, hstop, Int.toNat_natCast]
        · intro e
          rw [e] at hpos
          exact hpos (Int.le_refl 0)
        · rw [hpost]
          exact hlt
        · rw [htm, hbl.typed.mark, httx, hbl.typed.control, hst.control]
        · have hscb : initScbLen (s.pd i) (s.pd i).replyId ≠ 0 := by
            unfold initScbLen
            rw [if_neg (by simp [hne]), if_pos ha]
            decide
          rw [htm, hbl.typed.mark, httx]
          refine hbl.typed.type (by rw [hst.pd]; exact ha) ?_
          rw [hst.control, ctrlScb_initControl]
          exact decide_eq_true hscb
        · rw [hpost, hst.pos]
        · rw [hpost]
          exact hsize
        · have hwpd : w.pd i =
              { startedPd { s.pd i with packetBuf := .tx } with
                packetBufLen := dataPos i t } := by
            rw [hpost, ← hstop]
            exact hst.pd
          exact hwhat.imp (fun hown => ⟨w, hwpd, hpost.symm, hown⟩)
            fun hnak => ⟨w, hwpd, hpost.symm, hnak.1, hnak.2.1⟩

/-- Nothing is laid only in a buffer too small for a packet. -/
theorem pdLayReply_none {i size : Nat} {s t : Osdp}
    (h : pdLayReply env run i size s = .ok none t)
    (hmode : (s.pd i).flags.pdMode = true)
    (hroom : packetBufSize ≤ s.txBuf.length)
    (hord : hsReply (s.pd i).replyId = false) :
    size < minimumPacketSize := by
  by_contra hlarge
  unfold pdLayReply at h
  obtain ⟨_, u, hu, h⟩ := bind_ok.mp h
  obtain rfl := updPd_ok.mp hu
  obtain ⟨hdr, v, hinit, h⟩ := bind_ok.mp h
  split at h
  · next hhdr =>
    rcases osdpPhyPacketInit_ok hinit with ⟨hlt, -, -⟩ | ⟨-, -, -, rfl⟩
    · exact hlarge hlt
    · exact absurd hhdr (Int.not_lt.mpr (Int.natCast_nonneg _))
  · next hhdr =>
    obtain ⟨_, w, hw, h⟩ := bind_ok.mp h
    have hst := layStarted hinit hhdr hmode hroom hw
    obtain ⟨len, x, hx, h⟩ := bind_ok.mp h
    have hid : (w.pd i).replyId = (s.pd i).replyId := by
      rw [hst.pd]
      rfl
    have hpos : dataPos i w ≤ 9 := by
      rw [hst.pos]
      exact Nat.add_le_add (Nat.add_le_add_right (markLen_le _) 5)
        (initScbLen_le _ _)
    have hmin : 128 ≤ size := Nat.not_lt.mp hlarge
    split at h
    · next hle =>
      rcases pdBuildReply_ok hr hx hst.laid hst.block
          (by rw [hid]; exact hord) with
        ⟨-, hsmall⟩ | ⟨block, rfl, -, hbl, -, hwhat⟩
      · omega
      · have hne : 0 < block.length := by
          rcases hwhat with ⟨data, -, -, -, -, rfl⟩ | ⟨-, rfl, -⟩
          · exact Nat.succ_pos _
          · exact Nat.succ_pos _
        omega
    · obtain ⟨_, y, -, h⟩ := bind_ok.mp h
      exact absurd (pure_ok.mp h).1 (Option.some_ne_none _)

end Lay

end Replies

end LibOsdp
