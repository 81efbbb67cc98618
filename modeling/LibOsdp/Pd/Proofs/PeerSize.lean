/-
The packet size a PD is told to keep to, over whole runs.

CMD_ACURXSIZE stores its two bytes as they are, and nothing else touches
the value: not a session that ends, not a link that is lost.  So the size
a PD builds for is the last one it accepted, and `sizeInv_run` carries
what was true of every accepted size to the state a run has come to.

`ReplyDue` is the moment a refresh turns to its reply.  The size just
accepted is in force there: the ACK to it is the first packet built under
it.
-/
import LibOsdp.Pd.Proofs.Comset
import LibOsdp.Pd.Proofs.Sendable

namespace LibOsdp

open Lib

-- ============================================================= the command

/-- The size a CMD_ACURXSIZE of the right length carries. -/
def acurxsizeOf (payload : Bytes) : Option Nat :=
  if payloadId payload = cmdAcurxsize ∧ 2 ≤ (payload.drop 1).length then
    some (readLe 2 (payload.drop 1))
  else none

/-- No size that PD `i` accepted leaves it without a packet. -/
def AcceptsRoom (i : Nat) (log : List Obs) : Prop :=
  ∀ payload n, .verdict i payload pdErrNone ∈ log →
    acurxsizeOf payload = some n → ¬ Mutes n

/-- The packet size in force. -/
@[grind] def sizeView (p : OsdpPd) : Nat := p.peerRxSize

/-- The packet sizes are what they were. -/
abbrev KeepsSize : Osdp → Osdp → Prop := Frame sizeView noContext Obs.isAny

theorem Handles.keepsSize {s t : Osdp} (h : Handles s t) : KeepsSize s t := by
  refine ⟨fun j => ?_, rfl, h.log.mono fun _ _ => rfl⟩
  have e := congrArg sizeView (h.pd j)
  exact e

theorem Ages.keepsSize {s t : Osdp} (h : Ages s t) : KeepsSize s t :=
  h.view sizeView (fun _ => rfl) fun _ _ => rfl

theorem Quiet.keepsSize {s t : Osdp} (h : Quiet s t) : KeepsSize s t :=
  h.view sizeView (fun _ => rfl) fun _ _ => rfl

theorem Completes.keepsSize {s t : Osdp} (h : Completes s t) :
    KeepsSize s t :=
  h.view sizeView (fun _ => rfl) fun _ _ => rfl

theorem Receives.keepsSize {s t : Osdp} (h : Receives s t) :
    KeepsSize s t :=
  h.view sizeView (fun _ => rfl) fun _ _ => rfl

theorem BuildsPacket.keepsSize {s t : Osdp} (h : BuildsPacket s t) :
    KeepsSize s t :=
  h.view sizeView (fun _ => rfl) fun _ _ => rfl

theorem Sends.keepsSize {s t : Osdp} (h : Sends s t) : KeepsSize s t :=
  h.view sizeView (fun _ => rfl) fun _ _ => rfl

section Decode

variable {env : Env} {run : List ApiCall → OsdpM Unit}
variable (hr : ∀ calls, Keeps Quiet (run calls))
include hr

@[grind ←]
theorem keepsSize_pdScDeactivate (i : Nat) :
    Keeps KeepsSize (pdScDeactivate env run i) :=
  (ages_pdScDeactivate hr i).mono fun _ _ => Ages.keepsSize

theorem keepsSize_pdDecodeChlng (i : Nat) (data : Bytes) :
    Keeps KeepsSize (pdDecodeChlng env run i data) := by
  have hc : Keeps KeepsSize (pdCmdCapOk i none) :=
    (keeps_pdCmdCapOk (R := Handles) i none).mono fun _ _ => Handles.keepsSize
  have hf (n : Nat) : Keeps KeepsSize (osdpFillRandom env n) := by
    intro s a t e
    cases e
    exact ⟨fun _ => rfl, rfl, LogExt.cons rfl⟩
  have hs : Keeps KeepsSize (osdpScSetup env i) := by
    unfold osdpScSetup
    grind
  have hp : Keeps KeepsSize (updPd i fun p =>
      { p with
        sc := { p.sc with cpRandom := data }, replyId := replyCcrypt }) :=
    keeps_updPd fun _ => rfl
  unfold pdDecodeChlng
  grind

omit hr in
theorem keepsSize_pdDecodeScrypt (i : Nat) (data : Bytes) :
    Keeps KeepsSize (pdDecodeScrypt env i data) := by
  have hc : Keeps KeepsSize (pdCmdCapOk i none) :=
    (keeps_pdCmdCapOk (R := Handles) i none).mono fun _ _ => Handles.keepsSize
  have hn (c : UInt8) : Keeps KeepsSize (setNakCode i c) :=
    keeps_updPd fun _ => rfl
  have ha : Keeps KeepsSize (setReply i replyRmacI) :=
    keeps_updPd fun _ => rfl
  unfold pdDecodeScrypt
  grind

/-- Every command but CMD_ACURXSIZE leaves the size. -/
theorem keepsSize_pdDecodeCases (i : Nat) {id : Nat} (data : Bytes)
    (hx : id ≠ cmdAcurxsize) :
    Keeps KeepsSize (pdDecodeCases env run i id data) := by
  by_cases hc : id = cmdChlng
  · subst hc
    exact .bind (keepsSize_pdDecodeChlng hr i data) fun _ => .pure _
  · by_cases hs : id = cmdScrypt
    · subst hs
      exact .bind (keepsSize_pdDecodeScrypt i data) fun _ => .pure _
    · exact (handles_pdDecodeCases hr i data hc hs hx).mono
        fun _ _ => Handles.keepsSize

/-- The commands a PD takes leave the size, but for the one that sets it,
and a size that was stored was accepted. -/
theorem size_pdDecodeCommand {i : Nat} {payload : Bytes} {s t : Osdp}
    {ret : Int} (h : pdDecodeCommand env run i payload s = .ok ret t) :
    LogExt Obs.isAny s t ∧
      ((t.pd i).peerRxSize = (s.pd i).peerRxSize ∨
        ret = pdErrNone ∧ acurxsizeOf payload = some (t.pd i).peerRxSize) := by
  unfold pdDecodeCommand at h
  obtain ⟨_, u, hu, h⟩ := bind_ok.mp h
  obtain ⟨_, v, hv, h⟩ := bind_ok.mp h
  obtain ⟨p, w, hg, h⟩ := bind_ok.mp h
  obtain ⟨rfl, rfl⟩ := getPd_ok.mp hg
  have hsu : KeepsSize s u := frame_of_updPd hu fun _ => rfl
  have huv : KeepsSize u v := frame_of_updPd hv fun _ => rfl
  have hsv : KeepsSize s v := trans_of KeepsSize hsu huv
  have hquiet {w : Osdp} (hvw : KeepsSize v w) : LogExt Obs.isAny s w ∧
      (w.pd i).peerRxSize = (s.pd i).peerRxSize := by
    have hsw := trans_of KeepsSize hsv hvw
    exact ⟨hsw.log, hsw.pd i⟩
  have hn (c : UInt8) : Keeps KeepsSize (replyWithNak i c) :=
    keeps_updPd fun _ => rfl
  split at h
  · have hc : Keeps KeepsSize (do
        setNakCode i nakScCond
        return pdErrReply) :=
      .bind (keeps_updPd fun _ => rfl) fun _ => .pure _
    exact ⟨(hquiet (hc.of h)).1, .inl (hquiet (hc.of h)).2⟩
  · obtain ⟨o, w, hw, h⟩ := bind_ok.mp h
    have hlen : Keeps KeepsSize (do
        replyWithNak i nakCmdLen
        return pdErrReply) := .bind (hn _) fun _ => .pure _
    by_cases hx : (byteAt payload 0).toNat = cmdAcurxsize
    · rw [hx] at hw
      obtain ⟨r, x, hset, hw⟩ := bind_ok.mp hw
      obtain ⟨rfl, rfl⟩ := pure_ok.mp hw
      have hend : (if r = pdErrGeneric then do
          replyWithNak i nakCmdLen
          return pdErrReply
        else return r : OsdpM Int) x = .ok ret t := h
      rcases acurxsize_ok hset with ⟨-, rfl, rfl⟩ | ⟨htwo, rfl, y, hy, rfl⟩
      · rw [if_pos rfl] at hend
        exact ⟨(hquiet (hlen.of hend)).1, .inl (hquiet (hlen.of hend)).2⟩
      · rw [if_neg (by decide)] at hend
        obtain ⟨rfl, rfl⟩ := pure_ok.mp hend
        refine ⟨?_, .inr ⟨rfl, ?_⟩⟩
        · rw [hy]
          exact hsv.log
        · unfold acurxsizeOf
          rw [if_pos ⟨hx, htwo⟩, updPd_pd_same, hy, updPd_pd_same]
    · have hvw := (keepsSize_pdDecodeCases hr i (payload.drop 1) hx).of hw
      have hwt : KeepsSize w t := by
        cases o with
        | none =>
          have hunk : Keeps KeepsSize (do
              replyWithNak i nakCmdUnknown
              return pdErrReply) := .bind (hn _) fun _ => .pure _
          exact hunk.of h
        | some r =>
          have hend : (if r = pdErrGeneric then do
              replyWithNak i nakCmdLen
              return pdErrReply
            else return r : OsdpM Int) w = .ok ret t := h
          split at hend
          · exact hlen.of hend
          · obtain ⟨-, rfl⟩ := pure_ok.mp hend
            exact refl_of KeepsSize _
      have hvt := trans_of KeepsSize hvw hwt
      exact ⟨(hquiet hvt).1, .inl (hquiet hvt).2⟩

end Decode

-- ============================================================== in a run

/-- As long as every size accepted leaves room for packets, so does the
one in force. -/
structure SizeStep (i : Nat) (s t : Osdp) : Prop where
  log : LogExt Obs.isAny s t
  size : AcceptsRoom i t.log → ¬ Mutes (s.pd i).peerRxSize →
    ¬ Mutes (t.pd i).peerRxSize

theorem AcceptsRoom.of_ext {i : Nat} {E : Obs → Bool} {s t : Osdp}
    (h : AcceptsRoom i t.log) (he : LogExt E s t) :
    AcceptsRoom i s.log := by
  obtain ⟨l, hl, -⟩ := he
  intro payload n hv
  refine h payload n ?_
  rw [hl]
  exact List.mem_append_right l hv

instance (i : Nat) : IsPreorder Osdp (SizeStep i) where
  refl s := ⟨refl_of (LogExt _) s, fun _ => id⟩
  trans _ _ _ h k :=
    ⟨trans_of _ h.log k.log, fun ha hs =>
      k.size ha (h.size (ha.of_ext k.log) hs)⟩

theorem KeepsSize.sizeStep {i : Nat} {s t : Osdp} (h : KeepsSize s t) :
    SizeStep i s t := by
  refine ⟨h.log, fun _ hs => ?_⟩
  have e : (t.pd i).peerRxSize = (s.pd i).peerRxSize := h.pd i
  rw [e]
  exact hs

section Refresh

variable {env : Env} {run : List ApiCall → OsdpM Unit} {i : Nat}

theorem sizeStep_of {α : Type} {m : OsdpM α} (h : Keeps KeepsSize m) :
    Keeps (SizeStep i) m :=
  h.mono fun _ _ => KeepsSize.sizeStep

variable (hr : ∀ calls, Keeps Quiet (run calls))
include hr

/-- A frame that was received, its verdict included. -/
theorem sizeStep_pdProcessFrame :
    Keeps (SizeStep i) (pdProcessFrame env run i) := by
  intro s ret t h
  unfold pdProcessFrame at h
  obtain ⟨⟨len, payload⟩, u, hu, h⟩ := bind_ok.mp h
  have hsu : KeepsSize s u :=
    ((receives_osdpPhyDecodePacket i).of hu).keepsSize
  dsimp only at h
  split at h
  · obtain ⟨-, rfl⟩ := pure_ok.mp h
    exact hsu.sizeStep
  · obtain ⟨p, v, hg, h⟩ := bind_ok.mp h
    obtain ⟨rfl, rfl⟩ := getPd_ok.mp hg
    obtain ⟨_, v, hv, h⟩ := bind_ok.mp h
    obtain ⟨r, w, hw, h⟩ := bind_ok.mp h
    obtain ⟨_, x, hx, h⟩ := bind_ok.mp h
    obtain ⟨rfl, rfl⟩ := pure_ok.mp h
    have huv : KeepsSize u v := (keeps_observe (by rfl)).of hv
    obtain rfl := observe_ok.mp hx
    obtain ⟨hlog, hsize⟩ := size_pdDecodeCommand hr hw
    have hsv := (trans_of KeepsSize hsu huv).sizeStep (i := i)
    refine trans_of (SizeStep i) hsv ⟨?_, fun ha hn => ?_⟩
    · exact trans_of _ hlog (LogExt.cons rfl)
    · rcases hsize with e | ⟨rfl, e⟩
      · rw [show ({ w with log := _ } : Osdp).pd i = w.pd i from rfl, e]
        exact hn
      · exact ha payload _ List.mem_cons_self e

/-- Looking for a frame, and what comes of it. -/
theorem sizeStep_pdReceiveAndProcessCommand :
    Keeps (SizeStep i) (pdReceiveAndProcessCommand env run i) := by
  have hp : Keeps (SizeStep i) (pdProcessFrame env run i) :=
    sizeStep_pdProcessFrame hr
  have hl : Keeps (SizeStep i) (pdListen i) := by
    refine sizeStep_of ?_
    unfold pdListen
    exact .bind (keeps_updPd fun _ => rfl) fun _ => keeps_observe rfl
  have hc : Keeps (SizeStep i) (osdpPhyCheckPacket env i) :=
    sizeStep_of ((receives_osdpPhyCheckPacket i).mono
      fun _ _ => Receives.keepsSize)
  have hs : Keeps (SizeStep i) (osdpPhyStateReset env i false) :=
    sizeStep_of ((receives_osdpPhyStateReset i).mono
      fun _ _ => Receives.keepsSize)
  unfold pdReceiveAndProcessCommand
  grind

/-- From a finalized reply to the end of the refresh. -/
theorem keepsSize_pdSendStage : Keeps KeepsSize (pdSendStage env run i) := by
  have hs : Keeps KeepsSize (pdSendReply env i) :=
    (sends_pdSendReply i).mono fun _ _ => Sends.keepsSize
  have ha (st : CompletionStatus) :
      Keeps KeepsSize (pdCompleteActive env run i st) :=
    (completes_pdCompleteActive hr i st).mono
      fun _ _ => Completes.keepsSize
  have hb (cmd : OsdpCmd) :
      Keeps KeepsSize (doCommandCallback env run i cmd) :=
    (handles_doCommandCallback hr i cmd).mono fun _ _ => Handles.keepsSize
  have hc : Keeps KeepsSize (pdCommit env run i) := by
    unfold pdCommit pdCommitKeyset pdCommitComset
    grind
  have hp : Keeps KeepsSize (osdpPhyProgressSequence i) :=
    keeps_updPd fun _ => rfl
  have hr : Keeps KeepsSize (osdpPhyStateReset env i false) :=
    (receives_osdpPhyStateReset i).mono fun _ _ => Receives.keepsSize
  unfold pdSendStage
  grind

theorem keepsSize_pdErrorReset :
    Keeps KeepsSize (pdErrorReset env run i) := by
  have ha (st : CompletionStatus) :
      Keeps KeepsSize (pdCompleteActive env run i st) :=
    (completes_pdCompleteActive hr i st).mono
      fun _ _ => Completes.keepsSize
  have hs : Keeps KeepsSize (osdpPhyStateReset env i false) :=
    (receives_osdpPhyStateReset i).mono fun _ _ => Receives.keepsSize
  unfold pdErrorReset
  grind

/-- One refresh. -/
theorem sizeStep_osdpPdUpdate :
    Keeps (SizeStep i) (osdpPdUpdate env run i) := by
  have hx : Keeps (SizeStep i) (pdExpireSession env run i) :=
    (ages_pdExpireSession hr i).mono fun _ _ h => h.keepsSize.sizeStep
  have hl : Keeps (SizeStep i) (pdExpireLink env run i) :=
    (ages_pdExpireLink hr i).mono fun _ _ h => h.keepsSize.sizeStep
  have hm : Keeps (SizeStep i) (pdMarkOnline env run i) :=
    (ages_pdMarkOnline hr i).mono fun _ _ h => h.keepsSize.sizeStep
  have ht (ret : Int) : Keeps (SizeStep i) (pdTouchSession i ret) :=
    (ages_pdTouchSession i ret).mono fun _ _ h => h.keepsSize.sizeStep
  have hp : Keeps (SizeStep i) (pdReceiveAndProcessCommand env run i) :=
    sizeStep_pdReceiveAndProcessCommand hr
  have hb : Keeps (SizeStep i) (pdBuildReplyPacket env run i) :=
    (builds_pdBuildReplyPacket hr i).mono fun _ _ h =>
      BuildsPacket.keepsSize h |>.sizeStep
  have hs : Keeps (SizeStep i) (pdSendStage env run i) :=
    sizeStep_of (keepsSize_pdSendStage hr)
  have he : Keeps (SizeStep i) (pdErrorReset env run i) :=
    sizeStep_of (keepsSize_pdErrorReset hr)
  have hrep (ret : Int) : Keeps (SizeStep i) (pdReplyStage env run i ret) := by
    unfold pdReplyStage
    grind
  unfold osdpPdUpdate pdServe
  grind

end Refresh

-- ========================================================= short replies

/-- An ACK or a NAK. -/
def shortReply (id : Nat) : Bool := id == replyAck || id == replyNak

/-- PD `i` can build this reply now. -/
def PdBuilds (env : Env) (run : List ApiCall → OsdpM Unit) (i id : Nat)
    (s : Osdp) : Prop :=
  ∃ t, pdBuildReplyPacket env run i
    (s.updPd i fun p => { p with replyId := id }) = .ok pdErrNone t

section Build

variable {env : Env} {run : List ApiCall → OsdpM Unit} {i : Nat}

/-- The data of a short reply: none, or the NAK code. -/
theorem pdBuildData_short {p : OsdpPd} {smb : Option Nat} {maxLen : Int}
    (s : Osdp) (h : shortReply p.replyId = true) (hmax : 1 ≤ maxLen) :
    ∃ data, data.length ≤ 1 ∧
      pdBuildData env run i p smb maxLen s = .ok (some data) s := by
  unfold shortReply at h
  simp only [Bool.or_eq_true, beq_iff_eq] at h
  unfold pdBuildData
  rcases h with h | h
  · rw [h]
    exact ⟨[], Nat.zero_le _, rfl⟩
  · rw [h]
    refine ⟨[(s.pd i).nakCode], Nat.le_refl _, ?_⟩
    have hfit : ifFits maxLen [(s.pd i).nakCode]
        = some [(s.pd i).nakCode] := if_neg (Int.not_lt.mpr hmax)
    show EStateM.Result.ok (ifFits maxLen [(s.pd i).nakCode]) s = _
    rw [hfit]

/-- A short reply is laid in every buffer large enough to start one. -/
theorem pdLayReply_short {size : Nat} {s : Osdp}
    (hmode : (s.pd i).flags.pdMode = true)
    (hroom : packetBufSize ≤ s.txBuf.length)
    (hlarge : minimumPacketSize ≤ size)
    (hid : shortReply (s.pd i).replyId = true) :
    ∃ total t, pdLayReply env run i size s = .ok (some total) t := by
  obtain ⟨u, hu⟩ : ∃ u, u = s.updPd i fun p => { p with packetBuf := .tx } :=
    ⟨_, rfl⟩
  have hupd : u.pd i = { s.pd i with packetBuf := .tx } := by
    rw [hu, updPd_pd_same]
  have hutx : u.txBuf = s.txBuf := by
    rw [hu]
    rfl
  obtain ⟨hdr, v, hinit, hhdr⟩ := osdpPhyPacketInit_total i u hlarge
  have hmark : MarkAgrees (u.pd i) := markAgrees_pd (by rw [hupd]; exact hmode)
  obtain ⟨-, hpd, -, -, -, hposv⟩ := laid_init hinit hhdr (hutx ▸ hroom) hmark
  have hle : dataPos i v ≤ 9 := by
    have hscb := initScbLen_le (u.pd i) (txId (u.pd i))
    have hm := markLen_le (v.pd i)
    omega
  -- where `pd_build_reply` starts
  obtain ⟨w, hw⟩ : ∃ w, w = v.updPd i fun p =>
    { p with packetBuf := .tx, packetBufLen := hdr.toNat } := ⟨_, rfl⟩
  have hwm : (w.pd i).markLen = (v.pd i).markLen := by
    rw [hw, updPd_pd_same]
    rfl
  have hwtx : w.txBuf = v.txBuf := by
    rw [hw]
    rfl
  have hoff : osdpPhyPacketGetDataOffset (w.pd i) w.txBuf = dataPos i v :=
    dataPos_congr hwm (by rw [hwtx]) fun _ => by rw [hwtx]
  have hwid : shortReply (w.pd i).replyId = true := by
    rw [hw, updPd_pd_same, hpd, hupd]
    exact hid
  have hbuild : ∃ len x, pdBuildReply env run i size w = .ok len x ∧
      0 < len := by
    have hmin : 128 ≤ size := hlarge
    obtain ⟨x, hx⟩ : ∃ x, x = { w with
      log := .build i (w.pd i).replyId (w.pd i).flags.scActive :: w.log
      txBuf := writeAt w.txBuf (dataPos i v)
        [UInt8.ofNat (w.pd i).replyId] } := ⟨_, rfl⟩
    obtain ⟨data, -, hdata⟩ : ∃ data, data.length ≤ 1 ∧
        pdBuildData env run i (w.pd i)
          (osdpPhyPacketGetSmb (w.pd i) w.txBuf)
          (size - dataPos i v - 1 : Nat) x = .ok (some data) x :=
      pdBuildData_short x hwid (by omega)
    obtain ⟨y, hy⟩ := pickBlockType_total i
      (osdpPhyPacketGetSmb (w.pd i) w.txBuf) (finalType (data.length + 1))
      { x with txBuf := writeAt x.txBuf (dataPos i v + 1) data }
    have hfin : pdFinishReply env run i (dataPos i v)
        (osdpPhyPacketGetSmb (w.pd i) w.txBuf)
        (size - dataPos i v - 1 : Nat) (some data) x
          = .ok (data.length + 1 : Nat) y :=
      bind_ok.mpr ⟨(), _, rfl, bind_ok.mpr ⟨(), y, hy, rfl⟩⟩
    have hbuf (l : List Obs) : ({ w with log := l } : Osdp).buf .tx
        = w.txBuf := by
      simp [Osdp.buf]
    refine ⟨(data.length + 1 : Nat), y, ?_, by omega⟩
    refine bind_ok.mpr ⟨w.pd i, w, rfl, bind_ok.mpr ⟨(), _, rfl, ?_⟩⟩
    refine bind_ok.mpr ⟨w.txBuf, _, congrArg (fun b =>
      EStateM.Result.ok b _) (hbuf _), ?_⟩
    rw [hoff, if_neg (by omega)]
    refine bind_ok.mpr ⟨(), x, ?_, bind_ok.mpr ⟨some data, x, hdata, hfin⟩⟩
    rw [hx]
    rfl
  obtain ⟨len, x, hlen, hpos⟩ := hbuild
  have hset : pdStage i hdr.toNat v = .ok () w := by
    rw [hw]
    rfl
  refine ⟨hdr.toNat + len.toNat, x.updPd i fun p =>
    { p with packetBuf := .tx, packetBufLen := hdr.toNat + len.toNat }, ?_⟩
  refine bind_ok.mpr ⟨(), u, by rw [hu]; rfl,
    bind_ok.mpr ⟨hdr, v, hinit, ?_⟩⟩
  rw [if_neg (Int.not_lt.mpr hhdr)]
  refine bind_ok.mpr ⟨(), w, hset, bind_ok.mpr ⟨len, x, hlen, ?_⟩⟩
  rw [if_neg (Int.not_le.mpr hpos)]
  rfl

/-- The data block of a short reply that was laid: two bytes at most. -/
theorem ReplyLaid.short {size : Nat} {s t : Osdp} {block : Bytes}
    (h : ReplyLaid env run i size s block t)
    (hid : shortReply (s.pd i).replyId = true) : block.length ≤ 2 := by
  have hmin : 128 ≤ size := h.large
  have hpos : dataPos i t ≤ 9 := by
    have e := h.pos
    have hscb := initScbLen_le (s.pd i) (s.pd i).replyId
    have hm := markLen_le (s.pd i)
    omega
  rcases h.what with ⟨u, hu, hpu, hown⟩ | ⟨-, -, -, -, rfl⟩
  · obtain ⟨data, x, y, -, hdata, rfl⟩ := hown
    obtain ⟨short, hshort, e⟩ : ∃ d, d.length ≤ 1 ∧
        pdBuildData env run i (u.pd i)
          (osdpPhyPacketGetSmb (u.pd i) u.txBuf)
          (size - dataPos i u - 1 : Nat) x = .ok (some d) x :=
      pdBuildData_short x (by rw [hu]; exact hid) (by omega)
    rw [hdata] at e
    cases e
    exact Nat.succ_le_succ hshort
  · exact Nat.le_refl _

/-- A PD whose announced size mutes it builds nothing, and every other
builds its short replies. -/
theorem pdBuilds_iff (hr : ∀ calls, Keeps Quiet (run calls)) {id : Nat}
    {s : Osdp} (hid : shortReply id = true)
    (hmode : (s.pd i).flags.pdMode = true)
    (hroom : packetBufSize ≤ s.txBuf.length)
    (hrMac : (s.pd i).sc.rMac.length = 16)
    (hcMac : (s.pd i).sc.cMac.length = 16) :
    PdBuilds env run i id s ↔ ¬ Mutes (s.pd i).peerRxSize := by
  obtain ⟨u, hu⟩ : ∃ u, u = s.updPd i fun p => { p with replyId := id } :=
    ⟨_, rfl⟩
  have hupd : u.pd i = { s.pd i with replyId := id } := by
    rw [hu, updPd_pd_same]
  have hsize : getTxBufSize (u.pd i) = getTxBufSize (s.pd i) := by
    rw [hupd]
    rfl
  have hord : hsReply (u.pd i).replyId = false := by
    rw [hupd]
    unfold shortReply at hid
    simp only [Bool.or_eq_true, beq_iff_eq] at hid
    rcases hid with rfl | rfl <;> rfl
  unfold PdBuilds
  rw [← hu, pdBuildReplyPacket_eq, ← minimumPacketSize_le_iff, ← hsize]
  constructor
  · rintro ⟨t, h⟩
    obtain ⟨p, v, hg, h⟩ := bind_ok.mp h
    obtain ⟨rfl, rfl⟩ := getPd_ok.mp hg
    obtain ⟨o, v, hlay, h⟩ := bind_ok.mp h
    cases o with
    | none => exact absurd (pure_ok.mp h).1 (by decide)
    | some total =>
      obtain ⟨block, -, -, hlaid⟩ := pdLayReply_ok hr hlay
        (by rw [hupd]; exact hmode) (by rw [hu]; exact hroom) hord
      exact hlaid.large
  · intro hlarge
    obtain ⟨total, v, hlay⟩ : ∃ total v, pdLayReply env run i
        (getTxBufSize (u.pd i)) u = .ok (some total) v :=
      pdLayReply_short (by rw [hupd]; exact hmode) (by rw [hu]; exact hroom)
        hlarge (by rw [hupd]; exact hid)
    obtain ⟨block, rfl, hne, hlaid⟩ := pdLayReply_ok hr hlay
      (by rw [hupd]; exact hmode) (by rw [hu]; exact hroom) hord
    have hblock := hlaid.short (by rw [hupd]; exact hid)
    have hsc : (v.pd i).sc = (s.pd i).sc := by
      have e := congrArg Prod.fst hlaid.chan
      rw [hupd] at e
      exact e
    have hpos : dataPos i v ≤ 9 := by
      have h := hlaid.pos
      have hscb := initScbLen_le (u.pd i) (u.pd i).replyId
      have hm := markLen_le (u.pd i)
      omega
    obtain ⟨done, w, hdone, hge⟩ : Finalizes env i (getTxBufSize (u.pd i))
        (dataPos i v + block.length) v := by
      refine finalizes_short env hlaid.laid hne (getTxBufSize_le _)
        (hsc ▸ hrMac) (hsc ▸ hcMac) ?_
      have hmin : 128 ≤ getTxBufSize (u.pd i) := hlarge
      have hmax : sealMax = 22 := rfl
      omega
    refine ⟨w.updPd i fun p =>
      { p with packetBufLen := done.toNat, replyPrebuilt := true }, ?_⟩
    refine bind_ok.mpr ⟨u.pd i, u, rfl, bind_ok.mpr ⟨_, v, hlay, ?_⟩⟩
    refine bind_ok.mpr ⟨done, w, hdone, ?_⟩
    rw [if_neg (Int.not_lt.mpr hge)]
    rfl

end Build

-- ================================================================= states

/-- The refresh that starts in `s` turns to its reply in `u`. -/
structure ReplyDue (env : Env) (run : List ApiCall → OsdpM Unit) (i : Nat)
    (s u : Osdp) : Prop where
  course : ∃ v w ret,
    (do pdExpireSession env run i; pdExpireLink env run i) s = .ok () v ∧
    (v.pd i).replyPrebuilt = false ∧
    pdReceiveAndProcessCommand env run i v = .ok ret w ∧ answered ret ∧
    (do pdMarkOnline env run i; pdTouchSession i ret) w = .ok () u
  ready : (u.pd i).replyPrebuilt = false

/-- The states in which a PD has a packet to build or may be given one:
those between two inputs of a run, and those in which a refresh turns to
its reply. -/
inductive PdOnTurn (env : Env) (depth : Nat) (info : PdInfo) :
    Osdp → Prop where
  | idle {s₀ s : Osdp} {l : List PdInput}
      (setup : osdpPdSetup env info = some s₀)
      (run : PdRun env depth anyInput s₀ l s)
      (live : s.tearingDown = false) : PdOnTurn env depth info s
  | answering {s₀ s u : Osdp} {l : List PdInput} {now : Int} {rx : Bytes}
      (setup : osdpPdSetup env info = some s₀)
      (run : PdRun env depth anyInput s₀ l s)
      (live : s.tearingDown = false)
      (due : ReplyDue env (pdRunCalls env depth) 0 (s.begin now rx) u) :
      PdOnTurn env depth info u

/-- As long as PD 0 accepted no size that mutes it, it keeps to none. -/
def KeptSize (s : Osdp) : Prop :=
  AcceptsRoom 0 s.log → ¬ Mutes (s.pd 0).peerRxSize

theorem SizeStep.kept {s t : Osdp} (h : SizeStep 0 s t) (hs : KeptSize s) :
    KeptSize t :=
  fun ha => h.size ha (hs (ha.of_ext h.log))

theorem Configures.keepsSize {s t : Osdp} (h : Configures s t) :
    KeepsSize s t :=
  h.view sizeView (fun _ => rfl) fun _ _ => rfl

section Run

variable {env : Env} {depth : Nat} {info : PdInfo}

/-- Every input keeps it. -/
theorem carries_keptSize :
    Carries env depth anyInput KeptSize fun _ => True where
  congr _ _ hpd hlog _ h := by
    unfold KeptSize
    rw [hpd, hlog]
    exact h
  quiet _ _ hq := hq.keepsSize.sizeStep.kept
  configures _ _ hc := (Configures.keepsSize hc).sizeStep.kept
  refresh _ _ _ _ _ _ _ hw :=
    ((sizeStep_osdpPdUpdate (quiet_pdRunCalls env depth)).of hw).kept
  history _ _ := trivial
  calls _ _ _ _ := trivial

/-- A PD that was set up was announced no size. -/
theorem keptSize_setup {s : Osdp} (h : osdpPdSetup env info = some s) :
    KeptSize s := by
  have hsize : (s.pd 0).peerRxSize = 0 :=
    congrArg OsdpPd.peerRxSize (osdpPdSetup_pd h 0)
  intro _
  rw [hsize]
  decide

/-- Receiving leaves the PD and its buffers whole. -/
theorem intact_pdReceiveAndProcessCommand (i : Nat) :
    Keeps (Intact i) (pdReceiveAndProcessCommand env (pdRunCalls env depth)
      i) := by
  have hr := quiet_pdRunCalls env depth
  have hl := intact_pdListen i
  have hc : Keeps (Intact i) (osdpPhyCheckPacket env i) :=
    intact_osdpPhyCheckPacket i
  have hd : Keeps (Intact i) (osdpPhyDecodePacket env i) :=
    intact_osdpPhyDecodePacket i
  have hcmd (payload : Bytes) : Keeps (Intact i)
      (pdDecodeCommand env (pdRunCalls env depth) i payload) :=
    intact_pdDecodeCommand hr i payload
  have ho (o : Obs) : Keeps (Intact i) (observe o) := by
    intro s a t e
    obtain rfl := observe_ok.mp e
    exact ⟨rfl, id, Nat.le_refl _⟩
  have hs : Keeps (Intact i) (osdpPhyStateReset env i false) := by
    unfold osdpPhyStateReset
    exact .bind (intact_updPd (fun _ => rfl) fun _ h => h) fun _ => .pure _
  have hp : Keeps (Intact i)
      (pdProcessFrame env (pdRunCalls env depth) i) := by
    unfold pdProcessFrame
    grind
  unfold pdReceiveAndProcessCommand
  grind

/-- In every state of a run in which PD 0 has a packet to build it is a PD
with its buffer, and has kept its size. -/
theorem PdOnTurn.kept {x : Osdp} (h : PdOnTurn env depth info x) :
    (x.pd 0).flags.pdMode = true ∧ packetBufSize ≤ x.txBuf.length ∧
      KeptSize x := by
  have hr := quiet_pdRunCalls env depth
  have hidle {s₀ s : Osdp} {l : List PdInput}
      (setup : osdpPdSetup env info = some s₀)
      (run : PdRun env depth anyInput s₀ l s)
      (live : s.tearingDown = false) : (s.pd 0).flags.pdMode = true ∧
      packetBufSize ≤ s.txBuf.length ∧ KeptSize s := by
    have hcom := (carries_comInv.run_of_live (comInv_setup setup) run).live
      live
    exact ⟨hcom.mode, hcom.room,
      (carries_keptSize.run_of_live (keptSize_setup setup) run).live live⟩
  cases h with
  | idle setup run live => exact hidle setup run live
  | @answering s₀ s _ l now rx setup run live due =>
    obtain ⟨hmode, hroom, hkept⟩ := hidle setup run live
    have hkept : KeptSize (s.begin now rx) := hkept
    obtain ⟨v, w, ret, htime, -, hgot, -, hlive⟩ := due.course
    have hsv : Ages (s.begin now rx) v := by
      refine Keeps.of (.bind (ages_pdExpireSession hr 0) fun _ => ?_) htime
      exact ages_pdExpireLink hr 0
    have hwx : Ages w x := by
      refine Keeps.of (.bind (ages_pdMarkOnline hr 0) fun _ => ?_) hlive
      exact ages_pdTouchSession 0 ret
    have hint := trans_of (Intact 0) hsv.keepsCom.intact
      (trans_of (Intact 0) ((intact_pdReceiveAndProcessCommand 0).of hgot)
        hwx.keepsCom.intact)
    have hsize := trans_of (SizeStep 0) hsv.keepsSize.sizeStep
      (trans_of (SizeStep 0)
        ((sizeStep_pdReceiveAndProcessCommand hr).of hgot)
        hwx.keepsSize.sizeStep)
    exact ⟨hint.mode.trans hmode, Nat.le_trans hroom hint.room,
      hsize.kept hkept⟩

end Run

end LibOsdp
