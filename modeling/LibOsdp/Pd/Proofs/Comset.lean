/-
COMSET: the settings a PD reports, and the ones it comes to use.

The accepted address and baud rate wait in the union until REPLY_COM has
gone out; then the application is told (COMSET_DONE) and they take over.
Between the report and the change lie any number of refreshes in which the
channel takes nothing, and one more call of the application.

# What holds while the reply waits

`ComInv` says of every state between two inputs that a parked REPLY_COM
carries what is in the union (`ComReady`).  Building it makes that so
(`comReady_pdBuildReplyPacket`); nothing else that may happen to a PD
whose reply is parked touches the union or the packet.

# What goes wrong

COMSET_DONE is put to the application by the function every command goes
through, and that one writes a NAK code where the application fails.  The
code shares its byte with the address, so the PD then listens on an
address nobody was told (`comset_takes_effect_iff`).
-/
import LibOsdp.Pd.Proofs.KeyIntegrity
import LibOsdp.Pd.Proofs.Replies
import LibOsdp.Pd.Proofs.Room

namespace LibOsdp

open Lib

-- =============================================================== the wire

/-- The data block of a REPLY_COM for these settings. -/
def comBlock (address : UInt8) (baud : UInt32) : Bytes :=
  UInt8.ofNat replyCom :: address :: writeLe 4 baud.toNat

/-- The baud rate parked in the union. -/
def parkedBaud (p : OsdpPd) : UInt32 :=
  UInt32.ofNat (readLe 4 (p.pending.drop 4))

/-- A field of four bytes holds what a baud rate does. -/
theorem toNat_parkedBaud (p : OsdpPd) :
    (parkedBaud p).toNat = readLe 4 (p.pending.drop 4) := by
  have hlt := readLe_lt 4 (p.pending.drop 4)
  unfold parkedBaud
  rw [UInt32.toNat_ofNat']
  exact Nat.mod_eq_of_lt hlt

/-- The frame carries this data block: it is what the finalizer made of a
packet with the block behind its header. -/
def Conveys (env : Env) (i : Nat) (block frame : Bytes) : Prop :=
  ∃ s t total size done,
    osdpPhyFinalizePacket env i total size s = .ok done t ∧ 0 ≤ done ∧
      (s.txBuf.take total).drop (dataPos i s) = block ∧
      frame = t.txBuf.take done.toNat

/-- The frame PD `i` has ready to send. -/
def Osdp.readyFrame (s : Osdp) (i : Nat) : Bytes :=
  s.txBuf.take (s.pd i).packetBufLen

-- ================================================================= frames

/-- What a waiting REPLY_COM and its commit depend on in a PD. -/
@[grind] def comView (p : OsdpPd) :
    Bytes × (Nat × Nat) × (BufRef × Nat) × Bool × Bool :=
  (p.pending, (p.cmdId, p.replyId), (p.packetBuf, p.packetBufLen),
    p.replyPrebuilt, p.flags.pdMode)

/-- Nothing that a waiting REPLY_COM depends on was touched. -/
abbrev KeepsCom : Osdp → Osdp → Prop := Frame comView Osdp.txBuf Obs.isAny

/-- The same, the parking of a reply apart. -/
@[grind] def askedView (p : OsdpPd) : Bytes × (Nat × Nat) × Bool :=
  (p.pending, (p.cmdId, p.replyId), p.flags.pdMode)

/-- The settings and the exchange they belong to were left alone. -/
abbrev KeepsAsked : Osdp → Osdp → Prop :=
  Frame askedView noContext Obs.isAny

theorem KeepsCom.asked {s t : Osdp} (h : KeepsCom s t) : KeepsAsked s t :=
  h.view (fun v => (v.1, v.2.1, v.2.2.2.2)) (fun _ => rfl) fun _ => id

theorem Quiet.keepsCom {s t : Osdp} (h : Quiet s t) : KeepsCom s t := by
  refine h.mono (fun p q e => ?_) (fun a b e => ?_) fun _ _ => rfl
  · have e := congrArg comView e
    exact e
  · have e := congrArg Osdp.txBuf e
    exact e

theorem Ages.keepsCom {s t : Osdp} (h : Ages s t) : KeepsCom s t := by
  refine h.mono (fun p q e => ?_) (fun a b e => ?_) fun _ _ => rfl
  · have e := congrArg comView e
    exact e
  · have e := congrArg Osdp.txBuf e
    exact e

theorem Completes.keepsCom {s t : Osdp} (h : Completes s t) :
    KeepsCom s t := by
  refine h.mono (fun p q e => ?_) (fun a b e => ?_) fun _ _ => rfl
  · have e := congrArg comView e
    exact e
  · have e := congrArg Osdp.txBuf e
    exact e

theorem Configures.keepsCom {s t : Osdp} (h : Configures s t) :
    KeepsCom s t := by
  refine h.mono (fun p q e => ?_) (fun a b e => ?_) fun _ _ => rfl
  · have e := congrArg comView e
    exact e
  · have e := congrArg Osdp.txBuf e
    exact e

theorem BuildsPacket.keepsAsked {s t : Osdp} (h : BuildsPacket s t) :
    KeepsAsked s t :=
  h.view askedView (fun _ => rfl) fun _ _ => rfl

theorem Sends.keepsAsked {s t : Osdp} (h : Sends s t) : KeepsAsked s t :=
  h.view askedView (fun _ => rfl) fun _ _ => rfl

/-- PD `i` is still a PD whose union and transmit buffer are there. -/
structure Intact (i : Nat) (s t : Osdp) : Prop where
  mode : (t.pd i).flags.pdMode = (s.pd i).flags.pdMode
  union : (s.pd i).pending ≠ [] → (t.pd i).pending ≠ []
  room : Roomy s t

instance (i : Nat) : IsPreorder Osdp (Intact i) where
  refl s := ⟨rfl, id, refl_of Roomy s⟩
  trans := by
    intro s t u h k
    exact ⟨k.mode.trans h.mode, fun e => k.union (h.union e),
      trans_of Roomy h.room k.room⟩

section Frames

variable {i : Nat} {s t : Osdp}

theorem KeepsAsked.intact (h : KeepsAsked s t) (hr : Roomy s t) :
    Intact i s t := by
  have hv := h.pd i
  simp only [askedView, Prod.mk.injEq] at hv
  obtain ⟨hp, -, hm⟩ := hv
  exact ⟨hm, fun e => by rw [hp]; exact e, hr⟩

theorem KeepsCom.intact (h : KeepsCom s t) : Intact i s t :=
  h.asked.intact (roomy_of_eq h.rest)

theorem Handles.intact (h : Handles s t) : Intact i s t := by
  have hm := congrArg (fun p : OsdpPd => p.flags.pdMode) (h.pd i)
  exact ⟨hm, h.union i, h.room⟩

/-- One PD changed, its role apart. -/
theorem intact_updPd {f : OsdpPd → OsdpPd}
    (hm : ∀ p : OsdpPd, (f p).flags.pdMode = p.flags.pdMode)
    (hp : ∀ p : OsdpPd, p.pending ≠ [] → (f p).pending ≠ []) :
    Keeps (Intact i) (updPd i f) := by
  intro s a t e
  cases e
  refine ⟨?_, fun h => ?_, Nat.le_refl _⟩
  · rw [updPd_pd_same]
    exact hm _
  · rw [updPd_pd_same]
    exact hp _ h

end Frames

-- ============================================================== receiving

section Receive

variable {env : Env} {run : List ApiCall → OsdpM Unit}

theorem intact_replyWithNak (i : Nat) (c : UInt8) :
    Keeps (Intact i) (replyWithNak i c) :=
  intact_updPd (fun _ => rfl) fun _ => setNak_ne_nil c

/-- A frame check leaves a NAK code at most. -/
theorem intact_osdpPhyCheckPacket (i : Nat) :
    Keeps (Intact i) (osdpPhyCheckPacket env i) := by
  intro s r t h
  have hroom : Roomy s t := (read_osdpPhyCheckPacket (R := Roomy)).of h
  obtain ⟨u, hS, hc⟩ := ends_osdpPhyCheckPacket i s r t h
  have hp : (u.pd i).pending = (s.pd i).pending := by
    have e := congrArg OsdpPd.pending (hS.pd i)
    exact e
  have hm : (u.pd i).flags.pdMode = (s.pd i).flags.pdMode := by
    have e := congrArg (fun p : OsdpPd => p.flags.pdMode) (hS.pd i)
    exact e
  unfold SequenceChecked at hc
  split at hc
  · subst hc
    refine ⟨?_, fun e => ?_, hroom⟩
    · rw [updPd_pd_same]
      exact hm
    · rw [updPd_pd_same]
      exact setNak_ne_nil nakSeqNum (by rw [hp]; exact e)
  · subst hc
    exact ⟨hm, fun e => by rw [hp]; exact e, hroom⟩

/-- Neither the choice of a key nor the MAC is kept in the union. -/
theorem afterMac_pending (p : OsdpPd) (pkt : Bytes) (n : Nat) :
    (afterMac env p pkt n).pending = p.pending :=
  takeSelector_pending

/-- Decoding leaves the union, a NAK code apart. -/
theorem Decoded.pending_ne_nil {p : OsdpPd} {pkt : Bytes} {n : Nat}
    {r : DecodeResult} (h : Decoded env p pkt n r) (hp : p.pending ≠ []) :
    r.pd.pending ≠ [] := by
  cases h with
  | refused code href => exact setNak_ne_nil code hp
  | plain href hm =>
    show (takeSelector p pkt).pending ≠ []
    rw [takeSelector_pending]
    exact hp
  | dropped pkt' href hm hbad =>
    refine setNak_ne_nil nakScCond ?_
    show (afterMac env p pkt n).pending ≠ []
    rw [afterMac_pending]
    exact hp
  | maced href hm hok he =>
    show (afterMac env p pkt n).pending ≠ []
    rw [afterMac_pending]
    exact hp
  | decrypted pkt' text href hm hok he =>
    show (afterMac env p pkt n).pending ≠ []
    rw [afterMac_pending]
    exact hp

theorem intact_osdpPhyDecodePacket (i : Nat) :
    Keeps (Intact i) (osdpPhyDecodePacket env i) := by
  intro s a t h
  obtain ⟨len, payload⟩ := a
  obtain ⟨r, hr, -, -, htp, hrx, -⟩ := osdpPhyDecodePacket_ok h
  refine ⟨?_, fun e => ?_, (roomy_osdpPhyDecodePacket i).of h⟩
  · have e := congrArg (fun p : OsdpPd => p.flags.pdMode) (hrx.pd i)
    exact e
  · rw [htp]
    exact (decoded_of hr).pending_ne_nil e

theorem intact_pdListen (i : Nat) : Keeps (Intact i) (pdListen i) := by
  have ho : Keeps (Intact i) (observe (.receive i)) := by
    intro s a t e
    cases e
    exact ⟨rfl, id, Nat.le_refl _⟩
  exact .bind (intact_updPd (fun _ => rfl) fun _ h => h) fun _ => ho

theorem intact_pdDecodeScrypt (i : Nat) (data : Bytes) :
    Keeps (Intact i) (pdDecodeScrypt env i data) := by
  have hc : Keeps (Intact i) (pdCmdCapOk i none) :=
    (keeps_pdCmdCapOk (R := Handles) i none).mono fun _ _ => Handles.intact
  have hn (c : UInt8) : Keeps (Intact i) (setNakCode i c) :=
    intact_updPd (fun _ => rfl) fun _ => setNak_ne_nil c
  have hp : Keeps (Intact i) (updPd i fun p =>
      { p with sc := { p.sc with cpCryptogram := data } }) :=
    intact_updPd (fun _ => rfl) fun _ h => h
  have hs : Keeps (Intact i) (setReply i replyRmacI) :=
    intact_updPd (fun _ => rfl) fun _ h => h
  unfold pdDecodeScrypt
  grind

variable (hr : ∀ calls, Keeps Quiet (run calls))
include hr

theorem intact_pdScDeactivate (i : Nat) :
    Keeps (Intact i) (pdScDeactivate env run i) :=
  (ages_pdScDeactivate hr i).mono fun _ _ h => (Ages.keepsCom h).intact

theorem intact_pdDecodeChlng (i : Nat) (data : Bytes) :
    Keeps (Intact i) (pdDecodeChlng env run i data) := by
  have hc : Keeps (Intact i) (pdCmdCapOk i none) :=
    (keeps_pdCmdCapOk (R := Handles) i none).mono fun _ _ => Handles.intact
  have hd : Keeps (Intact i) (pdScDeactivate env run i) :=
    intact_pdScDeactivate hr i
  have hs : Keeps (Intact i) (osdpScSetup env i) := by
    intro s a t h
    have hm : Keeps KeepsAsked (osdpScSetup env i) := by
      have hf (n : Nat) : Keeps KeepsAsked (osdpFillRandom env n) := by
        intro s a t e
        cases e
        exact ⟨fun _ => rfl, rfl, LogExt.cons rfl⟩
      unfold osdpScSetup
      grind
    exact (hm.of h).intact ((roomy_osdpScSetup i).of h)
  have hp : Keeps (Intact i) (updPd i fun p =>
      { p with
        sc := { p.sc with cpRandom := data }, replyId := replyCcrypt }) :=
    intact_updPd (fun _ => rfl) fun _ h => h
  unfold pdDecodeChlng
  grind

/-- Any command: by cases on the id. -/
theorem intact_pdDecodeCases (i id : Nat) (data : Bytes) :
    Keeps (Intact i) (pdDecodeCases env run i id data) := by
  by_cases hc : id = cmdChlng
  · subst hc
    exact .bind (intact_pdDecodeChlng hr i data) fun _ => .pure _
  · by_cases hs : id = cmdScrypt
    · subst hs
      exact .bind (intact_pdDecodeScrypt i data) fun _ => .pure _
    · refine keeps_pdDecodeCases hr i data (fun _ _ => Handles.intact)
        (fun s n => ?_) hc hs
      refine ⟨?_, fun h => ?_, Nat.le_refl _⟩
      · rw [updPd_pd_same]
      · rw [updPd_pd_same]
        exact h

theorem intact_pdDecodeCommand (i : Nat) (payload : Bytes) :
    Keeps (Intact i) (pdDecodeCommand env run i payload) := by
  have hn := intact_replyWithNak i
  have hs (c : UInt8) : Keeps (Intact i) (setNakCode i c) :=
    intact_updPd (fun _ => rfl) fun _ => setNak_ne_nil c
  have hu (id : Nat) : Keeps (Intact i) (updPd i fun p =>
      { p with cmdId := id }) :=
    intact_updPd (fun _ => rfl) fun _ h => h
  have hc (id : Nat) (data : Bytes) :
      Keeps (Intact i) (pdDecodeCases env run i id data) :=
    intact_pdDecodeCases hr i id data
  unfold pdDecodeCommand
  refine .bind (hn nakRecord) fun _ => .bind (hu _) fun _ =>
    .bind (keeps_getPd i) fun p => ?_
  grind

-- ------------------------------------------------ the command that is on

/-- No COMSET leaves a reply parked while it is handled. -/
theorem keepsKey_pdDecodeComset (i : Nat) (data : Bytes) :
    Keeps KeepsKey (pdDecodeComset env run i data) := by
  have hd (cmd : OsdpCmd) :
      Keeps KeepsKey (doCommandCallback env run i cmd) :=
    keepsKey_doCommandCallback hr i cmd
  have hp (address : UInt8) (baud : UInt32) :
      Keeps KeepsKey (pdParkComset i address baud) :=
    keeps_updPd fun _ => rfl
  unfold pdDecodeComset
  grind

/-- Where a command left a reply parked it was no COMSET. -/
theorem comset_parks_nothing {i : Nat} {payload : Bytes} {ret : Int}
    {s t : Osdp} (h : pdDecodeCommand env run i payload s = .ok ret t)
    (hf : (s.pd i).replyPrebuilt = false)
    (hc : (t.pd i).cmdId = cmdComset) :
    (t.pd i).replyPrebuilt = false := by
  have hn (c : UInt8) : Keeps KeepsKey (replyWithNak i c) :=
    keeps_updPd fun _ => rfl
  have hs (c : UInt8) : Keeps KeepsKey (setNakCode i c) :=
    keeps_updPd fun _ => rfl
  unfold pdDecodeCommand at h
  obtain ⟨_, u, hu, h⟩ := bind_ok.mp h
  obtain ⟨_, v, hv, h⟩ := bind_ok.mp h
  obtain ⟨p, w, hg, h⟩ := bind_ok.mp h
  obtain ⟨rfl, rfl⟩ := getPd_ok.mp hg
  have hsv : KeepsKey s v := trans_of KeepsKey ((hn nakRecord).of hu)
    (frame_of_updPd hv fun _ => rfl)
  have hid : (v.pd i).cmdId = payloadId payload := by
    obtain rfl := updPd_ok.mp hv
    rw [updPd_pd_same]
    rfl
  -- what comes after the id was stored leaves it
  have hcases (id : Nat) (data : Bytes) :
      Keeps KeepsCmd (pdDecodeCases env run i id data) :=
    keepsCmd_pdDecodeCases hr i id data
  have hrefuse (c : UInt8) : Keeps KeepsCmd (replyWithNak i c) :=
    keeps_updPd fun _ => rfl
  have hcmd : KeepsCmd v t := Keeps.of (by grind) h
  have hvt : (t.pd i).cmdId = (v.pd i).cmdId := by
    have e := congrArg Prod.snd (hcmd.pd i)
    exact e
  have hcom : (byteAt payload 0).toNat = cmdComset := by
    show payloadId payload = cmdComset
    rw [← hid, ← hvt]
    exact hc
  rw [hcom] at h
  have hdata : Keeps KeepsKey (pdDecodeCases env run i cmdComset
      (payload.drop 1)) :=
    .bind (keepsKey_pdDecodeComset hr i _) fun _ => .pure _
  have hkey : KeepsKey v t := Keeps.of (by grind) h
  have e := congrArg Prod.snd
    ((trans_of KeepsKey hsv hkey).pd i)
  have e : (t.pd i).replyPrebuilt = (s.pd i).replyPrebuilt := e
  rw [e, hf]

end Receive

-- =============================================================== building

section Build

variable {env : Env} {run : List ApiCall → OsdpM Unit}

/-- The data of a REPLY_COM are what the union holds. -/
theorem pdBuildData_com {i : Nat} {p : OsdpPd} {smb : Option Nat}
    {maxLen : Int} {s t : Osdp} {body : Option Bytes}
    (hid : p.replyId = replyCom)
    (h : pdBuildData env run i p smb maxLen s = .ok body t) :
    body = ifFits maxLen
      ((s.pd i).nakCode :: writeLe 4 (parkedBaud (s.pd i)).toNat) := by
  unfold pdBuildData at h
  rw [hid, toNat_parkedBaud] at *
  obtain ⟨p, u, hg, h⟩ := bind_ok.mp h
  obtain ⟨rfl, rfl⟩ := getPd_ok.mp hg
  exact (pure_ok.mp h).1.symm

/-- Where a packet was laid, the transmit buffer is the packet buffer. -/
theorem pdLayReply_packetBuf {i size total : Nat} {s t : Osdp}
    (h : pdLayReply env run i size s = .ok (some total) t) :
    (t.pd i).packetBuf = .tx := by
  unfold pdLayReply at h
  obtain ⟨_, u, -, h⟩ := bind_ok.mp h
  obtain ⟨hdr, v, -, h⟩ := bind_ok.mp h
  split at h
  · cases (pure_ok.mp h).1
  · obtain ⟨_, w, -, h⟩ := bind_ok.mp h
    obtain ⟨len, x, -, h⟩ := bind_ok.mp h
    split at h
    · cases (pure_ok.mp h).1
    · obtain ⟨_, y, hy, h⟩ := bind_ok.mp h
      obtain rfl := updPd_ok.mp hy
      obtain ⟨-, rfl⟩ := pure_ok.mp h
      rw [updPd_pd_same]

/-- PD `i` has REPLY_COM ready to send, and it says what the union does. -/
def Announces (env : Env) (i : Nat) (s : Osdp) : Prop :=
  (s.pd i).packetBuf = .tx ∧
    Conveys env i (comBlock (s.pd i).nakCode (parkedBaud (s.pd i)))
      (s.readyFrame i)

variable (hr : ∀ calls, Keeps Quiet (run calls))
include hr

omit hr in
/-- The block of a REPLY_COM that was laid: there is always room for it. -/
theorem comBlock_laid {i size : Nat} {s t : Osdp} {block : Bytes}
    (h : ReplyLaid env run i size s block t)
    (hid : (s.pd i).replyId = replyCom) :
    block = comBlock (s.pd i).nakCode (parkedBaud (s.pd i)) := by
  have hsmall : dataPos i t ≤ 9 := by
    have hpos := h.pos
    have hmark := markLen_le (s.pd i)
    have hscb := initScbLen_le (s.pd i) (s.pd i).replyId
    omega
  have hlarge : 128 ≤ size := h.large
  have hdata (v : Osdp) (hv : v.pd i =
      { startedPd { s.pd i with packetBuf := .tx } with
        packetBufLen := dataPos i t }) {smb : Option Nat} {x y : Osdp}
      {body : Option Bytes} (hx : x.pd = v.pd)
      (hpos : dataPos i v = dataPos i t)
      (hb : pdBuildData env run i (v.pd i) smb
        (size - dataPos i v - 1 : Nat) x = .ok body y) :
      body = some ((s.pd i).nakCode ::
        writeLe 4 (parkedBaud (s.pd i)).toNat) := by
    have hvid : (v.pd i).replyId = replyCom := by
      rw [hv]
      exact hid
    have hbody := pdBuildData_com hvid hb
    rw [hx, hv] at hbody
    have hlen : ((s.pd i).nakCode ::
        writeLe 4 (parkedBaud (s.pd i)).toNat).length = 5 := by
      rw [List.length_cons, length_writeLe]
    have hroom : ¬ ((size - dataPos i v - 1 : Nat) : Int) < (5 : Nat) := by
      omega
    rw [hbody]
    show ifFits _ ((s.pd i).nakCode ::
      writeLe 4 (parkedBaud (s.pd i)).toNat) = _
    unfold ifFits
    rw [hlen, if_neg hroom]
  rcases h.what with ⟨v, hv, hpos, data, x, y, hx, hb, rfl⟩ |
    ⟨v, hv, hpos, ⟨x, y, hx, hb⟩, -⟩
  · have e := Option.some.inj (hdata v hv hx hpos hb)
    rw [hv, e]
    show UInt8.ofNat (s.pd i).replyId :: _ = _
    rw [hid]
    rfl
  · cases hdata v hv hx hpos hb

/-- A REPLY_COM that was built says what the union holds. -/
theorem announces_pdBuildReplyPacket {i : Nat} {s t : Osdp}
    (h : pdBuildReplyPacket env run i s = .ok pdErrNone t)
    (hmode : (s.pd i).flags.pdMode = true)
    (hroom : packetBufSize ≤ s.txBuf.length)
    (hid : (s.pd i).replyId = replyCom) : Announces env i t := by
  have hst : (t.pd i).pending = (s.pd i).pending := by
    have e := congrArg Prod.fst
      (((builds_pdBuildReplyPacket hr i).of h).keepsAsked.pd i)
    exact e
  rw [pdBuildReplyPacket_eq] at h
  obtain ⟨p, u, hg, h⟩ := bind_ok.mp h
  obtain ⟨rfl, rfl⟩ := getPd_ok.mp hg
  obtain ⟨o, u, hlay, h⟩ := bind_ok.mp h
  cases o with
  | none => cases (pure_ok.mp h).1
  | some total =>
    obtain ⟨done, v, hfin, h⟩ := bind_ok.mp h
    split at h
    · cases (pure_ok.mp h).1
    · next hdone =>
      obtain ⟨_, w, hw, h⟩ := bind_ok.mp h
      obtain rfl := updPd_ok.mp hw
      obtain ⟨-, rfl⟩ := pure_ok.mp h
      obtain ⟨block, rfl, hne, hlaid⟩ :=
        pdLayReply_ok hr hlay hmode hroom (by rw [hid]; rfl)
      have hblock := comBlock_laid hlaid hid
      have hbuf : (v.pd i).packetBuf = .tx := by
        have hut : (v.pd i).packetBuf = (u.pd i).packetBuf := by
          have hf := hfin
          rw [finalize_laid env hlaid.laid hne] at hf
          split at hf
          · cases hf
          · split at hf <;> cases hf <;>
              (unfold sealedOn; rw [updPd_pd_same])
        rw [hut]
        exact pdLayReply_packetBuf hlay
      refine ⟨?_, u, v, _, _, done, hfin, Int.not_lt.mp hdone, ?_, ?_⟩
      · rw [updPd_pd_same]
        exact hbuf
      · rw [hlaid.laid.block_eq, hblock]
        unfold OsdpPd.nakCode parkedBaud
        rw [hst]
      · show v.txBuf.take _ = _
        rw [updPd_pd_same]

/-- Whether a reply waits, and which one it is. -/
@[grind] def waitView (p : OsdpPd) : Nat × Bool :=
  (p.replyId, p.replyPrebuilt)

/-- The reply is the same, and was neither parked nor taken out. -/
abbrev KeepsWait : Osdp → Osdp → Prop :=
  Frame waitView noContext Obs.isAny

instance : PacketMoves KeepsWait where
  packet _ _ _ h := Frame.updPd _ _ fun p => by
    have e := congrArg waitView (h p)
    exact e
  txBuf _ _ _ := ⟨fun _ => rfl, rfl, refl_of (LogExt _) _⟩

/-- An ordinary reply that could not be built is not parked. -/
theorem unparked_pdBuildReplyPacket {i : Nat} {built : Int} {s t : Osdp}
    (h : pdBuildReplyPacket env run i s = .ok built t)
    (hfail : built ≠ pdErrNone) (hord : hsReply (s.pd i).replyId = false)
    (hf : (s.pd i).replyPrebuilt = false) :
    (t.pd i).replyPrebuilt = false := by
  have hlay : Keeps KeepsWait (do
      updPd i fun p => { p with packetBuf := .tx }
      osdpPhyPacketInit i (getTxBufSize (s.pd i))) :=
    .bind (keeps_updPd fun _ => rfl) fun _ => keeps_osdpPhyPacketInit i _
  have hfin (len size : Nat) :
      Keeps KeepsWait (osdpPhyFinalizePacket env i len size) :=
    keeps_osdpPhyFinalizePacket i len size
  have of_wait {a b : Osdp} (hw : KeepsWait a b) :
      (b.pd i).replyId = (a.pd i).replyId ∧
        (b.pd i).replyPrebuilt = (a.pd i).replyPrebuilt := by
    have hv := hw.pd i
    simp only [waitView, Prod.mk.injEq] at hv
    exact hv
  unfold pdBuildReplyPacket at h
  obtain ⟨p, u, hg, h⟩ := bind_ok.mp h
  obtain ⟨rfl, rfl⟩ := getPd_ok.mp hg
  obtain ⟨_, u, hu, h⟩ := bind_ok.mp h
  obtain ⟨hdr, v, hv, h⟩ := bind_ok.mp h
  obtain ⟨hidv, hfv⟩ := of_wait (hlay.of (bind_ok.mpr ⟨(), u, hu, hv⟩))
  split at h
  · obtain ⟨-, rfl⟩ := pure_ok.mp h
    rw [hfv, hf]
  · obtain ⟨_, w, hw, h⟩ := bind_ok.mp h
    obtain ⟨hidw, hfw⟩ := of_wait
      (frame_of_updPd (v := waitView) (w := noContext) (E := Obs.isAny) hw
        fun _ => rfl)
    obtain ⟨len, x, hx, h⟩ := bind_ok.mp h
    have hwx : KeepsWait w x := by
      unfold pdBuildReply at hx
      obtain ⟨p, y, hg, hx⟩ := bind_ok.mp hx
      obtain ⟨rfl, rfl⟩ := getPd_ok.mp hg
      obtain ⟨_, y, hy, hx⟩ := bind_ok.mp hx
      have hwy : KeepsWait w y := (keeps_observe rfl).of hy
      have hyx := (packs_pdBuildBody hr i (getTxBufSize (s.pd i))
        (show hsReply (w.pd i).replyId = false by
          rw [hidw, hidv]; exact hord)).of hx
      refine trans_of KeepsWait hwy (hyx.view waitView ?_ ?_)
      · exact fun _ => rfl
      · exact fun _ _ => rfl
    obtain ⟨-, hfx⟩ := of_wait hwx
    have hfx : (x.pd i).replyPrebuilt = false := by
      rw [hfx, hfw, hfv, hf]
    split at h
    · obtain ⟨-, rfl⟩ := pure_ok.mp h
      exact hfx
    · obtain ⟨_, y, hy, h⟩ := bind_ok.mp h
      obtain ⟨done, z, hz, h⟩ := bind_ok.mp h
      obtain ⟨-, hfy⟩ := of_wait
        (frame_of_updPd (v := waitView) (w := noContext) (E := Obs.isAny) hy
          fun _ => rfl)
      obtain ⟨-, hfz⟩ := of_wait ((hfin _ _).of hz)
      split at h
      · obtain ⟨-, rfl⟩ := pure_ok.mp h
        rw [hfz, hfy, hfx]
      · obtain ⟨_, a, ha, h⟩ := bind_ok.mp h
        exact absurd (pure_ok.mp h).1.symm hfail

end Build

-- ============================================================= the moment

section Moment

variable {env : Env} {run : List ApiCall → OsdpM Unit}

/-- `osdp_pd_update` up to its send stage, and whether it gets there. -/
def pdUntilSend (env : Env) (run : List ApiCall → OsdpM Unit) (i : Nat) :
    OsdpM Bool := do
  pdExpireSession env run i
  pdExpireLink env run i
  let p ← getPd i
  if p.replyPrebuilt then
    return true
  let ret ← pdReceiveAndProcessCommand env run i
  if ret = pdErrIgnore ∨ ret = pdErrNoData then
    return false
  let p ← getPd i
  let age ← osdpMillisSince p.tstamp
  if ret = pdErrWait ∧ age < respToutMs then
    return false
  if ret ≠ pdErrNone ∧ ret ≠ pdErrReply then
    pdErrorReset env run i
    return false
  pdMarkOnline env run i
  pdTouchSession i ret
  let p ← getPd i
  if p.replyPrebuilt then
    return true
  let built ← pdBuildReplyPacket env run i
  if built ≠ pdErrNone then
    pdErrorReset env run i
    return false
  return true

/-- A refresh goes through the moment, or ends before it. -/
theorem osdpPdUpdate_eq (i : Nat) :
    osdpPdUpdate env run i = (do
      let send ← pdUntilSend env run i
      if send then
        pdSendStage env run i) := by
  unfold osdpPdUpdate pdUntilSend pdServe pdReplyStage
  simp only [bind_assoc]
  refine bind_congr fun _ => bind_congr fun _ => bind_congr fun p => ?_
  by_cases hp : p.replyPrebuilt = true
  · simp only [hp, if_true, pure_bind]
  · simp only [hp, Bool.false_eq_true, if_false, bind_assoc]
    refine bind_congr fun ret => ?_
    by_cases hd : ret = pdErrIgnore ∨ ret = pdErrNoData
    · simp only [if_pos hd, pure_bind, Bool.false_eq_true, if_false]
    · simp only [if_neg hd, bind_assoc]
      refine bind_congr fun q => bind_congr fun age => ?_
      by_cases hw : ret = pdErrWait ∧ age < respToutMs
      · simp only [if_pos hw, pure_bind, Bool.false_eq_true, if_false]
      · rw [if_neg hw, if_neg hw]
        by_cases hn : ret ≠ pdErrNone ∧ ret ≠ pdErrReply
        · simp only [if_pos hn, bind_assoc, pure_bind, Bool.false_eq_true,
            if_false, bind_pure_unit]
        · rw [if_neg hn, if_neg hn]
          simp only [bind_assoc]
          refine bind_congr fun _ => bind_congr fun _ =>
            bind_congr fun r => ?_
          by_cases hb : r.replyPrebuilt = true
          · simp only [hb, if_true, pure_bind]
          · simp only [hb, Bool.false_eq_true, if_false, bind_assoc]
            refine bind_congr fun built => ?_
            by_cases he : built ≠ pdErrNone
            · simp only [if_pos he, bind_assoc, pure_bind,
                Bool.false_eq_true, if_false, bind_pure_unit]
            · simp only [if_neg he, pure_bind, if_true]

/-- How a refresh that got a frame goes on, up to its send stage. -/
inductive Replied (env : Env) (run : List ApiCall → OsdpM Unit) (i : Nat)
    (ret : Int) (s : Osdp) : Bool → Osdp → Prop where
  | ignored : Replied env run i ret s false s
  | reset {u : Osdp} (reset : pdErrorReset env run i s = .ok () u) :
      Replied env run i ret s false u
  | prebuilt {u : Osdp} (h : answered ret)
      (live : (do pdMarkOnline env run i; pdTouchSession i ret) s
        = .ok () u)
      (ready : (u.pd i).replyPrebuilt = true) :
      Replied env run i ret s true u
  | dropped {u v w : Osdp} {built : Int} (h : answered ret)
      (live : (do pdMarkOnline env run i; pdTouchSession i ret) s
        = .ok () u)
      (ready : (u.pd i).replyPrebuilt = false)
      (build : pdBuildReplyPacket env run i u = .ok built v)
      (fail : built ≠ pdErrNone)
      (reset : pdErrorReset env run i v = .ok () w) :
      Replied env run i ret s false w
  | built {u v : Osdp} (h : answered ret)
      (live : (do pdMarkOnline env run i; pdTouchSession i ret) s
        = .ok () u)
      (ready : (u.pd i).replyPrebuilt = false)
      (build : pdBuildReplyPacket env run i u = .ok pdErrNone v) :
      Replied env run i ret s true v

/-- The courses of a refresh up to its send stage. -/
theorem untilSend_cases {i : Nat} {s u : Osdp} {b : Bool}
    (h : pdUntilSend env run i s = .ok b u) :
    ∃ v, (do pdExpireSession env run i; pdExpireLink env run i) s
        = .ok () v ∧
      ((v.pd i).replyPrebuilt = true ∧ b = true ∧ u = v ∨
        (v.pd i).replyPrebuilt = false ∧
          ∃ w x ret, pdListen i v = .ok () w ∧
            Received env run i w ret x ∧ Replied env run i ret x b u) := by
  unfold pdUntilSend at h
  obtain ⟨_, v₀, h₁, h⟩ := bind_ok.mp h
  obtain ⟨_, v, h₂, h⟩ := bind_ok.mp h
  refine ⟨v, bind_ok.mpr ⟨(), v₀, h₁, h₂⟩, ?_⟩
  obtain ⟨p, w, hg, h⟩ := bind_ok.mp h
  obtain ⟨rfl, rfl⟩ := getPd_ok.mp hg
  split at h
  · next hp =>
    obtain ⟨rfl, rfl⟩ := pure_ok.mp h
    exact .inl ⟨hp, rfl, rfl⟩
  · next hp =>
    obtain ⟨ret, x, hx, h⟩ := bind_ok.mp h
    obtain ⟨w, hl, hrec⟩ := received_of hx
    refine .inr ⟨by simpa using hp, w, x, ret, hl, hrec, ?_⟩
    split at h
    · obtain ⟨rfl, rfl⟩ := pure_ok.mp h
      exact .ignored
    · obtain ⟨q, y, hg, h⟩ := bind_ok.mp h
      obtain ⟨rfl, rfl⟩ := getPd_ok.mp hg
      obtain ⟨age, y, hage, h⟩ := bind_ok.mp h
      cases hage
      split at h
      · obtain ⟨rfl, rfl⟩ := pure_ok.mp h
        exact .ignored
      · split at h
        · obtain ⟨_, y, hy, h⟩ := bind_ok.mp h
          obtain ⟨rfl, rfl⟩ := pure_ok.mp h
          exact .reset hy
        · next hans =>
          have hans : answered ret := by
            unfold answered
            tauto
          obtain ⟨_, y, hy, h⟩ := bind_ok.mp h
          obtain ⟨_, z, hz, h⟩ := bind_ok.mp h
          have hlive : (do pdMarkOnline env run i; pdTouchSession i ret) x
              = .ok () z := bind_ok.mpr ⟨(), y, hy, hz⟩
          obtain ⟨q, z', hg, h⟩ := bind_ok.mp h
          obtain ⟨rfl, rfl⟩ := getPd_ok.mp hg
          split at h
          · next hready =>
            obtain ⟨rfl, rfl⟩ := pure_ok.mp h
            exact .prebuilt hans hlive hready
          · next hready =>
            have hready : (z.pd i).replyPrebuilt = false := by
              simpa using hready
            obtain ⟨built, a, ha, h⟩ := bind_ok.mp h
            split at h
            · next hfail =>
              obtain ⟨_, c, hc, h⟩ := bind_ok.mp h
              obtain ⟨rfl, rfl⟩ := pure_ok.mp h
              exact .dropped hans hlive hready ha hfail hc
            · next hok =>
              obtain ⟨rfl, rfl⟩ := pure_ok.mp h
              rw [not_not.mp hok] at ha
              exact .built hans hlive hready ha

end Moment

-- ========================================================== the invariant

/-- A REPLY_COM to a COMSET says what the union holds. -/
def ComReady (env : Env) (i : Nat) (s : Osdp) : Prop :=
  (s.pd i).cmdId = cmdComset → (s.pd i).replyId = replyCom →
    Announces env i s

/-- PD `i` is a PD with its buffers, and a REPLY_COM that waits for the
channel says what the union holds. -/
structure ComInv (env : Env) (i : Nat) (s : Osdp) : Prop where
  mode : (s.pd i).flags.pdMode = true
  union : (s.pd i).pending ≠ []
  room : packetBufSize ≤ s.txBuf.length
  parked : (s.pd i).replyPrebuilt = true → ComReady env i s

/-- PD `i` and its buffers are intact, and no reply was parked. -/
structure ParksNone (i : Nat) (s t : Osdp) : Prop where
  intact : Intact i s t
  free : (s.pd i).replyPrebuilt = false → (t.pd i).replyPrebuilt = false

instance (i : Nat) : IsPreorder Osdp (ParksNone i) where
  refl s := ⟨refl_of (Intact i) s, id⟩
  trans := by
    intro s t u h k
    exact ⟨trans_of (Intact i) h.intact k.intact, fun e => k.free (h.free e)⟩

section Invariant

variable {env : Env} {i : Nat} {s t : Osdp}

theorem ComReady.keep (h : ComReady env i s) (hk : KeepsCom s t) :
    ComReady env i t := by
  have hv := hk.pd i
  simp only [comView, Prod.mk.injEq] at hv
  obtain ⟨hp, ⟨hc, hid⟩, ⟨hb, hl⟩, -⟩ := hv
  have htx : t.txBuf = s.txBuf := hk.rest
  intro e₁ e₂
  obtain ⟨hbuf, hsays⟩ := h (hc ▸ e₁) (hid ▸ e₂)
  refine ⟨hb.trans hbuf, ?_⟩
  unfold Osdp.readyFrame OsdpPd.nakCode parkedBaud
  rw [hp, hl, htx]
  exact hsays

/-- What is intact, and whether something is parked, is all there is. -/
theorem ComInv.move (h : ComInv env i s) (hk : Intact i s t)
    (hp : (t.pd i).replyPrebuilt = true → ComReady env i t) :
    ComInv env i t :=
  ⟨hk.mode.trans h.mode, hk.union h.union, Nat.le_trans h.room hk.room, hp⟩

theorem ComInv.keep (h : ComInv env i s) (hk : KeepsCom s t) :
    ComInv env i t := by
  have hv := hk.pd i
  simp only [comView, Prod.mk.injEq] at hv
  exact h.move hk.intact fun e => (h.parked (hv.2.2.2.1 ▸ e)).keep hk

theorem ComInv.settle (h : ComInv env i s) (hk : ParksNone i s t)
    (hf : (s.pd i).replyPrebuilt = false) :
    ComInv env i t ∧ (t.pd i).replyPrebuilt = false := by
  have hf := hk.free hf
  refine ⟨h.move hk.intact fun e => ?_, hf⟩
  rw [hf] at e
  cases e

theorem KeepsCom.parksNone (h : KeepsCom s t) : ParksNone i s t := by
  have hv := h.pd i
  simp only [comView, Prod.mk.injEq] at hv
  exact ⟨h.intact, fun e => hv.2.2.2.1.trans e⟩

theorem parksNone_updPd {f : OsdpPd → OsdpPd}
    (hm : ∀ p : OsdpPd, (f p).flags.pdMode = p.flags.pdMode)
    (hp : ∀ p : OsdpPd, p.pending ≠ [] → (f p).pending ≠ [])
    (hf : ∀ p : OsdpPd, (f p).replyPrebuilt = p.replyPrebuilt) :
    Keeps (ParksNone i) (updPd i f) := by
  intro s a t e
  refine ⟨(intact_updPd hm hp).of e, fun h => ?_⟩
  obtain rfl := updPd_ok.mp e
  rw [updPd_pd_same, hf]
  exact h

end Invariant

-- ============================================================ the refresh

section Refresh

variable {env : Env} {run : List ApiCall → OsdpM Unit}

/-- Looking for a frame parks no reply. -/
theorem parksNone_receives {i : Nat} {s t : Osdp} (hk : Receives s t)
    (hi : Intact i s t) : ParksNone i s t :=
  ⟨hi, fun e => by
    have hv := congrArg Prod.snd (hk.keepsKey.pd i)
    have hv : (t.pd i).replyPrebuilt = (s.pd i).replyPrebuilt := hv
    rw [hv, e]⟩

theorem parksNone_osdpPhyStateReset (i : Nat) :
    Keeps (ParksNone i) (osdpPhyStateReset env i false) := by
  unfold osdpPhyStateReset
  exact .bind (parksNone_updPd (fun _ => rfl) (fun _ h => h) fun _ => rfl)
    fun _ => .pure _

variable (hr : ∀ calls, Keeps Quiet (run calls))
include hr

theorem parksNone_pdCompleteActive (i : Nat) (st : CompletionStatus) :
    Keeps (ParksNone i) (pdCompleteActive env run i st) :=
  (completes_pdCompleteActive hr i st).mono
    fun _ _ h => (Completes.keepsCom h).parksNone

theorem parksNone_pdScDeactivate (i : Nat) :
    Keeps (ParksNone i) (pdScDeactivate env run i) :=
  (ages_pdScDeactivate hr i).mono fun _ _ h => (Ages.keepsCom h).parksNone

/-- A frame was looked for: a reply that waits now is no COMSET's. -/
theorem comInv_received {i : Nat} {s t : Osdp} {ret : Int}
    (h : Received env run i s ret t) (hi : ComInv env i s)
    (hf : (s.pd i).replyPrebuilt = false) :
    ComInv env i t ∧
      ((t.pd i).replyPrebuilt = true → (t.pd i).cmdId ≠ cmdComset) := by
  have hcheck {rc : Int} {u : Osdp}
      (hc : osdpPhyCheckPacket env i s = .ok rc u) : ParksNone i s u :=
    parksNone_receives ((receives_osdpPhyCheckPacket i).of hc)
      ((intact_osdpPhyCheckPacket i).of hc)
  have hdecode {u v : Osdp} {r : Int × Bytes}
      (hd : osdpPhyDecodePacket env i u = .ok r v) : ParksNone i u v :=
    parksNone_receives ((receives_osdpPhyDecodePacket i).of hd)
      ((intact_osdpPhyDecodePacket i).of hd)
  -- without a command nothing is parked
  have hquiet {u : Osdp} (hk : ParksNone i s u) : ComInv env i u ∧
      ((u.pd i).replyPrebuilt = true → (u.pd i).cmdId ≠ cmdComset) := by
    obtain ⟨hu, hfu⟩ := hi.settle hk hf
    exact ⟨hu, fun e => by rw [hfu] at e; cases e⟩
  cases h with
  | none hne check reset skip =>
    have hsu := hcheck check
    rcases reset with rfl | hreset
    · exact hquiet hsu
    · exact hquiet (trans_of (ParksNone i) hsu
        ((parksNone_osdpPhyStateReset i).of hreset))
  | refused check hlen decode =>
    exact hquiet (trans_of (ParksNone i) (hcheck check) (hdecode decode))
  | @decoded len _ payload u v w check hlen decode command =>
    have hsv := trans_of (ParksNone i) (hcheck check) (hdecode decode)
    obtain ⟨hv, hfv⟩ := hi.settle hsv hf
    have hvw := (intact_pdDecodeCommand hr i payload).of command
    have hw : Intact i v w := ⟨hvw.mode, hvw.union, hvw.room⟩
    have hcmd : (w.pd i).replyPrebuilt = true →
        (w.pd i).cmdId ≠ cmdComset := by
      intro e hc
      rw [comset_parks_nothing hr command hfv hc] at e
      cases e
    exact ⟨hv.move (t := { w with log := _ }) ⟨hw.mode, hw.union, hw.room⟩
      fun e hc _ => absurd hc (hcmd e), hcmd⟩

/-- Starting over keeps the invariant where no COMSET's reply waits. -/
theorem comInv_pdErrorReset {i : Nat} {s t : Osdp}
    (h : pdErrorReset env run i s = .ok () t) (hi : ComInv env i s)
    (hfree : (s.pd i).replyPrebuilt = true → (s.pd i).cmdId = cmdComset →
      (s.pd i).replyId = replyCom → False) : ComInv env i t := by
  have hst : Intact i s t := by
    have hset : Keeps (ParksNone i) (pdErrorReset env run i) :=
      .bind (parksNone_pdCompleteActive hr i .failed) fun _ =>
        .bind (parksNone_pdScDeactivate hr i) fun _ =>
          parksNone_osdpPhyStateReset i
    exact (hset.of h).intact
  have hv := ((keepsParked_pdErrorReset hr i).of h).pd i
  simp only [parkedView, dueView, Prod.mk.injEq] at hv
  obtain ⟨⟨-, -, hc, hid⟩, hp⟩ := hv
  exact hi.move hst fun e e₁ e₂ =>
    (hfree (hp ▸ e) (hc ▸ e₁) (hid ▸ e₂)).elim

/-- From what came of the frame to the send stage. -/
theorem comInv_replied {i : Nat} {ret : Int} {b : Bool} {s u : Osdp}
    (h : Replied env run i ret s b u) (hi : ComInv env i s)
    (hc : (s.pd i).replyPrebuilt = true → (s.pd i).cmdId ≠ cmdComset) :
    ComInv env i u ∧ (b = true → ComReady env i u) := by
  have hlive {v : Osdp}
      (hl : (do pdMarkOnline env run i; pdTouchSession i ret) s = .ok () v) :
      KeepsCom s v := by
    have hk : Keeps Ages (do
        pdMarkOnline env run i
        pdTouchSession i ret) :=
      .bind (ages_pdMarkOnline hr i) fun _ => ages_pdTouchSession i ret
    exact (hk.of hl).keepsCom
  have hbuild {v w : Osdp} {built : Int}
      (hb : pdBuildReplyPacket env run i v = .ok built w) :
      KeepsAsked v w ∧ Intact i v w := by
    have hk := ((builds_pdBuildReplyPacket hr i).of hb).keepsAsked
    exact ⟨hk, hk.intact ((roomy_pdBuildReplyPacket hr i).of hb)⟩
  cases h with
  | ignored => exact ⟨hi, fun e => by cases e⟩
  | reset hreset =>
    exact ⟨comInv_pdErrorReset hr hreset hi fun e e₁ _ => hc e e₁,
      fun e => by cases e⟩
  | prebuilt hans live ready =>
    have hsu := hlive live
    have hiu := hi.keep hsu
    exact ⟨hiu, fun _ => hiu.parked ready⟩
  | @dropped u v w built hans live ready build fail hreset =>
    have hiu := hi.keep (hlive live)
    obtain ⟨hk, hint⟩ := hbuild build
    have hv := hk.pd i
    simp only [askedView, Prod.mk.injEq] at hv
    -- an ordinary reply that could not be built does not wait
    have hfree : (v.pd i).replyPrebuilt = true →
        (v.pd i).cmdId = cmdComset → (v.pd i).replyId = replyCom →
        False := by
      intro e _ e₂
      have hord : hsReply (u.pd i).replyId = false := by
        rw [← hv.2.1.2, e₂]
        rfl
      rw [unparked_pdBuildReplyPacket hr build fail hord ready] at e
      cases e
    have hiv : ComInv env i v :=
      hiu.move hint fun e e₁ e₂ => (hfree e e₁ e₂).elim
    exact ⟨comInv_pdErrorReset hr hreset hiv hfree, fun e => by cases e⟩
  | @built v _ hans live ready build =>
    have hiv := hi.keep (hlive live)
    obtain ⟨hk, hint⟩ := hbuild build
    have hv := hk.pd i
    simp only [askedView, Prod.mk.injEq] at hv
    have hready : ComReady env i u := fun _ e₂ =>
      announces_pdBuildReplyPacket hr build hiv.mode hiv.room
        (hv.2.1.2 ▸ e₂)
    exact ⟨hiv.move hint fun _ => hready, fun _ => hready⟩

/-- Up to the send stage of a refresh. -/
theorem comInv_pdUntilSend {i : Nat} {b : Bool} {s u : Osdp}
    (h : pdUntilSend env run i s = .ok b u) (hi : ComInv env i s) :
    ComInv env i u ∧ (b = true → ComReady env i u) := by
  have hage : Keeps Ages (do
      pdExpireSession env run i
      pdExpireLink env run i) :=
    .bind (ages_pdExpireSession hr i) fun _ => ages_pdExpireLink hr i
  obtain ⟨v, hv, hrest⟩ := untilSend_cases h
  have hiv := hi.keep (hage.of hv).keepsCom
  rcases hrest with ⟨hp, rfl, rfl⟩ | ⟨hp, w, x, ret, hl, hrec, hrep⟩
  · exact ⟨hiv, fun _ => hiv.parked hp⟩
  · have hfw : (w.pd i).replyPrebuilt = false := by
      obtain ⟨_, y, hy, hl⟩ := bind_ok.mp hl
      obtain rfl := updPd_ok.mp hy
      obtain rfl := observe_ok.mp hl
      simp only [updPd_pd_same]
    have hiw : ComInv env i w :=
      hiv.move ((intact_pdListen i).of hl) fun e => by rw [hfw] at e; cases e
    obtain ⟨hix, hcx⟩ := comInv_received hr hrec hiw hfw
    exact comInv_replied hr hrep hix hcx

-- ---------------------------------------------------------- the send stage

omit hr in
/-- Asking the channel to take a packet changes nothing of it. -/
theorem keepsCom_osdpPhySendPacket (i len : Nat) :
    Keeps KeepsCom (osdpPhySendPacket env i len) := by
  have hs (data : Bytes) : Keeps KeepsCom (osdpChannelSend env i data) := by
    intro s a t e
    cases e
    exact ⟨fun _ => rfl, rfl, LogExt.cons rfl⟩
  unfold osdpPhySendPacket
  grind

omit hr in
/-- A reply the channel would not take waits as it did; one it took is no
longer parked. -/
theorem comInv_pdSendReply {i : Nat} {ret : Int} {s t : Osdp}
    (h : pdSendReply env i s = .ok ret t) (hi : ComInv env i s)
    (hready : ComReady env i s) :
    ComInv env i t ∧
      (ret ≠ pdErrRetrySend → (t.pd i).replyPrebuilt = false) := by
  by_cases hret : ret = pdErrRetrySend
  · have hst : KeepsCom s t := by
      unfold pdSendReply at h
      obtain ⟨p, u, hg, h⟩ := bind_ok.mp h
      obtain ⟨rfl, rfl⟩ := getPd_ok.mp hg
      obtain ⟨res, v, hs, h⟩ := bind_ok.mp h
      have hsv := (keepsCom_osdpPhySendPacket i _).of hs
      split at h
      · obtain ⟨-, rfl⟩ := pure_ok.mp h
        exact hsv
      · obtain ⟨_, w, -, h⟩ := bind_ok.mp h
        split at h
        · rw [← (pure_ok.mp h).1] at hret
          cases hret
        · obtain ⟨_, x, -, h⟩ := bind_ok.mp h
          rw [← (pure_ok.mp h).1] at hret
          cases hret
    have hready := hready.keep hst
    exact ⟨hi.move hst.intact fun _ => hready, fun hn => absurd hret hn⟩
  · have hk := ((sends_pdSendReply i).of h).keepsAsked
    have hf := pdSendReply_taken h hret
    refine ⟨hi.move (hk.intact ((roomy_pdSendReply i).of h)) fun e => ?_,
      fun _ => hf⟩
    rw [hf] at e
    cases e

theorem parksNone_doCommandCallback (i : Nat) (cmd : OsdpCmd) :
    Keeps (ParksNone i) (doCommandCallback env run i cmd) := by
  intro s r t h
  refine ⟨((handles_doCommandCallback hr i cmd).of h).intact, fun e => ?_⟩
  have hk := (keepsKey_doCommandCallback hr i cmd).of h
  have hv : (t.pd i).replyPrebuilt = (s.pd i).replyPrebuilt :=
    congrArg Prod.snd (hk.pd i)
  rw [hv, e]

/-- A commit parks nothing and leaves the union its place. -/
theorem parksNone_pdCommit (i : Nat) :
    Keeps (ParksNone i) (pdCommit env run i) := by
  have ho (key : Bytes) : Keeps (ParksNone i) (observe (.keyCommit i key)) := by
    intro s a t e
    cases e
    exact ⟨⟨rfl, id, Nat.le_refl _⟩, id⟩
  have hkey : Keeps (ParksNone i) (pdCommitKeyset env run i) :=
    .bind (keeps_getPd i) fun p => .bind (ho _) fun _ =>
      .bind (parksNone_updPd (fun _ => rfl)
        (fun _ _ => List.cons_ne_nil _ _) fun _ => rfl)
        fun _ => parksNone_pdScDeactivate hr i
  have hcom : Keeps (ParksNone i) (pdCommitComset env run i) :=
    .bind (keeps_getPd i) fun p =>
      .bind (parksNone_doCommandCallback hr i _) fun _ =>
        parksNone_updPd (fun _ => rfl) (fun _ h => h) fun _ => rfl
  unfold pdCommit
  refine .bind (keeps_getPd i) fun p => ?_
  split
  · exact hkey
  · split
    · exact hcom
    · exact .pure _

/-- From a finalized reply to the end of the refresh. -/
theorem comInv_pdSendStage {i : Nat} {s t : Osdp}
    (h : pdSendStage env run i s = .ok () t) (hi : ComInv env i s)
    (hready : ComReady env i s) : ComInv env i t := by
  unfold pdSendStage at h
  obtain ⟨ret, u, hs, h⟩ := bind_ok.mp h
  obtain ⟨hiu, hfu⟩ := comInv_pdSendReply hs hi hready
  split at h
  · obtain ⟨-, rfl⟩ := pure_ok.mp h
    exact hiu
  · next hretry =>
    have hrest : Keeps (ParksNone i) (do
        if ret = pdErrNone then
          pdCompleteActive env run i .ok
          pdCommit env run i
          osdpPhyProgressSequence i
        else
          pdCompleteActive env run i .failed
        osdpPhyStateReset env i false) := by
      have hp : Keeps (ParksNone i) (osdpPhyProgressSequence i) :=
        parksNone_updPd (fun _ => rfl) (fun _ h => h) fun _ => rfl
      split
      · exact .bind (parksNone_pdCompleteActive hr i .ok) fun _ =>
          .bind (parksNone_pdCommit hr i) fun _ =>
            .bind hp fun _ => parksNone_osdpPhyStateReset i
      · exact .bind (parksNone_pdCompleteActive hr i .failed) fun _ =>
          parksNone_osdpPhyStateReset i
    exact (hiu.settle (hrest.of h) (hfu hretry)).1

/-- One refresh. -/
theorem comInv_osdpPdUpdate {i : Nat} {s t : Osdp}
    (h : osdpPdUpdate env run i s = .ok () t) (hi : ComInv env i s) :
    ComInv env i t := by
  rw [osdpPdUpdate_eq] at h
  obtain ⟨b, u, hu, h⟩ := bind_ok.mp h
  obtain ⟨hiu, hready⟩ := comInv_pdUntilSend hr hu hi
  split at h
  · next hb => exact comInv_pdSendStage hr h hiu (hready hb)
  · obtain ⟨-, rfl⟩ := pure_ok.mp h
    exact hiu

end Refresh

-- ================================================================ the run

section Run

variable {env : Env} {depth : Nat}

theorem ComInv.congr {i : Nat} {s t : Osdp} (h : ComInv env i s)
    (hpd : t.pd = s.pd) (htx : t.txBuf = s.txBuf) : ComInv env i t := by
  refine ⟨?_, ?_, ?_, fun e => ?_⟩
  · rw [hpd]
    exact h.mode
  · rw [hpd]
    exact h.union
  · rw [htx]
    exact h.room
  · rw [hpd] at e
    unfold ComReady Announces Osdp.readyFrame
    rw [hpd, htx]
    exact h.parked e

/-- Every input keeps the invariant. -/
theorem carries_comInv :
    Carries env depth anyInput (ComInv env 0) fun _ => True where
  congr _ _ hpd _ htx h := h.congr hpd htx
  quiet _ _ hq h := h.keep hq.keepsCom
  configures _ _ hc h := h.keep hc.keepsCom
  refresh _ _ _ _ _ _ _ hw h :=
    comInv_osdpPdUpdate (quiet_pdRunCalls env depth) hw h
  history _ _ := trivial
  calls _ _ _ _ := trivial

/-- A PD that was set up is one, with its buffers, and has nothing to
send. -/
theorem comInv_setup {info : PdInfo} {s : Osdp}
    (h : osdpPdSetup env info = some s) : ComInv env 0 s := by
  have hpd := osdpPdSetup_pd h 0
  have hmode : (s.pd 0).flags.pdMode = true :=
    (congrArg (fun p : OsdpPd => p.flags.pdMode) hpd).trans (by rfl)
  have hun : (s.pd 0).pending = zeros 16 :=
    congrArg OsdpPd.pending hpd
  have hpre : (s.pd 0).replyPrebuilt = false :=
    congrArg OsdpPd.replyPrebuilt hpd
  refine ⟨hmode, ?_, ?_, fun e => ?_⟩
  · rw [hun]
    exact List.cons_ne_nil _ _
  · unfold osdpPdSetup at h
    split at h
    · cases h
    · split at h
      · cases h
      · cases h
        exact Nat.le_of_eq (List.length_replicate).symm
  · rw [hpre] at e
    cases e

end Run

-- ============================================================== the effect

section Effect

variable {env : Env} {run : List ApiCall → OsdpM Unit}

/-- A reply ready to be sent is handed to the channel, and the event it
answers back to the application: the send stage up to its commit. -/
def pdHandOver (env : Env) (run : List ApiCall → OsdpM Unit) (i : Nat) :
    OsdpM Int := do
  let ret ← pdSendReply env i
  if ret = pdErrNone then
    pdCompleteActive env run i .ok
  return ret

/-- PD `i` was told these settings after the history of `s`, and uses them
in `t`. -/
structure TookEffect (i : Nat) (a : UInt8) (baud : UInt32) (s t : Osdp) :
    Prop where
  told : ∃ ret, (.command i (.comsetDone a baud) ret :: s.log) <:+ t.log
  address : (t.pd i).address = a.toNat
  baudRate : (t.pd i).baudRate = baud

/-- The application takes COMSET_DONE after this history, or fails with
the very code of its address. -/
def DoneTaken (env : Env) (a : UInt8) (baud : UInt32) (past : List Obs) :
    Prop :=
  ∃ f, env.commandCallback = some f ∧
    ((f past (.comsetDone a baud)).ret = 0 ∨
      pdNakCodeFromCallback (f past (.comsetDone a baud)).ret = a)

/-- A reply that was taken by the channel is in the history. -/
theorem pdSendReply_sent {i : Nat} {s t : Osdp}
    (h : pdSendReply env i s = .ok pdErrNone t)
    (hbuf : (s.pd i).packetBuf = .tx) :
    t.log = .sent i (s.readyFrame i) (s.pd i).packetBufLen :: s.log := by
  unfold pdSendReply at h
  obtain ⟨p, u, hg, h⟩ := bind_ok.mp h
  obtain ⟨rfl, rfl⟩ := getPd_ok.mp hg
  obtain ⟨res, v, hs, h⟩ := bind_ok.mp h
  have hlog : res ≠ errPktWaitTx → ¬ res < 0 →
      v.log = .sent i (s.readyFrame i) (s.pd i).packetBufLen :: s.log := by
    intro hw hn
    unfold osdpPhySendPacket at hs
    obtain ⟨p, w, hg, hs⟩ := bind_ok.mp hs
    obtain ⟨rfl, rfl⟩ := getPd_ok.mp hg
    obtain ⟨buf, w, hread, hs⟩ := bind_ok.mp hs
    cases hread
    rw [hbuf, show s.buf .tx = s.txBuf by simp [Osdp.buf]] at hs
    obtain ⟨ret, w, hc, hs⟩ := bind_ok.mp hs
    cases hc
    split at hs
    · exact absurd (pure_ok.mp hs).1.symm hw
    · split at hs
      · rw [← (pure_ok.mp hs).1] at hn
        exact absurd (by decide) hn
      · next hret =>
        obtain ⟨-, rfl⟩ := pure_ok.mp hs
        simp only [not_or, not_not] at hret
        rw [hret.2]
        rfl
  split at h
  · cases (pure_ok.mp h).1
  · next hwait =>
    obtain ⟨_, w, hw, h⟩ := bind_ok.mp h
    obtain rfl := updPd_ok.mp hw
    split at h
    · cases (pure_ok.mp h).1
    · next hneg =>
      obtain ⟨_, x, hx, h⟩ := bind_ok.mp h
      obtain rfl := updPd_ok.mp hx
      obtain ⟨-, rfl⟩ := pure_ok.mp h
      exact hlog hwait hneg

/-- COMSET_DONE is put to an application that is there, and a code it
fails with goes into the union. -/
theorem doCommandCallback_comsetDone
    (hr : ∀ calls, Keeps Quiet (run calls)) {i : Nat} {a : UInt8}
    {baud : UInt32} {r : Bool × OsdpCmd} {s t : Osdp}
    (h : doCommandCallback env run i (.comsetDone a baud) s = .ok r t) :
    env.commandCallback = none ∧ t = s.updPd i (·.nak nakRecord) ∨
      ∃ f ret u, env.commandCallback = some f ∧
        ret = (f s.log (.comsetDone a baud)).ret ∧
        Quiet { s with log := .command i (.comsetDone a baud) ret :: s.log }
          u ∧
        t = if ret = 0 then u
          else u.updPd i (·.nak (pdNakCodeFromCallback ret)) := by
  unfold doCommandCallback at h
  obtain ⟨⟨ret, cmd⟩, u, hc, h⟩ := bind_ok.mp h
  have hend : t = if ret = 0 then u
      else u.updPd i (·.nak (pdNakCodeFromCallback ret)) := by
    dsimp only at h
    split at h
    · next hret =>
      obtain ⟨_, v, hv, h⟩ := bind_ok.mp h
      obtain rfl := updPd_ok.mp hv
      obtain ⟨-, rfl⟩ := pure_ok.mp h
      rw [if_neg hret]
    · next hret =>
      obtain ⟨-, rfl⟩ := pure_ok.mp h
      rw [if_pos (not_not.mp hret)]
  unfold offerCommand at hc
  obtain ⟨p, v, hg, hc⟩ := bind_ok.mp hc
  obtain ⟨rfl, rfl⟩ := getPd_ok.mp hg
  rw [if_pos (show validateCommand (s.pd i) (.comsetDone a baud) = true
    from by simp [validateCommand, commandWellFormed, osdpCmdReaderNo])] at hc
  cases hf : env.commandCallback with
  | none =>
    unfold callCommandCallback at hc
    rw [hf] at hc
    obtain ⟨e, rfl⟩ := pure_ok.mp hc
    obtain ⟨rfl, -⟩ := Prod.mk.inj e
    exact .inl ⟨rfl, hend⟩
  | some f =>
    unfold callCommandCallback at hc
    rw [hf] at hc
    obtain ⟨v, w, hg, hc⟩ := bind_ok.mp hc
    obtain ⟨rfl, rfl⟩ := get_ok.mp hg
    obtain ⟨_, w, hw, hc⟩ := bind_ok.mp hc
    obtain rfl := observe_ok.mp hw
    obtain ⟨_, x, hx, hc⟩ := bind_ok.mp hc
    obtain ⟨e, rfl⟩ := pure_ok.mp hc
    obtain ⟨rfl, -⟩ := Prod.mk.inj e
    exact .inr ⟨f, _, x, rfl, rfl, (hr _).of hx, hend⟩

/-- What COMSET_DONE and the commit come to. -/
theorem tookEffect_commit_iff (hr : ∀ calls, Keeps Quiet (run calls))
    {i : Nat} {s t : Osdp} (h : pdCommitComset env run i s = .ok () t)
    (hun : (s.pd i).pending ≠ []) :
    TookEffect i (s.pd i).nakCode (parkedBaud (s.pd i)) s t ↔
      DoneTaken env (s.pd i).nakCode (parkedBaud (s.pd i)) s.log := by
  unfold pdCommitComset at h
  obtain ⟨p, u, hg, h⟩ := bind_ok.mp h
  obtain ⟨rfl, rfl⟩ := getPd_ok.mp hg
  obtain ⟨r, v, hv, h⟩ := bind_ok.mp h
  have hv : doCommandCallback env run i (.comsetDone (s.pd i).nakCode
      (parkedBaud (s.pd i))) s = .ok r v := hv
  obtain rfl := updPd_ok.mp h
  -- a NAK code takes the place of the address and nothing else's
  have hnak (c : UInt8) {q : OsdpPd} (hq : q.pending = (s.pd i).pending) :
      (q.nak c).nakCode = c ∧ parkedBaud (q.nak c) = parkedBaud (s.pd i) := by
    unfold OsdpPd.nakCode parkedBaud OsdpPd.nak OsdpPd.setNak
    dsimp only
    rw [hq]
    cases e : (s.pd i).pending with
    | nil => exact absurd e hun
    | cons b l => exact ⟨rfl, rfl⟩
  rcases doCommandCallback_comsetDone hr hv with
    ⟨hnone, rfl⟩ | ⟨f, ret, u, hf, hret, hq, rfl⟩
  · constructor
    · rintro ⟨⟨ret, htold⟩, -, -⟩
      have hlen := htold.length_le
      simp at hlen
    · rintro ⟨f, hf, -⟩
      rw [hnone] at hf
      cases hf
  · have hpend : (u.pd i).pending = (s.pd i).pending := by
      have e := congrArg OsdpPd.pending (hq.pd i)
      exact e
    have hold : ∃ ret, (.command i (.comsetDone (s.pd i).nakCode
        (parkedBaud (s.pd i))) ret :: s.log) <:+ u.log := by
      obtain ⟨l, hl, -⟩ := hq.log
      exact ⟨ret, l, hl.symm⟩
    by_cases h0 : ret = 0
    · rw [if_pos h0]
      refine ⟨fun _ => ⟨f, hf, .inl (by rw [← hret, h0])⟩, fun _ => ?_⟩
      refine ⟨hold, ?_, ?_⟩
      · rw [updPd_pd_same]
        show (u.pd i).nakCode.toNat = _
        unfold OsdpPd.nakCode
        rw [hpend]
      · rw [updPd_pd_same]
        show parkedBaud (u.pd i) = _
        unfold parkedBaud
        rw [hpend]
    · rw [if_neg h0]
      obtain ⟨hcode, hbaud⟩ := hnak (pdNakCodeFromCallback ret) hpend
      have haddr : ((u.updPd i (·.nak (pdNakCodeFromCallback ret))).pd
          i).nakCode = pdNakCodeFromCallback ret := by
        rw [updPd_pd_same]
        exact hcode
      constructor
      · rintro ⟨-, ha, -⟩
        rw [updPd_pd_same] at ha
        have ha : ((u.updPd i (·.nak (pdNakCodeFromCallback ret))).pd
          i).nakCode.toNat = (s.pd i).nakCode.toNat := ha
        rw [haddr] at ha
        exact ⟨f, hf, .inr (by rw [← hret]; exact UInt8.toNat_inj.mp ha)⟩
      · rintro ⟨g, hg, hor⟩
        rw [hf] at hg
        obtain rfl := Option.some.inj hg
        rw [← hret] at hor
        have hcode := hor.resolve_left h0
        refine ⟨hold, ?_, ?_⟩
        · rw [updPd_pd_same]
          show ((u.updPd i (·.nak (pdNakCodeFromCallback ret))).pd
            i).nakCode.toNat = _
          rw [haddr, hcode]
        · rw [updPd_pd_same]
          show parkedBaud ((u.updPd i
            (·.nak (pdNakCodeFromCallback ret))).pd i) = _
          rw [updPd_pd_same]
          exact hbaud

/-- The end of a refresh is of no concern to the settings. -/
theorem tookEffect_congr {i : Nat} {a : UInt8} {baud : UInt32}
    {s t u : Osdp} (haddr : (u.pd i).address = (t.pd i).address)
    (hbaud : (u.pd i).baudRate = (t.pd i).baudRate) (hlog : u.log = t.log) :
    TookEffect i a baud s u ↔ TookEffect i a baud s t := by
  constructor
  · rintro ⟨ht, ha, hb⟩
    exact ⟨hlog ▸ ht, haddr ▸ ha, hbaud ▸ hb⟩
  · rintro ⟨ht, ha, hb⟩
    exact ⟨hlog ▸ ht, haddr ▸ ha, hbaud ▸ hb⟩

/-- A REPLY_COM that the channel takes is committed, and nothing comes
after that but the bookkeeping of the link. -/
theorem pdSendStage_comset {i : Nat} {s t u : Osdp}
    (h : pdSendStage env run i s = .ok () u)
    (hsent : pdHandOver env run i s = .ok pdErrNone t)
    (hc : (t.pd i).cmdId = cmdComset) (hid : (t.pd i).replyId = replyCom) :
    ∃ v, pdCommitComset env run i t = .ok () v ∧
      (u.pd i).address = (v.pd i).address ∧
      (u.pd i).baudRate = (v.pd i).baudRate ∧ u.log = v.log := by
  unfold pdHandOver at hsent
  obtain ⟨ret, w, hw, hsent⟩ := bind_ok.mp hsent
  have hret : ret = pdErrNone := by
    split at hsent
    · next hret => exact hret
    · exact (pure_ok.mp hsent).1
  subst hret
  rw [if_pos rfl] at hsent
  obtain ⟨_, x, hx, hsent⟩ := bind_ok.mp hsent
  obtain ⟨-, rfl⟩ := pure_ok.mp hsent
  unfold pdSendStage at h
  obtain ⟨ret, y, hy, h⟩ := bind_ok.mp h
  rw [hw] at hy
  cases hy
  rw [if_neg (by decide), if_pos rfl] at h
  obtain ⟨_, y, hy, h⟩ := bind_ok.mp h
  rw [hx] at hy
  cases hy
  obtain ⟨_, v, hv, h⟩ := bind_ok.mp h
  unfold pdCommit at hv
  obtain ⟨p, z, hg, hv⟩ := bind_ok.mp hv
  obtain ⟨rfl, rfl⟩ := getPd_ok.mp hg
  rw [if_neg (by rw [hc]; simp), if_pos ⟨hc, hid⟩] at hv
  refine ⟨v, hv, ?_⟩
  obtain ⟨_, z, hz, h⟩ := bind_ok.mp h
  obtain rfl := updPd_ok.mp hz
  unfold osdpPhyStateReset at h
  obtain ⟨_, z', hz', h⟩ := bind_ok.mp h
  obtain rfl := updPd_ok.mp hz'
  obtain ⟨-, rfl⟩ := pure_ok.mp h
  simp only [updPd_pd_same, updPd_log]
  exact ⟨trivial, trivial, trivial⟩

end Effect

-- ================================================================ result

/-- **COMSET.**  In any run, whenever the channel takes a REPLY_COM to a
COMSET, at once or after any number of refreshes: the frame carried an
address and a baud rate, and the application is told these and the PD uses
them exactly where the application takes COMSET_DONE, or fails with the
NAK code that equals the address. -/
theorem comset_takes_effect_iff (env : Env) (depth : Nat) {info : PdInfo}
    {s₀ s u w t : Osdp} {l : List PdInput} {now : Int} {rx : Bytes}
    (hs : osdpPdSetup env info = some s₀)
    (hrun : PdRun env depth anyInput s₀ l s) (hlive : s.tearingDown = false)
    (huntil : pdUntilSend env (pdRunCalls env depth) 0 (s.begin now rx)
      = .ok true u)
    (hcmd : (u.pd 0).cmdId = cmdComset)
    (hreply : (u.pd 0).replyId = replyCom)
    (hsent : pdHandOver env (pdRunCalls env depth) 0 u = .ok pdErrNone w)
    (ht : pdSendStage env (pdRunCalls env depth) 0 u = .ok () t) :
    ∃ a baud, Conveys env 0 (comBlock a baud) (u.readyFrame 0) ∧
      .sent 0 (u.readyFrame 0) (u.pd 0).packetBufLen ∈ w.log ∧
      (TookEffect 0 a baud w t ↔ DoneTaken env a baud w.log) := by
  have hr := quiet_pdRunCalls env depth
  have hinv := (carries_comInv.run_of_live (comInv_setup hs) hrun).live hlive
  have hbegin : ComInv env 0 (s.begin now rx) := hinv.congr rfl rfl
  obtain ⟨hiu, hready⟩ := comInv_pdUntilSend hr huntil hbegin
  obtain ⟨hbuf, hsays⟩ := hready rfl hcmd hreply
  -- the settings, the exchange and the frame up to the commit
  have hsent' := hsent
  unfold pdHandOver at hsent'
  obtain ⟨ret, x, hx, hsent'⟩ := bind_ok.mp hsent'
  have hret : ret = pdErrNone := by
    split at hsent'
    · next hret => exact hret
    · exact (pure_ok.mp hsent').1
  subst hret
  rw [if_pos rfl] at hsent'
  obtain ⟨_, y, hy, hsent'⟩ := bind_ok.mp hsent'
  obtain ⟨-, rfl⟩ := pure_ok.mp hsent'
  have hcomp := (completes_pdCompleteActive hr 0 .ok).of hy
  have hasked : KeepsAsked u y := trans_of KeepsAsked
    ((sends_pdSendReply 0).of hx).keepsAsked hcomp.keepsCom.asked
  have hv := hasked.pd 0
  simp only [askedView, Prod.mk.injEq] at hv
  obtain ⟨hp, ⟨hc, hid⟩, -⟩ := hv
  obtain ⟨v, hcommit, haddr, hbaud, hlog⟩ :=
    pdSendStage_comset ht hsent (hc.trans hcmd) (hid.trans hreply)
  refine ⟨(u.pd 0).nakCode, parkedBaud (u.pd 0), hsays, ?_, ?_⟩
  · obtain ⟨l, hl, -⟩ := hcomp.log
    rw [hl, pdSendReply_sent hx hbuf]
    exact List.mem_append_right l List.mem_cons_self
  · have heff := tookEffect_commit_iff hr hcommit (by rw [hp]; exact hiu.union)
    have hn : (y.pd 0).nakCode = (u.pd 0).nakCode := by
      unfold OsdpPd.nakCode
      rw [hp]
    have hb : parkedBaud (y.pd 0) = parkedBaud (u.pd 0) := by
      unfold parkedBaud
      rw [hp]
    rw [hn, hb] at heff
    exact (tookEffect_congr haddr hbaud hlog).trans heff

-- =============================================================== examples

/-- A refresh sends a REPLY_COM to a COMSET, and this is so of the states
in which it is ready, handed over and done with. -/
def SendsCom (env : Env) (run : List ApiCall → OsdpM Unit)
    (P : Osdp → Osdp → Osdp → Bool) (s : Osdp) : Bool :=
  match pdUntilSend env run 0 s with
  | .ok true u =>
    match pdHandOver env run 0 u, pdSendStage env run 0 u with
    | .ok ret w, .ok _ t =>
      ret == pdErrNone && (u.pd 0).cmdId == cmdComset &&
        (u.pd 0).replyId == replyCom && P u w t
    | _, _ => false
  | _ => false

theorem sendsCom_ok {env : Env} {run : List ApiCall → OsdpM Unit}
    {P : Osdp → Osdp → Osdp → Bool} {s : Osdp}
    (h : SendsCom env run P s = true) :
    ∃ u w t, pdUntilSend env run 0 s = .ok true u ∧
      (u.pd 0).cmdId = cmdComset ∧ (u.pd 0).replyId = replyCom ∧
      pdHandOver env run 0 u = .ok pdErrNone w ∧
      pdSendStage env run 0 u = .ok () t ∧ P u w t = true := by
  unfold SendsCom at h
  split at h
  · next u hu =>
    split at h
    · next ret w _ t hw ht =>
      simp only [Bool.and_eq_true, beq_iff_eq] at h
      obtain ⟨⟨⟨rfl, hc⟩, hid⟩, hP⟩ := h
      exact ⟨u, w, t, hu, hc, hid, hw, ht, hP⟩
    · cases h
  · cases h

/-- An application that answers COMSET_DONE with this, behind a channel
that is not ready at first. -/
def comsetEnv (ret : Int) : Env :=
  { plainEnv (knownCipher []) fun n => UInt8.ofNat n with
    commandCallback := some fun _ cmd =>
      match cmd with
      | .comsetDone .. => { ret := ret }
      | _ => {}
    channelSend := fun log data =>
      if log.any Obs.isSent then data.length else 0 }

/-- A plain COMSET: address 5, 9600 baud. -/
def comsetFrame : Bytes := writeBe 13 0x53010D00046E05802500004CFD

/-- A COMSET whose reply waited for a refresh, with an application that
takes COMSET_DONE. -/
theorem comset_takes_effect_delayed :
    ∃ s₀ s u w t, osdpPdSetup (comsetEnv 0) keyedPd = some s₀ ∧
      PdRun (comsetEnv 0) 1 anyInput s₀ [.refresh 0 comsetFrame] s ∧
      (s.pd 0).replyPrebuilt = true ∧
      pdUntilSend (comsetEnv 0) (pdRunCalls (comsetEnv 0) 1) 0 (s.begin 1 [])
        = .ok true u ∧ (t.pd 0).address = 5 ∧
      ∃ a baud, Conveys (comsetEnv 0) 0 (comBlock a baud) (u.readyFrame 0) ∧
        .sent 0 (u.readyFrame 0) (u.pd 0).packetBufLen ∈ w.log ∧
        (TookEffect 0 a baud w t ↔ DoneTaken (comsetEnv 0) a baud w.log) := by
  obtain ⟨s₀, s, hs, hrun, hlive, hpark, hsend⟩ := pdRun_of_setup
    (comsetEnv 0) 1 anyInput keyedPd [.refresh 0 comsetFrame]
    (fun s => s.tearingDown = false ∧ (s.pd 0).replyPrebuilt = true ∧
      SendsCom (comsetEnv 0) (pdRunCalls (comsetEnv 0) 1)
        (fun _ _ t => (t.pd 0).address == 5) (s.begin 1 []) = true)
    (by decide +kernel)
  obtain ⟨u, w, t, hu, hc, hid, hw, ht, haddr⟩ := sendsCom_ok hsend
  exact ⟨s₀, s, u, w, t, hs, hrun, hpark, hu, beq_iff_eq.mp haddr,
    comset_takes_effect_iff (comsetEnv 0) 1 hs hrun hlive hu hc hid hw ht⟩

/-- With one that fails it, the PD was reported to move to address 5 and
listens on 9, the NAK code. -/
theorem comset_moves_to_nak_code :
    ¬ ∀ (env : Env) (depth : Nat) (info : PdInfo) (s₀ s u w t : Osdp)
        (l : List PdInput) (now : Int) (rx : Bytes),
      osdpPdSetup env info = some s₀ → PdRun env depth anyInput s₀ l s →
      s.tearingDown = false →
      pdUntilSend env (pdRunCalls env depth) 0 (s.begin now rx)
        = .ok true u →
      (u.pd 0).cmdId = cmdComset → (u.pd 0).replyId = replyCom →
      pdHandOver env (pdRunCalls env depth) 0 u = .ok pdErrNone w →
      pdSendStage env (pdRunCalls env depth) 0 u = .ok () t →
      ∃ a baud, Conveys env 0 (comBlock a baud) (u.readyFrame 0) ∧
        TookEffect 0 a baud w t := by
  intro hall
  obtain ⟨s₀, s, hs, hrun, hlive, hsend⟩ := pdRun_of_setup
    (comsetEnv (-1)) 1 anyInput keyedPd [.refresh 0 comsetFrame]
    (fun s => s.tearingDown = false ∧
      SendsCom (comsetEnv (-1)) (pdRunCalls (comsetEnv (-1)) 1)
        (fun _ w t => (t.pd 0).address == 9 &&
          t.log == .command 0 (.comsetDone 5 9600) (-1) :: w.log)
        (s.begin 1 []) = true)
    (by decide +kernel)
  obtain ⟨u, w, t, hu, hc, hid, hw, ht, hP⟩ := sendsCom_ok hsend
  simp only [Bool.and_eq_true, beq_iff_eq] at hP
  obtain ⟨haddr, hlog⟩ := hP
  obtain ⟨a, baud, -, ⟨ret, htold⟩, ha, -⟩ :=
    hall _ _ _ _ _ _ _ _ _ _ _ hs hrun hlive hu hc hid hw ht
  rw [hlog] at htold
  have e := htold.eq_of_length rfl
  injection e with e _
  injection e with _ e _
  injection e with e _
  subst e
  rw [haddr] at ha
  exact absurd ha (by decide)

end LibOsdp
