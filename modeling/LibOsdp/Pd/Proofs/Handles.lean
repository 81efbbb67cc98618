/-
What handling a command can change on a PD, handshake messages aside.

`Handles` leaves room for the reply (its id, the parked union, the active
event, a prebuilt packet and the MAC that seals it), for the handful of
settings a command carries, and for everything in `Quiet`.  It leaves
none for the keys, the session, the command id or the clock, and a reply
id that was no handshake reply does not become one.

The two handshake commands are the two cases outside it; `sessionHandled`
in the module on freshness says what they do.
-/
import LibOsdp.Pd.Proofs.Commands
import LibOsdp.Pd.Proofs.Quiet
import LibOsdp.Phy.Proofs.Footprint

namespace LibOsdp

open Lib

/-- A PD without what handling a command may change. -/
@[grind] def OsdpPd.sansReply (p : OsdpPd) : OsdpPd :=
  { p.sansApp with
    replyId := 0
    pending := []
    scTstamp := 0
    trs := { p.trs with mode := 0 }
    activeEvent := none
    packetBuf := .tx
    packetBufLen := 0
    replyPrebuilt := false
    phyTxSeq := 0
    flags := { p.flags with pktBroadcast := false, pktHasMark := false }
    sc := { p.sc with rMac := [], cMac := [] } }

/-- The context without its PDs, its history, the re-entrancy flag and
the transmit buffer. -/
def Osdp.sansTx (s : Osdp) : Osdp := { s.rest with txBuf := [] }

/-- The entries made while a command is handled. -/
@[grind] def Obs.isHandling : Obs → Bool
  | .command .. => true
  | o => o.isApp

/-- A command other than CHLNG and SCRYPT was handled, or part of one. -/
structure Handles (s t : Osdp) : Prop where
  pd : ∀ j, (t.pd j).sansReply = (s.pd j).sansReply
  reply : ∀ j, hsReply (s.pd j).replyId = false →
    hsReply (t.pd j).replyId = false
  idle : ∀ j, (s.pd j).replyId ≠ replyBusy → (t.pd j).replyId ≠ replyBusy
  union : ∀ j, (s.pd j).pending ≠ [] → (t.pd j).pending ≠ []
  rest : t.sansTx = s.sansTx
  room : Roomy s t
  log : LogExt Obs.isHandling s t

instance : IsPreorder Osdp Handles where
  refl s :=
    ⟨fun _ => rfl, fun _ h => h, fun _ h => h, fun _ h => h, rfl,
      refl_of Roomy s, refl_of _ s⟩
  trans := by
    intro s t u h k
    exact ⟨fun j => (k.pd j).trans (h.pd j),
      fun j e => k.reply j (h.reply j e), fun j e => k.idle j (h.idle j e),
      fun j e => k.union j (h.union j e), k.rest.trans h.rest,
      trans_of Roomy h.room k.room, trans_of _ h.log k.log⟩

/-- What `sansApp` keeps, `sansReply` keeps. -/
theorem sansReply_of_sansApp {p q : OsdpPd} (h : p.sansApp = q.sansApp) :
    p.sansReply = q.sansReply := by
  have e := congrArg OsdpPd.sansReply h
  exact e

/-- The application and the engines stay within `Handles`. -/
theorem Quiet.handles {s t : Osdp} (h : Quiet s t) : Handles s t := by
  have hid (j : Nat) : (t.pd j).replyId = (s.pd j).replyId := by
    have hid := congrArg OsdpPd.replyId (h.pd j)
    exact hid
  refine ⟨fun j => sansReply_of_sansApp (h.pd j), fun j e => ?_,
    fun j e => ?_, fun j e => ?_, ?_, ?_, ?_⟩
  · rw [hid j]
    exact e
  · rw [hid j]
    exact e
  · have hp := congrArg OsdpPd.pending (h.pd j)
    change (t.pd j).pending = (s.pd j).pending at hp
    rw [hp]
    exact e
  · exact congrArg (fun r : Osdp => ({ r with txBuf := [] } : Osdp)) h.rest
  · have e := congrArg Osdp.txBuf h.rest
    exact roomy_of_eq e
  · refine h.log.mono fun o ho => ?_
    cases o <;> first | rfl | exact ho

theorem handles_of_quiet {α : Type} {m : OsdpM α} (h : Keeps Quiet m) :
    Keeps Handles m :=
  h.mono fun _ _ => Quiet.handles

/-- One PD changed, within the footprint. -/
theorem keeps_updPd_handles {i : Nat} {f : OsdpPd → OsdpPd}
    (hf : ∀ p : OsdpPd, (f p).sansReply = p.sansReply)
    (hid : ∀ p : OsdpPd, hsReply p.replyId = false →
      hsReply (f p).replyId = false)
    (hbusy : ∀ p : OsdpPd, p.replyId ≠ replyBusy →
      (f p).replyId ≠ replyBusy)
    (hun : ∀ p : OsdpPd, p.pending ≠ [] → (f p).pending ≠ []) :
    Keeps Handles (updPd i f) := by
  intro s a t e
  cases e
  refine ⟨fun j => ?_, fun j h => ?_, fun j h => ?_, fun j h => ?_, rfl,
    Nat.le_refl _, refl_of (LogExt _) s⟩
  · by_cases e : j = i
    · subst e
      rw [updPd_pd_same]
      exact hf _
    · rw [updPd_pd_ne s f e]
  · by_cases e : j = i
    · subst e
      rw [updPd_pd_same]
      exact hid _ h
    · rw [updPd_pd_ne s f e]
      exact h
  · by_cases e : j = i
    · subst e
      rw [updPd_pd_same]
      exact hbusy _ h
    · rw [updPd_pd_ne s f e]
      exact h
  · by_cases e : j = i
    · subst e
      rw [updPd_pd_same]
      exact hun _ h
    · rw [updPd_pd_ne s f e]
      exact h

theorem sansReply_of_sansCommand {p q : OsdpPd}
    (h : p.sansCommand = q.sansCommand) : p.sansReply = q.sansReply := by
  have e := congrArg OsdpPd.sansReply h
  exact e

instance : PacketMoves Handles where
  packet s i f h := by
    have hid (p : OsdpPd) : (f p).replyId = p.replyId := by
      have e := congrArg OsdpPd.replyId (h p)
      exact e
    refine keeps_updPd_handles (fun p => ?_) (fun p e => ?_) (fun p e => ?_)
      (fun p e => ?_) s () _ rfl
    · have e := congrArg OsdpPd.sansReply (h p)
      exact e
    · rw [hid p]
      exact e
    · rw [hid p]
      exact e
    · have hp := congrArg OsdpPd.pending (h p)
      change (f p).pending = p.pending at hp
      rw [hp]
      exact e
  txBuf s off d := ⟨fun _ => rfl, fun _ h => h, fun _ h => h,
    fun _ h => h, rfl, PacketMoves.txBuf (R := Roomy) s off d,
    refl_of (LogExt _) s⟩

instance : TakeMoves Handles where
  engines s i f h := (EngineMoves.engines (R := Quiet) s i f h).handles
  fileOp s i op := (EngineMoves.fileOp (R := Quiet) s i op).handles
  change s i f hf :=
    keeps_updPd_handles (fun p => sansReply_of_sansCommand (hf.sans p))
      hf.reply hf.idle hf.union s () _ rfl
  take s i ev rest id h := by
    obtain ⟨hno, hidle⟩ := ordinaryReply_iff.mp h
    have hk : Keeps Handles (updPd i fun p =>
        { p with eventQueue := rest, activeEvent := some ev,
                 replyId := id }) :=
      keeps_updPd_handles (fun _ => rfl) (fun _ _ => hno)
        (fun _ _ => hidle) fun _ e => e
    exact hk s () _ rfl

-- ================================================================ packets

variable {env : Env}

@[grind ←]
theorem handles_pdStage (i len : Nat) : Keeps Handles (pdStage i len) :=
  keeps_updPd_handles (fun _ => rfl) (fun _ h => h) (fun _ h => h)
    fun _ h => h

@[grind ←]
theorem handles_pdStaged (i len : Nat) : Keeps Handles (pdStaged i len) :=
  keeps_updPd_handles (fun _ => rfl) (fun _ h => h) (fun _ h => h)
    fun _ h => h

@[grind ←]
theorem handles_pdPrebuildStatusReply (i id : Nat) (r : StatusReport) :
    Keeps Handles (pdPrebuildStatusReply env i id r) := by
  unfold pdPrebuildStatusReply
  refine .bind (keeps_getPd i) fun p =>
    .bind (keeps_osdpPhyPacketInit i _) fun hdr => ?_
  split
  · exact .pure _
  · refine .bind (keeps_getPd i) fun q =>
      .bind (keeps_readBuf .tx) fun buf => ?_
    grind

-- ============================================================== the app

section App

variable {run : List ApiCall → OsdpM Unit}
variable (hr : ∀ calls, Keeps Quiet (run calls))
include hr

theorem handles_run (calls : List ApiCall) : Keeps Handles (run calls) :=
  handles_of_quiet (hr calls)

@[grind ←]
theorem handles_callCommandCallback (i : Nat) (cmd : OsdpCmd) :
    Keeps Handles (callCommandCallback env run i cmd) := by
  have ho (ret : Int) : Keeps Handles (observe (.command i cmd ret)) := by
    intro s a t e
    cases e
    exact ⟨fun _ => rfl, fun _ h => h, fun _ h => h, fun _ h => h, rfl,
      Nat.le_refl _, LogExt.cons rfl⟩
  have hrun := handles_run hr
  unfold callCommandCallback
  grind

@[grind ←]
theorem handles_doCommandCallback (i : Nat) (cmd : OsdpCmd) :
    Keeps Handles (doCommandCallback env run i cmd) :=
  keeps_doCommandCallback (handles_callCommandCallback hr) i cmd

/-- The application was asked: it saw the command and answered, and what
else happened were calls of its own. -/
theorem callCommandCallback_ok {i : Nat} {cmd : OsdpCmd}
    {r : Int × OsdpCmd} {s t : Osdp}
    (h : callCommandCallback env run i cmd s = .ok r t) :
    r.1 = -1 ∧ t = s ∨
      ∃ f, env.commandCallback = some f ∧ r.1 = (f s.log cmd).ret ∧
        r.2 = (f s.log cmd).edit cmd ∧
        Quiet { s with log := .command i cmd r.1 :: s.log } t := by
  unfold callCommandCallback at h
  cases hf : env.commandCallback with
  | none =>
    rw [hf] at h
    obtain ⟨rfl, rfl⟩ := pure_ok.mp h
    exact .inl ⟨rfl, rfl⟩
  | some f =>
    rw [hf] at h
    obtain ⟨u, v, hg, h⟩ := bind_ok.mp h
    obtain ⟨rfl, rfl⟩ := get_ok.mp hg
    obtain ⟨_, w, hw, h⟩ := bind_ok.mp h
    obtain rfl := observe_ok.mp hw
    obtain ⟨_, x, hx, h⟩ := bind_ok.mp h
    obtain ⟨rfl, rfl⟩ := pure_ok.mp h
    exact .inr ⟨f, rfl, rfl, rfl, (hr _).of hx⟩

/-- A command the application accepted. -/
theorem doCommandCallback_accepted {i : Nat} {cmd cmd' : OsdpCmd}
    {s t : Osdp} (h : doCommandCallback env run i cmd s = .ok (true, cmd') t) :
    ∃ f, env.commandCallback = some f ∧ cmd' = (f s.log cmd).edit cmd ∧
      Quiet { s with log := .command i cmd 0 :: s.log } t := by
  unfold doCommandCallback at h
  obtain ⟨⟨ret, cmd₁⟩, v, hc, h⟩ := bind_ok.mp h
  dsimp only at h
  split at h
  · obtain ⟨_, w, -, h⟩ := bind_ok.mp h
    cases (pure_ok.mp h).1
  · next hret =>
    obtain ⟨e, rfl⟩ := pure_ok.mp h
    obtain ⟨-, rfl⟩ := Prod.mk.inj e
    have hret : ret = 0 := not_not.mp hret
    subst hret
    unfold offerCommand at hc
    obtain ⟨p, u, hg, hc⟩ := bind_ok.mp hc
    obtain ⟨rfl, rfl⟩ := getPd_ok.mp hg
    split at hc
    · rcases callCommandCallback_ok hr hc with ⟨e, -⟩ | ⟨f, hf, -, he, hq⟩
      · cases e
      · exact ⟨f, hf, he, hq⟩
    · cases (pure_ok.mp hc).1

omit hr in
/-- A command it refused is answered with a NAK. -/
theorem doCommandCallback_refused {i : Nat} {cmd cmd' : OsdpCmd}
    {s t : Osdp}
    (h : doCommandCallback env run i cmd s = .ok (false, cmd') t) :
    (t.pd i).replyId = replyNak := by
  unfold doCommandCallback at h
  obtain ⟨⟨ret, cmd₁⟩, v, hc, h⟩ := bind_ok.mp h
  dsimp only at h
  split at h
  · obtain ⟨_, w, hw, h⟩ := bind_ok.mp h
    obtain ⟨-, rfl⟩ := pure_ok.mp h
    obtain rfl := updPd_ok.mp hw
    rw [updPd_pd_same]
    rfl
  · cases (pure_ok.mp h).1

theorem handles_osdpMpPdNotify (i : Nat) (phase : MpPhase) (g : MpProgress) :
    Keeps Handles (osdpMpPdNotify env run i phase g) :=
  handles_of_quiet (keeps_osdpMpPdNotify hr i phase g)

-- ========================================================== the commands

@[grind ←]
theorem handles_pdDecodeStatus (i : Nat) (data : Bytes) (type : StatusType)
    {id : Nat} (need : Bool) (h : ordinaryReply id = true) :
    Keeps Handles (pdDecodeStatus env run i data type id need) := by
  have htail : Keeps Handles (pdStatusReply env run i type id) := by
    have hid : Keeps Handles (setReply i id) := keeps_setReply i h
    unfold pdStatusReply
    refine .bind (handles_doCommandCallback hr i _) fun r => ?_
    grind
  unfold pdDecodeStatus
  grind

/-- Every command but the two of the handshake, and the one that sets the
packet size: by cases on the id. -/
theorem handles_pdDecodeCases (i : Nat) {id : Nat} (data : Bytes)
    (hc : id ≠ cmdChlng) (hs : id ≠ cmdScrypt) (hx : id ≠ cmdAcurxsize) :
    Keeps Handles (pdDecodeCases env run i id data) :=
  keeps_pdDecodeSwitch (handles_callCommandCallback hr)
    (handles_osdpMpPdNotify hr) i data
    (fun type _ need h => handles_pdDecodeStatus hr i data type need h)
    hc hs hx

omit hr in
/-- Storing a packet size, and the ACK to it. -/
theorem acurxsize_ok {i : Nat} {data : Bytes} {s t : Osdp} {ret : Int}
    (h : pdDecodeAcurxsize i data s = .ok ret t) :
    data.length < 2 ∧ ret = pdErrGeneric ∧ t = s ∨
      2 ≤ data.length ∧ ret = pdErrNone ∧
        ∃ u, u = s.updPd i (fun p => { p with peerRxSize := readLe 2 data }) ∧
          t = u.updPd i fun p => { p with replyId := replyAck } := by
  unfold pdDecodeAcurxsize at h
  split at h
  · next hlen =>
    obtain ⟨rfl, rfl⟩ := pure_ok.mp h
    exact .inl ⟨hlen, rfl, rfl⟩
  · next hlen =>
    obtain ⟨_, u, hu, h⟩ := bind_ok.mp h
    obtain ⟨rfl, rfl⟩ := pure_ok.mp h
    refine .inr ⟨Nat.not_lt.mp hlen, rfl, _, rfl, ?_⟩
    rw [updPd_updPd, ← updPd_ok.mp hu]
    rfl

/-- A relation that handling stays within, and that does not look at the
packet size, is kept by every command but the two of the handshake. -/
theorem keeps_pdDecodeCases {R : Osdp → Osdp → Prop} [IsPreorder Osdp R]
    (i : Nat) {id : Nat} (data : Bytes) (hR : ∀ s t, Handles s t → R s t)
    (hsize : ∀ s n, R s (s.updPd i fun p => { p with peerRxSize := n }))
    (hc : id ≠ cmdChlng) (hs : id ≠ cmdScrypt) :
    Keeps R (pdDecodeCases env run i id data) := by
  by_cases hx : id = cmdAcurxsize
  · subst hx
    intro s r t h
    obtain ⟨ret, u, hu, h⟩ := bind_ok.mp h
    obtain ⟨-, rfl⟩ := pure_ok.mp h
    rcases acurxsize_ok hu with ⟨-, -, rfl⟩ | ⟨-, -, v, hv, rfl⟩
    · exact refl_of R _
    · have hack : setReply i replyAck v = .ok ()
          (v.updPd i fun p => { p with replyId := replyAck }) := rfl
      have hsv : R s v := hv ▸ hsize s (readLe 2 data)
      exact trans_of R hsv (hR _ _ ((keeps_setReply i rfl).of hack))
  · exact (handles_pdDecodeCases hr i data hc hs hx).mono hR

end App

end LibOsdp
