/-
One step of an exchange on the CP, by its outcome.

`cp_phy_state_update` is the only place where a command goes out and a
reply comes in.  What a step of it can do is said once here, and every
property of runs that depends on replies is derived from it.

# Layers

Building a packet and decoding a reply stay within `Framed`: the phy
state, the command and the reply id are none of their business.  Above
them each phase has an inversion lemma: `phySend_ok`, `phyBuild_ok`,
`processReply_ok`, `judge_ok`, and `exchange_ok` for the whole step.

# Marks

`Obs.noMark` entries say nothing about the protocol.  A phase that leaves
only such entries leaves every monitor of the history where it was.
-/
import LibOsdp.Cp.Proofs.Device

namespace LibOsdp

open Lib

-- ================================================================ frames

/-- The entry marks no point of the protocol. -/
@[grind] def Obs.noMark (o : Obs) : Bool := o.markOf == none

theorem noMark_of_none {o : Obs} (h : o.markOf = none) : o.noMark = true := by
  simp [Obs.noMark, h]

theorem noMark_isCall {o : Obs} (h : o.isCall) : o.noMark = true :=
  noMark_of_none (markOf_isCall h)

theorem noMark_isRx {o : Obs} (h : o.isRx) : o.noMark = true := by
  cases o <;> first | rfl | cases h

/-- A PD without what frames, or calls, may change. -/
def OsdpPd.framed (p : OsdpPd) : OsdpPd :=
  { p.sansRecord with
    request :=
      { p.sansRecord.request with disable := false, enable := false } }

/-- What building and decoding frames does to a PD. -/
structure FrameStep (p q : OsdpPd) : Prop where
  framed : q.framed = p.framed
  enable : q.request.enable = true →
    p.request.enable = true ∨ p.state = .disabled

theorem FrameStep.of_sansRecord {p q : OsdpPd}
    (h : q.sansRecord = p.sansRecord) : FrameStep p q := by
  have e := congrArg (fun p : OsdpPd => p.request.enable) h
  have e : q.request.enable = p.request.enable := e
  have a := congrArg OsdpPd.framed h
  exact ⟨a, fun hq => .inl (e ▸ hq)⟩

theorem FrameStep.of_sansFrames {p q : OsdpPd}
    (h : q.sansFrames = p.sansFrames) : FrameStep p q := by
  have e := congrArg OsdpPd.sansRecord h
  exact .of_sansRecord e

theorem CallStep.frameStep {p q : OsdpPd} (h : CallStep p q) :
    FrameStep p q := by
  have a := congrArg OsdpPd.framed h.aside
  exact ⟨a, h.enable⟩

theorem FrameStep.trans {p q r : OsdpPd} (h : FrameStep p q)
    (k : FrameStep q r) : FrameStep p r := by
  refine ⟨k.framed.trans h.framed, fun hr => ?_⟩
  have hstate := congrArg OsdpPd.state h.framed
  have hstate : q.state = p.state := hstate
  rcases k.enable hr with hq | hq
  · exact h.enable hq
  · exact .inr (hstate ▸ hq)

/-- What building and decoding frames for PD `i` does. -/
structure Framed (i : Nat) (s t : Osdp) : Prop where
  pd : FrameStep (s.pd i) (t.pd i)
  log : LogExt Obs.noMark s t

theorem Framed.same {i : Nat} {s t : Osdp} (hp : t.pd = s.pd)
    (hl : t.log = s.log) : Framed i s t :=
  ⟨hp ▸ .of_sansFrames rfl, LogExt.of_eq hl⟩

theorem Framed.entry {i : Nat} {s : Osdp} {o : Obs} (h : o.noMark = true) :
    Framed i s { s with log := o :: s.log } :=
  ⟨.of_sansFrames rfl, LogExt.cons h⟩

instance (i : Nat) : BusMoves (Framed i) where
  refl _ := .same rfl rfl
  trans _ _ _ h k := ⟨h.pd.trans k.pd, trans_of _ h.log k.log⟩
  call s j _ h :=
    ⟨(callStep_updPd s j i (.of_sansCalls (h _))).frameStep,
      refl_of (LogExt _) s⟩
  enable s j h :=
    ⟨(callStep_updPd s j i ⟨rfl, fun _ => .inr h⟩).frameStep,
      refl_of (LogExt _) s⟩
  disable s j :=
    ⟨(callStep_updPd s j i ⟨rfl, .inl⟩).frameStep, refl_of (LogExt _) s⟩
  note _ _ h := .entry (noMark_isCall h)
  running _ _ := .same rfl rfl
  entry _ _ h := .entry (noMark_of_none h)
  txBuf _ _ _ := .same rfl rfl
  flush _ := .same rfl rfl
  drawn _ _ := .same rfl rfl

instance (i : Nat) : FrameMoves i (Framed i) where
  frame s f h := by
    refine ⟨?_, refl_of (LogExt _) s⟩
    rw [updPd_pd_same]
    exact .of_sansFrames (h _)

instance (i : Nat) : CapMoves i (Framed i) where
  caps s f h := by
    refine ⟨?_, refl_of (LogExt _) s⟩
    rw [updPd_pd_same]
    exact .of_sansRecord (h _)

-- ================================================================== core

/-- What an exchange does to the core of a PD: reception may drop the
session, and choose the default key where the PD may be installed. -/
structure CoreStep (p q : OsdpPd) : Prop where
  core :
    { q.core with
      scActive := false, scUseScbkd := false, enable := false, ring := [] }
    = { p.core with
      scActive := false, scUseScbkd := false, enable := false, ring := [] }
  active : q.flags.scActive = true → p.flags.scActive = true
  select : q.flags.scUseScbkd = true →
    p.flags.scUseScbkd = true ∨ p.flags.installMode = true
  clear : p.flags.scUseScbkd = true → q.flags.scUseScbkd = true
  enable : q.request.enable = true →
    p.request.enable = true ∨ p.state = .disabled

section CoreStep

variable {p q r : OsdpPd}

theorem CoreStep.state (h : CoreStep p q) : q.state = p.state :=
  congrArg PdCore.state h.core

theorem CoreStep.installMode (h : CoreStep p q) :
    q.flags.installMode = p.flags.installMode :=
  congrArg PdCore.installMode h.core

theorem CoreStep.pdMode (h : CoreStep p q) :
    q.flags.pdMode = p.flags.pdMode :=
  congrArg PdCore.pdMode h.core

theorem CoreStep.cpRandom (h : CoreStep p q) :
    q.sc.cpRandom = p.sc.cpRandom :=
  congrArg PdCore.cpRandom h.core

theorem CoreStep.restartSc (h : CoreStep p q) :
    q.request.restartSc = p.request.restartSc :=
  congrArg PdCore.restartSc h.core

theorem CoreStep.of_core (h : q.core = p.core) : CoreStep p q := by
  have hactive : q.flags.scActive = p.flags.scActive :=
    congrArg PdCore.scActive h
  have hsel : q.flags.scUseScbkd = p.flags.scUseScbkd :=
    congrArg PdCore.scUseScbkd h
  have hen : q.request.enable = p.request.enable :=
    congrArg PdCore.enable h
  exact ⟨by rw [h], fun e => hactive ▸ e, fun e => .inl (hsel ▸ e),
    fun e => hsel ▸ e, fun e => .inl (hen ▸ e)⟩

theorem CoreStep.trans (h : CoreStep p q) (k : CoreStep q r) :
    CoreStep p r := by
  refine ⟨k.core.trans h.core, fun e => h.active (k.active e), fun e => ?_,
    fun e => k.clear (h.clear e), fun e => ?_⟩
  · rcases k.select e with hq | hq
    · exact h.select hq
    · exact .inr (h.installMode ▸ hq)
  · rcases k.enable e with hq | hq
    · exact h.enable hq
    · exact .inr (h.state ▸ hq)

theorem CallStep.coreStep (h : CallStep p q) : CoreStep p q := by
  have e := congrArg OsdpPd.core h.aside
  have hactive : q.flags.scActive = p.flags.scActive :=
    congrArg PdCore.scActive e
  have hsel : q.flags.scUseScbkd = p.flags.scUseScbkd :=
    congrArg PdCore.scUseScbkd e
  have hcore := congrArg (fun c : PdCore =>
    { c with
      scActive := false, scUseScbkd := false, enable := false, ring := [] }) e
  exact ⟨hcore, fun e => hactive ▸ e, fun e => .inl (hsel ▸ e),
    fun e => hsel ▸ e, h.enable⟩

theorem ReadStep.coreStep (h : ReadStep p q) : CoreStep p q := by
  have hrest := congrArg (fun p : OsdpPd =>
    (p.state, p.sc.scbk, p.sc.cpRandom, p.request.restartSc,
      p.request.enable)) h.rest
  have hflags := congrArg (fun f : PdFlags =>
    (f.scEstablished, f.pdMode, f.scDisabled, f.installMode)) h.flags
  simp only [Prod.mk.injEq] at hrest hflags
  obtain ⟨h₁, h₂, h₃, h₄, h₅⟩ : q.state = p.state ∧
      q.sc.scbk = p.sc.scbk ∧ q.sc.cpRandom = p.sc.cpRandom ∧
      q.request.restartSc = p.request.restartSc ∧
      q.request.enable = p.request.enable := hrest
  obtain ⟨f₁, f₂, f₃, f₄⟩ :
      q.flags.scEstablished = p.flags.scEstablished ∧
      q.flags.pdMode = p.flags.pdMode ∧
      q.flags.scDisabled = p.flags.scDisabled ∧
      q.flags.installMode = p.flags.installMode := hflags
  refine ⟨?_, h.active, h.select, h.clear, fun e => .inl (h₅ ▸ e)⟩
  simp only [OsdpPd.core, h₁, h₂, h₃, h₄, f₁, f₂, f₃, f₄]

end CoreStep

/-- What an exchange does to the core of PD `i`. -/
def CoreDown (i : Nat) (s t : Osdp) : Prop := CoreStep (s.pd i) (t.pd i)

theorem coreDown_same {i : Nat} {s t : Osdp} (h : t.pd = s.pd) :
    CoreDown i s t := .of_core (by rw [h])

/-- An update of PD `i`, or of another. -/
theorem coreDown_updPd {i j : Nat} {s : Osdp} {f : OsdpPd → OsdpPd}
    (h : CoreStep (s.pd j) (f (s.pd j))) : CoreDown i s (s.updPd j f) := by
  unfold CoreDown
  by_cases e : i = j
  · subst e
    rw [updPd_pd_same]
    exact h
  · rw [updPd_pd_ne s f e]
    exact .of_core rfl

instance (i : Nat) : BusMoves (CoreDown i) where
  refl _ := coreDown_same rfl
  trans _ _ _ h k := CoreStep.trans h k
  call _ _ _ h := coreDown_updPd (CallStep.of_sansCalls (h _)).coreStep
  enable _ _ h :=
    coreDown_updPd (CallStep.coreStep ⟨rfl, fun _ => .inr h⟩)
  disable _ _ := coreDown_updPd (CallStep.coreStep ⟨rfl, .inl⟩)
  note _ _ _ := coreDown_same rfl
  running _ _ := coreDown_same rfl
  entry _ _ _ := coreDown_same rfl
  txBuf _ _ _ := coreDown_same rfl
  flush _ := coreDown_same rfl
  drawn _ _ := coreDown_same rfl

instance (i : Nat) : MarkMoves i (CoreDown i) where
  mark _ _ _ := coreDown_same rfl

instance (i : Nat) : CoreMoves i (CoreDown i) where
  core _ _ h _ := coreDown_updPd (.of_core (h _))

instance (i : Nat) : CapMoves i (CoreDown i) where
  caps s _ h := coreDown_updPd <| .of_core <| by
    have e := congrArg OsdpPd.core (h (s.pd i))
    exact e

instance (i : Nat) : ReadMoves i (CoreDown i) where
  read _ _ h := coreDown_updPd h.coreStep
  rxBuf _ _ := coreDown_same rfl
  line _ _ := coreDown_same rfl

-- ================================================================ sending

section Outcomes

variable {env : Env} {run : List ApiCall → OsdpM Unit} {i : Nat}

/-- The exchange as it is, the ring and the phy state apart. -/
structure SameCmd (p q : OsdpPd) : Prop where
  cmdId : q.cmdId = p.cmdId
  activeCmd : q.activeCmd = p.activeCmd

theorem SameCmd.refl (p : OsdpPd) : SameCmd p p := ⟨rfl, rfl⟩

theorem SameCmd.trans {p q r : OsdpPd} (h : SameCmd p q)
    (k : SameCmd q r) : SameCmd p r :=
  ⟨k.cmdId.trans h.cmdId, k.activeCmd.trans h.activeCmd⟩

theorem FrameStep.exchange {p q : OsdpPd} (h : FrameStep p q) :
    q.exchange = p.exchange := by
  have e := congrArg OsdpPd.exchange h.framed
  exact e

theorem FrameStep.phyState {p q : OsdpPd} (h : FrameStep p q) :
    q.phyState = p.phyState := congrArg PdExchange.phyState h.exchange

theorem FrameStep.sameCmd {p q : OsdpPd} (h : FrameStep p q) :
    SameCmd p q :=
  ⟨congrArg PdExchange.cmdId h.exchange,
    congrArg PdExchange.activeCmd h.exchange⟩

theorem FrameStep.replyId {p q : OsdpPd} (h : FrameStep p q) :
    q.replyId = p.replyId := by
  have e := congrArg OsdpPd.replyId h.framed
  exact e

/-- What an offer to the channel comes to: declined, failed, or taken and
now awaiting a reply. -/
inductive SendOutcome (p q : OsdpPd) : Int → Prop where
  | declined (phy : q.phyState = p.phyState) : SendOutcome p q cpErrDefer
  | failed (phy : q.phyState = .err) (reply : q.replyId = p.replyId) :
      SendOutcome p q cpErrGeneric
  | awaiting (phy : q.phyState = .replyWait)
      (reply : q.replyId = replyInvalid) : SendOutcome p q cpErrInprog

/-- A packet the channel took. -/
theorem awaitReply_ok {s t : Osdp} (h : cpAwaitReply env i s = .ok () t) :
    (t.pd i).phyState = .replyWait ∧ (t.pd i).replyId = replyInvalid ∧
      SameCmd (s.pd i) (t.pd i) ∧ t.log = s.log := by
  obtain ⟨_, u, hu, h⟩ := bind_ok.mp h
  obtain ⟨_, v, hv, hu⟩ := bind_ok.mp hu
  obtain ⟨-, rfl⟩ := pure_ok.mp hu
  obtain ⟨now, w, hw, h⟩ := bind_ok.mp h
  cases hw
  obtain ⟨p, w, hw, h⟩ := bind_ok.mp h
  obtain ⟨rfl, rfl⟩ := getPd_ok.mp hw
  split at h
  · exact absurd h throw_ok
  · rw [← updPd_ok.mp h, ← updPd_ok.mp hv, updPd_pd_same, updPd_pd_same]
    exact ⟨rfl, rfl, ⟨rfl, rfl⟩, rfl⟩

/-- An offer to the channel. -/
theorem phySend_ok {s t : Osdp} {err : Int}
    (h : cpPhySend env i s = .ok err t) :
    SendOutcome (s.pd i) (t.pd i) err ∧ SameCmd (s.pd i) (t.pd i) ∧
      LogExt Obs.noMark s t := by
  obtain ⟨p, s', hp, h⟩ := bind_ok.mp h
  obtain ⟨rfl, rfl⟩ := getPd_ok.mp hp
  obtain ⟨rc, u, hu, h⟩ := bind_ok.mp h
  obtain ⟨ret, l, -, rfl⟩ := sendPacket_ok hu
  have hlog : LogExt Obs.noMark s
      { s with
        line := l
        log := .sent i ((s.buf (s.pd i).packetBuf).take
          (s.pd i).packetBufLen) ret :: s.log } := LogExt.cons rfl
  split at h
  · obtain ⟨rfl, rfl⟩ := pure_ok.mp h
    exact ⟨.declined rfl, .refl _, hlog⟩
  · split at h
    · obtain ⟨_, v, hv, h⟩ := bind_ok.mp h
      obtain ⟨rfl, rfl⟩ := pure_ok.mp h
      rw [← updPd_ok.mp hv, updPd_pd_same]
      exact ⟨.failed rfl rfl, ⟨rfl, rfl⟩, hlog⟩
    · obtain ⟨_, v, hv, h⟩ := bind_ok.mp h
      obtain ⟨rfl, rfl⟩ := pure_ok.mp h
      obtain ⟨hphy, hreply, hcmd, hl⟩ := awaitReply_ok hv
      exact ⟨.awaiting hphy hreply, hcmd, trans_of _ hlog (LogExt.of_eq hl)⟩

/-- The history once a build has begun. -/
def Osdp.building (s : Osdp) (i : Nat) : Osdp :=
  { s with log := .build i (s.pd i).cmdId (s.pd i).flags.scActive :: s.log }

/-- What building and offering a packet comes to. -/
inductive BuildOutcome (p q : OsdpPd) : Int → Prop where
  | declined (phy : q.phyState = .sendCmdWait) : BuildOutcome p q cpErrDefer
  | failed (phy : q.phyState = .err) (reply : q.replyId = p.replyId) :
      BuildOutcome p q cpErrGeneric
  | awaiting (phy : q.phyState = .replyWait)
      (reply : q.replyId = replyInvalid) : BuildOutcome p q cpErrInprog

section Build

variable {depth : Nat}

theorem framed_run (calls : List ApiCall) :
    Keeps (Framed i) (cpRunCalls env depth calls) :=
  keeps_cpRunCalls depth calls

/-- Building a packet and offering it. -/
theorem phyBuild_ok {s t : Osdp} {err : Int}
    (h : cpPhyBuild env (cpRunCalls env depth) i s = .ok err t) :
    BuildOutcome (s.pd i) (t.pd i) err ∧ SameCmd (s.pd i) (t.pd i) ∧
      LogExt Obs.noMark (s.building i) t := by
  obtain ⟨ok, u, hu, h⟩ := bind_ok.mp h
  have hf : Framed i (s.building i) u :=
    frame_cpBuildPacket framed_run hu
  have hcmd : SameCmd (s.pd i) (u.pd i) := hf.pd.sameCmd
  split at h
  · obtain ⟨_, v, hv, h⟩ := bind_ok.mp h
    obtain ⟨hout, hsame, hlog⟩ := phySend_ok h
    rw [← updPd_ok.mp hv] at hout hsame hlog
    rw [updPd_pd_same] at hout hsame
    refine ⟨?_, hcmd.trans ⟨hsame.cmdId, hsame.activeCmd⟩,
      trans_of _ hf.log hlog⟩
    cases hout with
    | declined phy => exact .declined phy
    | failed phy reply => exact .failed phy (reply.trans hf.pd.replyId)
    | awaiting phy reply => exact .awaiting phy reply
  · obtain ⟨_, v, hv, h⟩ := bind_ok.mp h
    obtain ⟨rfl, rfl⟩ := pure_ok.mp h
    rw [← updPd_ok.mp hv, updPd_pd_same]
    exact ⟨.failed rfl hf.pd.replyId, hcmd.trans ⟨rfl, rfl⟩, hf.log⟩

end Build

-- ============================================================= receiving

/-- Reception leaves the command and the phy state alone. -/
theorem scans_sameCmd {s t : Osdp} (h : Scans s t) :
    SameCmd (s.pd i) (t.pd i) ∧ (t.pd i).phyState = (s.pd i).phyState ∧
      (t.pd i).replyId = (s.pd i).replyId ∧ LogExt Obs.noMark s t := by
  have e₁ := congrArg OsdpPd.cmdId (h.pd i)
  have e₂ := congrArg OsdpPd.activeCmd (h.pd i)
  have e₃ := congrArg OsdpPd.phyState (h.pd i)
  have e₄ := congrArg OsdpPd.replyId (h.pd i)
  exact ⟨⟨e₁, e₂⟩, e₃, e₄, h.log.mono fun _ => noMark_isRx⟩

/-- What a decode leaves alone, refused or not. -/
theorem Decoded.sameCmd {p : OsdpPd} {pkt : Bytes} {n : Nat}
    {r : DecodeResult} (h : Decoded env p pkt n r) :
    SameCmd p r.pd ∧ r.pd.phyState = p.phyState := by
  have hrest := h.readStep.rest
  have e₁ := congrArg OsdpPd.cmdId hrest
  have e₂ := congrArg OsdpPd.activeCmd hrest
  have e₃ := congrArg OsdpPd.phyState hrest
  exact ⟨⟨e₁, e₂⟩, e₃⟩

/-- The frame in hand makes PD `i` work from SCBK-D. -/
def Osdp.selects (s : Osdp) (i : Nat) : Prop :=
  ctrlScb (pktControl (s.frameBuf i)) = true ∧
    selectsScbkd (s.pd i) (s.frameBuf i) = true

/-- The bytes PD `i` is about to receive are such a frame, in order. -/
def HearsSelector (env : Env) (i : Nat) (s : Osdp) : Prop :=
  ∃ w, osdpPhyCheckPacket env i s = .ok errPktNone w ∧ w.selects i

/-- Nothing but a selector block chooses the key. -/
theorem Decoded.scUseScbkd {s : Osdp} {n : Nat} {r : DecodeResult}
    (h : Decoded env (s.pd i) (s.frameBuf i) n r) (hno : ¬ s.selects i) :
    r.pd.flags.scUseScbkd = (s.pd i).flags.scUseScbkd := by
  have htake : takeSelector (s.pd i) (s.frameBuf i) = s.pd i := if_neg hno
  have hmac : (afterMac env (s.pd i) (s.frameBuf i) n).flags.scUseScbkd
      = (s.pd i).flags.scUseScbkd := by
    unfold afterMac
    rw [htake]
    rfl
  cases h with
  | refused code href => rfl
  | plain href hm =>
    show (takeSelector (s.pd i) (s.frameBuf i)).flags.scUseScbkd = _
    rw [htake]
  | dropped pkt' href hm hbad => exact hmac
  | maced href hm hok he => exact hmac
  | decrypted pkt' text href hm hok he => exact hmac

/-- The session keys a REPLY_CCRYPT makes the CP derive. -/
def ccryptKeys (env : Env) (p : OsdpPd) (data : Bytes) : OsdpSecureChannel :=
  computeSessionKeys env p.sessionKeyBase (takeCcrypt data p.sc)

/-- What the decoder makes of a reply to a handshake message: keys and a
verdict on the cryptogram, or nothing. -/
structure CcryptDecoded (env : Env) (i : Nat) (payload : Bytes)
    (s t : Osdp) (rc : Int) : Prop where
  asked : (s.pd i).cmdId = cmdChlng
  inactive : (s.pd i).flags.scActive = false
  log : t.log = .sessionKeys i (s.pd i).flags.scUseScbkd
    (ccryptKeys env (s.pd i) payload.tail) :: s.log
  verified : rc = cpErrNone →
    osdpVerifyPdCryptogram env (ccryptKeys env (s.pd i) payload.tail) = true

/-- What the decoder makes of a payload. -/
structure ReplyDecoded (env : Env) (i : Nat) (payload : Bytes) (s t : Osdp)
    (rc : Int) : Prop where
  replyId : (t.pd i).replyId = payloadId payload
  phy : (t.pd i).phyState = (s.pd i).phyState
  same : SameCmd (s.pd i) (t.pd i)
  ccrypt : LogExt Obs.noMark s t ∧
      ¬ (payloadId payload = replyCcrypt ∧ rc = cpErrNone) ∨
    payloadId payload = replyCcrypt ∧ CcryptDecoded env i payload s t rc
  rmac : payloadId payload = replyRmacI → rc = cpErrNone →
    (s.pd i).cmdId = cmdScrypt
  handshake : payloadId payload = replyCcrypt ∨
      payloadId payload = replyRmacI →
    rc = cpErrNone ∨ rc = cpErrGeneric ∨ rc = cpErrApp

/-- REPLY_CCRYPT, handled. -/
theorem decodeCcrypt_ok {s t : Osdp} {rc : Int} {payload : Bytes}
    (hid : payloadId payload = replyCcrypt)
    (h : decodeCcrypt env i payload.tail s = .ok rc t) :
    (t.pd i).replyId = (s.pd i).replyId ∧
      (t.pd i).phyState = (s.pd i).phyState ∧ SameCmd (s.pd i) (t.pd i) ∧
      (rc = cpErrNone ∨ rc = cpErrGeneric ∨ rc = cpErrApp) ∧
      (LogExt Obs.noMark s t ∧
          ¬ (payloadId payload = replyCcrypt ∧ rc = cpErrNone) ∨
        payloadId payload = replyCcrypt ∧
          CcryptDecoded env i payload s t rc) := by
  obtain ⟨p, s', hp, h⟩ := bind_ok.mp h
  obtain ⟨rfl, rfl⟩ := getPd_ok.mp hp
  split at h
  · obtain ⟨rfl, rfl⟩ := pure_ok.mp h
    exact ⟨rfl, rfl, .refl _, .inr (.inl rfl),
      .inl ⟨refl_of (LogExt _) _, nofun⟩⟩
  · next hgo =>
    simp only [not_or, Bool.not_eq_true, not_not] at hgo
    obtain ⟨_, u, hu, h⟩ := bind_ok.mp h
    obtain ⟨_, v, hv, h⟩ := bind_ok.mp h
    obtain ⟨_, v₁, hv₁, hv⟩ := bind_ok.mp hv
    obtain ⟨p, v₂, hp, hv⟩ := bind_ok.mp hv
    obtain ⟨rfl, rfl⟩ := getPd_ok.mp hp
    obtain ⟨p, w, hp, h⟩ := bind_ok.mp h
    obtain ⟨rfl, rfl⟩ := getPd_ok.mp hp
    have hv := observe_ok.mp hv
    have hv₁ := updPd_ok.mp hv₁
    have hu := updPd_ok.mp hu
    subst hu hv₁ hv
    simp only [updPd_updPd, updPd_pd_same, updPd_log] at h
    split at h
    · obtain ⟨rfl, rfl⟩ := pure_ok.mp h
      simp only [updPd_pd_same]
      exact ⟨rfl, rfl, ⟨rfl, rfl⟩, .inr (.inr trivial),
        .inr ⟨hid, hgo.2.1, hgo.1, rfl, nofun⟩⟩
    · next hver =>
      obtain ⟨rfl, rfl⟩ := pure_ok.mp h
      simp only [updPd_pd_same]
      refine ⟨rfl, rfl, ⟨rfl, rfl⟩, .inl trivial,
        .inr ⟨hid, hgo.2.1, hgo.1, rfl, ?_⟩⟩
      intro _
      rw [Bool.not_eq_true, Bool.not_eq_false'] at hver
      exact hver

/-- REPLY_RMAC_I is taken in answer to CMD_SCRYPT only. -/
theorem decodeRmacI_ok {s t : Osdp} {rc : Int} {data : Bytes}
    (h : decodeRmacI i data s = .ok rc t) :
    rc = cpErrNone ∧ (s.pd i).cmdId = cmdScrypt ∨ rc = cpErrGeneric := by
  obtain ⟨p, s', hp, h⟩ := bind_ok.mp h
  obtain ⟨rfl, rfl⟩ := getPd_ok.mp hp
  split at h
  · exact .inr (pure_ok.mp h).1.symm
  · next hgo =>
    simp only [not_or, not_not] at hgo
    obtain ⟨_, u, hu, h⟩ := bind_ok.mp h
    exact .inl ⟨(pure_ok.mp h).1.symm, hgo.2.1⟩

/-- A payload, decoded. -/
theorem decodeResponse_ok {depth : Nat} {s t : Osdp} {rc : Int}
    {payload : Bytes}
    (h : cpDecodeResponse env (cpRunCalls env depth) i payload s
      = .ok rc t) : ReplyDecoded env i payload s t rc := by
  obtain ⟨_, u, hu, h⟩ := bind_ok.mp h
  have hu := updPd_ok.mp hu
  have hrun : cpDecodeCases env (cpRunCalls env depth) i
      (payloadId payload) payload.tail u = .ok rc t := h
  have hpd : u.pd i
      = { s.pd i with replyId := payloadId payload } := by
    rw [← hu, updPd_pd_same]
    rfl
  have hlog : u.log = s.log := by rw [← hu]; rfl
  by_cases hid : payloadId payload = replyCcrypt
  · have hcc : decodeCcrypt env i payload.tail u = .ok rc t := by
      rw [hid] at hrun
      obtain ⟨p, s', hp, hrun⟩ := bind_ok.mp hrun
      obtain ⟨rfl, rfl⟩ := getPd_ok.mp hp
      exact hrun
    obtain ⟨hreply, hphy, hsame, hrc, hcase⟩ := decodeCcrypt_ok hid hcc
    rw [hpd] at hreply hphy hsame
    refine ⟨hreply, hphy, ⟨hsame.cmdId, hsame.activeCmd⟩, ?_, fun hr => ?_,
      fun _ => hrc⟩
    · rcases hcase with ⟨hl, hno⟩ | ⟨-, hk⟩
      · exact .inl ⟨trans_of _ (LogExt.of_eq hlog) hl, hno⟩
      · refine .inr ⟨hid, ?_⟩
        obtain ⟨ha, hi, hl, hv⟩ := hk
        rw [hpd] at ha hi hl hv
        rw [hlog] at hl
        exact ⟨ha, hi, hl, hv⟩
    · rw [hid] at hr
      cases hr
  · have hf : Framed i u t :=
      (frame_cpDecodeCases_ne framed_run hid _ fun _ =>
        caps_decodePdcap _).of hrun
    have hreply := hf.pd.replyId
    have hphy := hf.pd.phyState
    have hsame := hf.pd.sameCmd
    rw [hpd] at hreply hphy hsame
    have hrmac (hr : payloadId payload = replyRmacI) :
        rc = cpErrNone ∧ (u.pd i).cmdId = cmdScrypt ∨ rc = cpErrGeneric := by
      rw [hr] at hrun
      obtain ⟨p, s', hp, hrun⟩ := bind_ok.mp hrun
      obtain ⟨rfl, rfl⟩ := getPd_ok.mp hp
      exact decodeRmacI_ok hrun
    refine ⟨hreply, hphy, ⟨hsame.cmdId, hsame.activeCmd⟩,
      .inl ⟨trans_of _ (LogExt.of_eq hlog) hf.log, fun hc => hid hc.1⟩,
      fun hr hrc => ?_, fun hr => ?_⟩
    · rcases hrmac hr with ⟨-, hcmd⟩ | he
      · rw [hpd] at hcmd
        exact hcmd
      · rw [he] at hrc
        cases hrc
    · rcases hrmac (hr.resolve_left hid) with ⟨he, -⟩ | he
      · exact .inl he
      · exact .inr (.inl he)

/-- What is true by the time a payload is handed to the decoder. -/
structure Hears (i : Nat) (payload : Bytes) (s u : Osdp) : Prop where
  same : SameCmd (s.pd i) (u.pd i)
  phy : (u.pd i).phyState = (s.pd i).phyState
  core : CoreStep (s.pd i) (u.pd i)
  log : ∃ w, LogExt Obs.noMark s w ∧
    u.log = .decoded i payload (u.pd i).flags.scActive :: w.log

/-- What listening for a reply comes to: no payload, or one and the
decoder's verdict on it.  `sel` tells whether the frame selects SCBK-D. -/
inductive Heard (env : Env) (i : Nat) (sel : Prop) (s t : Osdp) (rc : Int) :
    Prop where
  | nothing (same : SameCmd (s.pd i) (t.pd i))
      (phy : (t.pd i).phyState = (s.pd i).phyState)
      (log : LogExt Obs.noMark s t)
      (rc : rc = cpErrNoData ∧ (t.pd i).replyId = (s.pd i).replyId ∨
        rc = cpErrGeneric ∨
        rc = cpErrSeqNum ∧ (t.pd i).replyId = replyNak ∨
        rc = cpErrRetryCmd ∧ (t.pd i).replyId = replyBusy)
  | reply (payload : Bytes) (u v : Osdp) (hears : Hears i payload s u)
      (key : ¬ sel →
        (u.pd i).flags.scUseScbkd = (s.pd i).flags.scUseScbkd)
      (dec : ReplyDecoded env i payload u v rc) (pd : t.pd i = v.pd i)
      (log : t.log = .verdict i payload rc :: v.log)

section Listen

variable {depth : Nat}

/-- A frame that passed the checks. -/
theorem processFrame_ok {s t : Osdp} {rc : Int}
    (h : cpProcessFrame env (cpRunCalls env depth) i s = .ok rc t) :
    Heard env i (s.selects i) s t rc := by
  obtain ⟨⟨len, payload⟩, u, hu, h⟩ := bind_ok.mp h
  obtain ⟨r, hr, -, -, hpd, -, hlog⟩ := osdpPhyDecodePacket_ok hu
  have hdec := decoded_of hr
  obtain ⟨hsame, hphy⟩ := hdec.sameCmd
  rw [← hpd] at hsame hphy
  have hcore : CoreStep (s.pd i) (u.pd i) := hpd ▸ hdec.readStep.coreStep
  simp only at h
  split at h
  · obtain ⟨rfl, rfl⟩ := pure_ok.mp h
    exact .nothing hsame hphy (LogExt.of_eq hlog) (.inr (.inl rfl))
  · obtain ⟨p, u', hp, h⟩ := bind_ok.mp h
    obtain ⟨rfl, rfl⟩ := getPd_ok.mp hp
    obtain ⟨_, v, hv, h⟩ := bind_ok.mp h
    obtain ⟨ret, w, hw, h⟩ := bind_ok.mp h
    obtain ⟨_, x, hx, h⟩ := bind_ok.mp h
    obtain ⟨rfl, rfl⟩ := pure_ok.mp h
    have hears : Hears i payload s v := by
      rw [← observe_ok.mp hv]
      exact ⟨hsame, hphy, hcore, u, (LogExt.of_eq hlog), rfl⟩
    have hx := observe_ok.mp hx
    subst hx
    have hkey (hno : ¬ s.selects i) :
        (v.pd i).flags.scUseScbkd = (s.pd i).flags.scUseScbkd := by
      rw [← observe_ok.mp hv]
      show (u.pd i).flags.scUseScbkd = _
      rw [hpd]
      exact hdec.scUseScbkd hno
    exact .reply payload v w hears hkey (decodeResponse_ok hw) rfl rfl

/-- A frame the checks refused. -/
theorem processNack_ok {s t : Osdp} {rc : Int}
    (h : cpProcessNack i s = .ok rc t) :
    SameCmd (s.pd i) (t.pd i) ∧ (t.pd i).phyState = (s.pd i).phyState ∧
      (t.pd i).replyId = (s.pd i).replyId ∧ t.log = s.log ∧
      (rc = cpErrSeqNum ∨ rc = cpErrGeneric) := by
  have hreq (r : CpReq) {u v : Osdp} (e : makeRequest i r u = .ok () v) :
      SameCmd (u.pd i) (v.pd i) ∧ (v.pd i).phyState = (u.pd i).phyState ∧
        (v.pd i).replyId = (u.pd i).replyId ∧ v.log = u.log := by
    rw [← updPd_ok.mp e, updPd_pd_same]
    exact ⟨⟨rfl, rfl⟩, rfl, rfl, rfl⟩
  obtain ⟨p, u, hp, h⟩ := bind_ok.mp h
  obtain ⟨rfl, rfl⟩ := getPd_ok.mp hp
  split at h
  · obtain ⟨_, u, hu, h⟩ := bind_ok.mp h
    obtain ⟨rfl, rfl⟩ := pure_ok.mp h
    obtain ⟨h₁, h₂, h₃, h₄⟩ := hreq _ hu
    exact ⟨h₁, h₂, h₃, h₄, .inl rfl⟩
  · split at h
    · obtain ⟨_, u, hu, h⟩ := bind_ok.mp h
      obtain ⟨rfl, rfl⟩ := pure_ok.mp h
      obtain ⟨h₁, h₂, h₃, h₄⟩ := hreq _ hu
      exact ⟨h₁, h₂, h₃, h₄, .inr rfl⟩
    · obtain ⟨rfl, rfl⟩ := pure_ok.mp h
      exact ⟨.refl _, rfl, rfl, rfl, .inr rfl⟩

/-- What the checks leave of a frame they refuse. -/
theorem refused_ok {s t : Osdp} {rc : Int}
    (h : osdpPhyCheckPacket env i s = .ok rc t) :
    SameCmd (s.pd i) (t.pd i) ∧ (t.pd i).phyState = (s.pd i).phyState ∧
      LogExt Obs.noMark s t ∧
      (t.pd i).replyId
        = if rc = errPktNack then replyNak else (s.pd i).replyId := by
  obtain ⟨u, hS, hc⟩ := ends_osdpPhyCheckPacket i s _ t h
  obtain ⟨hsame, hphy, hreply, hlog⟩ := scans_sameCmd (i := i) hS
  unfold SequenceChecked at hc
  split at hc
  · next he =>
    rw [hc, updPd_pd_same, if_pos he]
    exact ⟨⟨hsame.cmdId, hsame.activeCmd⟩, hphy, hlog, rfl⟩
  · next he =>
    rw [hc, if_neg he]
    exact ⟨hsame, hphy, hlog, hreply⟩

/-- The checks leave the choice of key alone. -/
theorem check_scUseScbkd {s t : Osdp} {rc : Int}
    (h : osdpPhyCheckPacket env i s = .ok rc t) :
    (t.pd i).flags.scUseScbkd = (s.pd i).flags.scUseScbkd := by
  obtain ⟨u, hS, hc⟩ := ends_osdpPhyCheckPacket i s _ t h
  have hu : (u.pd i).flags.scUseScbkd = (s.pd i).flags.scUseScbkd := by
    have e := congrArg (fun p : OsdpPd => p.flags.scUseScbkd) (hS.pd i)
    exact e
  unfold SequenceChecked at hc
  split at hc
  · rw [hc, updPd_pd_same]
    exact hu
  · rw [hc]
    exact hu

theorem Hears.after {s u w : Osdp} {payload : Bytes}
    (hsame : SameCmd (s.pd i) (u.pd i))
    (hphy : (u.pd i).phyState = (s.pd i).phyState)
    (hcore : CoreStep (s.pd i) (u.pd i)) (hlog : LogExt Obs.noMark s u)
    (h : Hears i payload u w) : Hears i payload s w := by
  obtain ⟨v, hv, he⟩ := h.log
  exact ⟨hsame.trans h.same, h.phy.trans hphy, hcore.trans h.core, v,
    trans_of _ hlog hv, he⟩

/-- Listening for a reply. -/
theorem processReply_ok {s t : Osdp} {rc : Int}
    (h : cpProcessReply env (cpRunCalls env depth) i s = .ok rc t) :
    Heard env i (HearsSelector env i s) s t rc := by
  obtain ⟨err, u, hu, h⟩ := bind_ok.mp h
  obtain ⟨hsame, hphy, hlog, hreply⟩ := refused_ok hu
  have hcore : CoreStep (s.pd i) (u.pd i) :=
    (read_osdpPhyCheckPacket (R := CoreDown i)).of hu
  split at h
  · next he =>
    subst he
    cases processFrame_ok h with
    | nothing hs hp hl hrc =>
      have hreply : (u.pd i).replyId = (s.pd i).replyId := hreply
      rw [hreply] at hrc
      exact .nothing (hsame.trans hs) (hp.trans hphy) (trans_of _ hlog hl) hrc
    | reply payload v w hears key dec hpd hl =>
      have hu' : (u.pd i).flags.scUseScbkd = (s.pd i).flags.scUseScbkd :=
        check_scUseScbkd hu
      exact .reply payload v w (hears.after hsame hphy hcore hlog)
        (fun hno => (key fun hsel => hno ⟨u, hu, hsel⟩).trans hu') dec hpd hl
  · split at h
    · next he =>
      obtain ⟨rfl, rfl⟩ := pure_ok.mp h
      rw [if_neg (by rcases he with rfl | rfl <;> decide)] at hreply
      exact .nothing hsame hphy hlog (.inl ⟨rfl, hreply⟩)
    · split at h
      · obtain ⟨_, v, hv, h⟩ := bind_ok.mp h
        obtain ⟨rfl, rfl⟩ := pure_ok.mp h
        have hv := updPd_ok.mp hv
        subst hv
        refine .nothing ?_ ?_ hlog (.inr (.inr (.inr ⟨rfl, ?_⟩))) <;>
          rw [updPd_pd_same]
        · exact ⟨hsame.cmdId, hsame.activeCmd⟩
        · exact hphy
      · split at h
        · next he =>
          obtain ⟨hs, hp, hr, hl, hrc⟩ := processNack_ok h
          rw [if_pos he] at hreply
          refine .nothing (hsame.trans hs) (hp.trans hphy)
            (trans_of _ hlog (LogExt.of_eq hl)) ?_
          rcases hrc with e | e
          · exact .inr (.inr (.inl ⟨e, hr.trans hreply⟩))
          · exact .inr (.inl e)
        · obtain ⟨rfl, rfl⟩ := pure_ok.mp h
          exact .nothing hsame hphy hlog (.inr (.inl rfl))

end Listen

-- ============================================================= the verdict

/-- What becomes of an exchange after listening. -/
inductive Judged (p q : OsdpPd) (rc : Int) : Int → Prop where
  | done (phy : q.phyState = .done)
      (ends : cpReplyEnds p rc = true ∨ rc = cpErrRetryCmd) :
      Judged p q rc cpErrNone
  | failed (phy : q.phyState = .err) (ends : cpReplyEnds p rc = false) :
      Judged p q rc cpErrGeneric
  | again (phy : q.phyState = .wait) (ends : cpReplyEnds p rc = false)
      (live : rc ≠ cpErrGeneric ∧ rc ≠ cpErrApp) : Judged p q rc cpErrDefer
  | waiting (phy : q.phyState = p.phyState)
      (ends : cpReplyEnds p rc = false)
      (live : rc ≠ cpErrGeneric ∧ rc ≠ cpErrApp) :
      Judged p q rc cpErrInprog

/-- An exchange that goes on, or failed, had no reply that went well. -/
theorem Judged.rc_ne {p q : OsdpPd} {rc err : Int} (h : Judged p q rc err)
    (hne : q.phyState ≠ .done) : rc ≠ cpErrNone := by
  rintro rfl
  have hends : cpReplyEnds p cpErrNone = true := by simp [cpReplyEnds]
  cases h with
  | done phy ends => exact hne phy
  | failed phy ends => rw [hends] at ends; cases ends
  | again phy ends live => rw [hends] at ends; cases ends
  | waiting phy ends live => rw [hends] at ends; cases ends

/-- What an exchange other than a POLL is done with. -/
theorem Judged.rc_done {p q : OsdpPd} {rc err : Int} (h : Judged p q rc err)
    (hwait : p.phyState = .replyWait) (hpoll : p.cmdId ≠ cmdPoll)
    (hdone : q.phyState = .done) :
    rc = cpErrNone ∨ rc = cpErrSeqNum ∨ rc = cpErrRetryCmd := by
  cases h with
  | done phy ends =>
    rcases ends with ends | ends
    · simp only [cpReplyEnds, Bool.or_eq_true, beq_iff_eq,
        Bool.and_eq_true] at ends
      rcases ends with (e | e) | ⟨⟨-, e⟩, -⟩
      · exact .inl e
      · exact .inr (.inl e)
      · exact absurd e hpoll
    · exact .inr (.inr ends)
  | failed phy ends => rw [phy] at hdone; cases hdone
  | again phy ends live => rw [phy] at hdone; cases hdone
  | waiting phy ends live => rw [phy, hwait] at hdone; cases hdone

/-- An exchange that still awaits its reply heard nothing that ends it. -/
theorem Judged.rc_live {p q : OsdpPd} {rc err : Int} (h : Judged p q rc err)
    (hwait : q.phyState = .replyWait) :
    rc ≠ cpErrGeneric ∧ rc ≠ cpErrApp := by
  cases h with
  | done phy ends => rw [phy] at hwait; cases hwait
  | failed phy ends => rw [phy] at hwait; cases hwait
  | again phy ends live => exact live
  | waiting phy ends live => exact live

/-- What the verdict leaves alone. -/
structure Concludes (i : Nat) (s t : Osdp) : Prop where
  same : SameCmd (s.pd i) (t.pd i)
  reply : (t.pd i).replyId = (s.pd i).replyId
  ignore : (t.pd i).flags.ignoreUsr = (s.pd i).flags.ignoreUsr
  log : t.log = s.log

theorem Concludes.refl (s : Osdp) : Concludes i s s :=
  ⟨.refl _, rfl, rfl, rfl⟩

theorem Concludes.trans {s t u : Osdp} (h : Concludes i s t)
    (k : Concludes i t u) : Concludes i s u :=
  ⟨h.same.trans k.same, k.reply.trans h.reply, k.ignore.trans h.ignore,
    k.log.trans h.log⟩

theorem phyFail_ok {s t : Osdp} {err : Int} (h : cpPhyFail i s = .ok err t) :
    err = cpErrGeneric ∧ (t.pd i).phyState = .err ∧ Concludes i s t := by
  obtain ⟨_, u, hu, h⟩ := bind_ok.mp h
  obtain ⟨rfl, rfl⟩ := pure_ok.mp h
  rw [← updPd_ok.mp hu]
  refine ⟨rfl, ?_, ?_, ?_, ?_, rfl⟩ <;> rw [updPd_pd_same]
  exact ⟨rfl, rfl⟩

theorem phyDone_ok {s t : Osdp} {a : Unit}
    (h : cpPhyStateDone i s = .ok a t) :
    (t.pd i).phyState = .done ∧ Concludes i s t := by
  obtain ⟨_, u, hu, h⟩ := bind_ok.mp h
  cases hu
  rw [← updPd_ok.mp h]
  refine ⟨?_, ?_, ?_, ?_, rfl⟩ <;> rw [updPd_pd_same]
  exact ⟨rfl, rfl⟩

theorem phyRetry_ok {s t : Osdp} {err : Int}
    (h : cpPhyRetry i s = .ok err t) :
    err = cpErrDefer ∧ (t.pd i).phyState = .wait ∧ Concludes i s t := by
  obtain ⟨_, u, hu, h⟩ := bind_ok.mp h
  obtain ⟨_, v, hv, h⟩ := bind_ok.mp h
  obtain ⟨rfl, rfl⟩ := pure_ok.mp h
  obtain ⟨_, w, hw, hv⟩ := bind_ok.mp hv
  cases hw
  have hv := updPd_ok.mp hv
  have hu := updPd_ok.mp hu
  subst hu hv
  refine ⟨rfl, ?_, ?_, ?_, ?_, rfl⟩ <;> simp only [updPd_pd_same]
  exact ⟨rfl, rfl⟩

/-- The sequence number moves on; the exchange is none of its
business. -/
theorem phyAcknowledge_ok {s t : Osdp} {rc : Int} {a : Unit}
    (h : cpPhyAcknowledge i rc s = .ok a t) :
    (t.pd i).phyState = (s.pd i).phyState ∧ Concludes i s t := by
  unfold cpPhyAcknowledge at h
  split at h
  · obtain ⟨_, u, hu, h⟩ := bind_ok.mp h
    cases hu
    obtain ⟨_, v, hv, h⟩ := bind_ok.mp h
    have hv := updPd_ok.mp hv
    subst hv
    have h := updPd_ok.mp h
    subst h
    refine ⟨?_, ?_, ?_, ?_, rfl⟩ <;>
      simp only [updPd_pd_same, updPd_updPd, Function.comp]
    exact ⟨rfl, rfl⟩
  · obtain ⟨-, rfl⟩ := pure_ok.mp h
    exact ⟨rfl, .refl _⟩

/-- The verdict on what was heard. -/
theorem phyJudge_ok {s t : Osdp} {rc err : Int}
    (h : cpPhyJudge i rc s = .ok err t) :
    Judged (s.pd i) (t.pd i) rc err ∧ Concludes i s t := by
  obtain ⟨p, u, hp, h⟩ := bind_ok.mp h
  obtain ⟨rfl, rfl⟩ := getPd_ok.mp hp
  split at h
  · next hends =>
    obtain ⟨_, u, hu, h⟩ := bind_ok.mp h
    obtain ⟨rfl, rfl⟩ := pure_ok.mp h
    obtain ⟨hphy, hc⟩ := phyDone_ok hu
    exact ⟨.done hphy (.inl hends), hc⟩
  · next hends =>
    have hends : cpReplyEnds (s.pd i) rc = false := by simpa using hends
    split at h
    · obtain ⟨rfl, hphy, hc⟩ := phyFail_ok h
      exact ⟨.failed hphy hends, hc⟩
    · next hlive =>
      simp only [not_or] at hlive
      have hlive : rc ≠ cpErrGeneric ∧ rc ≠ cpErrApp := ⟨hlive.1, hlive.2.2⟩
      split at h
      · next hretry =>
        split at h
        · obtain ⟨_, u, hu, h⟩ := bind_ok.mp h
          obtain ⟨rfl, rfl⟩ := pure_ok.mp h
          obtain ⟨hphy, hc⟩ := phyDone_ok hu
          exact ⟨.done hphy (.inr hretry), hc⟩
        · obtain ⟨rfl, hphy, hc⟩ := phyRetry_ok h
          exact ⟨.again hphy hends hlive, hc⟩
      · obtain ⟨age, u, hu, h⟩ := bind_ok.mp h
        cases hu
        split at h
        · split at h
          · obtain ⟨rfl, hphy, hc⟩ := phyRetry_ok h
            exact ⟨.again hphy hends hlive, hc⟩
          · obtain ⟨rfl, hphy, hc⟩ := phyFail_ok h
            exact ⟨.failed hphy hends, hc⟩
        · obtain ⟨rfl, rfl⟩ := pure_ok.mp h
          exact ⟨.waiting rfl hends hlive, .refl _⟩

-- ============================================================ the exchange

/-- Back to what the command was first sent with. -/
theorem phyRewind_ok {s t : Osdp} {a : Unit}
    (h : cpPhyRewind env i s = .ok a t) :
    SameCmd (s.pd i) (t.pd i) ∧ (t.pd i).replyId = (s.pd i).replyId ∧
      (t.pd i).flags.scActive = (s.pd i).flags.scActive ∧
      t.log = s.log := by
  unfold cpPhyRewind at h
  split at h
  · obtain ⟨_, u, hu, h⟩ := bind_ok.mp h
    rw [← updPd_ok.mp h, ← modify_ok.mp hu, updPd_pd_same]
    exact ⟨⟨rfl, rfl⟩, rfl, rfl, rfl⟩
  · rw [← updPd_ok.mp h, updPd_pd_same]
    exact ⟨⟨rfl, rfl⟩, rfl, rfl, rfl⟩

/-- One step of an exchange. -/
inductive ExchangeStep (env : Env) (i : Nat) (s t : Osdp) (err : Int) :
    Prop where
  | finished (phy : (s.pd i).phyState = .done ∨ (s.pd i).phyState = .idle ∨
        (s.pd i).phyState = .err) (eq : t = s)
  | pausing (phy : (s.pd i).phyState = .wait)
      (next : (t.pd i).phyState = .wait ∨ (t.pd i).phyState = .retryCmd)
      (same : SameCmd (s.pd i) (t.pd i)) (log : t.log = s.log)
      (err : err = cpErrDefer)
  | building (phy : (s.pd i).phyState = .sendCmd ∨
        (s.pd i).phyState = .retryCmd)
      (out : BuildOutcome (s.pd i) (t.pd i) err)
      (same : SameCmd (s.pd i) (t.pd i))
      (log : LogExt Obs.noMark (s.building i) t)
  | sending (phy : (s.pd i).phyState = .sendCmdWait)
      (out : SendOutcome (s.pd i) (t.pd i) err)
      (same : SameCmd (s.pd i) (t.pd i)) (log : LogExt Obs.noMark s t)
  | listening (phy : (s.pd i).phyState = .replyWait) (u v : Osdp) (rc : Int)
      (heard : Heard env i (HearsSelector env i s) s u rc)
      (ack : Concludes i u v)
      (awaits : (v.pd i).phyState = .replyWait)
      (judged : Judged (v.pd i) (t.pd i) rc err) (same : Concludes i v t)

theorem Heard.sameCmd {sel : Prop} {s t : Osdp} {rc : Int}
    (h : Heard env i sel s t rc) :
    SameCmd (s.pd i) (t.pd i) ∧
      (t.pd i).phyState = (s.pd i).phyState := by
  cases h with
  | nothing same phy log rc => exact ⟨same, phy⟩
  | reply payload u v hears key dec hpd log =>
    rw [hpd]
    exact ⟨hears.same.trans dec.same, dec.phy.trans hears.phy⟩

/-- No step of it changes the command. -/
theorem exchangeStep_sameCmd {s t : Osdp} {err : Int}
    (h : ExchangeStep env i s t err) : SameCmd (s.pd i) (t.pd i) := by
  cases h with
  | finished phy eq => rw [eq]; exact .refl _
  | pausing phy next same log err => exact same
  | building phy out same log => exact same
  | sending phy out same log => exact same
  | listening phy u v rc heard ack awaits judged same =>
    exact (heard.sameCmd.1.trans ack.same).trans same.same

variable {depth : Nat}

/-- One step of an exchange is one of these. -/
theorem exchange_ok {s t : Osdp} {err : Int}
    (h : cpPhyStateUpdate env (cpRunCalls env depth) i s = .ok err t) :
    ExchangeStep env i s t err := by
  obtain ⟨p, v, hp, h⟩ := bind_ok.mp h
  obtain ⟨rfl, rfl⟩ := getPd_ok.mp hp
  cases hph : (s.pd i).phyState with
  | idle | done | err =>
    rw [hph] at h
    obtain ⟨-, rfl⟩ := pure_ok.mp h
    exact .finished (by simp [hph]) rfl
  | wait =>
    rw [hph] at h
    obtain ⟨p, v, hp, h⟩ := bind_ok.mp h
    obtain ⟨rfl, rfl⟩ := getPd_ok.mp hp
    obtain ⟨age, v, hv, h⟩ := bind_ok.mp h
    cases hv
    split at h
    · obtain ⟨_, u, hu, h⟩ := bind_ok.mp h
      obtain ⟨rfl, rfl⟩ := pure_ok.mp h
      have hu := updPd_ok.mp hu
      subst hu
      refine .pausing hph (.inr ?_) ?_ rfl rfl <;> rw [updPd_pd_same]
      exact ⟨rfl, rfl⟩
    · obtain ⟨rfl, rfl⟩ := pure_ok.mp h
      exact .pausing hph (.inl hph) (.refl _) rfl rfl
  | retryCmd =>
    rw [hph] at h
    obtain ⟨_, u, hu, h⟩ := bind_ok.mp h
    obtain ⟨hout, hsame, hlog⟩ := phyBuild_ok h
    obtain ⟨hcmd, hreply, hactive, hul⟩ := phyRewind_ok hu
    refine .building (.inr hph) ?_ (hcmd.trans hsame) ?_
    · cases hout with
      | declined phy => exact .declined phy
      | failed phy reply => exact .failed phy (reply.trans hreply)
      | awaiting phy reply => exact .awaiting phy reply
    · obtain ⟨l, hl, hE⟩ := hlog
      refine ⟨l, hl.trans ?_, hE⟩
      simp only [Osdp.building, hul, hactive, hcmd.cmdId]
  | sendCmd =>
    rw [hph] at h
    obtain ⟨hout, hsame, hlog⟩ := phyBuild_ok h
    exact .building (.inl hph) hout hsame hlog
  | sendCmdWait =>
    rw [hph] at h
    obtain ⟨hout, hsame, hlog⟩ := phySend_ok h
    exact .sending hph hout hsame hlog
  | replyWait =>
    rw [hph] at h
    obtain ⟨rc, u, hu, h⟩ := bind_ok.mp h
    obtain ⟨_, v, hv, h⟩ := bind_ok.mp h
    have hheard := processReply_ok hu
    obtain ⟨hphy, hack⟩ := phyAcknowledge_ok hv
    obtain ⟨hjudged, hsame⟩ := phyJudge_ok h
    exact .listening hph u v rc hheard hack
      (hphy.trans (hheard.sameCmd.2.trans hph)) hjudged hsame

-- =============================================================== the end

/-- `cp_phy_running`, of the phy state. -/
def phyRuns : CpPhyState → Bool
  | .idle | .done | .err => false
  | _ => true

theorem cpPhyRunning_eq (p : OsdpPd) :
    cpPhyRunning p = phyRuns p.phyState := by
  unfold cpPhyRunning cpPhyBusIsBusy
  cases p.phyState <;> rfl

/-- An exchange that goes on has not ended. -/
theorem exchangeStep_phy {s t : Osdp} {err : Int}
    (h : ExchangeStep env i s t err)
    (hrun : cpPhyRunning (s.pd i) = true)
    (he : err = cpErrInprog ∨ err = cpErrDefer) :
    (t.pd i).phyState ≠ .done ∧ (t.pd i).phyState ≠ .err := by
  rw [cpPhyRunning_eq] at hrun
  cases h with
  | finished phy eq =>
    rcases phy with e | e | e <;> (rw [e] at hrun; cases hrun)
  | pausing phy next same log herr =>
    rcases next with e | e <;> rw [e] <;> exact ⟨nofun, nofun⟩
  | building phy out same log =>
    cases out with
    | declined phy => rw [phy]; exact ⟨nofun, nofun⟩
    | failed phy reply => rcases he with he | he <;> cases he
    | awaiting phy reply => rw [phy]; exact ⟨nofun, nofun⟩
  | sending phy out same log =>
    cases out with
    | declined hp => rw [hp, phy]; exact ⟨nofun, nofun⟩
    | failed hp reply => rcases he with he | he <;> cases he
    | awaiting hp reply => rw [hp]; exact ⟨nofun, nofun⟩
  | listening phy u v rc heard ack awaits judged same =>
    cases judged with
    | done phy ends => rcases he with he | he <;> cases he
    | failed phy ends => rcases he with he | he <;> cases he
    | again phy ends live => rw [phy]; exact ⟨nofun, nofun⟩
    | waiting phy ends live =>
      rw [phy, awaits]
      exact ⟨nofun, nofun⟩

/-- An exchange that is over ended well or badly. -/
theorem exchangeStep_over {s t : Osdp} {err : Int}
    (h : ExchangeStep env i s t err)
    (hrun : cpPhyRunning (s.pd i) = true)
    (he : ¬ (err = cpErrInprog ∨ err = cpErrDefer)) :
    (t.pd i).phyState = .done ∧ err = cpErrNone ∨
      (t.pd i).phyState = .err ∧ err = cpErrGeneric := by
  rw [cpPhyRunning_eq] at hrun
  cases h with
  | finished phy eq =>
    rcases phy with e | e | e <;> (rw [e] at hrun; cases hrun)
  | pausing phy next same log herr => exact absurd (.inr herr) he
  | building phy out same log =>
    cases out with
    | declined phy => exact absurd (.inr rfl) he
    | failed phy reply => exact .inr ⟨phy, rfl⟩
    | awaiting phy reply => exact absurd (.inl rfl) he
  | sending phy out same log =>
    cases out with
    | declined phy => exact absurd (.inr rfl) he
    | failed phy reply => exact .inr ⟨phy, rfl⟩
    | awaiting phy reply => exact absurd (.inl rfl) he
  | listening phy u v rc heard ack awaits judged same =>
    cases judged with
    | done phy ends => exact .inl ⟨phy, rfl⟩
    | failed phy ends => exact .inr ⟨phy, rfl⟩
    | again phy ends live => exact absurd (.inr rfl) he
    | waiting phy ends live => exact absurd (.inl rfl) he

/-- An exchange that goes on has not been let go of. -/
theorem exchangeStep_live {s t : Osdp} {err : Int}
    (h : ExchangeStep env i s t err)
    (hrun : cpPhyRunning (s.pd i) = true) :
    (t.pd i).phyState ≠ .idle := by
  rw [cpPhyRunning_eq] at hrun
  cases h with
  | finished phy eq =>
    rcases phy with e | e | e <;> (rw [e] at hrun; cases hrun)
  | pausing phy next same log herr =>
    rcases next with e | e <;> (rw [e]; nofun)
  | building phy out same log =>
    cases out with
    | declined phy => rw [phy]; nofun
    | failed phy reply => rw [phy]; nofun
    | awaiting phy reply => rw [phy]; nofun
  | sending hphy out same log =>
    cases out with
    | declined phy => rw [phy, hphy]; nofun
    | failed phy reply => rw [phy]; nofun
    | awaiting phy reply => rw [phy]; nofun
  | listening phy u v rc heard ack awaits judged same =>
    cases judged with
    | done phy ends => rw [phy]; nofun
    | failed phy ends => rw [phy]; nofun
    | again phy ends live => rw [phy]; nofun
    | waiting phy ends live => rw [phy, awaits]; nofun

end Outcomes

end LibOsdp
