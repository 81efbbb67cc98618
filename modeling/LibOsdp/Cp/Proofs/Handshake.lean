/-
The secure channel of a CP: when it is up, and what brought it up.

# The monitor

`cpHandshakeOf` reads the history of PD `i` and says how far the current
handshake has come: the CP entered SC_CHLNG with a fresh challenge, sent
CMD_CHLNG, derived keys from a reply, found the reply in order, sent
CMD_SCRYPT, and found the reply to that in order.  A step out of order
sends it back to `idle`, and so does opening the channel.

# The invariant

`CpHsInv` ties the state machine to the monitor: in SC_CHLNG the challenge
is the monitor's, in SC_SCRYPT the monitor has seen a reply whose
cryptogram verified.  The channel is up only in the states past the
handshake, so a handshake always starts with the channel down.  One lemma
carries it through a step of an exchange (`hsMid_of_exchange`), one
through the rest of a pass (`hsInv_of_advance`).
-/
import LibOsdp.Cp.Proofs.Advance
import LibOsdp.Cp.Proofs.Bus
import LibOsdp.Lib.History

namespace LibOsdp

open Lib

-- =========================================================== the monitor

/-- How far the current handshake has come.  The channel that is carried
along is the one the session keys were derived in; `scbkd` says from
which key. -/
inductive CpHandshake where
  | idle
  | challenged (cpRandom : Bytes)
  | asked (cpRandom : Bytes)
  | keyed (cpRandom : Bytes) (scbkd : Bool) (sc : OsdpSecureChannel)
  | verified (cpRandom : Bytes) (scbkd : Bool) (sc : OsdpSecureChannel)
  | proving (cpRandom : Bytes) (scbkd : Bool) (sc : OsdpSecureChannel)
  | confirmed (cpRandom : Bytes) (scbkd : Bool) (sc : OsdpSecureChannel)
  deriving DecidableEq, Repr

/-- The challenge that is waiting for its answer. -/
def CpHandshake.challenge : CpHandshake → Option Bytes
  | .challenged r | .asked r | .keyed r .. => some r
  | _ => none

/-- A command was built. -/
def CpHandshake.build (id : Nat) (h : CpHandshake) : CpHandshake :=
  if id = cmdChlng then
    match h.challenge with
    | some r => .asked r
    | none => .idle
  else if id = cmdScrypt then
    match h with
    | .verified r d sc | .proving r d sc => .proving r d sc
    | _ => .idle
  else .idle

/-- Session keys were derived; `sc` is the channel that holds them. -/
def CpHandshake.derive (d : Bool) (sc : OsdpSecureChannel) :
    CpHandshake → CpHandshake
  | .asked r => if sc.cpRandom = r then .keyed r d sc else .idle
  | _ => .idle

/-- A reply was judged.  The one that answers the challenge is the one
whose random number and cryptogram the channel holds. -/
def CpHandshake.judge (payload : Bytes) (ret : Int) :
    CpHandshake → CpHandshake
  | .keyed r d sc =>
    if ret = cpErrNone ∧ payloadId payload = replyCcrypt ∧
        takeCcrypt payload.tail sc = sc then .verified r d sc
    else .keyed r d sc
  | .proving r d sc =>
    if ret = cpErrNone ∧ payloadId payload = replyRmacI then .confirmed r d sc
    else .proving r d sc
  | h => h

/-- One entry of the history, as seen by the handshake of PD `i`. -/
def CpHandshake.next (i : Nat) : Obs → CpHandshake → CpHandshake
  | .challenged j r, h => if j = i then .challenged r else h
  | .build j id _, h => if j = i then h.build id else h
  | .sessionKeys j d sc, h => if j = i then h.derive d sc else h
  | .verdict j payload ret, h => if j = i then h.judge payload ret else h
  | .scActivated j, h => if j = i then .idle else h
  | _, h => h

/-- The handshake a history has come to. -/
def cpHandshakeOf (i : Nat) (log : List Obs) : CpHandshake :=
  log.foldr (CpHandshake.next i) .idle

theorem cpHandshakeOf_cons (i : Nat) (o : Obs) (log : List Obs) :
    cpHandshakeOf i (o :: log)
      = CpHandshake.next i o (cpHandshakeOf i log) := rfl

/-- The session keys in `sc` are derived from the challenge `r` and the
key `d` selects, and the PD's cryptogram in it verifies under them. -/
structure CpKeyed (env : Env) (r : Bytes) (d : Bool)
    (sc : OsdpSecureChannel) : Prop where
  cpRandom : sc.cpRandom = r
  derived :
    computeSessionKeys env (if d then osdpScbkDefault else sc.scbk) sc = sc
  verified : osdpVerifyPdCryptogram env sc = true

/-- The PD has proved that it knows the key, and confirmed the CP's own
proof. -/
def CpProven (env : Env) (h : CpHandshake) : Prop :=
  ∃ r d sc, CpKeyed env r d sc ∧ h = .confirmed r d sc

/-- What an entry about PD `i` has to satisfy, given the ones before. -/
def SoundEntry (env : Env) (i : Nat) : Obs → List Obs → Prop
  | .scActivated j, past => j = i → CpProven env (cpHandshakeOf i past)
  | .build j id active, _ => j = i → id = cmdChlng → active = false
  | .challenged j r, past => j = i → ∃ n, past.head? = some (.random n r)
  | _, _ => True

-- ============================================================ neutrality

theorem next_of_noHs {i : Nat} {o : Obs} (h : o.noHs) (x : CpHandshake) :
    CpHandshake.next i o x = x := by
  cases o <;> first | rfl | cases h

theorem next_of_markOf {i : Nat} {o : Obs} (h : o.markOf ≠ some i)
    (x : CpHandshake) : CpHandshake.next i o x = x := by
  cases o <;> first
    | rfl
    | (simp only [Obs.markOf, ne_eq, Option.some.injEq] at h
       simp only [CpHandshake.next, if_neg h])

theorem soundEntry_of_noHs {env : Env} {i : Nat} {o : Obs} (h : o.noHs)
    (past : List Obs) : SoundEntry env i o past := by
  cases o <;> trivial

theorem soundEntry_of_markOf {env : Env} {i : Nat} {o : Obs}
    (h : o.markOf ≠ some i) (past : List Obs) :
    SoundEntry env i o past := by
  cases o <;> first
    | trivial
    | exact fun e => absurd (congrArg some e) h

theorem LogExt.cpHandshakeOf {s t : Osdp} (h : LogExt Obs.noHs s t)
    (i : Nat) : cpHandshakeOf i t.log = cpHandshakeOf i s.log := by
  obtain ⟨l, hl, hE⟩ := h
  rw [LibOsdp.cpHandshakeOf, hl]
  exact foldr_neutral fun o ho x => next_of_noHs (hE o ho) x

theorem LogExt.soundEntries {env : Env} {i : Nat} {s t : Osdp}
    (h : LogExt Obs.noHs s t) (hs : Always (SoundEntry env i) s.log) :
    Always (SoundEntry env i) t.log := by
  obtain ⟨l, hl, hE⟩ := h
  rw [hl]
  exact hs.append fun o ho past => soundEntry_of_noHs (hE o ho) past

theorem noHs_of_logExt {s t : Osdp} (h : LogExt Obs.noMark s t) :
    LogExt Obs.noHs s t :=
  h.mono fun _ => noHs_of_noMark

-- ========================================================= the invariant

/-- The states the channel may be up in. -/
def scState : CpState → Bool
  | .setScbk | .online | .trsSetup | .trsRun => true
  | _ => false

/-- The command is on its way: built, and not yet answered. -/
def onWire (st : CpPhyState) : Bool :=
  st == .sendCmdWait || st == .replyWait

/-- In SC_CHLNG: the challenge is the monitor's, and a reply that was
found in order leaves it verified. -/
structure ChlngFits (env : Env) (c : PdCtl) (h : CpHandshake) : Prop where
  command : phyRuns c.phyState = true → c.cmdId = cmdChlng
  wire : onWire c.phyState = true → h = .asked c.cpRandom
  open' : ¬ (c.phyState = .done ∧ c.replyId = replyCcrypt) →
    h.challenge = some c.cpRandom
  met : c.phyState = .done → c.replyId = replyCcrypt →
    ∃ r d sc, CpKeyed env r d sc ∧ h = .verified r d sc

/-- In SC_SCRYPT: the PD's proof was in order, and a reply to the CP's own
that was found in order leaves it confirmed. -/
structure ScryptFits (env : Env) (c : PdCtl) (h : CpHandshake) :
    Prop where
  command : phyRuns c.phyState = true → c.cmdId = cmdScrypt
  wire : onWire c.phyState = true → ∃ r d sc, h = .proving r d sc
  open' : ¬ (c.phyState = .done ∧ c.replyId = replyRmacI) →
    ∃ r d sc, CpKeyed env r d sc ∧ (h = .verified r d sc ∨ h = .proving r d sc)
  met : c.phyState = .done → c.replyId = replyRmacI → CpProven env h

/-- The state machine is where the monitor says. -/
def HsFits (env : Env) (c : PdCtl) (h : CpHandshake) : Prop :=
  match c.state with
  | .scChlng => ChlngFits env c h
  | .scScrypt => ScryptFits env c h
  | _ => phyRuns c.phyState = true → c.cmdId ≠ cmdChlng

/-- What holds of the control and the handshake throughout a pass. -/
structure HsCtl (env : Env) (c : PdCtl) (h : CpHandshake) : Prop where
  active : c.scActive = true → scState c.state = true
  restart : c.request.restartSc = true →
    c.scActive = false ∧ cpStateIsOnline c.state = true
  cp : c.pdMode = false
  fits : HsFits env c h

/-- Nobody asks for a PD to be enabled that has not been disabled. -/
def EnableOk (p : OsdpPd) : Prop :=
  p.request.enable = true → p.state = .disabled ∨ p.state = .offline

/-- The invariant of a PD and the history of the run. -/
structure CpHsInv (env : Env) (i : Nat) (p : OsdpPd) (log : List Obs) :
    Prop where
  ctl : HsCtl env p.ctl (cpHandshakeOf i log)
  phy : p.phyState ≠ .done ∧ p.phyState ≠ .err
  enable : EnableOk p
  sound : Always (SoundEntry env i) log

/-- What is left of it once the context is torn down. -/
structure ScInv (env : Env) (i : Nat) (p : OsdpPd) (log : List Obs) :
    Prop where
  active : p.flags.scActive = true → scState p.state = true
  sound : Always (SoundEntry env i) log

-- ========================================================= the exchange

section Exchange

variable {env : Env} {i depth : Nat} {s t : Osdp} {err : Int}

theorem takeCcrypt_keys (key data : Bytes) (sc : OsdpSecureChannel) :
    takeCcrypt data (computeSessionKeys env key (takeCcrypt data sc))
      = computeSessionKeys env key (takeCcrypt data sc) := rfl

/-- The keys derived on the way into `keyed` are for its challenge. -/
theorem cpKeyed_ccrypt {p : OsdpPd} {data : Bytes}
    (hver : osdpVerifyPdCryptogram env (ccryptKeys env p data) = true) :
    CpKeyed env p.sc.cpRandom p.flags.scUseScbkd (ccryptKeys env p data) where
  cpRandom := rfl
  derived := by
    unfold ccryptKeys OsdpPd.sessionKeyBase
    cases p.flags.scUseScbkd <;> rfl
  verified := hver

/-- What became of the monitor and of the exchange in one step of it. -/
inductive HsStep (env : Env) (p q : OsdpPd) (h h' : CpHandshake) : Prop where
  | rest (phy : q.phyState = .wait ∨ q.phyState = .retryCmd ∨
        q.phyState = .err) (wire : p.phyState = .replyWait ∨
          p.phyState = .wait ∨ p.phyState = .sendCmdWait) (same : h' = h)
  | wire (phy : p.phyState = .sendCmdWait ∨ p.phyState = .replyWait)
      (phy' : q.phyState = .sendCmdWait ∨ q.phyState = .replyWait)
      (same : h' = h)
  | build (phy : q.phyState = .sendCmdWait ∨ q.phyState = .replyWait ∨
        q.phyState = .err) (built : h' = h.build p.cmdId)
  | ended (phy : p.phyState = .replyWait) (phy' : q.phyState = .done)
      (reply : q.replyId = replyNak ∨ q.replyId = replyBusy) (same : h' = h)
  | heard (payload : Bytes) (rc : Int) (phy : p.phyState = .replyWait)
      (reply : q.replyId = payloadId payload)
      (going : q.phyState ≠ .done → rc ≠ cpErrNone)
      (atEnd : q.phyState = .done → p.cmdId ≠ cmdPoll →
        rc = cpErrNone ∨ rc = cpErrSeqNum ∨ rc = cpErrRetryCmd)
      (plain : ¬ (payloadId payload = replyCcrypt ∧ rc = cpErrNone))
      (known : payloadId payload = replyCcrypt ∨
          payloadId payload = replyRmacI →
        rc = cpErrNone ∨ rc = cpErrGeneric ∨ rc = cpErrApp)
      (judged : h' = h.judge payload rc)
  | keyed (payload : Bytes) (rc : Int) (phy : p.phyState = .replyWait)
      (asked : p.cmdId = cmdChlng) (id : payloadId payload = replyCcrypt)
      (reply : q.replyId = replyCcrypt)
      (going : q.phyState ≠ .done → rc ≠ cpErrNone)
      (atEnd : q.phyState = .done → rc = cpErrNone)
      (live : onWire q.phyState = false)
      (keys : ∃ d sc, sc.cpRandom = p.sc.cpRandom ∧
        takeCcrypt payload.tail sc = sc ∧
        (rc = cpErrNone → CpKeyed env p.sc.cpRandom d sc) ∧
        h' = (h.derive d sc).judge payload rc)

theorem cpHandshakeOf_eq {u v : Osdp} (h : u.log = v.log) :
    cpHandshakeOf i u.log = cpHandshakeOf i v.log := by rw [h]

theorem hsStep_listening {rc : Int} {u v : Osdp}
    (hphy : (s.pd i).phyState = .replyWait)
    (heard : Heard env i (HearsSelector env i s) s u rc)
    (ack : Concludes i u v) (awaits : (v.pd i).phyState = .replyWait)
    (judged : Judged (v.pd i) (t.pd i) rc err) (same : Concludes i v t) :
    HsStep env (s.pd i) (t.pd i) (cpHandshakeOf i s.log)
      (cpHandshakeOf i t.log) := by
  have hcmd : (v.pd i).cmdId = (s.pd i).cmdId :=
    (heard.sameCmd.1.trans ack.same).cmdId
  have hlog : t.log = u.log := same.log.trans ack.log
  have hreply : (t.pd i).replyId = (u.pd i).replyId :=
    same.reply.trans ack.reply
  cases heard with
  | nothing hsame hp hl hrc =>
    have hmon : cpHandshakeOf i t.log = cpHandshakeOf i s.log := by
      rw [cpHandshakeOf_eq hlog]
      exact (noHs_of_logExt hl).cpHandshakeOf i
    cases judged with
    | done phy ends =>
      refine .ended hphy phy ?_ hmon
      rw [hreply]
      rcases hrc with ⟨e, -⟩ | e | ⟨-, e⟩ | ⟨-, e⟩
      · rw [e] at ends
        simp [cpReplyEnds] at ends
      · rw [e] at ends
        simp [cpReplyEnds] at ends
      · exact .inl e
      · exact .inr e
    | failed phy ends => exact .rest (.inr (.inr phy)) (.inl hphy) hmon
    | again phy ends live => exact .rest (.inl phy) (.inl hphy) hmon
    | waiting phy ends live =>
      exact .wire (.inr hphy) (.inr (phy.trans awaits)) hmon
  | reply payload w x hears key dec hpd hl =>
    obtain ⟨y, hy, hwl⟩ := hears.log
    have hw : cpHandshakeOf i w.log = cpHandshakeOf i s.log := by
      rw [hwl]
      exact (noHs_of_logExt hy).cpHandshakeOf i
    have hid : (t.pd i).replyId = payloadId payload := by
      rw [hreply, hpd, dec.replyId]
    have hlast : cpHandshakeOf i t.log
        = (cpHandshakeOf i x.log).judge payload rc := by
      rw [cpHandshakeOf_eq hlog, hl, cpHandshakeOf_cons]
      simp only [CpHandshake.next, if_true]
    have hover (hdone : (t.pd i).phyState = .done)
        (hpoll : (s.pd i).cmdId ≠ cmdPoll) :=
      judged.rc_done awaits (hcmd ▸ hpoll) hdone
    rcases dec.ccrypt with ⟨hq, hno⟩ | ⟨hcc, hk⟩
    · refine .heard payload rc hphy hid judged.rc_ne hover hno
        dec.handshake ?_
      rw [hlast, (noHs_of_logExt hq).cpHandshakeOf i, hw]
    · have hasked : (s.pd i).cmdId = cmdChlng := by
        rw [← hears.same.cmdId]
        exact hk.asked
      have hrc := dec.handshake (.inl hcc)
      refine .keyed payload rc hphy hasked hcc (hid.trans hcc) judged.rc_ne
        (fun hdone => ?_) ?_
        ⟨(w.pd i).flags.scUseScbkd, ccryptKeys env (w.pd i) payload.tail,
          hears.core.cpRandom, rfl, fun hok => ?_, ?_⟩
      · have hne : (s.pd i).cmdId ≠ cmdPoll := by
          rw [hasked]
          decide
        rcases hover hdone hne with e | e | e
        · exact e
        · rw [e] at hrc
          simp at hrc
        · rw [e] at hrc
          simp at hrc
      · cases judged with
        | done phy ends | failed phy ends | again phy ends live =>
          rw [phy]
          rfl
        | waiting phy ends live =>
          rcases hrc with e | e | e
          · rw [e] at ends
            cases ends
          · exact absurd e live.1
          · exact absurd e live.2
      · have hkeyed := cpKeyed_ccrypt (hk.verified hok)
        rw [hears.core.cpRandom] at hkeyed
        exact hkeyed
      · rw [hlast, hk.log, cpHandshakeOf_cons]
        simp only [CpHandshake.next, if_true]
        rw [hw]

theorem hsStep_of_exchange (hrun : cpPhyRunning (s.pd i) = true)
    (h : ExchangeStep env i s t err) :
    HsStep env (s.pd i) (t.pd i) (cpHandshakeOf i s.log)
      (cpHandshakeOf i t.log) := by
  cases h with
  | finished phy eq =>
    rw [cpPhyRunning_eq] at hrun
    rcases phy with e | e | e <;> (rw [e] at hrun; cases hrun)
  | pausing phy next same log herr =>
    exact .rest (next.imp_right .inl) (.inr (.inl phy)) (cpHandshakeOf_eq log)
  | building phy out same log =>
    have hmon : cpHandshakeOf i t.log
        = (cpHandshakeOf i s.log).build (s.pd i).cmdId := by
      rw [(noHs_of_logExt log).cpHandshakeOf i]
      show cpHandshakeOf i (.build i _ _ :: s.log) = _
      rw [cpHandshakeOf_cons]
      simp only [CpHandshake.next, if_true]
    refine .build ?_ hmon
    cases out with
    | declined phy => exact .inl phy
    | failed phy reply => exact .inr (.inr phy)
    | awaiting phy reply => exact .inr (.inl phy)
  | sending phy out same log =>
    have hmon := (noHs_of_logExt log).cpHandshakeOf i
    cases out with
    | declined hp => exact .wire (.inl phy) (.inl (hp.trans phy)) hmon
    | failed hp reply =>
      exact .rest (.inr (.inr hp)) (.inr (.inr phy)) hmon
    | awaiting hp reply => exact .wire (.inl phy) (.inr hp) hmon
  | listening phy u v rc heard ack awaits judged same =>
    exact hsStep_listening phy heard ack awaits judged same

section Fits

variable {p q : OsdpPd} {h h' : CpHandshake}

/-- Between two steps of an exchange nothing else decides the fit. -/
structure SameExchange (p q : OsdpPd) : Prop where
  cmdId : q.cmdId = p.cmdId
  cpRandom : q.sc.cpRandom = p.sc.cpRandom

theorem CpHandshake.challenge_build (r : Bytes)
    (hh : h.challenge = some r) : h.build cmdChlng = .asked r := by
  simp only [CpHandshake.build, if_true, hh]

/-- What a reply of the handshake is done with, it is done with well. -/
theorem rc_none_of_known {rc : Int}
    (hover : rc = cpErrNone ∨ rc = cpErrSeqNum ∨ rc = cpErrRetryCmd)
    (hknown : rc = cpErrNone ∨ rc = cpErrGeneric ∨ rc = cpErrApp) :
    rc = cpErrNone := by
  rcases hover with e | e | e
  · exact e
  · rw [e] at hknown
    simp at hknown
  · rw [e] at hknown
    simp at hknown

/-- In SC_CHLNG. -/
theorem chlngFits_of_step (hrun : phyRuns p.phyState = true)
    (hf : ChlngFits env p.ctl h) (hs : SameExchange p q)
    (hstep : HsStep env p q h h') : ChlngFits env q.ctl h' := by
  have hcmd : p.cmdId = cmdChlng := hf.command hrun
  have hnd : ¬ (p.phyState = .done ∧ p.replyId = replyCcrypt) := by
    rintro ⟨e, -⟩
    rw [e] at hrun
    cases hrun
  have hopen : h.challenge = some p.sc.cpRandom := hf.open' hnd
  have hpoll : p.cmdId ≠ cmdPoll := by rw [hcmd]; decide
  have hcr := hs.cpRandom
  have command : phyRuns q.phyState = true → q.cmdId = cmdChlng :=
    fun _ => hs.cmdId.trans hcmd
  have hasked (hw : onWire p.phyState = true) : h = .asked q.sc.cpRandom :=
    (hf.wire hw).trans (congrArg _ hcr.symm)
  have hsame : h.challenge = some q.sc.cpRandom :=
    hopen.trans (congrArg some hcr.symm)
  cases hstep with
  | rest phy wire same =>
    rw [same]
    have hoff : onWire q.phyState = false := by
      rcases phy with e | e | e <;> rw [e] <;> rfl
    have hnd : q.phyState ≠ .done := by
      rcases phy with e | e | e <;> rw [e] <;> nofun
    exact ⟨command, fun e => (Bool.false_ne_true (hoff.symm.trans e)).elim,
      fun _ => hsame, fun e => absurd e hnd⟩
  | wire phy phy' same =>
    rw [same]
    have hw : onWire p.phyState = true := by
      rcases phy with e | e <;> rw [e] <;> rfl
    have hnd : q.phyState ≠ .done := by
      rcases phy' with e | e <;> rw [e] <;> nofun
    exact ⟨command, fun _ => hasked hw, fun _ => hsame,
      fun e => absurd e hnd⟩
  | build phy built =>
    have hask : h' = .asked q.sc.cpRandom := by
      rw [built, hcmd, CpHandshake.challenge_build _ hsame]
    have hnd : q.phyState ≠ .done := by
      rcases phy with e | e | e <;> rw [e] <;> nofun
    exact ⟨command, fun _ => hask, fun _ => by rw [hask]; rfl,
      fun e => absurd e hnd⟩
  | ended phy phy' reply same =>
    rw [same]
    have hoff : onWire q.phyState = false := by rw [phy']; rfl
    have hno : q.replyId ≠ replyCcrypt := by
      rcases reply with e | e <;> rw [e] <;> decide
    exact ⟨command, fun e => (Bool.false_ne_true (hoff.symm.trans e)).elim,
      fun _ => hsame, fun _ e => absurd e hno⟩
  | heard payload rc phy reply going atEnd plain known judged =>
    have hask : h' = .asked q.sc.cpRandom := by
      rw [judged, hasked (by rw [phy]; rfl)]
      rfl
    refine ⟨command, fun _ => hask, fun _ => by rw [hask]; rfl,
      fun hdone hcc => ?_⟩
    have hcc : payloadId payload = replyCcrypt := reply.symm.trans hcc
    exact absurd ⟨hcc, rc_none_of_known (atEnd hdone hpoll)
      (known (.inl hcc))⟩ plain
  | keyed payload rc phy asked id reply going atEnd live keys =>
    obtain ⟨d, sc, hr, htake, hkeyed, hh⟩ := keys
    have hd : h.derive d sc = .keyed q.sc.cpRandom d sc := by
      rw [hasked (by rw [phy]; rfl)]
      simp only [CpHandshake.derive, hr, hcr, if_true]
    rw [hd] at hh
    have hdone : rc = cpErrNone → h' = .verified q.sc.cpRandom d sc := by
      intro e
      rw [hh]
      simp only [CpHandshake.judge, e, id, htake, and_self, if_true]
    have hgoing : rc ≠ cpErrNone → h' = .keyed q.sc.cpRandom d sc := by
      intro e
      rw [hh]
      simp only [CpHandshake.judge, e, false_and, if_false]
    refine ⟨command, fun e => (Bool.false_ne_true (live.symm.trans e)).elim,
      fun hno => ?_, fun e _ => ?_⟩
    · rw [hgoing (going fun e => hno ⟨e, reply⟩)]
      rfl
    · exact ⟨_, d, sc, hcr ▸ hkeyed (atEnd e), hdone (atEnd e)⟩

/-- In SC_SCRYPT. -/
theorem scryptFits_of_step (hrun : phyRuns p.phyState = true)
    (hf : ScryptFits env p.ctl h) (hs : SameExchange p q)
    (hstep : HsStep env p q h h') : ScryptFits env q.ctl h' := by
  have hcmd : p.cmdId = cmdScrypt := hf.command hrun
  have hnd : ¬ (p.phyState = .done ∧ p.replyId = replyRmacI) := by
    rintro ⟨e, -⟩
    rw [e] at hrun
    cases hrun
  have hpoll : p.cmdId ≠ cmdPoll := by rw [hcmd]; decide
  have command : phyRuns q.phyState = true → q.cmdId = cmdScrypt :=
    fun _ => hs.cmdId.trans hcmd
  have hopen := hf.open' hnd
  cases hstep with
  | rest phy wire same =>
    rw [same]
    have hoff : onWire q.phyState = false := by
      rcases phy with e | e | e <;> rw [e] <;> rfl
    have hnd : q.phyState ≠ .done := by
      rcases phy with e | e | e <;> rw [e] <;> nofun
    exact ⟨command, fun e => (Bool.false_ne_true (hoff.symm.trans e)).elim,
      fun _ => hopen, fun e => absurd e hnd⟩
  | wire phy phy' same =>
    rw [same]
    have hw : onWire p.phyState = true := by
      rcases phy with e | e <;> rw [e] <;> rfl
    have hnd : q.phyState ≠ .done := by
      rcases phy' with e | e <;> rw [e] <;> nofun
    exact ⟨command, fun _ => hf.wire hw, fun _ => hopen,
      fun e => absurd e hnd⟩
  | build phy built =>
    obtain ⟨r, d, sc, hkeyed, hh⟩ := hopen
    have hask : h' = .proving r d sc := by
      rw [built, hcmd]
      rcases hh with hh | hh <;> rw [hh] <;> rfl
    have hnd : q.phyState ≠ .done := by
      rcases phy with e | e | e <;> rw [e] <;> nofun
    exact ⟨command, fun _ => ⟨r, d, sc, hask⟩,
      fun _ => ⟨r, d, sc, hkeyed, .inr hask⟩, fun e => absurd e hnd⟩
  | ended phy phy' reply same =>
    rw [same]
    have hoff : onWire q.phyState = false := by rw [phy']; rfl
    have hno : q.replyId ≠ replyRmacI := by
      rcases reply with e | e <;> rw [e] <;> decide
    exact ⟨command, fun e => (Bool.false_ne_true (hoff.symm.trans e)).elim,
      fun _ => hopen, fun _ e => absurd e hno⟩
  | heard payload rc phy reply going atEnd plain known judged =>
    obtain ⟨r, d, sc, hprov⟩ := hf.wire (by
      show onWire p.phyState = true
      rw [phy]
      rfl)
    obtain ⟨r', d', sc', hkeyed, hh⟩ := hopen
    have hkeyed : CpKeyed env r d sc := by
      rw [hprov] at hh
      rcases hh with hh | hh <;> cases hh
      exact hkeyed
    have hgoing (hno : ¬ (rc = cpErrNone ∧ payloadId payload = replyRmacI)) :
        h' = .proving r d sc := by
      rw [judged, hprov]
      simp only [CpHandshake.judge, if_neg hno]
    refine ⟨command, fun hw => ⟨r, d, sc, hgoing fun e => ?_⟩,
      fun hno => ⟨r, d, sc, hkeyed, .inr (hgoing fun e => ?_)⟩,
      fun hdone hr => ⟨r, d, sc, hkeyed, ?_⟩⟩
    · refine going (fun hd => ?_) e.1
      have hw : onWire q.phyState = true := hw
      rw [hd] at hw
      cases hw
    · refine going (fun hd => ?_) e.1
      exact hno ⟨hd, reply.trans e.2⟩
    · have hr : payloadId payload = replyRmacI := reply.symm.trans hr
      have hrc := rc_none_of_known (atEnd hdone hpoll) (known (.inr hr))
      rw [judged, hprov]
      simp only [CpHandshake.judge, hrc, hr, and_self, if_true]
  | keyed payload rc phy asked id reply going atEnd live keys =>
    rw [hcmd] at asked
    cases asked

/-- In any state. -/
theorem hsFits_of_step (hrun : phyRuns p.phyState = true)
    (hf : HsFits env p.ctl h) (hs : SameExchange p q)
    (hstate : q.state = p.state) (hstep : HsStep env p q h h') :
    HsFits env q.ctl h' := by
  have hq : q.ctl.state = p.state := hstate
  unfold HsFits at hf ⊢
  rw [hq]
  have hp : p.ctl.state = p.state := rfl
  rw [hp] at hf
  cases hst : p.state with
  | scChlng =>
    rw [hst] at hf
    exact chlngFits_of_step hrun hf hs hstep
  | scScrypt =>
    rw [hst] at hf
    exact scryptFits_of_step hrun hf hs hstep
  | init | capdet | setScbk | online | offline | disabled | trsSetup
  | trsRun =>
    rw [hst] at hf
    have hne : p.cmdId ≠ cmdChlng := hf hrun
    exact fun _ => by
      rw [show q.ctl.cmdId = p.cmdId from hs.cmdId]
      exact hne

end Fits

/-- The entries one step of an exchange leaves are sound. -/
theorem soundEntries_of_exchange
    (hbuild : (s.pd i).cmdId = cmdChlng → phyRuns (s.pd i).phyState = true →
      (s.pd i).flags.scActive = false)
    (hs : Always (SoundEntry env i) s.log) (h : ExchangeStep env i s t err) :
    Always (SoundEntry env i) t.log := by
  cases h with
  | finished phy eq => rw [eq]; exact hs
  | pausing phy next same log herr => rw [log]; exact hs
  | building phy out same log =>
    refine (noHs_of_logExt log).soundEntries ⟨fun _ hid => ?_, hs⟩
    refine hbuild hid ?_
    rcases phy with e | e <;> rw [e] <;> rfl
  | sending phy out same log => exact (noHs_of_logExt log).soundEntries hs
  | listening phy u v rc heard ack awaits judged same =>
    rw [same.log, ack.log]
    cases heard with
    | nothing hsame hp hl hrc => exact (noHs_of_logExt hl).soundEntries hs
    | reply payload w x hears key dec hpd hl =>
      obtain ⟨y, hy, hwl⟩ := hears.log
      have hw : Always (SoundEntry env i) w.log := by
        rw [hwl]
        exact ⟨trivial, (noHs_of_logExt hy).soundEntries hs⟩
      rw [hl]
      refine ⟨trivial, ?_⟩
      rcases dec.ccrypt with ⟨hq, -⟩ | ⟨-, hk⟩
      · exact (noHs_of_logExt hq).soundEntries hw
      · rw [hk.log]
        exact ⟨trivial, hw⟩

/-- What holds of PD `i` in the middle of a pass. -/
structure HsMid (env : Env) (i : Nat) (s : Osdp) : Prop where
  ctl : HsCtl env (s.pd i).ctl (cpHandshakeOf i s.log)
  enable : EnableOk (s.pd i)
  sound : Always (SoundEntry env i) s.log

theorem HsCtl.chlng_inactive {c : PdCtl} {h : CpHandshake}
    (hc : HsCtl env c h) (hid : c.cmdId = cmdChlng)
    (hrun : phyRuns c.phyState = true) : c.scActive = false := by
  have hf := hc.fits
  unfold HsFits at hf
  cases hst : c.state with
  | scChlng =>
    cases ha : c.scActive with
    | false => rfl
    | true =>
      have := hc.active ha
      rw [hst] at this
      cases this
  | scScrypt =>
    rw [hst] at hf
    rw [hf.command hrun] at hid
    cases hid
  | init | capdet | setScbk | online | offline | disabled | trsSetup
  | trsRun =>
    rw [hst] at hf
    exact absurd hid (hf hrun)

/-- One step of an exchange that is under way. -/
theorem hsMid_of_exchange (hm : HsMid env i s)
    (hrun : cpPhyRunning (s.pd i) = true)
    (e : cpPhyStateUpdate env (cpRunCalls env depth) i s = .ok err t) :
    HsMid env i t := by
  have hx := exchange_ok e
  have hcore : CoreStep (s.pd i) (t.pd i) :=
    (read_cpPhyStateUpdate (R := CoreDown i)
      (keeps_cpRunCalls depth)).of e
  have hstep := hsStep_of_exchange hrun hx
  rw [cpPhyRunning_eq] at hrun
  have hsame : SameExchange (s.pd i) (t.pd i) :=
    ⟨(exchangeStep_sameCmd hx).cmdId, hcore.cpRandom⟩
  refine ⟨⟨fun ha => ?_, fun hr => ?_, ?_, ?_⟩, fun he => ?_, ?_⟩
  · have hstate : (t.pd i).ctl.state = (s.pd i).ctl.state := hcore.state
    rw [hstate]
    exact hm.ctl.active (hcore.active ha)
  · have hr : (s.pd i).ctl.request.restartSc = true :=
      hcore.restartSc.symm.trans hr
    obtain ⟨hoff, hon⟩ := hm.ctl.restart hr
    refine ⟨?_, ?_⟩
    · cases ha : (t.pd i).ctl.scActive with
      | false => rfl
      | true => exact absurd (hcore.active ha) (by
          rw [show (s.pd i).flags.scActive = false from hoff]
          decide)
    · rw [show (t.pd i).ctl.state = (s.pd i).ctl.state from hcore.state]
      exact hon
  · exact hcore.pdMode.trans hm.ctl.cp
  · exact hsFits_of_step hrun hm.ctl.fits hsame hcore.state hstep
  · rw [hcore.state]
    rcases hcore.enable he with he | he
    · exact hm.enable he
    · exact .inl he
  · exact soundEntries_of_exchange hm.ctl.chlng_inactive hm.sound hx

end Exchange

-- ============================================================ the advance

section Advance

variable {env : Env} {i depth : Nat} {s t u v : Osdp} {err : Int}
variable {next next' : CpState}

/-- The exchange is over and settled; what it was over with. -/
structure HsOver (env : Env) (i : Nat) (err : Int) (s : Osdp) : Prop where
  active : (s.pd i).flags.scActive = true → scState (s.pd i).state = true
  restart : (s.pd i).request.restartSc = true →
    (s.pd i).flags.scActive = false ∧ cpStateIsOnline (s.pd i).state = true
  cp : (s.pd i).flags.pdMode = false
  phy : (s.pd i).phyState = .idle
  enable : EnableOk (s.pd i)
  sound : Always (SoundEntry env i) s.log
  chlng : (s.pd i).state = .scChlng →
    if err = cpErrNone then
      ∃ r d sc, CpKeyed env r d sc ∧ cpHandshakeOf i s.log = .verified r d sc
    else (cpHandshakeOf i s.log).challenge = some (s.pd i).sc.cpRandom
  scrypt : (s.pd i).state = .scScrypt → err = cpErrNone →
    CpProven env (cpHandshakeOf i s.log)

/-- The states a channel can be up in at the end of their exchange. -/
def hasChannel : CpState → Bool
  | .scScrypt => true
  | st => scState st

/-- The next state is chosen, and not entered yet. -/
structure Heading (env : Env) (i : Nat) (err : Int) (s u : Osdp)
    (next : CpState) : Prop where
  state : (u.pd i).state = (s.pd i).state
  active : (u.pd i).ctl.scActive = true →
    hasChannel (s.pd i).state = true ∧
      (scState next = true ∨ next = .offline)
  restart : (u.pd i).ctl.request.restartSc = true →
    (u.pd i).ctl.scActive = false ∧
      cpStateIsOnline (s.pd i).state = true ∧
      (cpStateIsOnline next = true ∨ next = .offline)
  cp : (u.pd i).ctl.pdMode = false
  phy : (u.pd i).ctl.phyState = .idle
  random : (u.pd i).ctl.cpRandom = (s.pd i).sc.cpRandom
  enable : EnableOk (u.pd i)
  sound : Always (SoundEntry env i) u.log
  handshake : (s.pd i).state = .scChlng → LogExt Obs.noHs s u
  chlng : next = .scChlng → (s.pd i).state = .scChlng → err ≠ cpErrNone
  scrypt : next = .scScrypt → (s.pd i).state = .scChlng ∧ err = cpErrNone
  disabled : (s.pd i).state = .disabled →
    next = .disabled ∨ next = .offline

theorem hasChannel_of_scState {st : CpState} (h : scState st = true) :
    hasChannel st = true := by
  cases st <;> first | rfl | cases h

theorem EnableOk.steers {c : PdCtl} (h : EnableOk (s.pd i))
    (k : Steers i s c u) : EnableOk (u.pd i) := by
  intro e
  rw [k.state]
  rcases k.enable e with e | e
  · exact h e
  · exact .inl e

/-- What the effects of a transition leave in the history is sound. -/
theorem EffectLog.sound (h : EffectLog i (s.pd i).state err s u)
    (ho : HsOver env i err s) : Always (SoundEntry env i) u.log := by
  unfold EffectLog at h
  split at h
  · next hc =>
    obtain ⟨v, w, hv, hw, hu⟩ := h.log
    refine hu.soundEntries ?_
    rw [hw]
    refine ⟨fun _ => ?_, hv.soundEntries ho.sound⟩
    rw [hv.cpHandshakeOf i]
    exact ho.scrypt hc.1 hc.2
  · exact h.soundEntries ho.sound

theorem EffectLog.quiet_of (h : EffectLog i (s.pd i).state err s u)
    (hst : (s.pd i).state = .scChlng) : LogExt Obs.noHs s u := by
  rw [EffectLog, if_neg] at h
  · exact h
  · rintro ⟨e, -⟩
    rw [hst] at e
    cases e

/-- Where the table leads while the channel is up. -/
theorem row_of_active {row : CpState} {key : Bytes}
    (ho : HsOver env i err s)
    (hrow : nextState err s.now (s.pd i) = some row)
    (h : ((s.pd i).ctl.effects (s.pd i).state row err key).scActive
      = true) :
    hasChannel (s.pd i).state = true ∧
      (scState row = true ∨ row = .offline) ∧
      ((s.pd i).request.restartSc = true → False) := by
  have hcases := nextState_cases hrow
  rcases effects_scActive _ _ _ _ _ h with ⟨hcur, he⟩ | ⟨hact, hne⟩
  · rw [hcur] at hcases ⊢
    refine ⟨rfl, ?_, fun hr => ?_⟩
    · rcases hcases with ⟨-, e | e⟩ | ⟨hn, -⟩
      · exact .inl (by rw [e]; rfl)
      · exact .inl (by rw [e]; rfl)
      · exact absurd he hn
    · have hon := (ho.restart hr).2
      rw [hcur] at hon
      cases hon
  · have hact : (s.pd i).flags.scActive = true := hact
    have hst := ho.active hact
    refine ⟨hasChannel_of_scState hst, ?_, fun hr => ?_⟩
    · cases hcur : (s.pd i).state <;> rw [hcur] at hst hcases hne <;>
        try cases hst
      · exact absurd rfl hne
      · rcases hcases with e | e | ⟨-, e⟩
        · exact .inl (by rw [e]; rfl)
        · exact .inr e
        · rw [hact] at e
          cases e
      · exact hcases.elim
      · exact hcases.elim
    · rw [(ho.restart hr).1] at hact
      cases hact

/-- Where no handshake is under way, the table starts none by itself. -/
theorem heading_of_chosen (ho : HsOver env i err s)
    (h : Chosen i err s u next) : Heading env i err s u next := by
  cases h with
  | reset steers log =>
    have hc := steers.ctl
    refine ⟨steers.state, fun e => ?_, fun e => ?_, ?_, ?_, ?_,
      ho.enable.steers steers, log.soundEntries ho.sound, fun _ => log,
      nofun, nofun, fun _ => .inr rfl⟩
    · rw [hc] at e
      exact ⟨hasChannel_of_scState (ho.active e), .inr rfl⟩
    · rw [hc] at e ⊢
      obtain ⟨h₁, h₂⟩ := ho.restart e
      exact ⟨h₁, h₂, .inr rfl⟩
    · rw [hc]
      exact ho.cp
    · rw [hc]
      exact ho.phy
    · rw [hc]
      rfl
  | trs cur dest steers log =>
    have hc := steers.ctl
    have hon : cpStateIsOnline next = true := by
      rcases dest with e | e <;> rw [e] <;> rfl
    have hsc : scState next = true := by
      rcases dest with e | e <;> rw [e] <;> rfl
    refine ⟨steers.state, fun e => ?_, fun e => ?_, ?_, ?_, ?_,
      ho.enable.steers steers, log.soundEntries ho.sound, fun _ => log,
      fun e => ?_, fun e => ?_, fun e => ?_⟩
    · rw [hc] at e
      exact ⟨hasChannel_of_scState (ho.active e), .inl hsc⟩
    · rw [hc] at e ⊢
      obtain ⟨h₁, h₂⟩ := ho.restart e
      exact ⟨h₁, h₂, .inl hon⟩
    · rw [hc]
      exact ho.cp
    · rw [hc]
      exact ho.phy
    · rw [hc]
      rfl
    · rw [e] at hsc
      cases hsc
    · rw [e] at hsc
      cases hsc
    · rcases cur with k | k <;> rw [k] at e <;> cases e
  | table key off row steers log =>
    have hc := steers.ctl
    have hcases := nextState_cases row
    refine ⟨steers.state, fun e => ?_, fun e => ?_, ?_, ?_, ?_,
      ho.enable.steers steers, log.sound ho, log.quiet_of,
      fun e hst => ?_, fun e => ?_, fun e => ?_⟩
    · rw [hc] at e
      obtain ⟨h₁, h₂, -⟩ := row_of_active ho row e
      exact ⟨h₁, h₂⟩
    · rw [hc, effects_restartSc _ (s.pd i).state next err key rfl] at e
      have hon := (ho.restart e).2
      cases hst : (s.pd i).state <;> rw [hst] at hon hcases <;>
        first | exact absurd hst off.1 | exact False.elim hcases | cases hon
    · rw [hc, effects_pdMode]
      exact ho.cp
    · rw [hc, effects_phyState]
      exact ho.phy
    · rw [hc, effects_cpRandom]
      rfl
    · rw [hst] at hcases
      rcases hcases with ⟨-, k⟩ | ⟨hn, -⟩
      · rw [e] at k
        cases k
      · exact hn
    · cases hst : (s.pd i).state <;> rw [hst, e] at hcases <;> simp at hcases
      exact ⟨rfl, hcases⟩
    · rw [e] at hcases
      exact .inl hcases
  | online row key on row_ok steers log dest =>
    have hc := steers.ctl
    have hcases := nextState_cases row_ok
    refine ⟨steers.state, fun e => ?_, fun e => ?_, ?_, ?_, ?_,
      ho.enable.steers steers, log.sound ho, log.quiet_of,
      fun e hst => ?_, fun e => ?_, fun e => ?_⟩
    · rw [hc] at e
      obtain ⟨h₁, h₂, h₃⟩ := row_of_active ho row_ok e
      refine ⟨h₁, ?_⟩
      rcases dest with k | k | ⟨hr, -⟩ | ⟨-, k⟩
      · exact .inl (by rw [k]; rfl)
      · exact .inr k
      · exact (h₃ hr).elim
      · rw [k]
        exact h₂
    · rw [hc] at e
      cases e
    · rw [hc]
      exact (effects_pdMode _ _ _ _ _).trans ho.cp
    · rw [hc]
      show (if _ then CpPhyState.idle else _) = _
      rw [effects_phyState, show (s.pd i).ctl.phyState = .idle from ho.phy,
        ite_self]
    · rw [hc]
      exact effects_cpRandom _ _ _ _ _
    · rcases dest with k | k | ⟨hr, -⟩ | ⟨-, k⟩
      · rw [e] at k
        cases k
      · rw [e] at k
        cases k
      · have hon := (ho.restart hr).2
        rw [hst] at hon
        cases hon
      · rw [hst] at on
        rw [← k, e] at on
        rcases on with on | on <;> cases on
    · rcases dest with k | k | ⟨-, k⟩ | ⟨-, k⟩
      · rw [e] at k
        cases k
      · rw [e] at k
        cases k
      · rw [e] at k
        cases k
      · rcases on with on | on
        · rw [on, ← k, e] at hcases
          simp at hcases
        · rw [← k, e] at on
          cases on
    · rw [e] at hcases on
      rcases on with on | on
      · cases on
      · rw [hcases] at on
        cases on

/-- Where the application's verdict takes a PD: where the table does, or
out of service, or back in with no channel. -/
def Lifted (i : Nat) (s u : Osdp) (next next' : CpState) : Prop :=
  next' = next ∨ next' = .disabled ∨
    next' = .init ∧ (u.pd i).ctl.scActive = false ∧
      cpStateIsOnline (s.pd i).state = false

/-- A PD at rest, in a state that is no part of a handshake. -/
theorem hsFits_idle {c : PdCtl} {h : CpHandshake} (hphy : c.phyState = .idle)
    (hchlng : c.state = .scChlng → h.challenge = some c.cpRandom)
    (hscrypt : c.state = .scScrypt → ∃ r d sc, CpKeyed env r d sc ∧
      (h = .verified r d sc ∨ h = .proving r d sc)) : HsFits env c h := by
  have hrun : phyRuns c.phyState = false := by rw [hphy]; rfl
  have hwire : onWire c.phyState = false := by rw [hphy]; rfl
  have hdone : c.phyState ≠ .done := by rw [hphy]; nofun
  unfold HsFits
  cases hst : c.state with
  | scChlng =>
    exact ⟨fun e => (Bool.false_ne_true (hrun.symm.trans e)).elim,
      fun e => (Bool.false_ne_true (hwire.symm.trans e)).elim,
      fun _ => hchlng hst, fun e => absurd e hdone⟩
  | scScrypt =>
    exact ⟨fun e => (Bool.false_ne_true (hrun.symm.trans e)).elim,
      fun e => (Bool.false_ne_true (hwire.symm.trans e)).elim,
      fun _ => hscrypt hst, fun e => absurd e hdone⟩
  | init | capdet | setScbk | online | offline | disabled | trsSetup
  | trsRun =>
    exact fun e => (Bool.false_ne_true (hrun.symm.trans e)).elim

/-- The PD stays in the state it is in. -/
theorem hsInv_of_stay (ho : HsOver env i err s)
    (hd : Heading env i err s u next) (hdest : Lifted i s u next next')
    (hlive : Lives i next next' u v) (hvs : (v.pd i).state = (s.pd i).state)
    (hquiet : (s.pd i).state = .scChlng →
      cpHandshakeOf i v.log = cpHandshakeOf i s.log)
    (hvsound : Always (SoundEntry env i) v.log)
    (hsame : (s.pd i).state = next') (hvt : SameCtl i v t) :
    CpHsInv env i (t.pd i) t.log := by
  have hctl : (t.pd i).ctl = (u.pd i).ctl := hvt.steers.ctl.trans hlive.ctl
  have hstate : (t.pd i).ctl.state = (s.pd i).state :=
    hvt.steers.state.trans hvs
  have hphy : (t.pd i).ctl.phyState = .idle := by rw [hctl]; exact hd.phy
  have hmon := hvt.log.cpHandshakeOf i
  refine ⟨⟨fun e => ?_, fun e => ?_, ?_, hsFits_idle hphy (fun hst => ?_)
    fun hst => ?_⟩, ⟨?_, ?_⟩, fun e => ?_, hvt.log.soundEntries hvsound⟩
  · rw [hctl] at e
    obtain ⟨hch, hn⟩ := hd.active e
    rw [hstate]
    rcases hdest with hn' | hn' | ⟨-, hoff, -⟩
    · rcases hn with hn | hn
      · rw [hsame, hn']
        exact hn
      · rw [hsame, hn', hn] at hch
        cases hch
    · rw [hsame, hn'] at hch
      cases hch
    · rw [hoff] at e
      cases e
  · rw [hctl] at e
    obtain ⟨h₁, h₂, -⟩ := hd.restart e
    rw [hctl] at hstate ⊢
    rw [hstate]
    exact ⟨h₁, h₂⟩
  · rw [hctl]
    exact hd.cp
  · rw [hstate] at hst
    have hn : next = .scChlng := by
      rcases hdest with hn' | hn' | ⟨hn', -⟩
      · rw [← hn', ← hsame, hst]
      · rw [hst, hn'] at hsame
        cases hsame
      · rw [hst, hn'] at hsame
        cases hsame
    have hopen := ho.chlng hst
    rw [if_neg (hd.chlng hn hst)] at hopen
    rw [hmon, hquiet hst, hopen, hctl, hd.random]
  · rw [hstate] at hst
    have hn : next = .scScrypt := by
      rcases hdest with hn' | hn' | ⟨hn', -⟩
      · rw [← hn', ← hsame, hst]
      · rw [hst, hn'] at hsame
        cases hsame
      · rw [hst, hn'] at hsame
        cases hsame
    have := (hd.scrypt hn).1
    rw [hst] at this
    cases this
  · rw [show (t.pd i).phyState = .idle from hphy]
    nofun
  · rw [show (t.pd i).phyState = .idle from hphy]
    nofun
  · rcases hvt.steers.enable e with e | e
    · rw [hlive.enable] at e
      cases e
    · exact .inl (hvt.steers.state.trans e)

/-- The PD enters another state. -/
theorem hsInv_of_change {r : Bytes} (ho : HsOver env i err s)
    (hd : Heading env i err s u next) (hdest : Lifted i s u next next')
    (hlive : Lives i next next' u v) (hvs : (v.pd i).state = (s.pd i).state)
    (hquiet : (s.pd i).state = .scChlng →
      cpHandshakeOf i v.log = cpHandshakeOf i s.log)
    (hvsound : Always (SoundEntry env i) v.log)
    (hchg : Changed i next' r v t) : CpHsInv env i (t.pd i) t.log := by
  have hctl := hchg.ctl
  rw [hlive.ctl] at hctl
  have hstate : (t.pd i).ctl.state = next' := by rw [hctl]
  have hphy : (t.pd i).ctl.phyState = .idle := by
    rw [hctl]
    exact enter_phyState _ _ _ hd.phy
  refine ⟨⟨fun e => ?_, fun e => ?_, ?_, hsFits_idle hphy (fun hst => ?_)
    fun hst => ?_⟩, ⟨?_, ?_⟩, fun e => ?_, ?_⟩
  · rw [hctl] at e
    obtain ⟨hup, hno, hnd⟩ := enter_scActive _ _ _ e
    rw [hstate]
    rcases hdest with hn' | hn' | ⟨-, hoff, -⟩
    · rcases (hd.active hup).2 with hn | hn
      · rw [hn']
        exact hn
      · exact absurd (hn'.trans hn) hno
    · exact absurd hn' hnd
    · rw [hoff] at hup
      cases hup
  · rw [hctl] at e
    obtain ⟨hreq, hno, hnd⟩ := enter_restartSc _ _ _ e
    obtain ⟨hdown, hon, hn⟩ := hd.restart hreq
    refine ⟨?_, ?_⟩
    · rw [hctl]
      cases hx : ((u.pd i).ctl.enter next' r).scActive with
      | false => rfl
      | true =>
        rw [(enter_scActive _ _ _ hx).1] at hdown
        cases hdown
    · rw [hstate]
      rcases hdest with hn' | hn' | ⟨-, -, hoff⟩
      · rcases hn with hn | hn
        · rw [hn']
          exact hn
        · exact absurd (hn'.trans hn) hno
      · exact absurd hn' hnd
      · rw [hon] at hoff
        cases hoff
  · rw [hctl]
    exact (enter_pdMode _ _ _).trans hd.cp
  · rw [hstate] at hst
    have hl := hchg.log
    rw [EnterLog, if_pos hst] at hl
    obtain ⟨n, l, hl, hE⟩ := hl
    have hmon : cpHandshakeOf i t.log = .challenged r := by
      rw [cpHandshakeOf, hl, foldr_neutral fun o ho x =>
        next_of_noHs (hE o ho) x]
      show CpHandshake.next i (.challenged i r) _ = _
      simp only [CpHandshake.next, if_true]
    rw [hmon, hctl, hst]
    rfl
  · rw [hstate] at hst
    have hn : next = .scScrypt := by
      rcases hdest with hn' | hn' | ⟨hn', -⟩
      · rw [← hn', hst]
      · rw [hst] at hn'
        cases hn'
      · rw [hst] at hn'
        cases hn'
    obtain ⟨hcur, he⟩ := hd.scrypt hn
    have hmet := ho.chlng hcur
    rw [if_pos he] at hmet
    obtain ⟨r', d, sc, hk, hm⟩ := hmet
    have hl := hchg.log
    rw [EnterLog, if_neg (by rw [hst]; decide)] at hl
    refine ⟨r', d, sc, hk, .inl ?_⟩
    rw [hl.cpHandshakeOf i, hquiet hcur, hm]
  · rw [show (t.pd i).phyState = .idle from hphy]
    decide
  · rw [show (t.pd i).phyState = .idle from hphy]
    decide
  · have hts : (t.pd i).state = next' := hstate
    rw [hts]
    rcases hchg.enable e with hn | he | ⟨hni, hdis⟩
    · exact .inl hn
    · rw [hlive.enable] at he
      cases he
    · rw [hvs] at hdis
      rcases hdest with hn' | hn' | ⟨hn', -⟩
      · rw [hn']
        exact hd.disabled hdis
      · exact .inl hn'
      · exact absurd hn' hni
  · have hl := hchg.log
    unfold EnterLog at hl
    split at hl
    · obtain ⟨n, l, hl, hE⟩ := hl
      have hnew : Always (SoundEntry env i)
          (.challenged i r :: .random n r :: v.log) :=
        ⟨fun _ => ⟨n, rfl⟩, trivial, hvsound⟩
      rw [hl]
      exact hnew.append fun o ho past => soundEntry_of_noHs (hE o ho) past
    · exact hl.soundEntries hvsound

/-- The end of a pass keeps the invariant. -/
theorem hsInv_of_advance (ho : HsOver env i err s)
    (h : Advances i err s t) : CpHsInv env i (t.pd i) t.log := by
  obtain ⟨next, next', u, v, hch, hlive, hend⟩ := h.run
  have hd := heading_of_chosen ho hch
  have hvs : (v.pd i).state = (s.pd i).state :=
    (congrArg PdCtl.state hlive.ctl).trans hd.state
  -- a request to enable the PD finds it without a channel
  have hdest : Lifted i s u next next' := by
    rcases hlive.dest with ⟨he, hn⟩ | ⟨-, hn | hn⟩
    · have hst : (s.pd i).state = .disabled ∨ (s.pd i).state = .offline := by
        rw [← hd.state]
        exact hd.enable he
      refine .inr (.inr ⟨hn, ?_, ?_⟩)
      · cases ha : (u.pd i).ctl.scActive with
        | false => rfl
        | true =>
          have hch := (hd.active ha).1
          rcases hst with e | e <;> rw [e] at hch <;> cases hch
      · rcases hst with e | e <;> rw [e] <;> rfl
    · exact .inl hn
    · exact .inr (.inl hn)
  have hquiet (hst : (s.pd i).state = .scChlng) :
      cpHandshakeOf i v.log = cpHandshakeOf i s.log := by
    rw [cpHandshakeOf_eq hlive.log]
    exact (hd.handshake hst).cpHandshakeOf i
  have hvsound : Always (SoundEntry env i) v.log := by
    rw [hlive.log]
    exact hd.sound
  rcases hend with ⟨hsame, hvt⟩ | ⟨hne, r, hchg⟩
  · exact hsInv_of_stay ho hd hdest hlive hvs hquiet hvsound hsame hvt
  · exact hsInv_of_change ho hd hdest hlive hvs hquiet hvsound hchg

-- ================================================================ the pass

/-- What an exchange is settled with. -/
theorem hsOver_of_settled {err' : Int} (hm : HsMid env i s)
    (herr : err = if (s.pd i).phyState = .done then cpErrNone
      else cpErrGeneric)
    (h : Settled i err err' s t) : HsOver env i err' t := by
  obtain ⟨c, hc, hj⟩ := h.ctl
  have hctl := hc.ctl
  have hstate : (t.pd i).state = (s.pd i).state := hc.state
  have hcstate : c.state = (s.pd i).state := by
    have e := congrArg PdCtl.state hctl
    exact e.symm.trans hc.state
  have hmon := h.log.cpHandshakeOf i
  have hrandom : (t.pd i).sc.cpRandom = (s.pd i).sc.cpRandom := by
    have e : (t.pd i).sc.cpRandom = c.cpRandom :=
      congrArg PdCtl.cpRandom hctl
    rw [e]
    rcases hj with e | ⟨-, -, -, key, e⟩ <;> rw [e] <;> rfl
  -- in the states of the handshake the error is decided by the reply alone
  have hover (hoff : cpIsOnline (s.pd i) = false) :
      err' = cpErrNone ↔ (s.pd i).phyState = .done ∧
        awaitedReply (s.pd i).state (s.pd i).replyId = true := by
    rw [h.atEnd hoff, herr]
    split
    · next ha =>
      split
      · next hd => simp [hd, ha]
      · next hd => simp [hd]
    · next ha => simp [ha]
  refine ⟨fun e => ?_, fun e => ?_, ?_, ?_, hm.enable.steers hc,
    h.log.soundEntries hm.sound, fun hst => ?_, fun hst he => ?_⟩
  · have e : c.scActive = true := (congrArg PdCtl.scActive hctl).symm.trans e
    rw [hstate]
    rcases hj with hj | ⟨-, -, -, key, hj⟩
    · rw [hj] at e
      exact hm.ctl.active e
    · rw [hj] at e
      cases e
  · have e : c.request.restartSc = true :=
      (congrArg (fun c : PdCtl => c.request.restartSc) hctl).symm.trans e
    have hact : (t.pd i).flags.scActive = c.scActive :=
      congrArg PdCtl.scActive hctl
    rw [hact, hstate]
    rcases hj with hj | ⟨hon, -, -, key, hj⟩
    · rw [hj] at e ⊢
      exact hm.ctl.restart e
    · rw [hj]
      exact ⟨rfl, hon⟩
  · have e : (t.pd i).flags.pdMode = c.pdMode := congrArg PdCtl.pdMode hctl
    rw [e]
    rcases hj with hj | ⟨-, -, -, key, hj⟩ <;> rw [hj] <;> exact hm.ctl.cp
  · exact congrArg PdCtl.phyState hctl
  · rw [hstate] at hst
    have hoff : cpIsOnline (s.pd i) = false := by
      simp [cpIsOnline, hst, cpStateIsOnline]
    have hf := hm.ctl.fits
    unfold HsFits at hf
    rw [show (s.pd i).ctl.state = .scChlng from hst] at hf
    have haw : awaitedReply (s.pd i).state (s.pd i).replyId
        = ((s.pd i).replyId == replyCcrypt) := by rw [hst]; rfl
    rw [hmon, hrandom]
    split
    · next he =>
      obtain ⟨hd, ha⟩ := (hover hoff).mp he
      rw [haw, beq_iff_eq] at ha
      exact hf.met hd ha
    · next he =>
      refine hf.open' fun hno => he ((hover hoff).mpr ⟨hno.1, ?_⟩)
      rw [haw, beq_iff_eq]
      exact hno.2
  · rw [hstate] at hst
    have hoff : cpIsOnline (s.pd i) = false := by
      simp [cpIsOnline, hst, cpStateIsOnline]
    have hf := hm.ctl.fits
    unfold HsFits at hf
    rw [show (s.pd i).ctl.state = .scScrypt from hst] at hf
    obtain ⟨hd, ha⟩ := (hover hoff).mp he
    rw [hst] at ha
    have ha : (s.pd i).replyId = replyRmacI := by
      simpa [awaitedReply] using ha
    rw [hmon]
    exact hf.met hd ha

theorem kicked_setup {b : Bool} {c : Nat} (h : Kicked i b s t)
    (hphy : (s.pd i).phyState = .idle)
    (hc : setupCommand (s.pd i).state = some c) (hne : c ≠ cmdInvalid) :
    b = true := by
  obtain ⟨id, u, -, -, hid, hcase⟩ := h.pick
  rw [hc] at hid
  rcases hcase with ⟨hb, -⟩ | ⟨-, hno, -⟩
  · exact hb
  · rcases hno with e | e
    · rw [hid] at e
      exact absurd e hne
    · exact absurd hphy e

/-- A PD at rest that has nothing to send. -/
theorem hsOver_of_idle (hinv : CpHsInv env i (s.pd i) s.log)
    (hphy : (s.pd i).phyState = .idle) (h : Kicked i false s t) :
    HsOver env i cpErrNone t := by
  have hsetup {c : Nat} (hst : setupCommand (s.pd i).state = some c)
      (hne : c ≠ cmdInvalid) : False := by
    have := kicked_setup h hphy hst hne
    cases this
  obtain ⟨id, u, hp, hlog, -, ⟨hb, -⟩ | ⟨-, -, hk⟩⟩ := h.pick
  · cases hb
  have hl : LogExt Obs.noHs s t := trans_of _ hp.log (LogExt.of_eq hlog)
  have hc : (t.pd i).ctl.sansTrs
      = { (s.pd i).ctl.sansTrs with cmdId := id } := by
    rw [hk.ctl, ← hp.ctl]
    rfl
  have hstate : (t.pd i).state = (s.pd i).state := congrArg PdCtl.state hc
  have hact : (t.pd i).flags.scActive = (s.pd i).flags.scActive :=
    congrArg PdCtl.scActive hc
  have hreq : (t.pd i).request.restartSc = (s.pd i).request.restartSc :=
    congrArg (fun c : PdCtl => c.request.restartSc) hc
  refine ⟨?_, ?_, ?_, ?_, fun e => ?_, hl.soundEntries hinv.sound,
    fun hst => ?_, fun hst => ?_⟩
  · rw [hact, hstate]
    exact hinv.ctl.active
  · rw [hreq, hact, hstate]
    exact hinv.ctl.restart
  · exact (congrArg PdCtl.pdMode hc).trans hinv.ctl.cp
  · exact (congrArg PdCtl.phyState hc).trans hphy
  · rw [hstate]
    rcases hk.enable e with e | e
    · rcases hp.enable e with e | e
      · exact hinv.enable e
      · exact .inl e
    · exact .inl (hp.state ▸ e)
  · rw [hstate] at hst
    exact (hsetup (by rw [hst]; rfl) (by decide : cmdChlng ≠ _)).elim
  · rw [hstate] at hst
    exact (hsetup (by rw [hst]; rfl) (by decide : cmdScrypt ≠ _)).elim

/-- A PD at rest that has a command to send. -/
theorem hsInv_of_kicked (hinv : CpHsInv env i (s.pd i) s.log)
    (h : Kicked i true s t) : CpHsInv env i (t.pd i) t.log := by
  obtain ⟨id, u, hp, hlog, hid, ⟨-, -, hk⟩ | ⟨hb, -⟩⟩ := h.pick
  swap
  · cases hb
  have hl : LogExt Obs.noHs s t := trans_of _ hp.log (LogExt.of_eq hlog)
  have hc : (t.pd i).ctl.sansTrs
      = { (s.pd i).ctl.sansTrs with phyState := .sendCmd, cmdId := id } := by
    rw [hk.ctl, ← hp.ctl]
    rfl
  have hstate : (t.pd i).ctl.state = (s.pd i).state :=
    congrArg PdCtl.state hc
  have hact : (t.pd i).ctl.scActive = (s.pd i).flags.scActive :=
    congrArg PdCtl.scActive hc
  have hreq : (t.pd i).ctl.request.restartSc
      = (s.pd i).request.restartSc :=
    congrArg (fun c : PdCtl => c.request.restartSc) hc
  have hphy : (t.pd i).ctl.phyState = .sendCmd := congrArg PdCtl.phyState hc
  have hcmd : (t.pd i).ctl.cmdId = id := congrArg PdCtl.cmdId hc
  have hrandom : (t.pd i).ctl.cpRandom = (s.pd i).ctl.cpRandom := by
    have e := congrArg PdCtl.cpRandom hc
    exact e
  have hwire : onWire (t.pd i).ctl.phyState = false := by rw [hphy]; rfl
  have hdone : (t.pd i).ctl.phyState ≠ .done := by rw [hphy]; nofun
  have hmon := hl.cpHandshakeOf i
  refine ⟨⟨?_, ?_, ?_, ?_⟩, ⟨hdone, ?_⟩, fun e => ?_,
    hl.soundEntries hinv.sound⟩
  · rw [hact, hstate]
    exact hinv.ctl.active
  · rw [hreq, hact, hstate]
    exact hinv.ctl.restart
  · exact (congrArg PdCtl.pdMode hc).trans hinv.ctl.cp
  · have hf := hinv.ctl.fits
    unfold HsFits at hf ⊢
    rw [hstate, hmon]
    rw [show (s.pd i).ctl.state = (s.pd i).state from rfl] at hf
    cases hst : (s.pd i).state with
    | scChlng =>
      rw [hst] at hf hid
      refine ⟨fun _ => hcmd.trans hid,
        fun e => (Bool.false_ne_true (hwire.symm.trans e)).elim,
        fun _ => ?_, fun e => absurd e hdone⟩
      rw [hrandom]
      exact hf.open' fun hno => hinv.phy.1 hno.1
    | scScrypt =>
      rw [hst] at hf hid
      exact ⟨fun _ => hcmd.trans hid,
        fun e => (Bool.false_ne_true (hwire.symm.trans e)).elim,
        fun _ => hf.open' fun hno => hinv.phy.1 hno.1,
        fun e => absurd e hdone⟩
    | init | capdet | setScbk =>
      rw [hst] at hid
      intro _
      rw [hcmd, hid]
      decide
    | online | offline | disabled | trsSetup | trsRun =>
      rw [hst] at hid
      intro _
      rw [hcmd]
      exact hid.2.2.1
  · rw [show (t.pd i).phyState = .sendCmd from hphy]
    nofun
  · rw [show (t.pd i).state = (s.pd i).state from hstate]
    rcases hk.enable e with e | e
    · rcases hp.enable e with e | e
      · exact hinv.enable e
      · exact .inl e
    · exact .inl (hp.state ▸ e)

/-- From an exchange that is over to the end of the pass. -/
theorem hsInv_of_proceed (hm : HsMid env i s)
    (hidle : (s.pd i).phyState = .idle → CpHsInv env i (s.pd i) s.log)
    (e : cpProceed env (cpRunCalls env depth) i (s.pd i).state s
      = .ok () t) : CpHsInv env i (t.pd i) t.log := by
  have hsettle {err₀ : Int}
      (herr : err₀ = if (s.pd i).phyState = .done then cpErrNone
        else cpErrGeneric)
      (e : (do
        let err ← cpSettle env (cpRunCalls env depth) i err₀
        cpAdvance env (cpRunCalls env depth) i (s.pd i).state err) s
        = .ok () t) : CpHsInv env i (t.pd i) t.log := by
    obtain ⟨err', u, hu, e⟩ := bind_ok.mp e
    have hset := settle_ok hu
    have ho := hsOver_of_settled hm herr hset
    obtain ⟨c, hc, -⟩ := hset.ctl
    rw [← hc.state] at e
    exact hsInv_of_advance ho (advance_ok ho.cp e)
  obtain ⟨p, v, hp, e⟩ := bind_ok.mp e
  obtain ⟨rfl, rfl⟩ := getPd_ok.mp hp
  cases hphy : (s.pd i).phyState with
  | idle =>
    rw [hphy] at e
    obtain ⟨b, u, hu, e⟩ := bind_ok.mp e
    have hk := kick_ok hu
    cases b with
    | true =>
      obtain ⟨-, rfl⟩ := pure_ok.mp e
      exact hsInv_of_kicked (hidle hphy) hk
    | false =>
      have ho := hsOver_of_idle (hidle hphy) hphy hk
      have hstate : (u.pd i).state = (s.pd i).state := by
        obtain ⟨id, w, hp, -, -, ⟨hb, -⟩ | ⟨-, -, hk⟩⟩ := hk.pick
        · cases hb
        · exact hk.state.trans hp.state
      rw [← hstate] at e
      exact hsInv_of_advance ho (advance_ok ho.cp e)
  | done =>
    rw [hphy] at e
    exact hsettle (by rw [hphy]; rfl) e
  | err =>
    rw [hphy] at e
    exact hsettle (by rw [hphy]; rfl) e
  | sendCmd | sendCmdWait | replyWait | wait | retryCmd =>
    rw [hphy] at e
    exact absurd e throw_ok

/-- A pass keeps the invariant. -/
theorem hsInv_of_pass (hinv : CpHsInv env i (s.pd i) s.log)
    (e : stateUpdate env (cpRunCalls env depth) i s = .ok () t) :
    CpHsInv env i (t.pd i) t.log := by
  have hm : HsMid env i s := ⟨hinv.ctl, hinv.enable, hinv.sound⟩
  rcases stateUpdate_ok e with ⟨err, hrun, hu, he⟩ |
    ⟨err, u, hrun, hu, he, hp⟩ | ⟨hrun, hp⟩
  · have ht := hsMid_of_exchange hm hrun hu
    exact ⟨ht.ctl, exchangeStep_phy (exchange_ok hu) hrun he, ht.enable,
      ht.sound⟩
  · have hmu := hsMid_of_exchange hm hrun hu
    have hcore : CoreStep (s.pd i) (u.pd i) :=
      (read_cpPhyStateUpdate (R := CoreDown i)
        (keeps_cpRunCalls depth)).of hu
    rw [← hcore.state] at hp
    exact hsInv_of_proceed hmu
      (fun hi => ⟨hmu.ctl, by rw [hi]; exact ⟨nofun, nofun⟩, hmu.enable,
        hmu.sound⟩) hp
  · exact hsInv_of_proceed hm (fun _ => hinv) hp

end Advance

-- ============================================================== the rise

section Rise

variable {env : Env} {i depth : Nat} {s t u : Osdp} {err : Int}

/-- The channel of PD `i` came up on the way, if it was down before. -/
def Rises (i : Nat) (s t : Osdp) : Prop :=
  (t.pd i).flags.scActive = true → (s.pd i).flags.scActive = true ∨
    ∃ l, t.log = l ++ s.log ∧ .scActivated i ∈ l

/-- Nothing brings the channel up where the flag stays or falls. -/
theorem Rises.of_stays
    (h : (t.pd i).flags.scActive = true → (s.pd i).flags.scActive = true) :
    Rises i s t := fun e => .inl (h e)

/-- Before and after a rise the history may grow. -/
theorem Rises.trans (hg : ∃ l, u.log = l ++ t.log)
    (hst : ∃ l, t.log = l ++ s.log) (h : Rises i s t) (k : Rises i t u) :
    Rises i s u := by
  obtain ⟨m, hm⟩ := hg
  obtain ⟨n, hn⟩ := hst
  intro e
  rcases k e with e | ⟨l, hl, ho⟩
  · rcases h e with e | ⟨l, hl, ho⟩
    · exact .inl e
    · exact .inr ⟨m ++ l, by rw [hm, hl, List.append_assoc],
        List.mem_append_right m ho⟩
  · exact .inr ⟨l ++ n, by rw [hl, hn, List.append_assoc],
      List.mem_append_left n ho⟩

theorem EffectLog.grows {cur : CpState} (h : EffectLog i cur err s t) :
    ∃ l, t.log = l ++ s.log := by
  unfold EffectLog at h
  split at h
  · obtain ⟨v, w, ⟨l, hl, -⟩, hw, ⟨m, hm, -⟩⟩ := h.log
    exact ⟨m ++ .scActivated i :: l, by rw [hm, hw, hl]; simp⟩
  · obtain ⟨l, hl, -⟩ := h
    exact ⟨l, hl⟩

/-- The effects of a transition bring it up at the end of a handshake
only, and say so. -/
theorem EffectLog.rises {cur row : CpState} {key : Bytes}
    (h : EffectLog i cur err s t)
    (hup : (t.pd i).flags.scActive = true →
      ((s.pd i).ctl.effects cur row err key).scActive = true) :
    Rises i s t := by
  intro e
  rcases effects_scActive _ _ _ _ _ (hup e) with hc | ⟨hact, -⟩
  · rw [EffectLog, if_pos hc] at h
    obtain ⟨v, w, ⟨l, hl, -⟩, hw, ⟨m, hm, -⟩⟩ := h.log
    refine .inr ⟨m ++ .scActivated i :: l, by rw [hm, hw, hl]; simp, ?_⟩
    exact List.mem_append_right m List.mem_cons_self
  · exact .inl hact

theorem Chosen.rises {next : CpState} (h : Chosen i err s t next) :
    Rises i s t ∧ ∃ l, t.log = l ++ s.log := by
  have hof {c : PdCtl} (k : Steers i s c t) :
      (t.pd i).flags.scActive = c.scActive := congrArg PdCtl.scActive k.ctl
  cases h with
  | reset steers log | trs cur dest steers log =>
    obtain ⟨l, hl, -⟩ := log
    exact ⟨.of_stays fun e => (hof steers).symm.trans e, l, hl⟩
  | table key off row steers log =>
    exact ⟨log.rises fun e => (hof steers).symm.trans e, log.grows⟩
  | online row key on row_ok steers log dest =>
    exact ⟨log.rises fun e => (hof steers).symm.trans e, log.grows⟩

theorem EnterLog.grows {next : CpState} {r : Bytes}
    (h : EnterLog i next r s t) : ∃ l, t.log = l ++ s.log := by
  unfold EnterLog at h
  split at h
  · obtain ⟨n, l, hl, -⟩ := h
    exact ⟨l ++ [.challenged i r, .random n r], by rw [hl]; simp⟩
  · obtain ⟨l, hl, -⟩ := h
    exact ⟨l, hl⟩

/-- The end of a pass brings it up through the table's effects only. -/
theorem Advances.rises (h : Advances i err s t) : Rises i s t := by
  obtain ⟨next, next', u, v, hch, hlive, hend⟩ := h.run
  obtain ⟨hsu, hgu⟩ := hch.rises
  have hact : (v.pd i).flags.scActive = (u.pd i).flags.scActive :=
    congrArg PdCtl.scActive hlive.ctl
  have hvt : Rises i v t ∧ ∃ l, t.log = l ++ v.log := by
    rcases hend with ⟨-, hsame⟩ | ⟨-, r, hchg⟩
    · obtain ⟨l, hl, -⟩ := hsame.log
      refine ⟨.of_stays fun e => ?_, l, hl⟩
      exact (congrArg PdCtl.scActive hsame.steers.ctl).symm.trans e
    · refine ⟨.of_stays fun e => ?_, hchg.log.grows⟩
      have e := (congrArg PdCtl.scActive hchg.ctl).symm.trans e
      exact (enter_scActive _ _ _ e).1
  have hsv : Rises i s v := fun e => by
    rw [hlive.log]
    exact hsu (hact.symm.trans e)
  refine Rises.trans hvt.2 ?_ hsv hvt.1
  rw [hlive.log]
  exact hgu

/-- Settling an exchange never brings it up. -/
theorem Settled.stays {err' : Int} (h : Settled i err err' s t)
    (e : (t.pd i).flags.scActive = true) :
    (s.pd i).flags.scActive = true := by
  obtain ⟨c, hc, hj⟩ := h.ctl
  have e : c.scActive = true := (congrArg PdCtl.scActive hc.ctl).symm.trans e
  rcases hj with hj | ⟨-, -, -, key, hj⟩ <;> rw [hj] at e
  · exact e
  · cases e

theorem Kicked.stays {b : Bool} (h : Kicked i b s t)
    (e : (t.pd i).flags.scActive = true) :
    (s.pd i).flags.scActive = true := by
  obtain ⟨id, u, hp, -, -, hk⟩ := h.pick
  have hu : (u.pd i).flags.scActive = (s.pd i).flags.scActive :=
    congrArg PdCtl.scActive hp.ctl
  rw [← hu]
  rcases hk with ⟨-, -, hk⟩ | ⟨-, -, hk⟩
  · exact (congrArg PdCtl.scActive hk.ctl).symm.trans e
  · exact (congrArg PdCtl.scActive hk.ctl).symm.trans e

/-- From the end of an exchange to the end of the pass. -/
theorem rises_of_proceed (hmode : (s.pd i).flags.pdMode = false)
    (e : cpProceed env (cpRunCalls env depth) i (s.pd i).state s
      = .ok () t) : Rises i s t := by
  have hadv {err : Int} {u : Osdp}
      (hmode : (u.pd i).flags.pdMode = false)
      (hstate : (u.pd i).state = (s.pd i).state)
      (hg : ∃ l, u.log = l ++ s.log)
      (hs : (u.pd i).flags.scActive = true →
        (s.pd i).flags.scActive = true)
      (e : cpAdvance env (cpRunCalls env depth) i (s.pd i).state err u
        = .ok () t) : Rises i s t := by
    rw [← hstate] at e
    have hgt : Grows u t := (pass_cpAdvance (keeps_cpRunCalls depth) _ _).of e
    obtain ⟨l, hl, -⟩ := hgt
    exact .trans ⟨l, hl⟩ hg (.of_stays hs) (advance_ok hmode e).rises
  have hsettle {err₀ : Int}
      (e : (do
        let err ← cpSettle env (cpRunCalls env depth) i err₀
        cpAdvance env (cpRunCalls env depth) i (s.pd i).state err) s
        = .ok () t) : Rises i s t := by
    obtain ⟨err', u, hu, e⟩ := bind_ok.mp e
    have hset := settle_ok hu
    obtain ⟨c, hc, hj⟩ := hset.ctl
    obtain ⟨l, hl, -⟩ := hset.log
    have hm : (u.pd i).flags.pdMode = c.pdMode := congrArg PdCtl.pdMode hc.ctl
    refine hadv ?_ hc.state ⟨l, hl⟩ hset.stays e
    rw [hm]
    rcases hj with hj | ⟨-, -, -, key, hj⟩ <;> rw [hj] <;> exact hmode
  obtain ⟨p, v, hp, e⟩ := bind_ok.mp e
  obtain ⟨rfl, rfl⟩ := getPd_ok.mp hp
  cases hphy : (s.pd i).phyState with
  | idle =>
    rw [hphy] at e
    obtain ⟨b, u, hu, e⟩ := bind_ok.mp e
    have hk := kick_ok hu
    cases b with
    | true =>
      obtain ⟨-, rfl⟩ := pure_ok.mp e
      exact .of_stays hk.stays
    | false =>
      obtain ⟨id, w, hp, hlog, -, ⟨hb, -⟩ | ⟨-, -, hkw⟩⟩ := hk.pick
      · cases hb
      obtain ⟨l, hl, -⟩ := hp.log
      have hctl : (u.pd i).ctl.sansTrs
          = { (s.pd i).ctl.sansTrs with cmdId := id } := by
        rw [hkw.ctl, ← hp.ctl]
        rfl
      exact hadv ((congrArg PdCtl.pdMode hctl).trans hmode)
        (hkw.state.trans hp.state) ⟨l, hlog.trans hl⟩ hk.stays e
  | done => rw [hphy] at e; exact hsettle e
  | err => rw [hphy] at e; exact hsettle e
  | sendCmd | sendCmdWait | replyWait | wait | retryCmd =>
    rw [hphy] at e
    exact absurd e throw_ok

/-- In a pass the channel comes up only where the history says so. -/
theorem rises_of_pass (hmode : (s.pd i).flags.pdMode = false)
    (e : stateUpdate env (cpRunCalls env depth) i s = .ok () t) :
    Rises i s t := by
  have hexch {err : Int} {u : Osdp}
      (hu : cpPhyStateUpdate env (cpRunCalls env depth) i s = .ok err u) :
      CoreStep (s.pd i) (u.pd i) ∧ Grows s u :=
    ⟨(read_cpPhyStateUpdate (R := CoreDown i)
      (keeps_cpRunCalls depth)).of hu,
      (read_cpPhyStateUpdate (keeps_cpRunCalls depth)).of hu⟩
  rcases stateUpdate_ok e with ⟨err, hrun, hu, he⟩ |
    ⟨err, u, hrun, hu, he, hp⟩ | ⟨hrun, hp⟩
  · exact .of_stays (hexch hu).1.active
  · obtain ⟨hcore, l, hl, -⟩ := hexch hu
    rw [← hcore.state] at hp
    have hg : Grows u t := (pass_cpProceed (keeps_cpRunCalls depth) _).of hp
    obtain ⟨m, hm, -⟩ := hg
    exact .trans ⟨m, hm⟩ ⟨l, hl⟩ (.of_stays hcore.active)
      (rises_of_proceed (hcore.pdMode.trans hmode) hp)
  · exact rises_of_proceed hmode hp

end Rise

-- =============================================================== results

section Results

variable {env : Env} {depth i : Nat} {s t : Osdp}

/-- Entries that mark no point of the protocol are sound whatever came
before. -/
theorem Unmarked.soundEntries {log : List Obs} (h : Unmarked log) :
    Always (SoundEntry env i) log := by
  induction log with
  | nil => trivial
  | cons o log ih =>
    refine ⟨soundEntry_of_markOf ?_ _,
      ih fun x hx => h x (List.mem_cons_of_mem o hx)⟩
    rw [h o List.mem_cons_self]
    nofun

/-- The control of a PD that was just added, or is not there at all. -/
theorem hsInv_of_fresh {p : OsdpPd} {log : List Obs} (h : Unmarked log)
    (hp : p.ctl = ({ : OsdpPd }).ctl ∨ ∃ info,
      p = cpSetupDevice env info)
    (henable : p.request.enable = false) : CpHsInv env i p log := by
  have hfresh : p.state = .init ∧ p.phyState = .idle ∧
      p.flags.scActive = false ∧ p.request.restartSc = false ∧
      p.flags.pdMode = false := by
    rcases hp with e | ⟨info, rfl⟩
    · exact ⟨congrArg PdCtl.state e, congrArg PdCtl.phyState e,
        congrArg PdCtl.scActive e,
        congrArg (fun c : PdCtl => c.request.restartSc) e,
        congrArg PdCtl.pdMode e⟩
    · exact ⟨rfl, rfl, rfl, rfl, rfl⟩
  obtain ⟨hstate, hphy, hoff, hreq, hmode⟩ := hfresh
  refine ⟨⟨fun e => ?_, fun e => ?_, hmode,
    hsFits_idle hphy (fun e => ?_) fun e => ?_⟩, ?_, fun e => ?_,
    h.soundEntries⟩
  · exact (Bool.false_ne_true (hoff.symm.trans e)).elim
  · exact (Bool.false_ne_true (hreq.symm.trans e)).elim
  · cases hstate.symm.trans e
  · cases hstate.symm.trans e
  · rw [hphy]
    exact ⟨nofun, nofun⟩
  · exact (Bool.false_ne_true (henable.symm.trans e)).elim

/-- What is about other PDs is no part of the handshake. -/
theorem handshake_aside {l log : List Obs}
    (hl : ∀ o ∈ l, Obs.markOf o ≠ some i) :
    cpHandshakeOf i (l ++ log) = cpHandshakeOf i log :=
  foldr_neutral fun o ho x => next_of_markOf (hl o ho) x

theorem sound_aside {l log : List Obs} (h : Always (SoundEntry env i) log)
    (hl : ∀ o ∈ l, Obs.markOf o ≠ some i) :
    Always (SoundEntry env i) (l ++ log) :=
  h.append fun o ho past => soundEntry_of_markOf (hl o ho) past

/-- The handshake invariant, over every kind of step. -/
theorem hsInv_invariant (env : Env) (depth i : Nat) :
    DeviceInvariant env depth i (CpHsInv env i) (ScInv env i) where
  blank _ h := hsInv_of_fresh h (.inl rfl) rfl
  setup info _ h := hsInv_of_fresh h (.inr ⟨info, rfl⟩) rfl
  aside p q l log h hc hl := by
    have hctl : q.ctl = p.ctl := hc.frameStep.ctl
    have hphy : q.phyState = p.phyState := congrArg PdCtl.phyState hctl
    refine ⟨?_, ?_, fun e => ?_, sound_aside h.sound hl⟩
    · rw [hctl, handshake_aside hl]
      exact h.ctl
    · rw [hphy]
      exact h.phy
    · rw [hc.state]
      rcases hc.enable e with e | e
      · exact h.enable e
      · exact .inl e
  pass _ _ h _ e := hsInv_of_pass h e
  weaken _ _ h := ⟨h.ctl.active, h.sound⟩
  weakAside p q l log h hc hl := by
    have hctl : q.ctl = p.ctl := hc.frameStep.ctl
    have hact : q.flags.scActive = p.flags.scActive :=
      congrArg PdCtl.scActive hctl
    refine ⟨fun e => ?_, sound_aside h.sound hl⟩
    rw [hc.state]
    exact h.active (hact ▸ e)
  weakTeardown _ _ h := ⟨h.active, h.sound⟩

/-- The secure channel of PD `i` is up in the right states only, the
challenge is sent without it, and whenever it came up a handshake had been
completed for it, begun with a fresh challenge. -/
structure ScSound (env : Env) (i : Nat) (s : Osdp) : Prop where
  active : (s.pd i).flags.scActive = true → scState (s.pd i).state = true
  chlng : ∀ later active past,
    s.log = later ++ .build i cmdChlng active :: past → active = false
  opened : ∀ later past, s.log = later ++ .scActivated i :: past →
    CpProven env (cpHandshakeOf i past)
  drawn : ∀ later r past, s.log = later ++ .challenged i r :: past →
    ∃ n, past.head? = some (.random n r)

theorem ScInv.scSound (h : ScInv env i (s.pd i) s.log) :
    ScSound env i s := by
  have hall := always_iff.mp h.sound
  exact ⟨h.active,
    fun later active past e => hall later _ past e rfl rfl,
    fun later past e => hall later _ past e rfl,
    fun later r past e => hall later _ past e rfl⟩

/-- In every run of a CP, before and after every pass of a refresh: the
channel of a PD is up only in SET_SCBK, ONLINE and the states of a card
session, so CMD_CHLNG is never built under it; it comes up only where the
history says so; and there, since the last entry to SC_CHLNG, a REPLY_CCRYPT
to CMD_CHLNG was found in order whose cryptogram verifies under keys derived
from the challenge drawn on that entry, and a REPLY_RMAC_I to CMD_SCRYPT
after it. -/
theorem cp_sc_sound (env : Env) (depth : Nat)
    (ok : Osdp → CpInput → Bool) (infos : List CpPdInfo) (s t : Osdp)
    (l : List CpInput) (hs : osdpCpSetup env infos = some s)
    (hrun : CpRun env depth ok s l t) (i : Nat) :
    ScSound env i t ∧
      ∀ now rx u v, RefreshPass env depth t now rx u v →
        ScSound env i u ∧ ScSound env i v ∧ Rises i u v := by
  have hd := hsInv_invariant env depth i
  have hinv := hd.invariant
  have ht : DeviceInv i (CpHsInv env i) (ScInv env i) t :=
    hinv.run hrun (hd.start hs)
  refine ⟨ht.always.scSound, fun now rx u v hp => ?_⟩
  obtain ⟨hu, e, hv⟩ := hinv.refreshPass ht hp
  refine ⟨hu.always.scSound, hv.always.scSound, ?_⟩
  by_cases hi : u.currentPd = i
  · have hlive := (hinv.refreshPass_live ht hp).2
    rw [hi] at e
    exact rises_of_pass (hu.alive hlive).ctl.cp e
  · have ho := ((others_stateUpdate u.currentPd).of e).pd i (Ne.symm hi)
    refine .of_stays fun k => ?_
    have hctl := ho.frameStep.ctl
    exact (congrArg PdCtl.scActive hctl).symm.trans k

end Results

/-- What AES makes of the blocks of a handshake over the challenge B0..B7,
the PD's 1..8 and the key AB repeated. -/
def keyedCpBlocks : List KnownBlock :=
  [.of 0xABABABABABABABABABABABABABABABAB
    0x0182B0B1B2B3B4B50000000000000000
    0xF11736A4373ED62385E3A943E8F4E9D6,
   .of 0xABABABABABABABABABABABABABABABAB
    0x0101B0B1B2B3B4B50000000000000000
    0xE46C44097C061A1C1896AFD259438AF5,
   .of 0xABABABABABABABABABABABABABABABAB
    0x0102B0B1B2B3B4B50000000000000000
    0xBC4C92B276298262E5E9C8D2758CE576,
   .of 0xF11736A4373ED62385E3A943E8F4E9D6
    0xB0B1B2B3B4B5B6B70102030405060708
    0x363148542500DEAB6175F8EEAA615032,
   .of 0xF11736A4373ED62385E3A943E8F4E9D6
    0x0102030405060708B0B1B2B3B4B5B6B7
    0xB715A474B0FCD9D2B97A4A609D596D6D,
   .of 0xE46C44097C061A1C1896AFD259438AF5
    0xB715A474B0FCD9D2B97A4A609D596D6D
    0x0D95B8D1A4A1928FBCE2C29A8FF8CDDF,
   .of 0xBC4C92B276298262E5E9C8D2758CE576
    0x0D95B8D1A4A1928FBCE2C29A8FF8CDDF
    0xB51EFA1777DEC4AE2434B2BC642A0FF3]

/-- A CP that draws that challenge. -/
def keyedCpEnv : Env :=
  plainEnv (knownCipher keyedCpBlocks) fun n => UInt8.ofNat (0xB0 + n)

/-- The one PD of that CP. -/
def keyedCpPd : CpPdInfo :=
  { address := 1, scbk := some (writeBe 16 0xABABABABABABABABABABABABABABABAB) }

/-- A PD's ID and capabilities, and its side of the handshake. -/
def keyedCpReplies : List CpInput :=
  [.refresh 0 [], .refresh 1 [],
   .refresh 10 (writeBe 21 0xFF538114000445000000000000000000000000235B),
   .refresh 11 [], .refresh 12 [],
   .refresh 20 (writeBe 12 0xFF53810B000546090101C2D3),
   .refresh 22 [], .refresh 72 [],
   .refresh 73 (writeBe 44
      0xFF53812B000C0312017609090909090909090102030405060708363148542500DEAB6175F8EEAA6150324B8E),
   .refresh 74 [], .refresh 80 [],
   .refresh 130 (writeBe 28
      0xFF53811B000D03140178B51EFA1777DEC4AE2434B2BC642A0FF3B909)]

/-- A handshake that is completed. -/
theorem cp_sc_sound_online :
    ∃ s t, osdpCpSetup keyedCpEnv [keyedCpPd] = some s ∧
      CpRun keyedCpEnv 1 anyCpInput s keyedCpReplies t ∧
      ((t.pd 0).flags.scActive = true ∧ .scActivated 0 ∈ t.log) ∧
      ScSound keyedCpEnv 0 t := by
  obtain ⟨s, t, hs, hrun, hup⟩ :=
    run_of_setup (cpStep keyedCpEnv 1) anyCpInput
      (osdpCpSetup keyedCpEnv [keyedCpPd]) keyedCpReplies
      (fun t => (t.pd 0).flags.scActive = true ∧ .scActivated 0 ∈ t.log)
      (by decide +kernel)
  exact ⟨s, t, hs, hrun, hup,
    (cp_sc_sound keyedCpEnv 1 anyCpInput _ s t _ hs hrun 0).1⟩

end LibOsdp
