/-
Challenge freshness: which handshakes open a session on the PD.

# The monitor

`handshakeOf` reads the history of a run and says how far the current
handshake has come: a challenge was accepted, the PD drew its random
number for it, session keys were derived from the two, a cryptogram was
accepted against those keys.  Any step out of order sends it back to
`idle`, and so does opening the session.  `FreshSessions` says that every
session the history shows was opened from `answered`.

# The invariant

While the monitor says `keyed`, the channel still holds the randoms and
the key it says (`HsInv`): nothing but a new handshake writes them.
Between the decode of a command and the build of its reply,
`ReplyMatches` ties the two handshake replies to the monitor.

# What the code does not check

A reply id left over from an earlier exchange is built again when a frame
aliases a NAK, and a cryptogram is compared with whatever the channel
holds, challenge or no challenge.  `freshStep` excludes these two, and
nothing else.
-/
import LibOsdp.Pd.Proofs.Stages
import LibOsdp.Pd.Proofs.Run
import LibOsdp.Lib.History

namespace LibOsdp

open Lib

-- =========================================================== the monitor

/-- How far the current handshake has come. -/
inductive Handshake where
  | idle
  | challenged (cpRandom : Bytes)
  | drawn (cpRandom pdRandom : Bytes)
  | keyed (cpRandom pdRandom : Bytes) (sc : OsdpSecureChannel)
  | answered (cpRandom pdRandom : Bytes) (sc : OsdpSecureChannel)
      (cryptogram : Bytes)
  deriving DecidableEq, Repr

/-- A SCRYPT was accepted. -/
def Handshake.answer (cryptogram : Bytes) : Handshake → Handshake
  | .keyed d r sc => .answered d r sc cryptogram
  | _ => .idle

/-- Some other command was decided. -/
def Handshake.pass : Handshake → Handshake
  | .answered .. => .idle
  | h => h

/-- Session keys were derived; `sc` is the channel that holds them. -/
def Handshake.derive (sc : OsdpSecureChannel) : Handshake → Handshake
  | .drawn d r =>
    if sc.cpRandom = d ∧ sc.pdRandom = r then .keyed d r sc else .idle
  | _ => .idle

/-- One entry of the history, as seen by the handshake of PD `i`. -/
def Handshake.next (i : Nat) : Obs → Handshake → Handshake
  | .verdict j payload ret, h =>
    if j ≠ i then h
    else if ret = pdErrNone ∧ payloadId payload = cmdChlng then
      .challenged (payload.drop 1)
    else if ret = pdErrNone ∧ payloadId payload = cmdScrypt then
      h.answer (payload.drop 1)
    else h.pass
  | .random _ bytes, h =>
    match h with
    | .challenged d => .drawn d bytes
    | _ => h
  | .sessionKeys j _ sc, h => if j = i then h.derive sc else h
  | .scActivated j, h => if j = i then .idle else h
  | _, h => h

/-- The handshake a history has come to. -/
def handshakeOf (i : Nat) (log : List Obs) : Handshake :=
  log.foldr (Handshake.next i) .idle

theorem handshakeOf_cons (i : Nat) (o : Obs) (log : List Obs) :
    handshakeOf i (o :: log) = Handshake.next i o (handshakeOf i log) := rfl

/-- The keys in `sc` are for this challenge and this random number. -/
structure KeyedFor (env : Env) (d r : Bytes) (sc : OsdpSecureChannel) :
    Prop where
  cpRandom : sc.cpRandom = d
  pdRandom : sc.pdRandom = r
  sEnc : ∃ key, sc.sEnc = env.cipher.enc key (sessionKeySeed 0x01 0x82 d)

/-- A challenge was answered, and the answer is the right one for it. -/
def ChallengeMet (env : Env) (h : Handshake) : Prop :=
  ∃ d r sc, KeyedFor env d r sc ∧
    h = .answered d r sc (cpCryptogramOf env sc)

/-- Every session PD `i` opened answers a challenge of its own. -/
def FreshSessions (env : Env) (i : Nat) (log : List Obs) : Prop :=
  Always (fun o past =>
    o = .scActivated i → ChallengeMet env (handshakeOf i past)) log

-- ============================================================ neutrality

/-- Entries the monitor ignores. -/
@[grind] def Obs.skipsHs : Obs → Bool
  | .verdict .. | .random .. | .sessionKeys .. | .scActivated _ => false
  | _ => true

/-- Entries that open no session. -/
@[grind] def Obs.opensNone : Obs → Bool
  | .scActivated _ => false
  | _ => true

theorem next_of_skipsHs {i : Nat} {o : Obs} (h : o.skipsHs) (x : Handshake) :
    Handshake.next i o x = x := by
  cases o <;> first | rfl | cases h

theorem opensNone_of_skipsHs {o : Obs} (h : o.skipsHs) : o.opensNone := by
  cases o <;> first | rfl | cases h

theorem LogExt.handshakeOf {s t : Osdp} (h : LogExt Obs.skipsHs s t)
    (i : Nat) : handshakeOf i t.log = handshakeOf i s.log := by
  obtain ⟨l, hl, hE⟩ := h
  rw [LibOsdp.handshakeOf, hl]
  exact foldr_neutral fun o ho x => next_of_skipsHs (hE o ho) x

theorem FreshSessions.cons {env : Env} {i : Nat} {log : List Obs} {o : Obs}
    (h : FreshSessions env i log) (ho : o.opensNone) :
    FreshSessions env i (o :: log) := by
  refine ⟨fun e => ?_, h⟩
  rw [e] at ho
  cases ho

theorem LogExt.freshSessions {env : Env} {i : Nat} {s t : Osdp}
    (h : LogExt Obs.opensNone s t) (hf : FreshSessions env i s.log) :
    FreshSessions env i t.log := by
  obtain ⟨l, hl, hE⟩ := h
  rw [hl]
  refine hf.append fun o ho past e => ?_
  have := hE o ho
  rw [e] at this
  cases this

/-- What the handshake keeps in the channel. -/
@[grind] def hsKeys (p : OsdpPd) : Bytes × Bytes × Bytes :=
  (p.sc.cpRandom, p.sc.pdRandom, p.sc.sEnc)

/-- The same, and the reply id. -/
@[grind] def hsKeysReply (p : OsdpPd) : (Bytes × Bytes × Bytes) × Nat :=
  (hsKeys p, p.replyId)

/-- Nothing happened that concerns the handshake. -/
abbrev Still : Osdp → Osdp → Prop := Frame hsKeys noContext Obs.skipsHs

/-- The same, and the reply is still to be the same. -/
abbrev StillReply : Osdp → Osdp → Prop :=
  Frame hsKeysReply noContext Obs.skipsHs

theorem StillReply.still {s t : Osdp} (h : StillReply s t) : Still s t :=
  h.view Prod.fst (fun _ => rfl) fun _ => id

theorem skipsHs_of_isApp {o : Obs} (h : o.isApp) : o.skipsHs := by
  cases o <;> first | rfl | cases h

theorem Quiet.stillReply {s t : Osdp} (h : Quiet s t) : StillReply s t :=
  h.view hsKeysReply (fun _ => rfl) fun _ => skipsHs_of_isApp

theorem Ages.stillReply {s t : Osdp} (h : Ages s t) : StillReply s t :=
  h.view hsKeysReply (fun _ => rfl) fun _ => skipsHs_of_isApp

theorem Packs.stillReply {s t : Osdp} (h : Packs s t) : StillReply s t :=
  h.view hsKeysReply (fun _ => rfl) fun _ => skipsHs_of_isApp

theorem Sends.stillReply {s t : Osdp} (h : Sends s t) : StillReply s t :=
  h.view hsKeysReply (fun _ => rfl) fun o ho => by
    cases o <;> first | rfl | cases ho

theorem Receives.still {s t : Osdp} (h : Receives s t) : Still s t :=
  h.view hsKeys (fun _ => rfl) fun o ho => by
    cases o <;> first | rfl | cases ho

theorem Handles.still {s t : Osdp} (h : Handles s t) : Still s t := by
  refine ⟨fun j => ?_, rfl, h.log.mono fun o ho => ?_⟩
  · have e := congrArg hsKeys (h.pd j)
    exact e
  · cases o <;> first | rfl | cases ho

/-- Nothing happened that concerns the handshake, and PD `i` was given no
reply of it. -/
structure Plain (i : Nat) (s t : Osdp) : Prop where
  still : Still s t
  reply : hsReply (s.pd i).replyId = false →
    hsReply (t.pd i).replyId = false

instance (i : Nat) : IsPreorder Osdp (Plain i) where
  refl s := ⟨refl_of Still s, id⟩
  trans _ _ _ h k :=
    ⟨trans_of Still h.still k.still, fun e => k.reply (h.reply e)⟩

/-- The packet size is none of the handshake's concern. -/
theorem plain_size (i : Nat) (s : Osdp) (n : Nat) :
    Plain i s (s.updPd i fun p => { p with peerRxSize := n }) := by
  refine ⟨Frame.updPd s i fun _ => rfl, fun h => ?_⟩
  rw [updPd_pd_same]
  exact h

instance : PacketMoves StillReply where
  packet _ _ _ h := Frame.updPd _ _ fun p => by
    have e := congrArg hsKeysReply (h p)
    exact e
  txBuf _ _ _ := ⟨fun _ => rfl, rfl, refl_of (LogExt _) _⟩

-- ========================================================== the invariant

/-- What a history and the state it led to have to do with each other. -/
structure HsInv (env : Env) (i : Nat) (s : Osdp) : Prop where
  fresh : FreshSessions env i s.log
  keyed : ∀ d r sc, handshakeOf i s.log = .keyed d r sc →
    KeyedFor env d r sc ∧
      hsKeys (s.pd i) = (sc.cpRandom, sc.pdRandom, sc.sEnc)

/-- The handshake replies are due only where the handshake is. -/
structure ReplyMatches (env : Env) (i : Nat) (s : Osdp) : Prop where
  ccrypt : (s.pd i).replyId = replyCcrypt →
    handshakeOf i s.log = .challenged (s.pd i).sc.cpRandom
  rmacI : (s.pd i).replyId = replyRmacI →
    ChallengeMet env (handshakeOf i s.log)

section Invariant

variable {env : Env} {i : Nat} {s t : Osdp}

theorem HsInv.still (h : HsInv env i s) (hs : Still s t) :
    HsInv env i t := by
  refine ⟨?_, fun d r sc hk => ?_⟩
  · exact (hs.log.mono fun _ => opensNone_of_skipsHs).freshSessions h.fresh
  · rw [hs.log.handshakeOf i] at hk
    rw [hs.pd i]
    exact h.keyed d r sc hk

theorem ReplyMatches.still (h : ReplyMatches env i s)
    (hs : StillReply s t) : ReplyMatches env i t := by
  have hv := hs.pd i
  have hid : (t.pd i).replyId = (s.pd i).replyId := congrArg Prod.snd hv
  have hcp : (t.pd i).sc.cpRandom = (s.pd i).sc.cpRandom :=
    congrArg (fun v => v.1.1) hv
  have hlog := hs.log.handshakeOf i
  refine ⟨fun e => ?_, fun e => ?_⟩
  · rw [hlog, hcp]
    exact h.ccrypt (hid ▸ e)
  · rw [hlog]
    exact h.rmacI (hid ▸ e)

/-- An ordinary reply asks nothing of the handshake. -/
theorem ReplyMatches.of_ordinary (h : hsReply (s.pd i).replyId = false) :
    ReplyMatches env i s := by
  constructor <;>
    (intro e; rw [e] at h; cases h)

end Invariant

-- ============================================================ the decoder

section Decode

variable {env : Env} {run : List ApiCall → OsdpM Unit}

/-- What a command does to the handshake: a challenge or a cryptogram was
accepted, or neither. -/
inductive HandshakeStep (env : Env) (i : Nat) (s : Osdp)
    (payload : Bytes) (ret : Int) (t : Osdp) : Prop where
  | challenge (id : payloadId payload = cmdChlng) (hret : ret = pdErrNone)
      (log : LogExt Obs.opensNone s t)
      (reply : (t.pd i).replyId = replyCcrypt)
      (cpRandom : (t.pd i).sc.cpRandom = payload.drop 1)
  | scrypt (id : payloadId payload = cmdScrypt) (hret : ret = pdErrNone)
      (still : Still s t) (reply : (t.pd i).replyId = replyRmacI)
      (inactive : (s.pd i).flags.scActive = false)
      (length : payload.length = 17)
      (met : payload.drop 1 = cpCryptogramOf env (t.pd i).sc)
  | other (hno : ¬ (ret = pdErrNone ∧
        (payloadId payload = cmdChlng ∨ payloadId payload = cmdScrypt)))
      (still : Still s t) (ordinary : hsReply (t.pd i).replyId = false)

/-- Handling a command leaves the session as it was. -/
theorem Handles.scActive {s t : Osdp} (h : Handles s t) (j : Nat) :
    (t.pd j).flags.scActive = (s.pd j).flags.scActive := by
  have e := congrArg (fun p : OsdpPd => p.flags.scActive) (h.pd j)
  exact e

/-- What is done before a step is no part of it. -/
theorem HandshakeStep.before {i : Nat} {s u t : Osdp} {payload : Bytes}
    {ret : Int} (h : HandshakeStep env i u payload ret t) (hst : Still s u)
    (hact : (u.pd i).flags.scActive = (s.pd i).flags.scActive) :
    HandshakeStep env i s payload ret t := by
  cases h with
  | challenge id hret log reply cp =>
    exact .challenge id hret
      (trans_of (LogExt Obs.opensNone)
        (hst.log.mono fun _ => opensNone_of_skipsHs) log) reply cp
  | scrypt id hret still reply inactive len met =>
    exact .scrypt id hret (trans_of Still hst still) reply
      (hact.symm.trans inactive) len met
  | other hno still ord => exact .other hno (trans_of Still hst still) ord

/-- Starting the channel over may draw a random number, no more. -/
theorem logs_osdpScSetup (i : Nat) :
    Keeps (Logs Obs.opensNone) (osdpScSetup env i) := by
  have hf (n : Nat) : Keeps (Logs Obs.opensNone) (osdpFillRandom env n) := by
    intro s a t e
    cases e
    exact ⟨fun _ => rfl, rfl, LogExt.cons rfl⟩
  unfold osdpScSetup
  grind

variable (hr : ∀ calls, Keeps Quiet (run calls))
include hr

/-- CMD_CHLNG on a PD whose reply so far is an ordinary one. -/
theorem pdDecodeChlng_step {i : Nat} {s t : Osdp} {payload : Bytes}
    {ret : Int} (hid : payloadId payload = cmdChlng)
    (h : pdDecodeChlng env run i (payload.drop 1) s = .ok ret t)
    (hord : hsReply (s.pd i).replyId = false) :
    HandshakeStep env i s payload ret t := by
  unfold pdDecodeChlng at h
  split at h
  · obtain ⟨rfl, rfl⟩ := pure_ok.mp h
    exact .other (by simp [pdErrNone, pdErrGeneric]) (refl_of Still s) hord
  · obtain ⟨ok, u, hc, h⟩ := bind_ok.mp h
    have hu : Handles s u := (keeps_pdCmdCapOk i none).of hc
    split at h
    · obtain ⟨rfl, rfl⟩ := pure_ok.mp h
      exact .other (by simp [pdErrNone, pdErrReply]) hu.still
        (hu.reply i hord)
    · refine HandshakeStep.before ?_ hu.still (hu.scActive i)
      obtain ⟨_, v, hv, h⟩ := bind_ok.mp h
      obtain ⟨_, w, hw, h⟩ := bind_ok.mp h
      obtain ⟨_, x, hx, h⟩ := bind_ok.mp h
      obtain ⟨rfl, rfl⟩ := pure_ok.mp h
      obtain rfl := updPd_ok.mp hx
      have hv' : Ages u v := (ages_pdScDeactivate hr i).of hv
      have hw' := (logs_osdpScSetup i).of hw
      refine .challenge hid rfl ?_ ?_ ?_
      · exact trans_of (LogExt Obs.opensNone)
          (hv'.stillReply.log.mono fun _ => opensNone_of_skipsHs) hw'.log
      · rw [updPd_pd_same]
      · rw [updPd_pd_same]

omit hr in
/-- CMD_SCRYPT on a PD whose reply so far is an ordinary one. -/
theorem pdDecodeScrypt_step {i : Nat} {s t : Osdp} {payload : Bytes}
    {ret : Int} (hid : payloadId payload = cmdScrypt)
    (h : pdDecodeScrypt env i (payload.drop 1) s = .ok ret t)
    (hord : hsReply (s.pd i).replyId = false) :
    HandshakeStep env i s payload ret t := by
  unfold pdDecodeScrypt at h
  split at h
  · obtain ⟨rfl, rfl⟩ := pure_ok.mp h
    exact .other (by simp [pdErrNone, pdErrGeneric]) (refl_of Still s) hord
  · next hlen =>
    obtain ⟨ok, u, hc, h⟩ := bind_ok.mp h
    have hu : Handles s u := (keeps_pdCmdCapOk i none).of hc
    have hordu := hu.reply i hord
    refine HandshakeStep.before ?_ hu.still (hu.scActive i)
    split at h
    · obtain ⟨rfl, rfl⟩ := pure_ok.mp h
      exact .other (by simp [pdErrNone, pdErrReply]) (refl_of Still u) hordu
    · obtain ⟨p, v, hg, h⟩ := bind_ok.mp h
      obtain ⟨rfl, rfl⟩ := getPd_ok.mp hg
      split at h
      · obtain ⟨_, v, hv, h⟩ := bind_ok.mp h
        obtain ⟨rfl, rfl⟩ := pure_ok.mp h
        have hv' := (keeps_setNakCode (R := Handles) i nakScCond).of hv
        exact .other (by simp [pdErrNone, pdErrReply]) hv'.still
          (hv'.reply i hordu)
      · next hact =>
        obtain ⟨_, v, hv, h⟩ := bind_ok.mp h
        have hst : Still u v := frame_of_updPd hv fun _ => rfl
        obtain rfl := updPd_ok.mp hv
        obtain ⟨q, w, hg, h⟩ := bind_ok.mp h
        obtain ⟨rfl, rfl⟩ := getPd_ok.mp hg
        split at h
        · obtain ⟨_, x, hx, h⟩ := bind_ok.mp h
          obtain ⟨rfl, rfl⟩ := pure_ok.mp h
          have hx' := (keeps_setNakCode (R := Handles) i nakScUnsup).of hx
          refine .other (by simp [pdErrNone, pdErrReply])
            (trans_of Still hst hx'.still) (hx'.reply i ?_)
          rw [updPd_pd_same]
          exact hordu
        · next hver =>
          obtain ⟨_, x, hx, h⟩ := bind_ok.mp h
          obtain ⟨rfl, rfl⟩ := pure_ok.mp h
          unfold setReply at hx
          have hx' : Still _ x := frame_of_updPd hx fun _ => rfl
          obtain rfl := updPd_ok.mp hx
          refine .scrypt hid rfl (trans_of Still hst hx') ?_
            (by simpa using hact) ?_ ?_
          · rw [updPd_pd_same]
          · simp only [List.length_drop] at hlen
            omega
          · simpa [osdpVerifyCpCryptogram, cpCryptogramOf] using hver

/-- The command switch: by cases on the id. -/
theorem pdDecodeCases_step {i : Nat} {s t : Osdp} {payload : Bytes}
    {r : Option Int}
    (h : pdDecodeCases env run i (payloadId payload) (payload.drop 1) s
      = .ok r t)
    (hord : hsReply (s.pd i).replyId = false) :
    HandshakeStep env i s payload (r.getD pdErrReply) t := by
  by_cases hc : payloadId payload = cmdChlng
  · rw [hc] at h
    obtain ⟨ret, u, hd, h⟩ := bind_ok.mp h
    obtain ⟨rfl, rfl⟩ := pure_ok.mp h
    exact pdDecodeChlng_step hr hc hd hord
  · by_cases hs : payloadId payload = cmdScrypt
    · rw [hs] at h
      obtain ⟨ret, u, hd, h⟩ := bind_ok.mp h
      obtain ⟨rfl, rfl⟩ := pure_ok.mp h
      exact pdDecodeScrypt_step hs hd hord
    · have hH : Plain i s t := (keeps_pdDecodeCases hr i _
        (fun _ _ h => ⟨h.still, h.reply i⟩)
        (fun s n => plain_size i s n) hc hs).of h
      exact .other (fun e => e.2.elim hc hs) hH.still (hH.reply hord)

omit hr in
/-- A command that was not accepted and is then refused. -/
theorem HandshakeStep.refuse {i : Nat} {s t u : Osdp} {payload : Bytes}
    {ret : Int} {c : UInt8} (h : HandshakeStep env i s payload ret t)
    (hret : ret ≠ pdErrNone) (hn : replyWithNak i c t = .ok () u) :
    HandshakeStep env i s payload pdErrReply u := by
  have hn' := (keeps_replyWithNak (R := Handles) i c).of hn
  cases h with
  | challenge id hok => exact absurd hok hret
  | scrypt id hok => exact absurd hok hret
  | other hno still ord =>
    exact .other (by simp [pdErrNone, pdErrReply])
      (trans_of Still still hn'.still) (hn'.reply i ord)

/-- A whole command. -/
theorem pdDecodeCommand_step {i : Nat} {s t : Osdp} {payload : Bytes}
    {ret : Int} (h : pdDecodeCommand env run i payload s = .ok ret t) :
    HandshakeStep env i s payload ret t := by
  unfold pdDecodeCommand at h
  obtain ⟨_, u, hu, h⟩ := bind_ok.mp h
  obtain ⟨_, v, hv, h⟩ := bind_ok.mp h
  obtain ⟨p, w, hg, h⟩ := bind_ok.mp h
  obtain ⟨rfl, rfl⟩ := getPd_ok.mp hg
  have hu' : Handles s u := (keeps_replyWithNak i nakRecord).of hu
  have hv' : Still u v := frame_of_updPd hv fun _ => rfl
  have hnak : (v.pd i).replyId = replyNak ∧
      (v.pd i).flags.scActive = (s.pd i).flags.scActive := by
    obtain rfl := updPd_ok.mp hv
    obtain rfl := updPd_ok.mp hu
    simp only [updPd_pd_same]
    exact ⟨rfl, rfl⟩
  refine HandshakeStep.before ?_ (trans_of Still hu'.still hv') hnak.2
  have hord : hsReply (v.pd i).replyId = false := by rw [hnak.1]; rfl
  split at h
  · obtain ⟨_, w, hw, h⟩ := bind_ok.mp h
    obtain ⟨rfl, rfl⟩ := pure_ok.mp h
    have hw' := (keeps_setNakCode (R := Handles) i nakScCond).of hw
    exact .other (by simp [pdErrNone, pdErrReply]) hw'.still
      (hw'.reply i hord)
  · obtain ⟨r, w, hd, h⟩ := bind_ok.mp h
    have hstep := pdDecodeCases_step hr hd hord
    cases r with
    | none =>
      obtain ⟨_, x, hx, h⟩ := bind_ok.mp h
      obtain ⟨rfl, rfl⟩ := pure_ok.mp h
      exact hstep.refuse (by simp [pdErrNone, pdErrReply]) hx
    | some ret' =>
      dsimp only at h
      split at h
      · next hgen =>
        obtain ⟨_, x, hx, h⟩ := bind_ok.mp h
        obtain ⟨rfl, rfl⟩ := pure_ok.mp h
        refine hstep.refuse ?_ hx
        rw [Option.getD_some, hgen]
        simp [pdErrNone, pdErrGeneric]
      · obtain ⟨rfl, rfl⟩ := pure_ok.mp h
        exact hstep

end Decode

-- ============================================================= the build

section Build

variable {env : Env} {run : List ApiCall → OsdpM Unit}
variable (hr : ∀ calls, Keeps Quiet (run calls))

/-- The channel once session keys were derived on PD `p`. -/
abbrev keyedSc (env : Env) (p : OsdpPd) : OsdpSecureChannel :=
  computeSessionKeys env p.sessionKeyBase p.sc

/-- Deriving session keys stores them and says so. -/
theorem osdpComputeSessionKeys_ok {i : Nat} {s t : Osdp} {a : Unit}
    (h : osdpComputeSessionKeys env i s = .ok a t) :
    (t.pd i).sc = keyedSc env (s.pd i) ∧
      t.log = .sessionKeys i (s.pd i).flags.scUseScbkd
        (keyedSc env (s.pd i)) :: s.log := by
  unfold osdpComputeSessionKeys at h
  obtain ⟨_, u, hu, h⟩ := bind_ok.mp h
  obtain ⟨p, v, hg, h⟩ := bind_ok.mp h
  obtain ⟨rfl, rfl⟩ := getPd_ok.mp hg
  obtain rfl := updPd_ok.mp hu
  obtain rfl := observe_ok.mp h
  constructor <;> simp only [updPd_pd_same, updPd_log]

/-- Keys derived for a challenge the PD just drew its number for. -/
theorem hsInv_of_keyed {i : Nat} {s t : Osdp} {d r : Bytes} {k : Nat}
    {b : Bool} {key : Bytes} {sc : OsdpSecureChannel}
    (hi : FreshSessions env i s.log)
    (hc : handshakeOf i s.log = .challenged d)
    (hcp : sc.cpRandom = d) (hpr : sc.pdRandom = r)
    (hpd : (t.pd i).sc = computeSessionKeys env key sc)
    (hlog : t.log = .sessionKeys i b (computeSessionKeys env key sc) ::
      .random k r :: s.log) :
    HsInv env i t := by
  have hk : handshakeOf i t.log
      = .keyed d r (computeSessionKeys env key sc) := by
    rw [hlog, handshakeOf_cons, handshakeOf_cons, hc]
    simp [Handshake.next, Handshake.derive, computeSessionKeys, hcp, hpr]
  refine ⟨?_, fun d' r' sc' e => ?_⟩
  · rw [hlog]
    exact (hi.cons rfl).cons rfl
  · rw [hk] at e
    injection e with e₁ e₂ e₃
    subst e₁ e₂ e₃
    refine ⟨⟨hcp, hpr, key, ?_⟩, ?_⟩
    · rw [← hcp]
      rfl
    · unfold hsKeys
      rw [hpd]

/-- REPLY_CCRYPT keys the handshake it answers. -/
theorem hsInv_buildCcrypt {i : Nat} {s t : Osdp} {smb : Option Nat}
    {maxLen : Int} {body : Option Bytes}
    (h : buildCcrypt env i smb maxLen s = .ok body t)
    (hi : HsInv env i s)
    (hc : handshakeOf i s.log = .challenged (s.pd i).sc.cpRandom) :
    HsInv env i t := by
  unfold buildCcrypt at h
  cases smb with
  | none =>
    obtain ⟨-, rfl⟩ := pure_ok.mp h
    exact hi
  | some smb =>
    dsimp only at h
    split at h
    · obtain ⟨-, rfl⟩ := pure_ok.mp h
      exact hi
    · obtain ⟨r, u, hu, h⟩ := bind_ok.mp h
      obtain ⟨_, v, hv, h⟩ := bind_ok.mp h
      obtain ⟨_, w, hw, h⟩ := bind_ok.mp h
      obtain ⟨_, x, hx, h⟩ := bind_ok.mp h
      obtain ⟨p, y, hg, h⟩ := bind_ok.mp h
      obtain ⟨rfl, rfl⟩ := getPd_ok.mp hg
      obtain ⟨_, z, hz, h⟩ := bind_ok.mp h
      obtain ⟨-, rfl⟩ := pure_ok.mp h
      have hxs : Still w x := frame_of_updPd hx fun _ => rfl
      have hzs : StillReply x z := (keeps_writeBuf_tx _ _).of hz
      refine HsInv.still ?_ (trans_of Still hxs hzs.still)
      obtain ⟨hsc, hlog⟩ := osdpComputeSessionKeys_ok hw
      obtain rfl := updPd_ok.mp hv
      cases hu
      simp only [updPd_pd_same, updPd_log] at hsc hlog
      refine hsInv_of_keyed hi.fresh hc ?_ ?_ hsc hlog <;> rfl

/-- REPLY_RMAC_I opens the session the handshake is for. -/
theorem hsInv_buildRmacI {i : Nat} {s t : Osdp} {smb : Option Nat}
    {maxLen : Int} {body : Option Bytes}
    (hr : ∀ calls, Keeps Quiet (run calls))
    (h : buildRmacI env run i smb maxLen s = .ok body t)
    (hi : HsInv env i s) (hm : ChallengeMet env (handshakeOf i s.log)) :
    HsInv env i t := by
  unfold buildRmacI at h
  cases smb with
  | none =>
    obtain ⟨-, rfl⟩ := pure_ok.mp h
    exact hi
  | some smb =>
    dsimp only at h
    split at h
    · obtain ⟨-, rfl⟩ := pure_ok.mp h
      exact hi
    · obtain ⟨_, u, hu, h⟩ := bind_ok.mp h
      obtain ⟨p, v, hg, h⟩ := bind_ok.mp h
      obtain ⟨rfl, rfl⟩ := getPd_ok.mp hg
      obtain ⟨_, w, hw, h⟩ := bind_ok.mp h
      obtain ⟨_, x, hx, h⟩ := bind_ok.mp h
      obtain ⟨_, y, hy, h⟩ := bind_ok.mp h
      obtain ⟨now, _, hn, h⟩ := bind_ok.mp h
      cases hn
      obtain ⟨_, z, hz, h⟩ := bind_ok.mp h
      obtain ⟨-, rfl⟩ := pure_ok.mp h
      have hsu : Still s u := frame_of_updPd hu fun _ => rfl
      have huw : StillReply u w := (keeps_writeBuf_tx _ _).of hw
      have hsw : Still s w := trans_of Still hsu huw.still
      have hxy : StillReply x y := ((keeps_notifyScStatus hr i).of hy).stillReply
      have hyz : Still y z := frame_of_updPd hz fun _ => rfl
      refine HsInv.still ?_ (trans_of Still hxy.still hyz)
      have hiw := hi.still hsw
      rw [← hsw.log.handshakeOf i] at hm
      obtain ⟨_, w', hw', hx⟩ := bind_ok.mp hx
      have hww : Still w w' := frame_of_updPd hw' fun _ => rfl
      obtain rfl := observe_ok.mp hx
      have hiw' := hiw.still hww
      rw [← hww.log.handshakeOf i] at hm
      refine ⟨⟨fun _ => hm, hiw'.fresh⟩, fun d r sc e => ?_⟩
      have hidle : handshakeOf i (.scActivated i :: w'.log) = .idle := by
        simp [handshakeOf, Handshake.next]
      rw [hidle] at e
      cases e

include hr

/-- The data block of a reply. -/
theorem hsInv_pdBuildCases {i : Nat} {s t : Osdp} {ev : Option OsdpEvent}
    {smb : Option Nat} {maxLen : Int} {body : Option Bytes} {id : Nat}
    (h : pdBuildCases env run i id ev smb maxLen s = .ok body t)
    (hid : (s.pd i).replyId = id) (hi : HsInv env i s)
    (hm : ReplyMatches env i s) : HsInv env i t := by
  cases hh : hsReply id with
  | false =>
    have hp := (packs_pdBuildCases hr i ev smb maxLen hh).of h
    exact hi.still hp.stillReply.still
  | true =>
    have hcase : id = replyCcrypt ∨ id = replyRmacI := by
      simpa [osdpPhyInScHandshake] using hh
    rcases hcase with rfl | rfl
    · obtain ⟨p, u, hg, h⟩ := bind_ok.mp h
      obtain ⟨rfl, rfl⟩ := getPd_ok.mp hg
      exact hsInv_buildCcrypt h hi (hm.ccrypt hid)
    · obtain ⟨p, u, hg, h⟩ := bind_ok.mp h
      obtain ⟨rfl, rfl⟩ := getPd_ok.mp hg
      exact hsInv_buildRmacI hr h hi (hm.rmacI hid)

/-- The reply without its header. -/
theorem hsInv_pdBuildReply {i size : Nat} {s t : Osdp} {len : Int}
    (h : pdBuildReply env run i size s = .ok len t)
    (hi : HsInv env i s) (hm : ReplyMatches env i s) : HsInv env i t := by
  unfold pdBuildReply at h
  obtain ⟨p, u, hg, h⟩ := bind_ok.mp h
  obtain ⟨rfl, rfl⟩ := getPd_ok.mp hg
  obtain ⟨_, u, hu, h⟩ := bind_ok.mp h
  have hsu : StillReply s u := (keeps_observe rfl).of hu
  obtain rfl := observe_ok.mp hu
  unfold pdBuildBody at h
  obtain ⟨buf, v, hb, h⟩ := bind_ok.mp h
  cases hb
  split at h
  · obtain ⟨-, rfl⟩ := pure_ok.mp h
    exact hi.still hsu.still
  · obtain ⟨_, v, hv, h⟩ := bind_ok.mp h
    have huv : StillReply _ v := (keeps_writeBuf_tx _ _).of hv
    have hsv := trans_of StillReply hsu huv
    obtain ⟨body, w, hw, h⟩ := bind_ok.mp h
    have hwt : Packs w t := (packs_pdFinishReply hr i _ _ _ body).of h
    refine HsInv.still ?_ hwt.stillReply.still
    unfold pdBuildData at hw
    split at hw
    · obtain ⟨-, rfl⟩ := pure_ok.mp hw
      exact hi.still hsv.still
    · have hid := congrArg Prod.snd (hsv.pd i)
      exact hsInv_pdBuildCases hr hw hid (hi.still hsv.still) (hm.still hsv)

omit hr in
theorem stillReply_pdStage (i len : Nat) : Keeps StillReply (pdStage i len) :=
  keeps_updPd fun _ => rfl

omit hr in
theorem stillReply_pdStaged (i len : Nat) :
    Keeps StillReply (pdStaged i len) :=
  keeps_updPd fun _ => rfl

/-- The whole packet. -/
theorem hsInv_pdBuildReplyPacket {i : Nat} {s t : Osdp} {ret : Int}
    (h : pdBuildReplyPacket env run i s = .ok ret t)
    (hi : HsInv env i s) (hm : ReplyMatches env i s) : HsInv env i t := by
  unfold pdBuildReplyPacket at h
  obtain ⟨p, u, hg, h⟩ := bind_ok.mp h
  obtain ⟨rfl, rfl⟩ := getPd_ok.mp hg
  obtain ⟨_, u, hu, h⟩ := bind_ok.mp h
  have hsu : StillReply s u := frame_of_updPd hu fun _ => rfl
  obtain ⟨hdr, v, hv, h⟩ := bind_ok.mp h
  have huv : StillReply u v := (keeps_osdpPhyPacketInit i _).of hv
  have hsv := trans_of StillReply hsu huv
  split at h
  · obtain ⟨-, rfl⟩ := pure_ok.mp h
    exact hi.still hsv.still
  · obtain ⟨_, w, hw, h⟩ := bind_ok.mp h
    have hsw := trans_of StillReply hsv ((stillReply_pdStage i _).of hw)
    obtain ⟨len, x, hx, h⟩ := bind_ok.mp h
    have hix := hsInv_pdBuildReply hr hx (hi.still hsw.still) (hm.still hsw)
    have hrest : Keeps StillReply (do
        if len ≤ 0 then
          return pdErrGeneric
        let total := hdr.toNat + len.toNat
        pdStage i total
        let done ← osdpPhyFinalizePacket env i total (getTxBufSize (s.pd i))
        if done < 0 then
          return pdErrGeneric
        pdStaged i done.toNat
        return pdErrNone) := by
      have hst := stillReply_pdStage
      have hsd := stillReply_pdStaged
      grind
    exact hix.still (hrest.of h).still

-- ================================================================ sending

/-- What a sent reply commits is no part of a handshake. -/
@[grind ←]
theorem still_pdCommit (i : Nat) : Keeps Still (pdCommit env run i) := by
  have hd : Keeps Still (pdScDeactivate env run i) :=
    (ages_pdScDeactivate hr i).mono fun _ _ h => Ages.stillReply h |>.still
  have hc (cmd : OsdpCmd) : Keeps Still (doCommandCallback env run i cmd) :=
    (handles_doCommandCallback hr i cmd).mono fun _ _ h => Handles.still h
  unfold pdCommit pdCommitKeyset pdCommitComset
  grind

@[grind ←]
theorem still_pdCompleteActive (i : Nat) (st : CompletionStatus) :
    Keeps Still (pdCompleteActive env run i st) :=
  (packs_pdCompleteActive hr i st).mono fun _ _ h =>
    Packs.stillReply h |>.still

omit hr in
@[grind ←]
theorem still_osdpPhyStateReset (i : Nat) :
    Keeps Still (osdpPhyStateReset env i false) :=
  (receives_osdpPhyStateReset i).mono fun _ _ h => Receives.still h

@[grind ←]
theorem still_pdSendStage (i : Nat) :
    Keeps Still (pdSendStage env run i) := by
  have hs : Keeps Still (pdSendReply env i) :=
    (sends_pdSendReply i).mono fun _ _ h => Sends.stillReply h |>.still
  have hp : Keeps Still (osdpPhyProgressSequence i) :=
    keeps_updPd fun _ => rfl
  unfold pdSendStage
  grind

@[grind ←]
theorem still_pdErrorReset (i : Nat) :
    Keeps Still (pdErrorReset env run i) := by
  have hd : Keeps Still (pdScDeactivate env run i) :=
    (ages_pdScDeactivate hr i).mono fun _ _ h => Ages.stillReply h |>.still
  unfold pdErrorReset
  grind

/-- A reply due under the invariant. -/
theorem hsInv_pdReplyStage {i : Nat} {s t : Osdp} {ret : Int}
    (h : pdReplyStage env run i ret s = .ok () t)
    (hi : HsInv env i s) (hm : ReplyMatches env i s) : HsInv env i t := by
  unfold pdReplyStage at h
  obtain ⟨_, u, hu, h⟩ := bind_ok.mp h
  obtain ⟨_, v, hv, h⟩ := bind_ok.mp h
  have hsu := ((ages_pdMarkOnline hr i).of hu).stillReply
  have hsv := trans_of StillReply hsu
    ((ages_pdTouchSession i ret).of hv).stillReply
  obtain ⟨p, w, hg, h⟩ := bind_ok.mp h
  obtain ⟨rfl, rfl⟩ := getPd_ok.mp hg
  have hiv := hi.still hsv.still
  split at h
  · exact hiv.still ((still_pdSendStage hr i).of h)
  · obtain ⟨built, w, hw, h⟩ := bind_ok.mp h
    have hiw := hsInv_pdBuildReplyPacket hr hw hiv (hm.still hsv)
    split at h
    · exact hiw.still ((still_pdErrorReset hr i).of h)
    · exact hiw.still ((still_pdSendStage hr i).of h)

end Build

-- ============================================================ the refresh

section Refresh

variable {env : Env} {run : List ApiCall → OsdpM Unit}

/-- A frame that aliases a NAK is in hand while a handshake reply is left
over. -/
def aliasMeetsHandshake (env : Env) (i : Nat) (u : Osdp) : Bool :=
  aliasesNack env (u.pd i) (u.frameBuf i) (u.frameLen i) &&
    hsReply (u.pd i).replyId

/-- The PD holds the keys of an open challenge. -/
def Handshake.isKeyed : Handshake → Bool
  | .keyed .. => true
  | _ => false

/-- With no session up, a SCRYPT carries the cryptogram the channel's
contents call for although no challenge is open. -/
def unsolicitedScrypt (env : Env) (i : Nat) (payload : Bytes) (v : Osdp) :
    Bool :=
  payloadId payload == cmdScrypt && payload.length == 17 &&
    !(v.pd i).flags.scActive &&
    payload.drop 1 == cpCryptogramOf env (v.pd i).sc &&
    !(handshakeOf i v.log).isKeyed

/-- A refresh from `s` meets neither of the two. -/
def freshStep (env : Env) (run : List ApiCall → OsdpM Unit) (i : Nat)
    (s : Osdp) : Bool :=
  (receivedFrame env run i s).all (!aliasMeetsHandshake env i ·) &&
    (receivedPayload env run i s).all fun r =>
      !unsolicitedScrypt env i r.1 r.2

/-- A frame search is answered over a frame check only when that left a
NAK. -/
theorem answered_pdErrorOfPhy {err : Int} (h : answered (pdErrorOfPhy err))
    (hne : err ≠ errPktNone) : err = errPktNack := by
  unfold answered pdErrorOfPhy at h
  simp only [pdErrNone, pdErrReply, pdErrNoData, pdErrWait, pdErrIgnore,
    pdErrGeneric, errPktNone, errPktNack, errPktNoData, errPktWait,
    errPktSkip, errPktFmt] at h hne ⊢
  by_contra hn
  repeat' split at h
  all_goals omega

/-- And over a decode only when that said NAK. -/
theorem answered_pdErrorOfDecode {len : Int}
    (h : answered (pdErrorOfDecode len)) : len = errPktNack := by
  unfold answered pdErrorOfDecode at h
  by_contra hn
  rw [if_neg hn] at h
  simp [pdErrNone, pdErrReply, pdErrGeneric] at h

/-- A frame check that says NAK leaves one. -/
theorem checkPacket_nack {i : Nat} {s t : Osdp}
    (h : osdpPhyCheckPacket env i s = .ok errPktNack t) :
    (t.pd i).replyId = replyNak := by
  obtain ⟨u, -, hc⟩ := ends_osdpPhyCheckPacket i _ _ _ h
  rw [SequenceChecked, if_pos rfl] at hc
  rw [hc, updPd_pd_same]
  rfl

theorem isKeyed_iff {h : Handshake} :
    h.isKeyed = true ↔ ∃ d r sc, h = .keyed d r sc := by
  constructor
  · intro e
    cases h with
    | keyed d r sc => exact ⟨d, r, sc, rfl⟩
    | _ => cases e
  · rintro ⟨d, r, sc, rfl⟩
    rfl

/-- The verdict on a command, seen by the monitor. -/
theorem hsInv_verdict {i : Nat} {s t : Osdp} {payload : Bytes} {ret : Int}
    (hstep : HandshakeStep env i s payload ret t) (hi : HsInv env i s)
    (hk : payloadId payload = cmdScrypt → payload.length = 17 →
      (s.pd i).flags.scActive = false →
      payload.drop 1 = cpCryptogramOf env (s.pd i).sc →
      (handshakeOf i s.log).isKeyed = true) :
    HsInv env i { t with log := .verdict i payload ret :: t.log } ∧
      ReplyMatches env i
        { t with log := .verdict i payload ret :: t.log } := by
  cases hstep with
  | challenge hid hret log reply hcp =>
    have hh : handshakeOf i (.verdict i payload ret :: t.log)
        = .challenged (payload.drop 1) := by
      simp [handshakeOf_cons, Handshake.next, hid, hret]
    refine ⟨⟨(log.freshSessions hi.fresh).cons rfl, fun d r sc e => ?_⟩,
      ⟨fun _ => ?_, fun e => ?_⟩⟩
    · rw [hh] at e
      cases e
    · rw [hh, hcp]
    · rw [reply] at e
      cases e
  | scrypt hid hret still reply hact hlen hmet =>
    have hkeys := still.pd i
    have hsc : cpCryptogramOf env (t.pd i).sc
        = cpCryptogramOf env (s.pd i).sc := by
      obtain ⟨h₁, h₂⟩ := Prod.mk.inj hkeys
      obtain ⟨h₂, h₃⟩ := Prod.mk.inj h₂
      simp only [cpCryptogramOf, h₁, h₂, h₃]
    rw [hsc] at hmet
    obtain ⟨d, r, sc, hkeyed⟩ := isKeyed_iff.mp (hk hid hlen hact hmet)
    obtain ⟨hfor, hpd⟩ := hi.keyed d r sc hkeyed
    have hcrypt : payload.drop 1 = cpCryptogramOf env sc := by
      obtain ⟨h₁, h₂⟩ := Prod.mk.inj hpd
      obtain ⟨h₂, h₃⟩ := Prod.mk.inj h₂
      rw [hmet]
      simp only [cpCryptogramOf, h₁, h₂, h₃]
    have hh : handshakeOf i (.verdict i payload ret :: t.log)
        = .answered d r sc (payload.drop 1) := by
      rw [handshakeOf_cons, still.log.handshakeOf i, hkeyed]
      simp [Handshake.next, hid, hret, Handshake.answer]
    refine ⟨⟨?_, fun d r sc e => ?_⟩, ⟨fun e => ?_, fun _ => ?_⟩⟩
    · exact ((still.log.mono fun _ => opensNone_of_skipsHs).freshSessions
        hi.fresh).cons rfl
    · rw [hh] at e
      cases e
    · rw [reply] at e
      cases e
    · exact ⟨d, r, sc, hfor, by rw [hh, hcrypt]⟩
  | other hno still ord =>
    have hit := hi.still still
    have hh : handshakeOf i (.verdict i payload ret :: t.log)
        = (handshakeOf i t.log).pass := by
      rw [handshakeOf_cons]
      simp only [Handshake.next]
      rw [if_neg (by simp), if_neg (fun e => hno ⟨e.1, .inl e.2⟩),
        if_neg (fun e => hno ⟨e.1, .inr e.2⟩)]
    refine ⟨⟨hit.fresh.cons rfl, fun d r sc e => ?_⟩, .of_ordinary ord⟩
    rw [hh] at e
    refine hit.keyed d r sc ?_
    cases hs : handshakeOf i t.log <;> rw [hs] at e <;>
      first | exact e | cases e

variable (hr : ∀ calls, Keeps Quiet (run calls))
include hr

/-- Looking for a frame: the invariant holds, and an answer is due only
where it matches. -/
theorem hsInv_received {i : Nat} {s t : Osdp} {ret : Int}
    (h : Received env run i s ret t) (hi : HsInv env i s)
    (halias : ∀ u, osdpPhyCheckPacket env i s = .ok errPktNone u →
      aliasMeetsHandshake env i u = false)
    (hscrypt : ∀ payload u v len,
      osdpPhyCheckPacket env i s = .ok errPktNone u → 0 < len →
      osdpPhyDecodePacket env i u = .ok (len, payload) v →
      unsolicitedScrypt env i payload v = false) :
    HsInv env i t ∧ (answered ret → ReplyMatches env i t) := by
  cases h with
  | @none err u _ hne check reset skip =>
    have hsu := ((receives_osdpPhyCheckPacket i).of check).still
    refine ⟨?_, fun ha => ?_⟩
    · rcases reset with rfl | hreset
      · exact hi.still hsu
      · exact (hi.still hsu).still ((still_osdpPhyStateReset i).of hreset)
    · have hnack := answered_pdErrorOfPhy ha hne
      have htu : t = u := by
        by_contra hn
        rw [hnack] at skip
        exact absurd (skip hn) (by decide)
      subst htu hnack
      refine .of_ordinary ?_
      rw [checkPacket_nack check]
      rfl
  | @refused len payload u _ check hlen decode =>
    have hsu := ((receives_osdpPhyCheckPacket i).of check).still
    have hut := ((receives_osdpPhyDecodePacket i).of decode).still
    refine ⟨(hi.still hsu).still hut, fun ha => .of_ordinary ?_⟩
    obtain ⟨r, hr, hrl, -, htp, -⟩ := osdpPhyDecodePacket_ok decode
    have hnack := decode_nack hr (hrl.trans (answered_pdErrorOfDecode ha))
    rw [htp]
    split at hnack
    · next hal =>
      rw [hnack.1]
      have := halias u check
      unfold aliasMeetsHandshake at this
      rwa [hal, Bool.true_and] at this
    · rw [hnack]
      rfl
  | @decoded len _ payload u v w check hlen decode command =>
    have hsu := ((receives_osdpPhyCheckPacket i).of check).still
    have huv := ((receives_osdpPhyDecodePacket i).of decode).still
    have hiv := (hi.still hsu).still huv
    have hvo : Still v
        { v with
          log := .decoded i payload (v.pd i).flags.scActive :: v.log } :=
      ⟨fun _ => rfl, rfl, LogExt.cons rfl⟩
    have hv := hsInv_verdict (pdDecodeCommand_step hr command)
      (hiv.still hvo) fun hid hl hact hmet => by
        have hno := hscrypt payload u v len check hlen decode
        rw [hvo.log.handshakeOf i]
        simp only [unsolicitedScrypt, hid, hl] at hno hact hmet ⊢
        simpa [hact, hmet] using hno
    exact ⟨hv.1, fun _ => hv.2⟩

/-- One refresh. -/
theorem hsInv_osdpPdUpdate {i : Nat} {s t : Osdp}
    (h : osdpPdUpdate env run i s = .ok () t) (hi : HsInv env i s)
    (hf : freshStep env run i s = true) : HsInv env i t := by
  obtain ⟨hnoAlias, hnoScrypt⟩ := Bool.and_eq_true_iff.mp hf
  obtain ⟨u, hu, hserved⟩ := refresh_cases h
  have hage : Keeps Ages (do
      pdExpireSession env run i
      pdExpireLink env run i) :=
    .bind (ages_pdExpireSession hr i) fun _ => ages_pdExpireLink hr i
  have hiu := hi.still (hage.of hu).stillReply.still
  cases hserved with
  | parked hp send => exact hiu.still ((still_pdSendStage hr i).of send)
  | @received v w ret hp listen got rest =>
    have huv : StillReply u v := by
      have hk : Keeps StillReply (pdListen i) := by
        unfold pdListen
        grind
      exact hk.of listen
    obtain ⟨hiw, hmw⟩ := hsInv_received hr got (hiu.still huv.still)
      (fun x hx => by
        rw [receivedFrame_of hu hp listen hx] at hnoAlias
        simpa using hnoAlias)
      fun payload x y len hx hlen hy => by
        rw [receivedPayload_of (receivedFrame_of hu hp listen hx) hlen hy]
          at hnoScrypt
        simpa using hnoScrypt
    rcases rest with ⟨-, rfl⟩ | ⟨-, hreset⟩ | ⟨ha, hreply⟩
    · exact hiw
    · exact hiw.still ((still_pdErrorReset hr i).of hreset)
    · exact hsInv_pdReplyStage hr hreply hiw (hmw ha)

end Refresh

-- ================================================================ the run

section Run

variable {env : Env} {depth : Nat}

/-- What a run must not meet in any of its refreshes. -/
def freshInput (env : Env) (depth : Nat) (s : Osdp) : PdInput → Bool
  | .refresh now rx =>
    s.tearingDown || s.running ||
      freshStep env (pdRunCalls env depth) 0 (s.arrive now rx).enter
  | _ => true

/-- Neither the PD nor the history is different. -/
theorem HsInv.congr {s t : Osdp} {i : Nat} (h : HsInv env i s)
    (hpd : t.pd = s.pd) (hlog : t.log = s.log) : HsInv env i t :=
  ⟨hlog ▸ h.fresh, fun d r sc => hlog ▸ hpd ▸ h.keyed d r sc⟩

/-- The invariant is carried through every run that stays clear of the
two. -/
theorem carries_hsInv :
    Carries env depth (freshInput env depth) (HsInv env 0)
      (FreshSessions env 0) where
  congr _ _ hpd hlog _ h := h.congr hpd hlog
  quiet _ _ hq h := h.still hq.stillReply.still
  configures _ _ hc h :=
    h.still (hc.view hsKeys (fun _ => rfl) fun _ e => by cases e)
  refresh s t now rx htd hrun hok hw h := by
    have hstep : freshStep env (pdRunCalls env depth) 0
        (s.begin now rx) = true := by
      simpa [freshInput, htd, hrun] using hok
    exact hsInv_osdpPdUpdate (quiet_pdRunCalls env depth) hw h hstep
  history _ h := h.fresh
  calls l log hl h := h.append fun o ho past e => by
    have := hl o ho
    rw [e] at this
    cases this

/-- Where a run begins nothing has happened. -/
theorem hsInv_setup {info : PdInfo} {s : Osdp}
    (h : osdpPdSetup env info = some s) : HsInv env 0 s := by
  have hlog := osdpPdSetup_log h
  refine ⟨?_, fun d r sc e => ?_⟩
  · rw [hlog]
    exact trivial
  · rw [hlog] at e
    cases e

end Run

-- =============================================================== examples

/-- A PD with a key of its own. -/
def keyedPd : PdInfo :=
  { address := 1, scbk := some (writeBe 16 0xABABABABABABABABABABABABABABABAB) }

/-- The AES blocks of one handshake with `keyedPd`: the challenge is
B0..B7, the PD draws 1..8. -/
def handshakeEnv : Env :=
  plainEnv
    (knownCipher
      [.of 0xABABABABABABABABABABABABABABABAB
        0x0182B0B1B2B3B4B50000000000000000
        0xF11736A4373ED62385E3A943E8F4E9D6,
       .of 0xABABABABABABABABABABABABABABABAB
        0x0101B0B1B2B3B4B50000000000000000
        0xE46C44097C061A1C1896AFD259438AF5,
       .of 0xABABABABABABABABABABABABABABABAB
        0x0102B0B1B2B3B4B50000000000000000
        0xBC4C92B276298262E5E9C8D2758CE576,
       .of 0xF11736A4373ED62385E3A943E8F4E9D6
        0xB0B1B2B3B4B5B6B70102030405060708
        0x363148542500DEAB6175F8EEAA615032,
       .of 0xF11736A4373ED62385E3A943E8F4E9D6
        0x0102030405060708B0B1B2B3B4B5B6B7
        0xB715A474B0FCD9D2B97A4A609D596D6D,
       .of 0xE46C44097C061A1C1896AFD259438AF5
        0xB715A474B0FCD9D2B97A4A609D596D6D
        0x0D95B8D1A4A1928FBCE2C29A8FF8CDDF,
       .of 0xBC4C92B276298262E5E9C8D2758CE576
        0x0D95B8D1A4A1928FBCE2C29A8FF8CDDF
        0xB51EFA1777DEC4AE2434B2BC642A0FF3])
    fun n => UInt8.ofNat (n + 1)

/-- CHLNG, and the SCRYPT that answers it. -/
def handshakeInputs : List PdInput :=
  [.refresh 0 (writeBe 19 0x530113000C03110176B0B1B2B3B4B5B6B733F5),
   .refresh 1 (writeBe 27
    0x53011B000D03130177B715A474B0FCD9D2B97A4A609D596D6DC819)]

end LibOsdp
