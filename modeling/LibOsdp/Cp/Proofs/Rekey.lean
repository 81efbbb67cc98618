/-
What becomes of a session whose reply fails the secure channel.

# The two routes

A frame is checked twice on its way in.  `osdp_phy_check_packet` looks at
the header and the check bytes, `osdp_phy_decode_packet` at the security
block, the MAC and the padding.  Both say "a NAK was left behind" in one
code, and `cp_process_reply` asks for a new handshake on a NAK that is
about the session: but it asks the first function only.  What the second
one refuses comes back as a length that is not positive, and is a
failure like any other.

# The outcome

So every refusal of the secure channel fails the exchange
(`refused_exchange`), the failure is not one the link survives
(`settle_refused`), and the table sends ONLINE to OFFLINE.  No request
for a new handshake can be pending meanwhile: with the channel up there
is none in any reachable state (`HsCtl.restart`).
-/
import LibOsdp.Cp.Proofs.Handshake

namespace LibOsdp

open Lib

-- =========================================================== the refusals

section Refusal

variable {env : Env} {p : OsdpPd} {pkt : Bytes} {frameLen : Nat}

/-- The data block cannot be decrypted: its length is no multiple of the
block size, or it is not padded as it has to be. -/
def badData (env : Env) (p : OsdpPd) (pkt : Bytes) (frameLen : Nat) :
    Bool :=
  let q := afterMac env p pkt frameLen
  let n := payloadRoom pkt frameLen - 4 - 1
  n.tmod 16 != 0 ||
    (osdpDecryptData env q.flags.allowEmptyEdb q.flags.pdMode q.sc
      ((pkt.drop (pktHdrLen + scbLen pkt + 1)).take n.toNat)).isNone

/-- The ways a reply fails a session that is up. -/
inductive ScRefused (env : Env) (p : OsdpPd) (pkt : Bytes)
    (frameLen : Nat) : Prop
  /-- in plain text, where that is not tolerated -/
  | plain (block : ctrlScb (pktControl pkt) = false)
      (up : p.flags.scActive = true) (ack : plainKeysetAck p pkt = false)
  /-- a security block of no known type -/
  | blockType (block : ctrlScb (pktControl pkt) = true)
      (type : (pktData pkt 1).toNat < scs11 ∨ scs18 < (pktData pkt 1).toNat)
  /-- a MAC that does not check out -/
  | mac (taken : frameRefusal p pkt = none)
      (carries : carriesMac p pkt = true)
      (bad : macMatches env p pkt frameLen = false)
  /-- data that does not decrypt -/
  | data (taken : frameRefusal p pkt = none)
      (carries : carriesMac p pkt = true)
      (good : macMatches env p pkt frameLen = true)
      (sealed : encryptedType (pktData pkt 1).toNat = true)
      (bad : badData env p pkt frameLen = true)

theorem decodeDropSc_refused (q : OsdpPd) (pkt' : Bytes) :
    (decodeDropSc q pkt').len = errPktNack ∧
      (decodeDropSc q pkt').pd.replyId = replyNak := ⟨rfl, rfl⟩

/-- Data that does not decrypt is refused. -/
theorem decodeDecrypt_bad {q : OsdpPd} {off : Nat} {len : Int}
    {r : DecodeResult}
    (hbad : (len - 1).tmod 16 ≠ 0 ∨
      osdpDecryptData env q.flags.allowEmptyEdb q.flags.pdMode q.sc
        ((pkt.drop (off + 1)).take (len - 1).toNat) = none)
    (h : decodeDecrypt env q pkt off len = .ok r) :
    r.len = errPktNack ∧ r.pd.replyId = replyNak := by
  unfold decodeDecrypt at h
  by_cases hmod : (len - 1).tmod 16 = 0
  · rw [if_neg (not_not.mpr hmod)] at h
    have hnone := hbad.resolve_left (not_not.mpr hmod)
    by_cases hneg : len - 1 < 0
    · rw [if_pos hneg] at h
      cases h
    · rw [if_neg hneg] at h
      simp only [hnone] at h
      cases h
      exact decodeDropSc_refused _ _
  · rw [if_pos hmod] at h
    cases h
    exact decodeDropSc_refused _ _

/-- Each of them leaves a NAK behind and no payload. -/
theorem ScRefused.decode {r : DecodeResult}
    (h : ScRefused env p pkt frameLen)
    (hr : phyDecode env p pkt frameLen = .ok r) :
    r.len = errPktNack ∧ r.pd.replyId = replyNak := by
  unfold phyDecode at hr
  have hcode (code : UInt8) (hc : frameRefusal p pkt = some code) :
      r.len = errPktNack ∧ r.pd.replyId = replyNak := by
    rw [hc] at hr
    cases hr
    exact ⟨rfl, rfl⟩
  have hmaced (taken : frameRefusal p pkt = none)
      (carries : carriesMac p pkt = true) :
      decodeAccept env (takeSelector p pkt) pkt frameLen
        (pktHdrLen + scbLen pkt) (payloadRoom pkt frameLen) true = .ok r := by
    rw [taken, carries] at hr
    exact hr
  cases h with
  | plain block up ack =>
    refine hcode nakScCond ?_
    simp [frameRefusal, block, up, ack]
  | blockType block type =>
    by_cases hsup : p.flags.pdMode = true ∧ ¬ p.scIsCapable = true
    · refine hcode nakScUnsup ?_
      simp [frameRefusal, block, hsup]
    · refine hcode nakScCond ?_
      unfold frameRefusal
      simp only [block, if_true, if_neg hsup, if_pos type]
  | mac taken carries bad =>
    have hacc := hmaced taken carries
    simp only [decodeAccept, macMatches_takeSelector, bad, Bool.not_true,
      Bool.not_false, Bool.false_eq_true, if_false, if_true] at hacc
    cases hacc
    exact decodeDropSc_refused _ _
  | data taken carries good hsealed bad =>
    have hacc := hmaced taken carries
    simp only [decodeAccept, macMatches_takeSelector, good, hsealed,
      Bool.not_true, Bool.false_eq_true, if_false, if_true] at hacc
    refine decodeDecrypt_bad ?_ hacc
    unfold badData at bad
    simp only [Bool.or_eq_true, bne_iff_ne, Option.isNone_iff_eq_none] at bad
    exact bad

end Refusal

-- =========================================================== the exchange

section Exchange

variable {env : Env} {depth i : Nat} {s t w : Osdp} {err : Int}

/-- A refused frame goes no further than the decoder. -/
theorem processFrame_refused {rc : Int}
    (href : ScRefused env (w.pd i) (w.frameBuf i) (w.frameLen i))
    (h : cpProcessFrame env (cpRunCalls env depth) i w = .ok rc t) :
    rc = cpErrGeneric ∧ (t.pd i).replyId = replyNak ∧ t.log = w.log := by
  obtain ⟨⟨len, payload⟩, u, hu, h⟩ := bind_ok.mp h
  obtain ⟨r, hr, hlen, -, hpd, -, hlog⟩ := osdpPhyDecodePacket_ok hu
  obtain ⟨hnack, hreply⟩ := href.decode hr
  have hneg : len ≤ 0 := by
    rw [← hlen, hnack]
    decide
  simp only [if_pos hneg] at h
  obtain ⟨rfl, rfl⟩ := pure_ok.mp h
  exact ⟨rfl, by rw [hpd, hreply], hlog⟩

/-- It fails the exchange, and nothing is said of the reply. -/
theorem refused_exchange (hphy : (s.pd i).phyState = .replyWait)
    (hw : osdpPhyCheckPacket env i s = .ok errPktNone w)
    (href : ScRefused env (w.pd i) (w.frameBuf i) (w.frameLen i))
    (h : cpPhyStateUpdate env (cpRunCalls env depth) i s = .ok err t) :
    err = cpErrGeneric ∧ (t.pd i).phyState = .err ∧
      (t.pd i).replyId = replyNak ∧ t.log = w.log := by
  obtain ⟨p, v, hp, h⟩ := bind_ok.mp h
  obtain ⟨rfl, rfl⟩ := getPd_ok.mp hp
  rw [hphy] at h
  obtain ⟨rc, u, hu, h⟩ := bind_ok.mp h
  obtain ⟨_, v, hv, h⟩ := bind_ok.mp h
  obtain ⟨code, w', hw', hu⟩ := bind_ok.mp hu
  obtain ⟨rfl, rfl⟩ : code = errPktNone ∧ w' = w := by
    rw [hw] at hw'
    cases hw'
    exact ⟨rfl, rfl⟩
  rw [if_pos rfl] at hu
  obtain ⟨rfl, hnak, hlog⟩ := processFrame_refused href hu
  obtain ⟨-, hack⟩ := phyAcknowledge_ok hv
  have hjudge : cpPhyFail i v = .ok err t := by
    obtain ⟨p, v', hp, h⟩ := bind_ok.mp h
    obtain ⟨rfl, rfl⟩ := getPd_ok.mp hp
    have hends : cpReplyEnds (v.pd i) cpErrGeneric = false := rfl
    rw [hends] at h
    exact h
  obtain ⟨rfl, hstate, hfail⟩ := phyFail_ok hjudge
  exact ⟨rfl, hstate, (hfail.reply.trans hack.reply).trans hnak,
    (hfail.log.trans hack.log).trans hlog⟩

/-- A NAK on a link that failed is no soft failure. -/
theorem settle_refused {err' : Int} (hon : (s.pd i).state = .online)
    (hphy : (s.pd i).phyState = .err)
    (hnak : (s.pd i).replyId = replyNak)
    (h : cpSettle env (cpRunCalls env depth) i err s = .ok err' t) :
    err' = cpErrGeneric := by
  obtain ⟨b, u, hu, hrest⟩ := bind_ok.mp h
  have hcheck : b = false ∧ u = s := by
    obtain ⟨p, v, hp, hu⟩ := bind_ok.mp hu
    obtain ⟨rfl, rfl⟩ := getPd_ok.mp hp
    rw [hon] at hu
    obtain ⟨p, v, hp, hu⟩ := bind_ok.mp hu
    obtain ⟨rfl, rfl⟩ := getPd_ok.mp hp
    have hkey : ¬ ((s.pd i).replyId = replyAck ∧
        (s.pd i).cmdId = cmdKeyset) := by
      rw [hnak]
      exact fun e => absurd e.1 (by decide)
    rw [if_neg hkey] at hu
    obtain ⟨rfl, rfl⟩ := pure_ok.mp hu
    refine ⟨?_, rfl⟩
    simp [onlineResponseOk, hnak]
  obtain ⟨rfl, rfl⟩ := hcheck
  obtain ⟨_, v, hv, hrest⟩ := bind_ok.mp hrest
  have hcmd : SameCtl i u v := (sameCtl_cpSettleCommand false).of hv
  have hphy : (v.pd i).phyState = .err :=
    (congrArg PdCtl.phyState hcmd.steers.ctl).trans hphy
  rw [if_neg (by decide)] at hrest
  obtain ⟨e, w, hw, hrest⟩ := bind_ok.mp hrest
  obtain ⟨_, x, hx, hrest⟩ := bind_ok.mp hrest
  obtain ⟨rfl, rfl⟩ := pure_ok.mp hrest
  rcases (settleFailure_ok hw).2 with ⟨-, hsoft⟩ | hgen
  · simp [cpCmdFailureIsSoft, hphy] at hsoft
  · exact hgen

end Exchange

-- =============================================================== the pass

section Pass

variable {env : Env} {depth i : Nat} {s t u : Osdp}

/-- From a failed exchange in ONLINE, with no new handshake asked for, a
pass never leads to SC_CHLNG. -/
theorem advance_failed (hmode : (s.pd i).flags.pdMode = false)
    (hon : (s.pd i).state = .online)
    (hreq : (s.pd i).request.restartSc = false)
    (h : cpAdvance env (cpRunCalls env depth) i (s.pd i).state cpErrGeneric s
      = .ok () t) : (t.pd i).state ≠ .scChlng := by
  obtain ⟨next, next', u, v, hch, hlive, hend⟩ := (advance_ok hmode h).run
  have hnext : next ≠ .scChlng := by
    cases hch with
    | reset steers log => decide
    | trs cur dest steers log =>
      rcases cur with e | e <;> cases hon.symm.trans e
    | table key off row steers log => exact absurd hon off.1
    | online row key on row_ok steers log dest =>
      have hrow : getNextErrState (s.pd i) = some row := row_ok
      simp only [getNextErrState, hon, Option.some.injEq] at hrow
      rcases dest with e | e | e | e
      · rw [e]; decide
      · rw [e]; decide
      · cases hreq.symm.trans e.1
      · rw [e.2, ← hrow]; decide
  have hnext' : next' ≠ .scChlng := by
    rcases hlive.dest with ⟨-, e⟩ | ⟨-, e | e⟩
    · rw [e]; decide
    · rw [e]; exact hnext
    · rw [e]; decide
  have hstate : (t.pd i).state = next' := by
    rcases hend with ⟨hsame, hvt⟩ | ⟨-, r, hchg⟩
    · have e : (t.pd i).state = (v.pd i).state := hvt.steers.state
      have e' : (v.pd i).state = (u.pd i).state :=
        congrArg PdCtl.state hlive.ctl
      obtain ⟨c, hc⟩ := hch.steers
      rw [e, e', hc.state, hsame]
    · exact congrArg PdCtl.state hchg.ctl
  rw [hstate]
  exact hnext'

/-- The end of an exchange that failed on a refused reply. -/
theorem proceed_refused (hmode : (s.pd i).flags.pdMode = false)
    (hon : (s.pd i).state = .online)
    (hreq : (s.pd i).request.restartSc = false)
    (hphy : (s.pd i).phyState = .err)
    (hnak : (s.pd i).replyId = replyNak)
    (h : cpProceed env (cpRunCalls env depth) i (s.pd i).state s
      = .ok () t) : (t.pd i).state ≠ .scChlng := by
  obtain ⟨p, v, hp, h⟩ := bind_ok.mp h
  obtain ⟨rfl, rfl⟩ := getPd_ok.mp hp
  rw [hphy] at h
  obtain ⟨err, u, hu, h⟩ := bind_ok.mp h
  obtain rfl := settle_refused hon hphy hnak hu
  obtain ⟨c, hc, hj⟩ := (settle_ok hu).ctl
  have hown : c = (s.pd i).ctl := by
    rcases hj with hj | ⟨-, hack, -⟩
    · exact hj
    · rw [hnak] at hack
      exact absurd hack (by decide)
  have hctl : (u.pd i).ctl = { (s.pd i).ctl with phyState := .idle } := by
    rw [hc.ctl, hown]
  have hstate : (u.pd i).state = (s.pd i).state :=
    congrArg PdCtl.state hctl
  rw [← hstate] at h
  refine advance_failed ?_ (hstate.trans hon) ?_ h
  · exact (congrArg PdCtl.pdMode hctl).trans hmode
  · have e := congrArg (fun c : PdCtl => c.request.restartSc) hctl
    exact Eq.trans e hreq

/-- A pass that hears a reply the secure channel refuses. -/
theorem refused_pass {w : Osdp} (hmode : (s.pd i).flags.pdMode = false)
    (hon : (s.pd i).state = .online)
    (hreq : (s.pd i).request.restartSc = false)
    (hphy : (s.pd i).phyState = .replyWait)
    (hw : osdpPhyCheckPacket env i s = .ok errPktNone w)
    (href : ScRefused env (w.pd i) (w.frameBuf i) (w.frameLen i))
    (h : stateUpdate env (cpRunCalls env depth) i s = .ok () t) :
    (t.pd i).state ≠ .scChlng := by
  rcases stateUpdate_ok h with ⟨err, -, hu, he⟩ |
    ⟨err, u, -, hu, -, hp⟩ | ⟨hrun, -⟩
  · obtain ⟨rfl, -⟩ := refused_exchange hphy hw href hu
    rcases he with e | e <;> exact absurd e (by decide)
  · obtain ⟨rfl, herr, hnak, -⟩ := refused_exchange hphy hw href hu
    have hcore : CoreStep (s.pd i) (u.pd i) :=
      (read_cpPhyStateUpdate (R := CoreDown i)
        (keeps_cpRunCalls depth)).of hu
    rw [← hcore.state] at hp
    exact proceed_refused (hcore.pdMode.trans hmode)
      (hcore.state.trans hon) (hcore.restartSc.trans hreq) herr hnak hp
  · rw [cpPhyRunning_eq, hphy] at hrun
    cases hrun

/-- The session is keyed again at once: the reply is not taken up, the
channel is down, and the CP is on its way to a new handshake. -/
structure Rekeyed (i : Nat) (s t : Osdp) : Prop where
  discarded : ∃ l, t.log = l ++ s.log ∧
    ∀ payload ret, .verdict i payload ret ∉ l
  dropped : (t.pd i).flags.scActive = false
  next : (t.pd i).state = .scChlng

end Pass

-- ================================================================ the run

/-- In every run of a CP, in every pass for a PD in ONLINE whose channel
is up: a reply that fails the secure channel, in whichever way, never
leads to a new handshake in its place. -/
theorem cp_refused_not_rekeyed (env : Env) (depth : Nat)
    (ok : Osdp → CpInput → Bool) (infos : List CpPdInfo) (s t : Osdp)
    (l : List CpInput) (hs : osdpCpSetup env infos = some s)
    (hrun : CpRun env depth ok s l t) (i : Nat) (now : Int) (rx : Bytes)
    (u v w : Osdp) (hpass : RefreshPass env depth t now rx u v)
    (hturn : u.currentPd = i) (hon : (u.pd i).state = .online)
    (hup : (u.pd i).flags.scActive = true)
    (hphy : (u.pd i).phyState = .replyWait)
    (hheard : osdpPhyCheckPacket env i u = .ok errPktNone w)
    (href : ScRefused env (w.pd i) (w.frameBuf i) (w.frameLen i)) :
    ¬ Rekeyed i u v := by
  have hd := hsInv_invariant env depth i
  have ht : DeviceInv i (CpHsInv env i) (ScInv env i) t :=
    hd.invariant.run hrun (hd.start hs)
  obtain ⟨hu, e, -⟩ := hd.invariant.refreshPass ht hpass
  have hlive := (hd.invariant.refreshPass_live ht hpass).2
  have hctl := (hu.alive hlive).ctl
  rw [hturn] at e
  have hreq : (u.pd i).request.restartSc = false := by
    by_cases hr : (u.pd i).request.restartSc = true
    · have hdown := (hctl.restart hr).1
      exact (Bool.false_ne_true (hdown.symm.trans hup)).elim
    · simpa using hr
  intro hkeyed
  exact refused_pass hctl.cp hon hreq hphy hheard href e hkeyed.next

/-- The state a frame is found good in, if one is. -/
def frameFound (env : Env) (i : Nat) (s : Osdp) : Option Osdp :=
  match osdpPhyCheckPacket env i s with
  | .ok rc w => if rc = errPktNone then some w else none
  | .error _ _ => none

theorem frameFound_eq {env : Env} {i : Nat} {s w : Osdp}
    (h : frameFound env i s = some w) :
    osdpPhyCheckPacket env i s = .ok errPktNone w := by
  unfold frameFound at h
  cases e : osdpPhyCheckPacket env i s with
  | ok rc x =>
    rw [e] at h
    simp only [Option.ite_none_right_eq_some, Option.some.injEq] at h
    rw [h.1, h.2]
  | error _ _ =>
    rw [e] at h
    cases h

/-- A PD awaits the answer to a poll of a session that is up. -/
def AwaitsReply (s : Osdp) : Prop :=
  s.currentPd = 0 ∧ (s.pd 0).state = .online ∧
    (s.pd 0).flags.scActive = true ∧ (s.pd 0).phyState = .replyWait ∧
    ¬ (s.tearingDown ∨ s.running) ∧ s.numPd = 1

instance (s : Osdp) : Decidable (AwaitsReply s) := by
  unfold AwaitsReply
  infer_instance

/-- The bytes bring a frame with this defect, and end the session. -/
def Breaks (rx : Bytes) (defect : Osdp → Bool) (s : Osdp) : Prop :=
  AwaitsReply s ∧
    (frameFound keyedCpEnv 0 (s.beginRefresh 200 rx)).any defect = true ∧
    Reaches (fun v => (v.pd 0).state = .offline)
      (stateUpdate keyedCpEnv (cpRunCalls keyedCpEnv 1) 0
        (s.beginRefresh 200 rx))

instance (rx : Bytes) (defect : Osdp → Bool) (s : Osdp) :
    Decidable (Breaks rx defect s) := by
  unfold Breaks
  infer_instance

/-- The pass that hears them. -/
theorem Breaks.pass {rx : Bytes} {defect : Osdp → Bool} {s : Osdp}
    (h : Breaks rx defect s) :
    ∃ v w, RefreshPass keyedCpEnv 1 s 200 rx (s.beginRefresh 200 rx) v ∧
      osdpPhyCheckPacket keyedCpEnv 0 (s.beginRefresh 200 rx)
        = .ok errPktNone w ∧
      defect w = true ∧ (v.pd 0).state = .offline := by
  obtain ⟨⟨hturn, -, -, -, hgo, hnum⟩, hframe, hend⟩ := h
  obtain ⟨v, hv, hoff⟩ := hend.ok
  cases hw : frameFound keyedCpEnv 0 (s.beginRefresh 200 rx) with
  | none =>
    rw [hw] at hframe
    cases hframe
  | some w =>
    rw [hw] at hframe
    refine ⟨v, w, ⟨hgo, by omega, ?_⟩, frameFound_eq hw, hframe, hoff⟩
    rw [hnum]
    have hcur : (s.beginRefresh 200 rx).currentPd = 0 := hturn
    exact .here (by rw [hcur]; exact hv)

/-- The handshake, and a poll after it. -/
def firstPoll : List CpInput :=
  keyedCpReplies ++ [.refresh 140 [], .refresh 190 [], .refresh 191 []]

/-- In plain text. -/
def inPlainText (w : Osdp) : Bool :=
  !ctrlScb (pktControl (w.frameBuf 0)) && (w.pd 0).flags.scActive &&
    !plainKeysetAck (w.pd 0) (w.frameBuf 0)

/-- Under a MAC that is not the one of the session. -/
def underWrongMac (w : Osdp) : Bool :=
  frameRefusal (w.pd 0) (w.frameBuf 0) == none &&
    carriesMac (w.pd 0) (w.frameBuf 0) &&
    !macMatches keyedCpEnv (w.pd 0) (w.frameBuf 0) (w.frameLen 0)

/-- A plain ACK to the poll, one that a PD without its session sends. -/
theorem cp_refused_not_rekeyed_plain :
    ∃ s t u v w : Osdp, osdpCpSetup keyedCpEnv [keyedCpPd] = some s ∧
      CpRun keyedCpEnv 1 anyCpInput s firstPoll t ∧
      RefreshPass keyedCpEnv 1 t 200 (writeBe 9 0xFF5381080006406A60) u v ∧
      ScRefused keyedCpEnv (w.pd 0) (w.frameBuf 0) (w.frameLen 0) ∧
      ¬ Rekeyed 0 u v := by
  obtain ⟨s, t, hs, hrun, hbreaks⟩ :=
    run_of_setup (cpStep keyedCpEnv 1) anyCpInput
      (osdpCpSetup keyedCpEnv [keyedCpPd]) firstPoll
      (Breaks (writeBe 9 0xFF5381080006406A60) inPlainText)
      (by decide +kernel)
  obtain ⟨v, w, hpass, hheard, hdefect, -⟩ := hbreaks.pass
  obtain ⟨⟨hturn, hon, hup, hphy, -⟩, -⟩ := hbreaks
  simp only [inPlainText, Bool.and_eq_true, Bool.not_eq_true'] at hdefect
  obtain ⟨⟨hblock, hactive⟩, hack⟩ := hdefect
  have href : ScRefused keyedCpEnv (w.pd 0) (w.frameBuf 0) (w.frameLen 0) :=
    .plain hblock hactive hack
  exact ⟨s, t, _, v, w, hs, hrun, hpass, href,
    cp_refused_not_rekeyed keyedCpEnv 1 anyCpInput _ s t _ hs hrun 0 200 _
      _ v w hpass hturn hon hup hphy hheard href⟩

/-- An ACK with a MAC nobody computed takes the CP from ONLINE, its
session up, to OFFLINE. -/
theorem cp_refused_offline_mac :
    ∃ s t u v w : Osdp, osdpCpSetup keyedCpEnv [keyedCpPd] = some s ∧
      CpRun keyedCpEnv 1 anyCpInput s firstPoll t ∧
      RefreshPass keyedCpEnv 1 t 200
        (writeBe 15 0xFF53810E000E021640DEADBEEF5A92) u v ∧
      ((u.pd 0).state = .online ∧ (u.pd 0).flags.scActive = true) ∧
      osdpPhyCheckPacket keyedCpEnv 0 u = .ok errPktNone w ∧
      ScRefused keyedCpEnv (w.pd 0) (w.frameBuf 0) (w.frameLen 0) ∧
      (v.pd 0).state = .offline ∧ ¬ Rekeyed 0 u v := by
  obtain ⟨s, t, hs, hrun, hbreaks⟩ :=
    run_of_setup (cpStep keyedCpEnv 1) anyCpInput
      (osdpCpSetup keyedCpEnv [keyedCpPd]) firstPoll
      (Breaks (writeBe 15 0xFF53810E000E021640DEADBEEF5A92) underWrongMac)
      (by decide +kernel)
  obtain ⟨v, w, hpass, hheard, hdefect, hoff⟩ := hbreaks.pass
  obtain ⟨⟨-, hon, hup, -⟩, -⟩ := hbreaks
  simp only [underWrongMac, Bool.and_eq_true, beq_iff_eq,
    Bool.not_eq_true'] at hdefect
  obtain ⟨⟨hopen, hcarries⟩, hbad⟩ := hdefect
  refine ⟨s, t, _, v, w, hs, hrun, hpass, ⟨hon, hup⟩, hheard,
    .mac hopen hcarries hbad, hoff, fun hkeyed => ?_⟩
  rw [hkeyed.next] at hoff
  exact absurd hoff (by decide)

end LibOsdp
