/-
What the CP holds about a PD, and which replies change it.

`cp_decode_response` applies a reply while it decodes it; whether the
reply was one the command in flight could draw is asked afterwards, by
the state machine.  Two replies are guarded in the decoder itself, the
two of the handshake: each looks at the command before it stores
anything.  Three are not, the identity, the capabilities and the
communication parameters, and they are stored in answer to whatever was
asked.

`Reconfigures` is a reply of one of those three that says something new.
`cp_reply_record` is exact: among the replies a command does not permit,
these and no others change the record.
-/
import LibOsdp.Cp.Proofs.Footprint

namespace LibOsdp

open Lib

-- ============================================================ the record

/-- The part of a PD the CP's configuration of it lives in: where it is
reached, who it is, what it can do, and the secure channel. -/
structure PdRecord where
  address : Nat
  baudRate : UInt32
  id : PdId
  cap : Nat → PdCap
  peerRxSize : Nat
  scCapable : Bool
  cpUseCrc : Bool
  trsCapable : Bool
  sc : OsdpSecureChannel

def OsdpPd.record (p : OsdpPd) : PdRecord where
  address := p.address
  baudRate := p.baudRate
  id := p.id
  cap := p.cap
  peerRxSize := p.peerRxSize
  scCapable := p.flags.scCapable
  cpUseCrc := p.flags.cpUseCrc
  trsCapable := p.flags.trsCapable
  sc := p.sc

/-- The record of PD `i` is what it was. -/
def SameRecord (i : Nat) (s t : Osdp) : Prop :=
  (t.pd i).record = (s.pd i).record

theorem sameRecord_same {i : Nat} {s t : Osdp} (h : t.pd = s.pd) :
    SameRecord i s t := by
  unfold SameRecord
  rw [h]

theorem sameRecord_updPd {i j : Nat} {s : Osdp} {f : OsdpPd → OsdpPd}
    (h : (f (s.pd j)).record = (s.pd j).record) :
    SameRecord i s (s.updPd j f) := by
  unfold SameRecord
  by_cases e : i = j
  · subst e
    rw [updPd_pd_same]
    exact h
  · rw [updPd_pd_ne s f e]

/-- The application's calls do not reach it. -/
instance (i : Nat) : CallMoves (SameRecord i) where
  refl _ := rfl
  trans _ _ _ h k := Eq.trans k h
  call s j f h := by
    have e := congrArg OsdpPd.record (h (s.pd j))
    exact sameRecord_updPd e
  enable _ _ _ := sameRecord_updPd rfl
  disable _ _ := sameRecord_updPd rfl
  note _ _ _ := sameRecord_same rfl
  running _ _ := sameRecord_same rfl

theorem record_updPd {i j : Nat} {f : OsdpPd → OsdpPd}
    (h : ∀ p, (f p).record = p.record) : Keeps (SameRecord i) (updPd j f) := by
  intro s a t e
  rw [← updPd_ok.mp e]
  exact sameRecord_updPd (h (s.pd j))

-- =========================================================== the replies

/-- The replies a command permits: a refusal or a plea for time to any of
them, ACK, and what `state_check_reply` and `cp_check_online_response`
compare the reply id with. -/
def replyPermitted (cmdId replyId : Nat) : Bool :=
  replyId == replyAck || replyId == replyNak || replyId == replyBusy ||
    match cmdId with
    | cmdIdent => replyId == replyPdid
    | cmdCap => replyId == replyPdcap
    | cmdChlng => replyId == replyCcrypt
    | cmdScrypt => replyId == replyRmacI
    | cmdPoll => isPollResponse replyId
    | cmdMfg =>
      replyId == replyMfgerrr || isExpectedResponse cmdMfg replyId false
    | _ => isExpectedResponse cmdId replyId false

/-- The capabilities held are these, and what is derived from them is in
step with them. -/
def OsdpPd.HoldsCaps (p : OsdpPd) (cap : Nat → PdCap) : Prop :=
  cap = p.cap ∧
    ((cap capReceiveBuffersize).functionCode = capReceiveBuffersize →
      p.peerRxSize = (cap capReceiveBuffersize).complianceLevel.toNat +
        256 * (cap capReceiveBuffersize).numItems.toNat) ∧
    p.flags.scCapable = p.capBit capCommunicationSecurity ∧
    ((cap capCheckCharacterSupport).functionCode
        = capCheckCharacterSupport →
      p.flags.cpUseCrc = p.capBit capCheckCharacterSupport) ∧
    p.flags.trsCapable = p.capBit capSmartCardSupport

/-- A well-formed reply that says who the PD is, what it can do or where
it is reached, and says something new. -/
def Reconfigures (p : OsdpPd) (payload : Bytes) : Prop :=
  let data := payload.tail
  payloadId payload = replyPdid ∧ data.length = 12 ∧ pdidOf data ≠ p.id ∨
    payloadId payload = replyPdcap ∧ data.length % 3 = 0 ∧
      ¬ p.HoldsCaps (capsOf p.cap data) ∨
    payloadId payload = replyCom ∧ data.length = 5 ∧
      ¬ ((byteAt data 0).toNat = p.address ∧
        UInt32.ofNat (readLe 4 (data.drop 1)) = p.baudRate)

/-- Capabilities that are held already change nothing, and no others. -/
theorem record_applyCaps (p : OsdpPd) (cap : Nat → PdCap) :
    (applyCaps { p with cap := cap }).record = p.record ↔
      p.HoldsCaps cap := by
  unfold OsdpPd.HoldsCaps
  by_cases hcap : cap = p.cap
  · subst hcap
    simp only [applyCaps, OsdpPd.record, OsdpPd.capBit, PdRecord.mk.injEq,
      true_and, and_true]
    grind
  · refine iff_of_false (fun h => ?_) fun h => hcap h.1
    exact hcap (congrArg PdRecord.cap h)

section Decode

variable {env : Env} {run : List ApiCall → OsdpM Unit} {i : Nat}
variable (hr : ∀ calls, Keeps (SameRecord i) (run calls))
include hr

attribute [local grind ←] record_updPd

/-- Every reply but a refusal, the handshake's two and the three that
reconfigure leaves the record alone. -/
theorem record_cpDecodeCases {id : Nat} (data : Bytes)
    (hnak : id ≠ replyNak) (hcc : id ≠ replyCcrypt) (hrm : id ≠ replyRmacI)
    (hpd : id ≠ replyPdid) (hcap : id ≠ replyPdcap) (hcom : id ≠ replyCom) :
    Keeps (SameRecord i) (cpDecodeCases env run i id data) := by
  have hev (ev : Option OsdpEvent) :
      Keeps (SameRecord i) (decodeEvent env run i ev) := by
    unfold decodeEvent
    grind
  have hact (ev : Option OsdpEvent) :
      Keeps (SameRecord i) (decodeActivity env run i ev) := by
    unfold decodeActivity
    refine .bind (hev ev) fun ret => ?_
    split
    · refine .bind keeps_osdpMillisNow fun now => ?_
      exact .bind (record_updPd fun _ => rfl) fun _ => .pure _
    · exact .pure _
  have hack : Keeps (SameRecord i) (decodeAck env run i data) := by
    unfold decodeAck
    grind
  have hpiv : Keeps (SameRecord i) (decodePivReply env run i data) := by
    unfold decodePivReply
    grind
  have hbio : Keeps (SameRecord i) (decodeBioreadr env run i data) := by
    unfold decodeBioreadr
    refine .bind (keeps_getPd i) fun p => ?_
    split
    · exact hev _
    · grind
  have hft : Keeps (SameRecord i) (decodeFtstat env run i data) := by
    unfold decodeFtstat
    grind
  have herr (b : Bool) : Keeps (SameRecord i) (trsSetReplyError i b) :=
    record_updPd fun _ => rfl
  have hin (act : TrsReplyAction) :
      Keeps (SameRecord i) (decodeXrdInside env run i act) := by
    unfold decodeXrdInside
    grind
  have hout (act : TrsReplyAction) :
      Keeps (SameRecord i) (decodeXrdOutside env run i act) := by
    unfold decodeXrdOutside
    grind
  have hxrd : Keeps (SameRecord i) (decodeXrd env run i data) := by
    unfold decodeXrd
    refine .bind (keeps_getPd i) fun p => .bind keeps_osdpMillisNow fun now =>
      .bind (record_updPd fun _ => rfl) fun _ => ?_
    split
    · exact hin _
    · exact hout _
  unfold cpDecodeCases
  refine .bind (keeps_getPd i) fun p => ?_
  split <;>
    first
    | exact .pure _
    | exact hev _
    | exact hact _
    | assumption
    | exact absurd rfl hnak
    | exact absurd rfl hcc
    | exact absurd rfl hrm
    | exact absurd rfl hpd
    | exact absurd rfl hcap
    | exact absurd rfl hcom

/-- An identity is stored whatever was asked. -/
theorem record_decodePdid {data : Bytes} {s t : Osdp} {rc : Int}
    (h : decodePdid env run i data s = .ok rc t) :
    SameRecord i s t ↔ ¬ (data.length = 12 ∧ pdidOf data ≠ (s.pd i).id) := by
  unfold decodePdid at h
  by_cases hlen : data.length = 12
  · rw [if_neg (not_not.mpr hlen)] at h
    obtain ⟨prev, u, hprev, h⟩ := bind_ok.mp h
    obtain ⟨rfl, rfl⟩ := getPd_ok.mp hprev
    obtain ⟨_, u, hu, h⟩ := bind_ok.mp h
    have hrest : SameRecord i u t := by
      refine Keeps.of (R := SameRecord i) ?_ h
      split
      · exact .bind (keeps_cpNotifyPdId hr i) fun _ => .pure _
      · exact .pure _
    have hid : (t.pd i).record = ({ s.pd i with id := pdidOf data } :
        OsdpPd).record := by
      rw [hrest, ← updPd_ok.mp hu, updPd_pd_same]
    unfold SameRecord
    rw [hid]
    constructor
    · intro hsame hnew
      exact hnew.2 (congrArg PdRecord.id hsame)
    · intro hold
      have heq : pdidOf data = (s.pd i).id :=
        not_not.mp fun hne => hold ⟨hlen, hne⟩
      rw [heq]
  · rw [if_pos hlen] at h
    obtain ⟨-, rfl⟩ := pure_ok.mp h
    exact iff_of_true rfl fun hnew => hlen hnew.1

end Decode

/-- So are capabilities. -/
theorem record_decodePdcap {i : Nat} {data : Bytes} {s t : Osdp} {rc : Int}
    (h : decodePdcap i data s = .ok rc t) :
    SameRecord i s t ↔ ¬ (data.length % 3 = 0 ∧
      ¬ (s.pd i).HoldsCaps (capsOf (s.pd i).cap data)) := by
  unfold decodePdcap at h
  by_cases hlen : data.length % 3 = 0
  · rw [if_neg (not_not.mpr hlen)] at h
    obtain ⟨_, u, hu, h⟩ := bind_ok.mp h
    obtain ⟨-, rfl⟩ := pure_ok.mp h
    rw [← updPd_ok.mp hu, SameRecord, updPd_pd_same, record_applyCaps,
      and_iff_right hlen, not_not]
  · rw [if_pos hlen] at h
    obtain ⟨-, rfl⟩ := pure_ok.mp h
    exact iff_of_true rfl fun hnew => hlen hnew.1

/-- So are communication parameters. -/
theorem record_decodeCom {i : Nat} {data : Bytes} {s t : Osdp} {rc : Int}
    (h : decodeCom i data s = .ok rc t) :
    SameRecord i s t ↔ ¬ (data.length = 5 ∧
      ¬ ((byteAt data 0).toNat = (s.pd i).address ∧
        UInt32.ofNat (readLe 4 (data.drop 1)) = (s.pd i).baudRate)) := by
  unfold decodeCom at h
  by_cases hlen : data.length = 5
  · rw [if_neg (not_not.mpr hlen)] at h
    obtain ⟨_, u, hu, h⟩ := bind_ok.mp h
    obtain ⟨-, rfl⟩ := pure_ok.mp h
    rw [← updPd_ok.mp hu, SameRecord, updPd_pd_same, and_iff_right hlen,
      not_not]
    simp only [OsdpPd.record, PdRecord.mk.injEq, and_true]
  · rw [if_pos hlen] at h
    obtain ⟨-, rfl⟩ := pure_ok.mp h
    exact iff_of_true rfl fun hnew => hlen hnew.1

/-- The handshake's replies look at the command first. -/
theorem record_decodeCcrypt {env : Env} {i : Nat} {data : Bytes} {s t : Osdp}
    {rc : Int} (hcmd : (s.pd i).cmdId ≠ cmdChlng)
    (h : decodeCcrypt env i data s = .ok rc t) : SameRecord i s t := by
  obtain ⟨p, u, hp, h⟩ := bind_ok.mp h
  obtain ⟨rfl, rfl⟩ := getPd_ok.mp hp
  rw [if_pos (.inr (.inl hcmd))] at h
  obtain ⟨-, rfl⟩ := pure_ok.mp h
  rfl

theorem record_decodeRmacI {i : Nat} {data : Bytes} {s t : Osdp} {rc : Int}
    (hcmd : (s.pd i).cmdId ≠ cmdScrypt)
    (h : decodeRmacI i data s = .ok rc t) : SameRecord i s t := by
  obtain ⟨p, u, hp, h⟩ := bind_ok.mp h
  obtain ⟨rfl, rfl⟩ := getPd_ok.mp hp
  rw [if_pos (.inr (.inl hcmd))] at h
  obtain ⟨-, rfl⟩ := pure_ok.mp h
  rfl

/-- A reply that is not permitted is not a refusal, and one of the
handshake is not to the handshake's command. -/
theorem notPermitted_parts {cmdId replyId : Nat}
    (h : replyPermitted cmdId replyId = false) :
    replyId ≠ replyNak ∧ (replyId = replyCcrypt → cmdId ≠ cmdChlng) ∧
      (replyId = replyRmacI → cmdId ≠ cmdScrypt) := by
  refine ⟨?_, ?_, ?_⟩
  · rintro rfl
    simp [replyPermitted] at h
  · rintro rfl rfl
    cases h
  · rintro rfl rfl
    cases h

/-- The cases whose reply the theorem below looks into. -/
theorem decodeCases_eq (env : Env) (run : List ApiCall → OsdpM Unit) (i : Nat)
    (data : Bytes) (s : Osdp) :
    cpDecodeCases env run i replyPdid data s = decodePdid env run i data s ∧
      cpDecodeCases env run i replyPdcap data s = decodePdcap i data s ∧
      cpDecodeCases env run i replyCom data s = decodeCom i data s ∧
      cpDecodeCases env run i replyCcrypt data s = decodeCcrypt env i data s ∧
      cpDecodeCases env run i replyRmacI data s = decodeRmacI i data s :=
  ⟨rfl, rfl, rfl, rfl, rfl⟩

section Response

variable {env : Env} {depth i : Nat} {payload : Bytes} {s t : Osdp} {rc : Int}

/-- What the decoder does once the reply id is stored. -/
theorem decodeResponse_cases
    (h : cpDecodeResponse env (cpRunCalls env depth) i payload s
      = .ok rc t) :
    ∃ u, u.pd i = { s.pd i with replyId := payloadId payload } ∧
      cpDecodeCases env (cpRunCalls env depth) i (payloadId payload)
        payload.tail u = .ok rc t := by
  obtain ⟨_, u, hu, h⟩ := bind_ok.mp h
  refine ⟨u, ?_, h⟩
  rw [← updPd_ok.mp hu, updPd_pd_same]
  rfl

/-- A reply that does not reconfigure leaves the record alone, whatever
it answers, as long as it is not permitted. -/
theorem sameRecord_of_other {u : Osdp} (hnot :
      replyPermitted (u.pd i).cmdId (payloadId payload) = false)
    (hpd : payloadId payload ≠ replyPdid)
    (hcap : payloadId payload ≠ replyPdcap)
    (hcom : payloadId payload ≠ replyCom)
    (h : cpDecodeCases env (cpRunCalls env depth) i (payloadId payload)
      payload.tail u = .ok rc t) : SameRecord i u t := by
  obtain ⟨hnak, hchlng, hscrypt⟩ := notPermitted_parts hnot
  by_cases hcc : payloadId payload = replyCcrypt
  · rw [hcc, (decodeCases_eq ..).2.2.2.1] at h
    exact record_decodeCcrypt (hchlng hcc) h
  · by_cases hrm : payloadId payload = replyRmacI
    · rw [hrm, (decodeCases_eq ..).2.2.2.2] at h
      exact record_decodeRmacI (hscrypt hrm) h
    · exact (record_cpDecodeCases (keeps_cpRunCalls depth) payload.tail hnak
        hcc hrm hpd hcap hcom).of h

/-- A reply the command in flight does not permit changes what the CP
holds about the PD exactly when it is an identity, a list of capabilities
or communication parameters, and says something new. -/
theorem cp_reply_record
    (hnot : replyPermitted (s.pd i).cmdId (payloadId payload) = false)
    (h : cpDecodeResponse env (cpRunCalls env depth) i payload s
      = .ok rc t) :
    SameRecord i s t ↔ ¬ Reconfigures (s.pd i) payload := by
  obtain ⟨u, hu, hcases⟩ := decodeResponse_cases h
  have hset : SameRecord i s t ↔ SameRecord i u t := by
    unfold SameRecord
    rw [hu]
    rfl
  rw [hset]
  unfold Reconfigures
  by_cases hpd : payloadId payload = replyPdid
  · rw [hpd, (decodeCases_eq ..).1] at hcases
    have hiff := record_decodePdid (keeps_cpRunCalls depth) hcases
    rw [hu] at hiff
    simpa [hpd] using hiff
  · by_cases hcap : payloadId payload = replyPdcap
    · rw [hcap, (decodeCases_eq ..).2.1] at hcases
      have hiff := record_decodePdcap hcases
      rw [hu] at hiff
      have hheld : SameRecord i u t ↔ ¬ (payload.tail.length % 3 = 0 ∧
          ¬ (s.pd i).HoldsCaps (capsOf (s.pd i).cap payload.tail)) := hiff
      simpa [hcap] using hheld
    · by_cases hcom : payloadId payload = replyCom
      · rw [hcom, (decodeCases_eq ..).2.2.1] at hcases
        have hiff := record_decodeCom hcases
        rw [hu] at hiff
        simpa [hcom] using hiff
      · have hsame : SameRecord i u t := by
          refine sameRecord_of_other ?_ hpd hcap hcom hcases
          rw [hu]
          exact hnot
        refine iff_of_true hsame ?_
        rintro (hnew | hnew | hnew)
        · exact hpd hnew.1
        · exact hcap hnew.1
        · exact hcom hnew.1

end Response

-- ============================================================== in a run

/-- A CP polling a PD it reaches at address 1. -/
def pollingCp : Osdp where
  pd _ :=
    { state := .online, cmdId := cmdPoll, address := 1, baudRate := 9600 }

/-- The surroundings it runs in. -/
abbrev pollingEnv : Env := plainEnv (knownCipher []) fun _ => 0

/-- A PD that answers a poll with a byte short of an identity leaves the
record alone. -/
theorem cp_reply_record_short :
    ∃ rc t, cpDecodeResponse pollingEnv (cpRunCalls pollingEnv 1) 0
        [0x45, 0, 6, 0x8E, 1, 2, 3, 4, 5, 6, 7, 8] pollingCp = .ok rc t ∧
      SameRecord 0 pollingCp t := by
  have h : ∃ rc t, cpDecodeResponse pollingEnv (cpRunCalls pollingEnv 1) 0
      [0x45, 0, 6, 0x8E, 1, 2, 3, 4, 5, 6, 7, 8] pollingCp = .ok rc t :=
    ⟨_, _, rfl⟩
  obtain ⟨rc, t, h⟩ := h
  refine ⟨rc, t, h, (cp_reply_record rfl h).mpr ?_⟩
  simp [Reconfigures, payloadId]

/-- One that answers it with REPLY_COM moves the CP to another address
and to no baud rate. -/
theorem cp_reply_record_com :
    ∃ rc t, cpDecodeResponse pollingEnv (cpRunCalls pollingEnv 1) 0
        [0x54, 5, 0, 0, 0, 0] pollingCp = .ok rc t ∧
      replyPermitted (pollingCp.pd 0).cmdId
        (payloadId [0x54, 5, 0, 0, 0, 0]) = false ∧
      (pollingCp.pd 0).address = 1 ∧ (t.pd 0).address = 5 ∧
      (t.pd 0).baudRate = 0 ∧ ¬ SameRecord 0 pollingCp t := by
  refine ⟨_, _, rfl, rfl, rfl, rfl, rfl, ?_⟩
  intro h
  have haddr := congrArg PdRecord.address h
  exact absurd haddr (by decide)

end LibOsdp
