/-
A handshake leaves both ends with the same channel.

# What a handshake is about

Of either end only a few fields have a part in it (`HsSide`), and on these
it is a handful of pure steps: a PD takes a challenge (`challenged`) and a
cryptogram (`offered`), a CP takes the answer to each (`keyed`, `seeded`).
That the four messages lead both ends to the same keys and the same first
MACs is a calculation over these steps (`sides_agree`).

# Two programs and a line

An `Exchange` is a command and its reply between the two programs as they
are: one builds a packet, the other has that frame in its buffer, decodes
it and carries it out, and the same the other way round.  In between either
of them may do anything that leaves its side of the handshake alone.  Every
exchange of a handshake is the steps above
(`Exchange.chlng`, `Exchange.scrypt`), so the calculation is about the
programs (`handshake_agrees`).
-/
import LibOsdp.Cp.Proofs.Handshake
import LibOsdp.Proofs.HandshakeSend

namespace LibOsdp

open Lib

-- ============================================================== pure steps

/-- A handshake frame was decoded: a PD that is being installed takes the
key selector over. -/
def HsSide.heard (type sel : UInt8) (v : HsSide) : HsSide :=
  if (type.toNat == scs11 || type.toNat == scs13) && v.installMode &&
      sel == 0 then
    { v with useScbkd := true }
  else v

/-- A PD takes a challenge: the channel starts over. -/
def HsSide.challenged (uid data : Bytes) (v : HsSide) : HsSide :=
  { v with
    sc := { scbk := v.sc.scbk, pdClientUid := uid, cpRandom := data }
    active := false }

/-- A CP takes the answer to its challenge. -/
def HsSide.keyed (env : Env) (data : Bytes) (v : HsSide) : HsSide :=
  { v with sc := computeSessionKeys env v.keyBase (takeCcrypt data v.sc) }

/-- A PD takes the cryptogram of the CP. -/
def HsSide.offered (data : Bytes) (v : HsSide) : HsSide :=
  { v with sc := { v.sc with cpCryptogram := data } }

/-- A CP takes the first MAC. -/
def HsSide.seeded (data : Bytes) (v : HsSide) : HsSide :=
  { v with sc := { v.sc with rMac := data } }

/-- The PD's side once it has answered the challenge of a CP. -/
def answeredSide (env : Env) (uid r : Bytes) (v w : HsSide) : HsSide :=
  let x := (w.heard 0x11 v.selector).challenged uid v.sc.cpRandom
  x.said (ccryptMessage env r x)

/-- The CP's side once it has taken that answer. -/
def keyedSide (env env' : Env) (uid r : Bytes) (v w : HsSide) : HsSide :=
  let x := (w.heard 0x11 v.selector).challenged uid v.sc.cpRandom
  v.keyed env (ccryptMessage env' r x).data

section Pure

variable {env env' : Env} {v w : HsSide} {uid r : Bytes}

@[simp] theorem HsSide.heard_sc (type sel : UInt8) (v : HsSide) :
    (v.heard type sel).sc = v.sc := by
  unfold HsSide.heard
  split <;> rfl

@[simp] theorem HsSide.heard_active (type sel : UInt8) (v : HsSide) :
    (v.heard type sel).active = v.active := by
  unfold HsSide.heard
  split <;> rfl

/-- The selector is heard in the frame of the PD's record. -/
theorem hsSide_hsTaken (type sel : UInt8) (p : OsdpPd) :
    (hsTaken type sel p).hsSide = p.hsSide.heard type sel := by
  unfold hsTaken HsSide.heard
  show (if _ then _ else p).hsSide
    = if (type.toNat == scs11 || type.toNat == scs13) &&
        p.flags.installMode && sel == 0 then _ else p.hsSide
  split <;> rfl

/-- A reply carries no selector for anyone. -/
theorem HsSide.heard_reply {type sel : UInt8} {v : HsSide}
    (h : type = 0x12 ∨ type = 0x14) : v.heard type sel = v := by
  unfold HsSide.heard
  rcases h with rfl | rfl
  · rfl
  · rfl

theorem HsSide.heard_keeps (type sel : UInt8) (v : HsSide) :
    (v.heard type sel).pdMode = v.pdMode ∧
      (v.heard type sel).capable = v.capable ∧
      (v.heard type sel).security = v.security := by
  unfold HsSide.heard
  split <;> exact ⟨rfl, rfl, rfl⟩

/-- What a CCRYPT carries is taken apart as it was put together. -/
theorem takeCcrypt_parts {a b c : Bytes} (ha : a.length = 8)
    (hb : b.length = 8) (hc : c.length = 16) (sc : OsdpSecureChannel) :
    takeCcrypt (a ++ b ++ c) sc
      = { sc with pdClientUid := a, pdRandom := b, pdCryptogram := c } := by
  have hab : (a ++ b).length = 16 := by
    rw [List.length_append, ha, hb]
  unfold takeCcrypt
  rw [List.append_assoc, List.take_left' ha, List.drop_left' ha,
    List.take_left' hb, ← List.append_assoc, List.drop_left' hab,
    List.take_of_length_le (Nat.le_of_eq hc)]

/-- The cryptogram of a PD is one block. -/
theorem length_pdCryptogramOf {sc : OsdpSecureChannel}
    (hc : sc.cpRandom.length = 8) (hp : sc.pdRandom.length = 8) :
    (pdCryptogramOf env sc).length = 16 := by
  refine env.cipher.length_enc _ _ ?_
  rw [List.length_append, hc, hp]

/-- So is that of a CP. -/
theorem length_cpCryptogramOf {sc : OsdpSecureChannel}
    (hc : sc.cpRandom.length = 8) (hp : sc.pdRandom.length = 8) :
    (cpCryptogramOf env sc).length = 16 := by
  refine env.cipher.length_enc _ _ ?_
  rw [List.length_append, hc, hp]

/-- The keys a CP has after the first exchange, from what it was
answered. -/
theorem keyedSide_sc (hu : uid.length = 8) (hr : r.length = 8)
    (hc : v.sc.cpRandom.length = 8) :
    (keyedSide env env' uid r v w).sc
      = computeSessionKeys env v.keyBase { v.sc with
          pdClientUid := uid
          pdRandom := r
          pdCryptogram := (answeredSide env' uid r v w).sc.pdCryptogram } := by
  have hlen : (pdCryptogramOf env' (answeredSide env' uid r v w).sc).length
      = 16 := length_pdCryptogramOf hc hr
  have hsplit := takeCcrypt_parts hu hr hlen v.sc
  show computeSessionKeys env v.keyBase (takeCcrypt _ v.sc) = _
  exact congrArg (computeSessionKeys env v.keyBase) hsplit

/-- The PD's side once it has taken the cryptogram and sent the first
MAC. -/
def openedSide (env : Env) (sel : UInt8) (data : Bytes) (w : HsSide) :
    HsSide :=
  let x := (w.heard 0x13 sel).offered data
  x.said (rmacIMessage env x)

/-- The CP's side once it has that MAC, and has put the channel up. -/
def joinedSide (env env' : Env) (v w : HsSide) : HsSide :=
  let x := (w.heard 0x13 v.selector).offered (cpCryptogramOf env v.sc)
  { HsSide.seeded (rmacIMessage env' x).data
      { v with sc := osdpComputeCpCryptogram env v.sc } with active := true }

/-- What a PD proves with, when it works from `key`. -/
def proofOf (env : Env) (key cpRandom pdRandom : Bytes) : Bytes :=
  env.cipher.enc (env.cipher.enc key (sessionKeySeed 0x01 0x82 cpRandom))
    (cpRandom ++ pdRandom)

/-- The CP accepts just the proof that it would have given itself. -/
theorem verify_keyedSide (hu : uid.length = 8) (hr : r.length = 8)
    (hc : v.sc.cpRandom.length = 8) :
    osdpVerifyPdCryptogram env (keyedSide env env' uid r v w).sc = true ↔
      proofOf env' (w.heard 0x11 v.selector).keyBase v.sc.cpRandom r
        = proofOf env v.keyBase v.sc.cpRandom r := by
  rw [keyedSide_sc hu hr hc]
  unfold osdpVerifyPdCryptogram
  rw [beq_iff_eq]
  rfl

/-- **The two sides agree.**  From one key, the same cipher and a channel
that starts over, the four messages lead both ends to the same keys and
the same first MACs. -/
theorem sides_agree (hcip : env.cipher = env'.cipher) (hu : uid.length = 8)
    (hr : r.length = 8) (hc : v.sc.cpRandom.length = 8)
    (hfresh : v.sc.cMac = zeros 16)
    (hkey : (w.heard 0x11 v.selector).keyBase = v.keyBase) :
    let a := answeredSide env' uid r v w
    let k := keyedSide env env' uid r v w
    let o := openedSide env' k.selector (cpCryptogramOf env k.sc) a
    let j := joinedSide env env' k a
    cpCryptogramOf env k.sc = cpCryptogramOf env' a.sc ∧
      (cpCryptogramOf env k.sc).length = 16 ∧
      SameChain j.sc o.sc ∧ j.sc.rMac.length = 16 ∧ j.sc.cMac.length = 16 := by
  intro a k o j
  have hkeys (sc : OsdpSecureChannel) :
      computeSessionKeys env v.keyBase sc
        = computeSessionKeys env' v.keyBase sc := by
    unfold computeSessionKeys
    rw [hcip]
  have hk : k.sc = computeSessionKeys env' v.keyBase { v.sc with
      pdClientUid := uid, pdRandom := r
      pdCryptogram := a.sc.pdCryptogram } := by
    rw [← hkeys]
    exact keyedSide_sc hu hr hc
  have ha : a.sc = osdpComputePdCryptogram env'
      (computeSessionKeys env' v.keyBase
        { scbk := (w.heard 0x11 v.selector).sc.scbk, pdClientUid := uid,
          cpRandom := v.sc.cpRandom, pdRandom := r }) := by
    rw [← hkey]
    rfl
  have hcg : cpCryptogramOf env k.sc = cpCryptogramOf env' a.sc := by
    rw [hk, ha]
    unfold cpCryptogramOf
    rw [hcip]
    rfl
  have hlen : (cpCryptogramOf env k.sc).length = 16 := by
    refine length_cpCryptogramOf ?_ ?_
    · rw [hk]
      exact hc
    · rw [hk]
      exact hr
  have ho : o.sc = osdpComputeRmacI env'
      { a.sc with cpCryptogram := cpCryptogramOf env k.sc } := by
    show osdpComputeRmacI env' { (a.heard 0x13 k.selector).sc with
      cpCryptogram := _ } = _
    rw [HsSide.heard_sc]
  have hj : j.sc = { osdpComputeCpCryptogram env k.sc with
      rMac := o.sc.rMac } := rfl
  have hmac : o.sc.rMac.length = 16 := by
    rw [ho]
    refine env'.cipher.length_enc _ _ (env'.cipher.length_enc _ _ ?_)
    exact hlen
  refine ⟨hcg, hlen, ⟨?_, ?_, ?_, rfl, ?_⟩, hmac, ?_⟩
  · rw [hj, ho, hk, ha]
    rfl
  · rw [hj, ho, hk, ha]
    rfl
  · rw [hj, ho, hk, ha]
    rfl
  · rw [hj, ho, hk, ha]
    exact hfresh
  · rw [hj, hk]
    show v.sc.cMac.length = 16
    rw [hfresh]
    rfl

end Pure

-- ================================================================ decoders

section Decode

variable {env : Env} {run : List ApiCall → OsdpM Unit} {i j : Nat}
variable {s t : Osdp} {data : Bytes} {ret rc : Int}

/-- A PD that announces communication security may be asked for it. -/
theorem pdCmdCapOk_hs {b : Bool} (h : pdCmdCapOk j none s = .ok b t)
    (hid : hsCommand (s.pd j).cmdId = true)
    (hsec : (s.pd j).hsSide.security ≠ 0) : b = true ∧ t = s := by
  have hallow : capAllows (s.pd j) none = true := by
    have hcase : cmdCapability (s.pd j).cmdId
        = some (capCommunicationSecurity, false) := by
      rcases hsCommand_cases hid with e | e
      · rw [e]
        rfl
      · rw [e]
        rfl
    unfold capAllows
    rw [hcase]
    show (_ != 0 && true && decide (0 ≤ _)) = true
    rw [Bool.and_true, decide_eq_true (Nat.zero_le _), Bool.and_true]
    exact bne_iff_ne.mpr hsec
  unfold pdCmdCapOk at h
  obtain ⟨p, u, hg, h⟩ := bind_ok.mp h
  obtain ⟨rfl, rfl⟩ := getPd_ok.mp hg
  rw [if_pos hallow] at h
  obtain ⟨rfl, rfl⟩ := pure_ok.mp h
  exact ⟨rfl, rfl⟩

/-- Starting the channel of a PD over. -/
theorem osdpScSetup_pd {a : Unit} (h : osdpScSetup env j s = .ok a t)
    (hmode : (s.pd j).flags.pdMode = true) :
    ∃ uid : Bytes, uid.length = 8 ∧
      (t.pd j).hsSide = { (s.pd j).hsSide with
        sc := { scbk := (s.pd j).sc.scbk, pdClientUid := uid } } := by
  unfold osdpScSetup at h
  obtain ⟨p, u, hg, h⟩ := bind_ok.mp h
  obtain ⟨rfl, rfl⟩ := getPd_ok.mp hg
  rw [if_pos hmode] at h
  obtain rfl := updPd_ok.mp h
  refine ⟨pdClientUid (s.pd j).id, rfl, ?_⟩
  rw [updPd_pd_same]
  rfl

/-- Starting that of a CP over, with a number of its own. -/
theorem osdpScSetup_cp {a : Unit} (h : osdpScSetup env i s = .ok a t)
    (hmode : (s.pd i).flags.pdMode = false) :
    ∃ r : Bytes, r.length = 8 ∧
      (t.pd i).hsSide = { (s.pd i).hsSide with
        sc := { scbk := (s.pd i).sc.scbk, cpRandom := r } } := by
  unfold osdpScSetup at h
  obtain ⟨p, u, hg, h⟩ := bind_ok.mp h
  obtain ⟨rfl, rfl⟩ := getPd_ok.mp hg
  rw [if_neg (by rw [hmode]; exact Bool.false_ne_true)] at h
  obtain ⟨r, w, hw, h⟩ := bind_ok.mp h
  cases hw
  obtain rfl := updPd_ok.mp h
  refine ⟨randomBytes env s.drawn 8, ?_, ?_⟩
  · unfold randomBytes
    rw [List.length_map, List.length_range]
  · rw [updPd_pd_same]
    rfl

/-- Dropping what is on the line is no matter of the handshake. -/
theorem osdpPhyStateReset_side {a : Unit}
    (h : osdpPhyStateReset env i true s = .ok a t) :
    (t.pd i).hsSide = (s.pd i).hsSide := by
  unfold osdpPhyStateReset at h
  obtain ⟨_, u, hu, h⟩ := bind_ok.mp h
  have hus : (u.pd i).hsSide = (s.pd i).hsSide := by
    rw [← updPd_ok.mp hu, updPd_pd_same]
    rfl
  rw [if_pos rfl] at h
  obtain ⟨_, v, hv, h⟩ := bind_ok.mp h
  have hvu : (v.pd i).hsSide = (u.pd i).hsSide := by
    rw [← updPd_ok.mp hv, updPd_pd_same]
    rfl
  by_cases hflush : env.channelFlush = true
  · rw [if_pos hflush] at h
    cases h
    exact hvu.trans hus
  · rw [if_neg hflush] at h
    obtain ⟨-, rfl⟩ := pure_ok.mp h
    exact hvu.trans hus

/-- A CP that is about to challenge has started over, and nothing else of
its side moved. -/
theorem cpEnterScChlng_side {a : Unit}
    (h : cpEnterScChlng env i s = .ok a t)
    (hmode : (s.pd i).flags.pdMode = false) :
    ∃ r : Bytes, r.length = 8 ∧
      (t.pd i).hsSide = { (s.pd i).hsSide with
        sc := { scbk := (s.pd i).sc.scbk, cpRandom := r } } := by
  obtain ⟨_, u, hu, h⟩ := bind_ok.mp h
  have hreset : (u.pd i).hsSide = (s.pd i).hsSide :=
    osdpPhyStateReset_side hu
  have hsc : (u.pd i).sc = (s.pd i).sc := congrArg HsSide.sc hreset
  have hmode' : (u.pd i).flags.pdMode = false :=
    (congrArg HsSide.pdMode hreset).trans hmode
  obtain ⟨_, v, hv, h⟩ := bind_ok.mp h
  obtain ⟨r, hr, hside⟩ := osdpScSetup_cp hv hmode'
  obtain ⟨p, w, hg, h⟩ := bind_ok.mp h
  obtain ⟨rfl, rfl⟩ := getPd_ok.mp hg
  obtain rfl := observe_ok.mp h
  refine ⟨r, hr, ?_⟩
  show (v.pd i).hsSide = _
  rw [hside, hreset, hsc]

/-- A CP takes an answer to its challenge, if its key makes the
cryptogram's. -/
theorem cpDecodeResponse_ccrypt
    (h : cpDecodeResponse env run i (UInt8.ofNat replyCcrypt :: data) s
      = .ok rc t)
    (hact : (s.pd i).flags.scActive = false)
    (hcmd : (s.pd i).cmdId = cmdChlng) (hlen : data.length = 32) :
    (t.pd i).hsSide = (s.pd i).hsSide.keyed env data ∧
      (rc = cpErrNone ↔ osdpVerifyPdCryptogram env
        ((s.pd i).hsSide.keyed env data).sc = true) := by
  obtain ⟨_, u, hu, h⟩ := bind_ok.mp h
  obtain rfl := updPd_ok.mp hu
  obtain ⟨p, v, hg, h⟩ := bind_ok.mp h
  obtain ⟨rfl, rfl⟩ := getPd_ok.mp hg
  have h : decodeCcrypt env i data
      (s.updPd i fun p => { p with replyId := replyCcrypt }) = .ok rc t := h
  unfold decodeCcrypt at h
  obtain ⟨p, v, hg, h⟩ := bind_ok.mp h
  obtain ⟨rfl, rfl⟩ := getPd_ok.mp hg
  rw [updPd_pd_same, if_neg ?_] at h
  · obtain ⟨_, v, hv, h⟩ := bind_ok.mp h
    obtain ⟨_, w, hw, h⟩ := bind_ok.mp h
    obtain ⟨p, x, hg, h⟩ := bind_ok.mp h
    obtain ⟨rfl, rfl⟩ := getPd_ok.mp hg
    unfold osdpComputeSessionKeys at hw
    obtain ⟨_, y, hy, hw⟩ := bind_ok.mp hw
    obtain ⟨p, z, hg, hw⟩ := bind_ok.mp hw
    obtain ⟨rfl, rfl⟩ := getPd_ok.mp hg
    obtain rfl := observe_ok.mp hw
    have hvpd : v.pd i = { s.pd i with
        replyId := replyCcrypt, sc := takeCcrypt data (s.pd i).sc } := by
      rw [← updPd_ok.mp hv, updPd_pd_same, updPd_pd_same]
    have hypd : y.pd i = { s.pd i with
        replyId := replyCcrypt
        sc := ((s.pd i).hsSide.keyed env data).sc } := by
      rw [← updPd_ok.mp hy, updPd_pd_same, hvpd]
      rfl
    have hsc : (y.pd i).sc = ((s.pd i).hsSide.keyed env data).sc := by
      rw [hypd]
    have hside : (y.pd i).hsSide = (s.pd i).hsSide.keyed env data := by
      rw [hypd]
      rfl
    rw [← hsc]
    by_cases hbad : (!osdpVerifyPdCryptogram env (y.pd i).sc) = true
    · rw [if_pos hbad] at h
      obtain ⟨rfl, rfl⟩ := pure_ok.mp h
      refine ⟨hside, fun e => absurd e (by decide), fun e => ?_⟩
      rw [e] at hbad
      cases hbad
    · rw [if_neg hbad] at h
      obtain ⟨rfl, rfl⟩ := pure_ok.mp h
      rw [Bool.not_eq_true, Bool.not_eq_false'] at hbad
      exact ⟨hside, fun _ => hbad, fun _ => rfl⟩
  · rintro (e | e | e)
    · rw [hact] at e
      cases e
    · exact e hcmd
    · exact e hlen

/-- A CP takes the first MAC. -/
theorem cpDecodeResponse_rmacI
    (h : cpDecodeResponse env run i (UInt8.ofNat replyRmacI :: data) s
      = .ok rc t)
    (hact : (s.pd i).flags.scActive = false)
    (hcmd : (s.pd i).cmdId = cmdScrypt) (hlen : data.length = 16) :
    (t.pd i).hsSide = (s.pd i).hsSide.seeded data ∧ rc = cpErrNone := by
  obtain ⟨_, u, hu, h⟩ := bind_ok.mp h
  obtain rfl := updPd_ok.mp hu
  obtain ⟨p, v, hg, h⟩ := bind_ok.mp h
  obtain ⟨rfl, rfl⟩ := getPd_ok.mp hg
  have h : decodeRmacI i data
      (s.updPd i fun p => { p with replyId := replyRmacI }) = .ok rc t := h
  unfold decodeRmacI at h
  obtain ⟨p, v, hg, h⟩ := bind_ok.mp h
  obtain ⟨rfl, rfl⟩ := getPd_ok.mp hg
  rw [updPd_pd_same, if_neg ?_] at h
  · obtain ⟨_, v, hv, h⟩ := bind_ok.mp h
    obtain ⟨rfl, rfl⟩ := pure_ok.mp h
    refine ⟨?_, rfl⟩
    rw [← updPd_ok.mp hv, updPd_pd_same, updPd_pd_same]
    rfl
  · rintro (e | e | e)
    · rw [hact] at e
      cases e
    · exact e hcmd
    · exact e hlen

/-- Where `pd_decode_command` gets to the case of its command. -/
theorem pdDecodeCommand_hs {id : Nat}
    (h : pdDecodeCommand env run j (UInt8.ofNat id :: data) s = .ok ret t)
    (hid : hsCommand id = true) :
    ∃ u v r, (u.pd j).hsSide = (s.pd j).hsSide ∧ (u.pd j).cmdId = id ∧
      pdDecodeCases env run j id data u = .ok (some r) v ∧
      (r ≠ pdErrGeneric → ret = r ∧ t = v) := by
  have hbyte : (byteAt (UInt8.ofNat id :: data) 0).toNat = id := by
    rcases hsCommand_cases hid with rfl | rfl
    · rfl
    · rfl
  unfold pdDecodeCommand at h
  rw [hbyte] at h
  obtain ⟨_, u, hu, h⟩ := bind_ok.mp h
  obtain ⟨_, v, hv, h⟩ := bind_ok.mp h
  obtain ⟨p, w, hg, h⟩ := bind_ok.mp h
  obtain ⟨rfl, rfl⟩ := getPd_ok.mp hg
  have hupd : (u.pd j).hsSide = (s.pd j).hsSide := by
    unfold replyWithNak at hu
    rw [← updPd_ok.mp hu, updPd_pd_same]
    rfl
  have hvpd : (v.pd j).hsSide = (u.pd j).hsSide ∧ (v.pd j).cmdId = id := by
    rw [← updPd_ok.mp hv, updPd_pd_same]
    exact ⟨rfl, rfl⟩
  have hpolicy : refusedByPolicy (v.pd j) id = false := by
    have hplain : allowedInPlain id = true := by
      rcases hsCommand_cases hid with rfl | rfl
      · rfl
      · rfl
    unfold refusedByPolicy
    rw [hplain, Bool.not_true, Bool.and_false]
  rw [hpolicy, if_neg Bool.false_ne_true] at h
  obtain ⟨o, w, hd, h⟩ := bind_ok.mp h
  cases o with
  | none =>
    exfalso
    rcases hsCommand_cases hid with rfl | rfl
    · obtain ⟨_, _, _, hd⟩ := bind_ok.mp hd
      cases (pure_ok.mp hd).1
    · obtain ⟨_, _, _, hd⟩ := bind_ok.mp hd
      cases (pure_ok.mp hd).1
  | some r =>
    refine ⟨v, w, r, hvpd.1.trans hupd, hvpd.2, hd, fun hne => ?_⟩
    dsimp only at h
    rw [if_neg hne] at h
    obtain ⟨rfl, rfl⟩ := pure_ok.mp h
    exact ⟨rfl, rfl⟩

/-- Whatever channel a PD had is over. -/
theorem pdScDeactivate_side {a : Unit} (hr : ∀ calls, Keeps Quiet (run calls))
    (h : pdScDeactivate env run j s = .ok a t) :
    (t.pd j).hsSide = { (s.pd j).hsSide with active := false } := by
  obtain ⟨p, u, hg, h⟩ := bind_ok.mp h
  obtain ⟨rfl, rfl⟩ := getPd_ok.mp hg
  obtain ⟨_, v, hv, h⟩ := bind_ok.mp h
  unfold scDeactivate at hv
  have hvside : (v.pd j).hsSide
      = { (s.pd j).hsSide with active := false } := by
    rw [← updPd_ok.mp hv, updPd_pd_same]
    rfl
  by_cases hact : (s.pd j).flags.scActive = true
  · rw [if_pos hact] at h
    exact ((keeps_notifyScStatus hr j).of h |>.hsSide j).1.trans hvside
  · rw [if_neg hact] at h
    obtain ⟨-, rfl⟩ := pure_ok.mp h
    exact hvside

/-- A PD takes a challenge, whatever channel it has. -/
theorem pdDecodeCommand_chlng (hr : ∀ calls, Keeps Quiet (run calls))
    (h : pdDecodeCommand env run j (UInt8.ofNat cmdChlng :: data) s
      = .ok ret t)
    (hmode : (s.pd j).hsSide.pdMode = true)
    (hsec : (s.pd j).hsSide.security ≠ 0) (hlen : data.length = 8) :
    ret = pdErrNone ∧ (t.pd j).replyId = replyCcrypt ∧
      ∃ uid : Bytes, uid.length = 8 ∧
        (t.pd j).hsSide = (s.pd j).hsSide.challenged uid data := by
  obtain ⟨u, v, ret', hside, hid, hcase, hend⟩ := pdDecodeCommand_hs h rfl
  obtain ⟨ret'', w, hd, hp⟩ := bind_ok.mp hcase
  obtain ⟨e, rfl⟩ := pure_ok.mp hp
  obtain rfl := Option.some.inj e
  unfold pdDecodeChlng at hd
  rw [if_neg (not_not.mpr hlen)] at hd
  obtain ⟨b, c, hc, hgo⟩ := bind_ok.mp hd
  obtain ⟨rfl, rfl⟩ := pdCmdCapOk_hs hc (by rw [hid]; rfl)
    (by rw [hside]; exact hsec)
  rw [Bool.not_true, if_neg Bool.false_ne_true] at hgo
  obtain ⟨_, x, hx, hgo⟩ := bind_ok.mp hgo
  obtain ⟨_, y, hy, hgo⟩ := bind_ok.mp hgo
  obtain ⟨_, z, hz, hgo⟩ := bind_ok.mp hgo
  obtain ⟨rfl, rfl⟩ := pure_ok.mp hgo
  obtain ⟨rfl, rfl⟩ := hend (by decide)
  have hxside := pdScDeactivate_side hr hx
  have hxmode : (x.pd j).flags.pdMode = true := by
    have e := congrArg HsSide.pdMode (hxside.trans (by rw [hside]))
    exact e.trans hmode
  obtain ⟨uid, huid, hyside⟩ := osdpScSetup_pd hy hxmode
  have hzpd := updPd_ok.mp hz
  refine ⟨rfl, ?_, uid, huid, ?_⟩
  · rw [← hzpd, updPd_pd_same]
  · rw [← hzpd, updPd_pd_same]
    show { (y.pd j).hsSide with
      sc := { (y.pd j).hsSide.sc with cpRandom := data } } = _
    rw [hyside]
    show { (x.pd j).hsSide with
      sc := { scbk := (x.pd j).hsSide.sc.scbk, pdClientUid := uid,
              cpRandom := data } } = _
    rw [hxside, hside]
    rfl

/-- A PD takes the cryptogram of the CP, if its key makes it. -/
theorem pdDecodeCommand_scrypt
    (h : pdDecodeCommand env run j (UInt8.ofNat cmdScrypt :: data) s
      = .ok ret t)
    (hsec : (s.pd j).hsSide.security ≠ 0) (hlen : data.length = 16)
    (hact : (s.pd j).hsSide.active = false)
    (hdata : data = cpCryptogramOf env (s.pd j).hsSide.sc) :
    ret = pdErrNone ∧ (t.pd j).replyId = replyRmacI ∧
      (t.pd j).hsSide = (s.pd j).hsSide.offered data := by
  obtain ⟨u, v, ret', hside, hid, hcase, hend⟩ := pdDecodeCommand_hs h rfl
  obtain ⟨ret'', w, hd, hp⟩ := bind_ok.mp hcase
  obtain ⟨e, rfl⟩ := pure_ok.mp hp
  obtain rfl := Option.some.inj e
  unfold pdDecodeScrypt at hd
  rw [if_neg (not_not.mpr hlen)] at hd
  obtain ⟨b, c, hc, hgo⟩ := bind_ok.mp hd
  obtain ⟨rfl, rfl⟩ := pdCmdCapOk_hs hc (by rw [hid]; rfl)
    (by rw [hside]; exact hsec)
  rw [Bool.not_true, if_neg Bool.false_ne_true] at hgo
  obtain ⟨p, x, hg, hgo⟩ := bind_ok.mp hgo
  obtain ⟨rfl, rfl⟩ := getPd_ok.mp hg
  have hoff : (c.pd j).flags.scActive = false := by
    have e := congrArg HsSide.active hside
    exact e.trans hact
  have hsc : (c.pd j).sc = (s.pd j).hsSide.sc := congrArg HsSide.sc hside
  rw [hoff, if_neg Bool.false_ne_true] at hgo
  obtain ⟨_, x, hx, hgo⟩ := bind_ok.mp hgo
  obtain ⟨p, y, hg, hgo⟩ := bind_ok.mp hgo
  obtain ⟨rfl, rfl⟩ := getPd_ok.mp hg
  have hxpd : x.pd j = { c.pd j with
      sc := { (c.pd j).sc with cpCryptogram := data } } := by
    rw [← updPd_ok.mp hx, updPd_pd_same]
  have hver : osdpVerifyCpCryptogram env (x.pd j).sc = true := by
    rw [hxpd, hsc]
    show (data == cpCryptogramOf env (s.pd j).hsSide.sc) = true
    exact beq_iff_eq.mpr hdata
  rw [hver, Bool.not_true, if_neg Bool.false_ne_true] at hgo
  obtain ⟨_, z, hz, hgo⟩ := bind_ok.mp hgo
  obtain ⟨rfl, rfl⟩ := pure_ok.mp hgo
  obtain ⟨rfl, rfl⟩ := hend (by decide)
  unfold setReply at hz
  have hzpd := updPd_ok.mp hz
  refine ⟨rfl, ?_, ?_⟩
  · rw [← hzpd, updPd_pd_same]
  · rw [← hzpd, updPd_pd_same]
    show (x.pd j).hsSide = _
    rw [hxpd, ← hside]
    rfl

end Decode

-- =============================================================== exchanges

/-- A CP and a PD on one line: the environment of each, how deep its
callbacks may call back, and the slot each keeps the other in. -/
structure Pairing where
  cpEnv : Env
  pdEnv : Env
  cpDepth : Nat
  pdDepth : Nat
  i : Nat
  j : Nat
  crc : cpEnv.crc16 = pdEnv.crc16
  cipher : cpEnv.cipher = pdEnv.cipher

/-- The CP sends command `id`, the PD carries it out and answers, and the
CP takes the answer; each frame arrives as it was sent.  Between any two
of these both ends may do whatever leaves their side of the handshake
alone.  `c` and `p` are the two ends before. -/
structure Exchange (L : Pairing) (id : Nat) (c p : Osdp) where
  asking : Osdp
  asked : Osdp
  hearing : Osdp
  heard : Osdp
  obeyed : Osdp
  answering : Osdp
  answered : Osdp
  reading : Osdp
  got : Osdp
  done : Osdp
  behind : Bytes
  behind' : Bytes
  command : Bytes
  reply : Bytes
  /-- the verdict of the PD on the command, and of the CP on the reply -/
  ret : Int
  rc : Int
  toAsk : (asking.pd L.i).hsSide = (c.pd L.i).hsSide
  asks : (asking.pd L.i).cmdId = id
  askRoom : packetBufSize ≤ asking.txBuf.length
  built : cpBuildPacket L.cpEnv (cpRunCalls L.cpEnv L.cpDepth) L.i asking
    = .ok true asked
  toHear : (hearing.pd L.j).hsSide = (p.pd L.j).hsSide
  arrived : FrameHeld L.j hearing (sentFrame L.i asked) behind
  decoded : osdpPhyDecodePacket L.pdEnv L.j hearing
    = .ok (command.length, command) heard
  carriedOut : pdDecodeCommand L.pdEnv (pdRunCalls L.pdEnv L.pdDepth) L.j
    command heard = .ok ret obeyed
  toAnswer : (answering.pd L.j).hsSide = (obeyed.pd L.j).hsSide
  answers : (answering.pd L.j).replyId = (obeyed.pd L.j).replyId
  answerRoom : packetBufSize ≤ answering.txBuf.length
  replied : pdBuildReplyPacket L.pdEnv (pdRunCalls L.pdEnv L.pdDepth) L.j
    answering = .ok pdErrNone answered
  toRead : (reading.pd L.i).hsSide = (asked.pd L.i).hsSide
  waits : (reading.pd L.i).cmdId = (asked.pd L.i).cmdId
  arrived' : FrameHeld L.i reading (sentFrame L.j answered) behind'
  decoded' : osdpPhyDecodePacket L.cpEnv L.i reading
    = .ok (reply.length, reply) got
  taken : cpDecodeResponse L.cpEnv (cpRunCalls L.cpEnv L.cpDepth) L.i reply
    got = .ok rc done

section Exchanges

variable {L : Pairing} {id : Nat} {c p : Osdp}

/-- Where a handshake frame was read, its payload is the one that
arrives. -/
theorem HsArrives.payload {env : Env} {j : Nat} {frame rest : Bytes}
    {type sel : UInt8} {payload got : Bytes} {w v : Osdp}
    (h : HsArrives env j frame type sel payload w)
    (hheld : FrameHeld j w frame rest)
    (hdec : osdpPhyDecodePacket env j w = .ok (got.length, got) v) :
    got = payload ∧ v.pd j = hsTaken type sel (w.pd j) := by
  obtain ⟨v', hdec', hpd, -⟩ := h.reads rest hheld
  rw [hdec] at hdec'
  injection hdec' with e₁ e₂
  subst e₂
  exact ⟨congrArg Prod.snd e₁, hpd⟩

/-- The way out: the PD has the message of the CP. -/
theorem Exchange.command_ok (e : Exchange L id c p)
    (hid : hsCommand id = true) (hcp : (c.pd L.i).hsSide.pdMode = false)
    (hact : (c.pd L.i).hsSide.active = false)
    (hcap : (p.pd L.j).hsSide.capable = true) :
    let m := cpHsMessage L.cpEnv id (c.pd L.i).hsSide
    phyIntegrityOk L.pdEnv (sentFrame L.i e.asked) = true ∧
      e.command = m.payload ∧
      (e.heard.pd L.j).hsSide = (p.pd L.j).hsSide.heard m.type m.sel ∧
      (e.asked.pd L.i).hsSide = { (c.pd L.i).hsSide with sc := m.sc } ∧
      (e.asked.pd L.i).cmdId = id := by
  intro m
  have hmode : (e.asking.pd L.i).hsSide.pdMode = false := by
    rw [e.toAsk]
    exact hcp
  have hidle : (e.asking.pd L.i).hsSide.active = false := by
    rw [e.toAsk]
    exact hact
  have hready : (e.hearing.pd L.j).hsSide.capable = true := by
    rw [e.toHear]
    exact hcap
  obtain ⟨harr, hside, hcmd⟩ := cpBuildPacket_hs (w := e.hearing) (j := L.j)
    L.crc hmode hidle e.askRoom (by rw [e.asks]; exact hid)
    (fun _ => hready) e.built
  rw [e.asks, e.toAsk] at harr hside
  obtain ⟨hpay, hpd⟩ := harr.payload e.arrived e.decoded
  refine ⟨harr.intact, hpay, ?_, hside, hcmd.trans e.asks⟩
  rw [hpd, hsSide_hsTaken, e.toHear]

/-- The way back: the CP has the message of the PD. -/
theorem Exchange.reply_ok (e : Exchange L id c p)
    (hid : hsReply (e.obeyed.pd L.j).replyId = true)
    (hpd : (e.obeyed.pd L.j).hsSide.pdMode = true)
    (hact : (e.obeyed.pd L.j).hsSide.active = false)
    (hcp : (e.asked.pd L.i).hsSide.pdMode = false) :
    ∃ r : Bytes, r.length = 8 ∧
      let m := pdHsMessage L.pdEnv r (e.obeyed.pd L.j).replyId
        (e.obeyed.pd L.j).hsSide
      phyIntegrityOk L.cpEnv (sentFrame L.j e.answered) = true ∧
        e.reply = m.payload ∧
        (e.got.pd L.i).hsSide = (e.asked.pd L.i).hsSide ∧
        (e.got.pd L.i).cmdId = (e.asked.pd L.i).cmdId ∧
        (e.answered.pd L.j).hsSide = (e.obeyed.pd L.j).hsSide.said m := by
  have hmode : (e.answering.pd L.j).hsSide.pdMode = true := by
    rw [e.toAnswer]
    exact hpd
  have hidle : (e.answering.pd L.j).hsSide.active = false := by
    rw [e.toAnswer]
    exact hact
  have hcpMode : (e.reading.pd L.i).hsSide.pdMode = false := by
    rw [e.toRead]
    exact hcp
  obtain ⟨r, hr, harr, hside⟩ := pdBuildReplyPacket_hs (w := e.reading)
    (i := L.i) (quiet_pdRunCalls L.pdEnv L.pdDepth) L.crc.symm hmode hidle
    e.answerRoom (by rw [e.answers]; exact hid)
    (fun hk => absurd (hcpMode.symm.trans hk) Bool.false_ne_true) e.replied
  rw [e.answers, e.toAnswer] at harr hside
  obtain ⟨hpay, hgot⟩ := harr.payload e.arrived' e.decoded'
  refine ⟨r, hr, harr.intact, hpay, ?_, ?_, hside⟩
  · have htype : (pdHsMessage L.pdEnv r (e.obeyed.pd L.j).replyId
        (e.obeyed.pd L.j).hsSide).type = 0x12 ∨
      (pdHsMessage L.pdEnv r (e.obeyed.pd L.j).replyId
        (e.obeyed.pd L.j).hsSide).type = 0x14 := by
      unfold pdHsMessage
      split
      · exact .inl rfl
      · exact .inr rfl
    rw [hgot, hsSide_hsTaken, HsSide.heard_reply htype, e.toRead]
  · have hkeep (type sel : UInt8) (q : OsdpPd) :
        (hsTaken type sel q).cmdId = q.cmdId := by
      unfold hsTaken
      split <;> rfl
    rw [hgot, hkeep, e.waits]

/-- **The first exchange.**  The PD accepts the challenge and makes its
keys from it; the CP makes its own from what it is answered, and accepts
just if these give the cryptogram the PD sent. -/
theorem Exchange.chlng (e : Exchange L cmdChlng c p)
    (hcp : (c.pd L.i).hsSide.pdMode = false)
    (hact : (c.pd L.i).hsSide.active = false)
    (hrand : (c.pd L.i).hsSide.sc.cpRandom.length = 8)
    (hpd : (p.pd L.j).hsSide.pdMode = true)
    (hcap : (p.pd L.j).hsSide.capable = true)
    (hsec : (p.pd L.j).hsSide.security ≠ 0) :
    e.ret = pdErrNone ∧ ∃ uid r : Bytes, uid.length = 8 ∧ r.length = 8 ∧
      (e.answered.pd L.j).hsSide = answeredSide L.pdEnv uid r
        (c.pd L.i).hsSide (p.pd L.j).hsSide ∧
      (e.done.pd L.i).hsSide = keyedSide L.cpEnv L.pdEnv uid r
        (c.pd L.i).hsSide (p.pd L.j).hsSide ∧
      (e.rc = cpErrNone ↔ osdpVerifyPdCryptogram L.cpEnv
        (e.done.pd L.i).hsSide.sc = true) := by
  obtain ⟨v, hv⟩ : ∃ v, v = (c.pd L.i).hsSide := ⟨_, rfl⟩
  obtain ⟨w, hw⟩ : ∃ w, w = (p.pd L.j).hsSide := ⟨_, rfl⟩
  obtain ⟨-, hcmd, hheard, hasked, hid⟩ := e.command_ok rfl hcp hact hcap
  rw [← hv, ← hw] at hheard
  rw [← hv] at hcmd hasked hcp hact hrand
  rw [← hw] at hpd hsec
  have hm : cpHsMessage L.cpEnv cmdChlng v = chlngMessage v := if_pos rfl
  rw [hm] at hcmd hheard hasked
  obtain ⟨hmode', -, hsec'⟩ := w.heard_keeps 0x11 v.selector
  have hcarried := e.carriedOut
  rw [hcmd] at hcarried
  obtain ⟨hret, hreply, uid, huid, hobeyed⟩ := pdDecodeCommand_chlng
    (quiet_pdRunCalls L.pdEnv L.pdDepth) hcarried
    (by rw [hheard]; exact hmode'.trans hpd)
    (by rw [hheard]; exact fun e => hsec (hsec'.symm.trans e)) hrand
  rw [hheard] at hobeyed
  have hob : (e.obeyed.pd L.j).hsSide
      = (w.heard 0x11 v.selector).challenged uid v.sc.cpRandom := hobeyed
  obtain ⟨r, hr, -, hrep, hgot, hgotId, hans⟩ := e.reply_ok
    (by rw [hreply]; rfl)
    (by rw [hob]; exact hmode'.trans hpd)
    (by rw [hob]; rfl) (by rw [hasked]; exact hcp)
  have hm' : pdHsMessage L.pdEnv r (e.obeyed.pd L.j).replyId
      (e.obeyed.pd L.j).hsSide = ccryptMessage L.pdEnv r
        ((w.heard 0x11 v.selector).challenged uid v.sc.cpRandom) := by
    rw [hreply, hob]
    exact if_pos rfl
  rw [hm'] at hrep hans
  rw [hob] at hans
  have htaken := e.taken
  rw [hrep] at htaken
  have hgv : (e.got.pd L.i).hsSide = v := hgot.trans hasked
  have hlen : (ccryptMessage L.pdEnv r ((w.heard 0x11 v.selector).challenged
      uid v.sc.cpRandom)).data.length = 32 := by
    have hcg : (pdCryptogramOf L.pdEnv
        (answeredSide L.pdEnv uid r v w).sc).length = 16 :=
      length_pdCryptogramOf hrand hr
    show (uid ++ r ++ pdCryptogramOf L.pdEnv
      (answeredSide L.pdEnv uid r v w).sc).length = 32
    rw [List.length_append, List.length_append, huid, hr, hcg]
  obtain ⟨hdone, hrc⟩ := cpDecodeResponse_ccrypt htaken
    (show (e.got.pd L.i).hsSide.active = false by rw [hgv]; exact hact)
    (hgotId.trans hid) hlen
  rw [hgv] at hdone hrc
  refine ⟨hret, uid, r, huid, hr, ?_, ?_, ?_⟩
  · rw [← hv, ← hw]
    exact hans
  · rw [← hv, ← hw]
    exact hdone
  · rw [hdone]
    exact hrc

/-- **The second exchange.**  Where both ends make the same cryptogram, the
PD accepts that of the CP and opens the channel, and the CP takes the first
MAC. -/
theorem Exchange.scrypt (e : Exchange L cmdScrypt c p)
    (hcp : (c.pd L.i).hsSide.pdMode = false)
    (hact : (c.pd L.i).hsSide.active = false)
    (hpd : (p.pd L.j).hsSide.pdMode = true)
    (hoff : (p.pd L.j).hsSide.active = false)
    (hcap : (p.pd L.j).hsSide.capable = true)
    (hsec : (p.pd L.j).hsSide.security ≠ 0)
    (hmeet : cpCryptogramOf L.cpEnv (c.pd L.i).hsSide.sc
      = cpCryptogramOf L.pdEnv (p.pd L.j).hsSide.sc)
    (hlen : (cpCryptogramOf L.cpEnv (c.pd L.i).hsSide.sc).length = 16) :
    e.ret = pdErrNone ∧ e.rc = cpErrNone ∧
      (e.answered.pd L.j).hsSide = openedSide L.pdEnv
        (c.pd L.i).hsSide.selector
        (cpCryptogramOf L.cpEnv (c.pd L.i).hsSide.sc) (p.pd L.j).hsSide ∧
      { (e.done.pd L.i).hsSide with active := true }
        = joinedSide L.cpEnv L.pdEnv (c.pd L.i).hsSide (p.pd L.j).hsSide := by
  obtain ⟨v, hv⟩ : ∃ v, v = (c.pd L.i).hsSide := ⟨_, rfl⟩
  obtain ⟨w, hw⟩ : ∃ w, w = (p.pd L.j).hsSide := ⟨_, rfl⟩
  obtain ⟨-, hcmd, hheard, hasked, hid⟩ := e.command_ok rfl hcp hact hcap
  rw [← hv, ← hw] at hheard hmeet
  rw [← hv] at hcmd hasked hcp hact hlen
  rw [← hw] at hpd hsec hoff
  have hm : cpHsMessage L.cpEnv cmdScrypt v = scryptMessage L.cpEnv v :=
    if_neg (by decide)
  rw [hm] at hcmd hheard hasked
  obtain ⟨hmode', -, hsec'⟩ := w.heard_keeps 0x13 v.selector
  have hcarried := e.carriedOut
  rw [hcmd] at hcarried
  obtain ⟨hret, hreply, hobeyed⟩ := pdDecodeCommand_scrypt hcarried
    (by rw [hheard]; exact fun e => hsec (hsec'.symm.trans e)) hlen
    (by rw [hheard, HsSide.heard_active]; exact hoff)
    (by rw [hheard, HsSide.heard_sc]; exact hmeet)
  have hob : (e.obeyed.pd L.j).hsSide = (w.heard 0x13 v.selector).offered
      (cpCryptogramOf L.cpEnv v.sc) := by
    rw [hobeyed, hheard]
    rfl
  obtain ⟨r, -, -, hrep, hgot, hgotId, hans⟩ := e.reply_ok
    (by rw [hreply]; rfl)
    (by rw [hob]; exact hmode'.trans hpd)
    (by rw [hob]; exact (HsSide.heard_active _ _ _).trans hoff)
    (by rw [hasked]; exact hcp)
  have hm' : pdHsMessage L.pdEnv r (e.obeyed.pd L.j).replyId
      (e.obeyed.pd L.j).hsSide = rmacIMessage L.pdEnv
        ((w.heard 0x13 v.selector).offered
          (cpCryptogramOf L.cpEnv v.sc)) := by
    rw [hreply, hob]
    exact if_neg (by decide)
  rw [hm'] at hrep hans
  rw [hob] at hans
  have htaken := e.taken
  rw [hrep] at htaken
  have hgv : (e.got.pd L.i).hsSide
      = { v with sc := osdpComputeCpCryptogram L.cpEnv v.sc } :=
    hgot.trans hasked
  have hmac : (rmacIMessage L.pdEnv ((w.heard 0x13 v.selector).offered
      (cpCryptogramOf L.cpEnv v.sc))).data.length = 16 :=
    L.pdEnv.cipher.length_enc _ _ (L.pdEnv.cipher.length_enc _ _ hlen)
  obtain ⟨hdone, hrc⟩ := cpDecodeResponse_rmacI htaken
    (show (e.got.pd L.i).hsSide.active = false by rw [hgv]; exact hact)
    (hgotId.trans hid) hmac
  refine ⟨hret, hrc, ?_, ?_⟩
  · rw [← hv, ← hw]
    exact hans
  · rw [← hv, ← hw, hdone, hgv]
    rfl

/-- A CP and a PD work from one key: that of the CP, which a PD that is
being installed takes over with the challenge if it is the default key. -/
def SameKey (cp pd : OsdpPd) : Prop :=
  (hsTaken 0x11 (keySelector cp) pd).sessionKeyBase = cp.sessionKeyBase

/-- The two ends before a handshake: a CP that has no channel, and a PD
that may have one. -/
structure Unpaired (L : Pairing) (b p : Osdp) : Prop where
  cpMode : (b.pd L.i).flags.pdMode = false
  inactive : (b.pd L.i).flags.scActive = false
  pdMode : (p.pd L.j).flags.pdMode = true
  capable : (p.pd L.j).scIsCapable = true
  announced :
    ((p.pd L.j).cap capCommunicationSecurity).complianceLevel ≠ 0

/-- The two sides say whether two ends keep step. -/
theorem InStep.of_hsSide {p r : OsdpPd} (hp : p.hsSide.pdMode = false)
    (hr : r.hsSide.pdMode = true)
    (ha : r.hsSide.active = p.hsSide.active)
    (hc : r.hsSide.capable = true)
    (hchain : SameChain p.hsSide.sc r.hsSide.sc)
    (hrMac : p.hsSide.sc.rMac.length = 16)
    (hcMac : p.hsSide.sc.cMac.length = 16) : InStep p r := by
  have hp : p.flags.pdMode = false := hp
  have hr : r.flags.pdMode = true := hr
  refine ⟨?_, ha, fun e => ?_, fun _ _ => hc, hchain, hrMac, hcMac⟩
  · rw [hr, hp]
    rfl
  · rw [hp] at e
    cases e

end Exchanges

-- ================================================================ a run

/-- Where a run ended. -/
def after {α : Type} : EStateM.Result Fault Osdp α → Osdp
  | .ok _ s => s
  | .error _ s => s

theorem ok_after {α : Type} [DecidableEq α] {a : α}
    {r : EStateM.Result Fault Osdp α} (h : returned a r = true) :
    r = .ok a (after r) := by
  obtain ⟨u, rfl⟩ := returned_ok h
  rfl

/-- The line hands this frame to end `j`, without a mark byte. -/
def Osdp.taking (s : Osdp) (j : Nat) (frame : Bytes) : Osdp :=
  (s.write .rx 0 frame).updPd j fun p =>
    { p with
      packetBuf := .rx
      packetBufLen := frame.length
      flags := { p.flags with pktHasMark := false } }

theorem frameHeld_taking (s : Osdp) (j : Nat) (frame : Bytes) :
    FrameHeld j (s.taking j frame) frame ((s.buf .rx).drop frame.length) := by
  have hpd : (s.taking j frame).pd j = { s.pd j with
      packetBuf := .rx
      packetBufLen := frame.length
      flags := { (s.pd j).flags with pktHasMark := false } } := by
    unfold Osdp.taking
    rw [updPd_pd_same, write_pd]
  have hlen : ((s.taking j frame).pd j).markLen = 0 := by
    rw [hpd]
    rfl
  constructor
  · rw [hlen, hpd]
    show ((s.write .rx 0 frame).buf .rx).drop 0 = _
    rw [write_buf]
    unfold writeAt
    rw [List.take_zero, Nat.zero_add]
    rfl
  · rw [hlen, hpd]
    rfl

theorem taking_side (s : Osdp) (j : Nat) (frame : Bytes) :
    ((s.taking j frame).pd j).hsSide = (s.pd j).hsSide ∧
      ((s.taking j frame).pd j).cmdId = (s.pd j).cmdId := by
  unfold Osdp.taking
  rw [updPd_pd_same, write_pd]
  exact ⟨rfl, rfl⟩

section Play

variable (L : Pairing) (id : Nat) (c p : Osdp) (command reply : Bytes)

/-- The states of an exchange in which nothing happens in between, for the
payloads the two ends are to read. -/
def playAsking : Osdp := c.updPd L.i fun q => { q with cmdId := id }

def playAsked : Osdp :=
  after (cpBuildPacket L.cpEnv (cpRunCalls L.cpEnv L.cpDepth) L.i
    (playAsking L id c))

def playHearing : Osdp :=
  p.taking L.j (sentFrame L.i (playAsked L id c))

def playHeard : Osdp :=
  after (osdpPhyDecodePacket L.pdEnv L.j (playHearing L id c p))

def playObeyed : Osdp :=
  after (pdDecodeCommand L.pdEnv (pdRunCalls L.pdEnv L.pdDepth) L.j command
    (playHeard L id c p))

def playAnswered : Osdp :=
  after (pdBuildReplyPacket L.pdEnv (pdRunCalls L.pdEnv L.pdDepth) L.j
    (playObeyed L id c p command))

def playReading : Osdp :=
  (playAsked L id c).taking L.i
    (sentFrame L.j (playAnswered L id c p command))

def playGot : Osdp :=
  after (osdpPhyDecodePacket L.cpEnv L.i (playReading L id c p command))

/-- Every step returns, with these payloads and verdicts. -/
structure Plays (ret rc : Int) : Prop where
  askRoom : packetBufSize ≤ (playAsking L id c).txBuf.length
  built : returned true (cpBuildPacket L.cpEnv
    (cpRunCalls L.cpEnv L.cpDepth) L.i (playAsking L id c)) = true
  decoded : returned ((command.length : Int), command)
    (osdpPhyDecodePacket L.pdEnv L.j (playHearing L id c p)) = true
  carriedOut : returned ret (pdDecodeCommand L.pdEnv
    (pdRunCalls L.pdEnv L.pdDepth) L.j command
    (playHeard L id c p)) = true
  answerRoom : packetBufSize ≤ (playObeyed L id c p command).txBuf.length
  replied : returned pdErrNone (pdBuildReplyPacket L.pdEnv
    (pdRunCalls L.pdEnv L.pdDepth) L.j
    (playObeyed L id c p command)) = true
  decoded' : returned ((reply.length : Int), reply)
    (osdpPhyDecodePacket L.cpEnv L.i (playReading L id c p command)) = true
  taken : returned rc (cpDecodeResponse L.cpEnv
    (cpRunCalls L.cpEnv L.cpDepth) L.i reply
    (playGot L id c p command)) = true

variable {L id c p command reply} {ret rc : Int}

/-- Such a run is an exchange. -/
def Exchange.play (h : Plays L id c p command reply ret rc) :
    Exchange L id c p where
  asking := playAsking L id c
  asked := playAsked L id c
  hearing := playHearing L id c p
  heard := playHeard L id c p
  obeyed := playObeyed L id c p command
  answering := playObeyed L id c p command
  answered := playAnswered L id c p command
  reading := playReading L id c p command
  got := playGot L id c p command
  done := after (cpDecodeResponse L.cpEnv (cpRunCalls L.cpEnv L.cpDepth) L.i
    reply (playGot L id c p command))
  behind := (p.buf .rx).drop (sentFrame L.i (playAsked L id c)).length
  behind' := ((playAsked L id c).buf .rx).drop
    (sentFrame L.j (playAnswered L id c p command)).length
  command := command
  reply := reply
  ret := ret
  rc := rc
  toAsk := by
    unfold playAsking
    rw [updPd_pd_same]
    rfl
  asks := by
    unfold playAsking
    rw [updPd_pd_same]
  askRoom := h.askRoom
  built := ok_after h.built
  toHear := (taking_side _ _ _).1
  arrived := frameHeld_taking _ _ _
  decoded := ok_after h.decoded
  carriedOut := ok_after h.carriedOut
  toAnswer := rfl
  answers := rfl
  answerRoom := h.answerRoom
  replied := ok_after h.replied
  toRead := (taking_side _ _ _).1
  waits := (taking_side _ _ _).2
  arrived' := frameHeld_taking _ _ _
  decoded' := ok_after h.decoded'
  taken := ok_after h.taken

end Play

/-- A CP and a PD that hold one key, and draw the numbers of a handshake
whose blocks are known. -/
def keyedLine : Pairing where
  cpEnv := keyedCpEnv
  pdEnv := handshakeEnv
  cpDepth := 1
  pdDepth := 1
  i := 0
  j := 0
  crc := rfl
  cipher := rfl

/-- The CP. -/
def keyedAsker : Osdp :=
  { rxIsTx := true
    pd := fun _ =>
      { state := .scChlng
        flags := { scCapable := true }
        sc := { scbk := writeBe 16 0xABABABABABABABABABABABABABABABAB } } }

/-- The PD. -/
def keyedAnswerer : Osdp :=
  { pd := fun _ =>
      { flags := { pdMode := true, scCapable := true }
        cap := fun k => if k = capCommunicationSecurity then ⟨k, 1, 1⟩ else {}
        sc := { scbk := writeBe 16 0xABABABABABABABABABABABABABABABAB } } }

/-- The CP, once it has challenged. -/
def keyedChallenger : Osdp :=
  after (cpEnterScChlng keyedLine.cpEnv keyedLine.i keyedAsker)

theorem enters_keyedChallenger :
    cpEnterScChlng keyedLine.cpEnv keyedLine.i keyedAsker
      = .ok () keyedChallenger :=
  ok_after (by decide +kernel)

/-- The first exchange between the two. -/
theorem plays_keyedChlng :
    Plays keyedLine cmdChlng keyedChallenger keyedAnswerer
      (writeBe 9 0x76B0B1B2B3B4B5B6B7)
      (writeBe 33
        0x7600000000000000000102030405060708363148542500DEAB6175F8EEAA615032)
      pdErrNone cpErrNone := by
  constructor <;> decide +kernel

/-- And the second one. -/
theorem plays_keyedScrypt :
    Plays keyedLine cmdScrypt (Exchange.play plays_keyedChlng).done
      (Exchange.play plays_keyedChlng).answered
      (writeBe 17 0x77B715A474B0FCD9D2B97A4A609D596D6D)
      (writeBe 17 0x78B51EFA1777DEC4AE2434B2BC642A0FF3)
      pdErrNone cpErrNone := by
  constructor <;> decide +kernel

/-- Before it, the two are a CP without a channel and a PD that may have
one. -/
theorem unpaired_keyedLine : Unpaired keyedLine keyedAsker keyedAnswerer :=
  ⟨rfl, rfl, rfl, rfl, by decide⟩

-- =============================================================== agreement

section Agreement

variable {L : Pairing} {b c p : Osdp} {x : Unit}

/-- **A CP accepts a PD that holds its key.**  Whatever key the PD works
from, it accepts the challenge; and the CP accepts the answer just if that
key gives, over the two numbers drawn for this handshake, the proof that
its own key gives. -/
theorem ccrypt_accepted_iff (hends : Unpaired L b p)
    (henter : cpEnterScChlng L.cpEnv L.i b = .ok x c)
    (e : Exchange L cmdChlng c p) :
    e.ret = pdErrNone ∧ ∃ cpRandom pdRandom : Bytes,
      cpRandom.length = 8 ∧ pdRandom.length = 8 ∧
      (e.done.pd L.i).sc.cpRandom = cpRandom ∧
      (e.done.pd L.i).sc.pdRandom = pdRandom ∧
      (e.answered.pd L.j).sc.cpRandom = cpRandom ∧
      (e.answered.pd L.j).sc.pdRandom = pdRandom ∧
      (e.rc = cpErrNone ↔
        proofOf L.pdEnv (hsTaken 0x11 (keySelector (b.pd L.i))
          (p.pd L.j)).sessionKeyBase cpRandom pdRandom
          = proofOf L.cpEnv (b.pd L.i).sessionKeyBase cpRandom pdRandom) := by
  obtain ⟨hcp, hact, hpd, hcap, hsec⟩ := hends
  obtain ⟨d, hd, hside⟩ := cpEnterScChlng_side henter hcp
  obtain ⟨hret, uid, r, hu, hr, hans, hdone, hrc⟩ := e.chlng
    (by rw [hside]; exact hcp) (by rw [hside]; exact hact)
    (by rw [hside]; exact hd) hpd hcap hsec
  rw [hside] at hans hdone
  have hkeys : (keyedSide L.cpEnv L.pdEnv uid r { (b.pd L.i).hsSide with
      sc := { scbk := (b.pd L.i).sc.scbk, cpRandom := d } }
      (p.pd L.j).hsSide).sc = _ := keyedSide_sc hu hr hd
  have hcp' := congrArg HsSide.sc hdone
  have hpd' := congrArg HsSide.sc hans
  rw [hkeys] at hcp'
  refine ⟨hret, d, r, hd, hr, ?_, ?_, ?_, ?_, ?_⟩
  · exact congrArg OsdpSecureChannel.cpRandom hcp'
  · exact congrArg OsdpSecureChannel.pdRandom hcp'
  · exact congrArg OsdpSecureChannel.cpRandom hpd'
  · exact congrArg OsdpSecureChannel.pdRandom hpd'
  · rw [hrc, hdone, verify_keyedSide hu hr hd]
    have hbase : (hsTaken 0x11 (keySelector (b.pd L.i))
        (p.pd L.j)).sessionKeyBase
        = ((p.pd L.j).hsSide.heard 0x11 (keySelector (b.pd L.i))).keyBase :=
      congrArg HsSide.keyBase (hsSide_hsTaken _ _ _)
    rw [hbase]
    exact Iff.rfl

/-- A CP accepts a PD that holds its key. -/
theorem ccrypt_accepted_iff_keyed :
    ∃ e : Exchange keyedLine cmdChlng keyedChallenger keyedAnswerer,
      e.rc = cpErrNone ∧ e.ret = pdErrNone ∧
      ∃ cpRandom pdRandom : Bytes,
        cpRandom.length = 8 ∧ pdRandom.length = 8 ∧
        (e.done.pd 0).sc.cpRandom = cpRandom ∧
        (e.done.pd 0).sc.pdRandom = pdRandom ∧
        (e.answered.pd 0).sc.cpRandom = cpRandom ∧
        (e.answered.pd 0).sc.pdRandom = pdRandom ∧
        (e.rc = cpErrNone ↔
          proofOf handshakeEnv (hsTaken 0x11 (keySelector (keyedAsker.pd 0))
            (keyedAnswerer.pd 0)).sessionKeyBase cpRandom pdRandom
            = proofOf keyedCpEnv (keyedAsker.pd 0).sessionKeyBase cpRandom
              pdRandom) :=
  ⟨.play plays_keyedChlng, rfl,
    ccrypt_accepted_iff unpaired_keyedLine enters_keyedChallenger
      (.play plays_keyedChlng)⟩

/-- **A handshake leaves both ends with the same channel.**  When a CP that
has no channel enters the challenge state, its two commands and their
replies arrive, and the PD works from its key, then every verdict on the
way is success, and once the CP puts its channel up the two ends keep
step. -/
theorem handshake_agrees (hends : Unpaired L b p)
    (hkey : SameKey (b.pd L.i) (p.pd L.j))
    (henter : cpEnterScChlng L.cpEnv L.i b = .ok x c)
    (e : Exchange L cmdChlng c p)
    (f : Exchange L cmdScrypt e.done e.answered) :
    (e.ret = pdErrNone ∧ e.rc = cpErrNone) ∧
      (f.ret = pdErrNone ∧ f.rc = cpErrNone) ∧
      (f.answered.pd L.j).flags.scActive = true ∧
      ∀ y u, scActivate L.i f.done = .ok y u →
        InStep (u.pd L.i) (f.answered.pd L.j) := by
  obtain ⟨hcp, hact, hpd, hcap, hsec⟩ := hends
  obtain ⟨d, hd, hside⟩ := cpEnterScChlng_side henter hcp
  obtain ⟨hret, uid, r, hu, hr, hans, hdone, hrc⟩ := e.chlng
    (by rw [hside]; exact hcp) (by rw [hside]; exact hact)
    (by rw [hside]; exact hd) hpd hcap hsec
  rw [hside] at hans hdone
  -- `v` is the CP that starts over, `w` the PD before
  obtain ⟨v, hv⟩ : ∃ v, v = { (b.pd L.i).hsSide with
    sc := { scbk := (b.pd L.i).sc.scbk, cpRandom := d } } := ⟨_, rfl⟩
  obtain ⟨w, hw⟩ : ∃ w, w = (p.pd L.j).hsSide := ⟨_, rfl⟩
  have hvd : v.sc.cpRandom.length = 8 := by
    rw [hv]
    exact hd
  have hvm : v.sc.cMac = zeros 16 := by
    rw [hv]
  have hbase : (w.heard 0x11 v.selector).keyBase = v.keyBase := by
    have hleft : (hsTaken 0x11 (keySelector (b.pd L.i))
        (p.pd L.j)).sessionKeyBase = (w.heard 0x11 v.selector).keyBase := by
      rw [hw, hv]
      exact congrArg HsSide.keyBase (hsSide_hsTaken _ _ _)
    have hright : (b.pd L.i).sessionKeyBase = v.keyBase := by
      rw [hv]
      rfl
    rw [← hleft, ← hright]
    exact hkey
  rw [← hv, ← hw] at hans hdone
  obtain ⟨hmeet, hlen, hchain, hrMac, hcMac⟩ :=
    sides_agree L.cipher hu hr hvd hvm hbase
  have hok : e.rc = cpErrNone := by
    rw [hrc, hdone, verify_keyedSide hu hr hvd, hbase]
    unfold proofOf
    rw [L.cipher]
  obtain ⟨hwm, hwc, hws⟩ := w.heard_keeps 0x11 v.selector
  have hamode : (answeredSide L.pdEnv uid r v w).pdMode = true := by
    refine hwm.trans ?_
    rw [hw]
    exact hpd
  have hacap : (answeredSide L.pdEnv uid r v w).capable = true := by
    refine hwc.trans ?_
    rw [hw]
    exact hcap
  have hasec : (answeredSide L.pdEnv uid r v w).security ≠ 0 := by
    intro hzero
    refine hsec ?_
    have hsame : w.security = 0 := hws.symm.trans hzero
    rw [hw] at hsame
    exact hsame
  have hkmode : (keyedSide L.cpEnv L.pdEnv uid r v w).pdMode = false := by
    show v.pdMode = false
    rw [hv]
    exact hcp
  have hkact : (keyedSide L.cpEnv L.pdEnv uid r v w).active = false := by
    show v.active = false
    rw [hv]
    exact hact
  obtain ⟨hret', hrc', hopen, hjoin⟩ := f.scrypt
    (by rw [hdone]; exact hkmode) (by rw [hdone]; exact hkact)
    (by rw [hans]; exact hamode) (by rw [hans]; rfl)
    (by rw [hans]; exact hacap) (by rw [hans]; exact hasec)
    (by rw [hdone, hans]; exact hmeet) (by rw [hdone]; exact hlen)
  rw [hdone, hans] at hopen hjoin
  obtain ⟨hom, hoc, -⟩ := (answeredSide L.pdEnv uid r v w).heard_keeps 0x13
    (keyedSide L.cpEnv L.pdEnv uid r v w).selector
  have hup : (f.answered.pd L.j).hsSide.active = true := by
    rw [hopen]
    exact Bool.or_true _
  refine ⟨⟨hret, hok⟩, ⟨hret', hrc'⟩, hup, fun y u hact' => ?_⟩
  have hus : (u.pd L.i).hsSide = joinedSide L.cpEnv L.pdEnv
      (keyedSide L.cpEnv L.pdEnv uid r v w)
      (answeredSide L.pdEnv uid r v w) := by
    obtain ⟨_, z, hz, hact'⟩ := bind_ok.mp hact'
    obtain rfl := observe_ok.mp hact'
    show (z.pd L.i).hsSide = _
    rw [← updPd_ok.mp hz, updPd_pd_same]
    exact hjoin
  refine InStep.of_hsSide ?_ ?_ ?_ ?_ ?_ ?_ ?_
  · rw [hus]
    exact hkmode
  · rw [hopen]
    exact hom.trans hamode
  · rw [hup, hus]
    rfl
  · rw [hopen]
    exact hoc.trans hacap
  · rw [hus, hopen]
    exact hchain
  · rw [hus]
    exact hrMac
  · rw [hus]
    exact hcMac

/-- The two come to keep step. -/
theorem handshake_agrees_keyed :
    ∃ (e : Exchange keyedLine cmdChlng keyedChallenger keyedAnswerer)
      (f : Exchange keyedLine cmdScrypt e.done e.answered),
      (e.ret = pdErrNone ∧ e.rc = cpErrNone) ∧
      (f.ret = pdErrNone ∧ f.rc = cpErrNone) ∧
      (f.answered.pd 0).flags.scActive = true ∧
      ∀ y u, scActivate 0 f.done = .ok y u →
        InStep (u.pd 0) (f.answered.pd 0) :=
  ⟨.play plays_keyedChlng, .play plays_keyedScrypt,
    handshake_agrees unpaired_keyedLine (show _ = _ from rfl)
      enters_keyedChallenger (.play plays_keyedChlng)
      (.play plays_keyedScrypt)⟩

end Agreement

end LibOsdp
