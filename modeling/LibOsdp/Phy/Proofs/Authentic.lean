/-
What a secure channel lets through.

While the channel is active a payload should be acted upon only if its
frame carries a block of SCS_15..SCS_18 and the MAC that goes with it
(`Authenticated`); a PD excepts CHLNG, and a CP that does not enforce
security the plaintext ACK to its KEYSET (`Excepted`).

# The handshake blocks

Whether a MAC is asked for is decided by the block type alone: the range
check lets SCS_11..SCS_14 pass and the MAC check starts at SCS_15.  The id
behind the block is not looked at, so a frame that calls itself part of a
handshake may carry any command or reply.  `unchecked` says which frames
get through that way, and `decode_authentic` that no others do.
-/
import LibOsdp.Pd.Proofs.Freshness

namespace LibOsdp

open Lib

-- =============================================================== purpose

/-- The frame carries a block with a MAC, and the MAC is the one computed
over it. -/
def Authenticated (env : Env) (p : OsdpPd) (pkt : Bytes) (frameLen : Nat) :
    Prop :=
  ctrlScb (pktControl pkt) = true ∧ scs15 ≤ (pktData pkt 1).toNat ∧
    (pktData pkt 1).toNat ≤ scs18 ∧ macMatches env p pkt frameLen = true

/-- The payloads that need no MAC: CHLNG for a PD, and for a CP the
plaintext ACK to KEYSET of a PD that is not ENFORCE_SECURE. -/
def Excepted (p : OsdpPd) (pkt payload : Bytes) : Prop :=
  if p.flags.pdMode then (byteAt payload 0).toNat = cmdChlng
  else ctrlScb (pktControl pkt) = false ∧ p.cmdId = cmdKeyset ∧
    (byteAt payload 0).toNat = replyAck ∧ p.flags.enforceSecure = false

instance {env : Env} {p : OsdpPd} {pkt : Bytes} {frameLen : Nat} :
    Decidable (Authenticated env p pkt frameLen) := by
  unfold Authenticated
  infer_instance

instance {p : OsdpPd} {pkt payload : Bytes} :
    Decidable (Excepted p pkt payload) := by
  unfold Excepted
  infer_instance

/-- A frame with a handshake block that leaves it a payload: to a CP any,
to a PD that is capable of a secure channel any but CHLNG. -/
def unchecked (p : OsdpPd) (pkt : Bytes) (frameLen : Nat) : Bool :=
  let t := (pktData pkt 1).toNat
  ctrlScb (pktControl pkt) && decide (scs11 ≤ t) && decide (t ≤ scs14) &&
    decide (0 < payloadRoom pkt frameLen) &&
    (!p.flags.pdMode || p.scIsCapable &&
      (byteAt pkt (pktHdrLen + scbLen pkt)).toNat != cmdChlng)

-- ============================================================== the block

section Decode

variable {env : Env} {p : OsdpPd} {pkt : Bytes} {frameLen : Nat}

/-- What the block check lets pass while the channel is active: a block of
one of the eight types, or no block on the one ACK. -/
theorem accepted_block (ha : p.flags.scActive = true)
    (h : frameRefusal p pkt = none) :
    if ctrlScb (pktControl pkt) then
      (p.flags.pdMode = true → p.scIsCapable = true) ∧
        scs11 ≤ (pktData pkt 1).toNat ∧ (pktData pkt 1).toNat ≤ scs18
    else plainKeysetAck p pkt = true := by
  unfold frameRefusal at h
  cases hb : ctrlScb (pktControl pkt) with
  | false => simpa [hb, ha] using h
  | true =>
    simp only [hb, if_true] at h ⊢
    by_cases hc : p.flags.pdMode = true ∧ ¬ p.scIsCapable = true
    · rw [if_pos hc] at h
      cases h
    · rw [if_neg hc] at h
      refine ⟨fun hpd => by_contra fun hcap => hc ⟨hpd, hcap⟩, ?_⟩
      by_cases hr : (pktData pkt 1).toNat < scs11 ∨
          scs18 < (pktData pkt 1).toNat
      · rw [if_pos hr] at h
        cases h
      · exact ⟨Nat.le_of_not_lt fun hl => hr (.inl hl),
          Nat.le_of_not_lt fun hl => hr (.inr hl)⟩

/-- The first byte of what is taken from a frame. -/
theorem byteAt_take_drop {n off : Nat} (h : 0 < n) :
    byteAt ((pkt.drop off).take n) 0 = byteAt pkt off := by
  unfold byteAt
  rw [List.getD_eq_getElem?_getD, List.getD_eq_getElem?_getD,
    List.getElem?_take_of_lt h, List.getElem?_drop, Nat.add_zero]

/-- A frame whose MAC was checked carries one of the last four blocks. -/
theorem authenticated_of_mac (ha : p.flags.scActive = true)
    (href : frameRefusal p pkt = none) (hm : carriesMac p pkt = true)
    (hok : macMatches env p pkt frameLen = true) :
    Authenticated env p pkt frameLen := by
  obtain ⟨⟨hb, -⟩, h15⟩ : (ctrlScb (pktControl pkt) = true ∧ _) ∧
      scs15 ≤ (pktData pkt 1).toNat := by
    simpa [carriesMac] using hm
  have hblock := accepted_block ha href
  rw [if_pos hb] at hblock
  exact ⟨hb, h15, hblock.2.2, hok⟩

/-- A block with a MAC is none of a handshake. -/
theorem unchecked_of_mac (hm : carriesMac p pkt = true) :
    unchecked p pkt frameLen = false := by
  have h15 : scs15 ≤ (pktData pkt 1).toNat := by
    simp only [carriesMac, Bool.and_eq_true, decide_eq_true_eq] at hm
    exact hm.2
  have h14 : ¬ (pktData pkt 1).toNat ≤ scs14 := by
    simp only [scs15, scs14] at h15 ⊢
    omega
  simp [unchecked, h14]

/-- A frame accepted without a MAC is one of the exceptions unless its
block is of a handshake. -/
theorem plain_excepted (ha : p.flags.scActive = true)
    (href : frameRefusal p pkt = none) (hm : carriesMac p pkt = false)
    (hroom : 0 < payloadRoom pkt frameLen) :
    (Authenticated env p pkt frameLen ∨
      Excepted p pkt ((pkt.drop (pktHdrLen + scbLen pkt)).take
        (payloadRoom pkt frameLen).toNat)) ↔
      unchecked p pkt frameLen = false := by
  have hid : byteAt ((pkt.drop (pktHdrLen + scbLen pkt)).take
      (payloadRoom pkt frameLen).toNat) 0
        = byteAt pkt (pktHdrLen + scbLen pkt) :=
    byteAt_take_drop (by omega)
  have hblock := accepted_block ha href
  unfold Excepted
  rw [hid]
  cases hb : ctrlScb (pktControl pkt) with
  | false =>
    rw [hb, if_neg Bool.false_ne_true] at hblock
    have hoff : pktHdrLen + scbLen pkt = pktHdrLen := by
      simp [scbLen, hb]
    rw [hoff]
    have hack : p.flags.pdMode = false ∧ p.cmdId = cmdKeyset ∧
        (byteAt pkt pktHdrLen).toNat = replyAck ∧
        p.flags.enforceSecure = false := by
      simpa [plainKeysetAck, pktData, and_assoc] using hblock
    simp [unchecked, hb, hack]
  | true =>
    rw [hb, if_pos rfl] at hblock
    obtain ⟨hcap, h11, h18⟩ := hblock
    have h15 : ¬ scs15 ≤ (pktData pkt 1).toNat := by
      simpa [carriesMac, hb, ha] using hm
    have h14 : (pktData pkt 1).toNat ≤ scs14 := by
      simp only [scs15, scs14] at h15 ⊢
      omega
    have hnot : ¬ Authenticated env p pkt frameLen := fun h => h15 h.2.1
    cases hpd : p.flags.pdMode with
    | false => simp [unchecked, hb, h11, h14, hroom, hpd, hnot]
    | true => simp [unchecked, hb, h11, h14, hroom, hpd, hnot, hcap hpd]

/-- No block but one of a handshake gets past unchecked. -/
theorem unchecked_of_block
    (h : ¬ (scs11 ≤ (pktData pkt 1).toNat ∧
      (pktData pkt 1).toNat ≤ scs14)) :
    unchecked p pkt frameLen = false := by
  rw [Bool.eq_false_iff]
  intro hu
  simp only [unchecked, Bool.and_eq_true, decide_eq_true_eq] at hu
  exact h ⟨hu.1.1.1.2, hu.1.1.2⟩

/-- What is refused for its block gets past nothing. -/
theorem unchecked_of_refused {code : UInt8}
    (href : frameRefusal p pkt = some code) :
    unchecked p pkt frameLen = false := by
  unfold frameRefusal at href
  cases hb : ctrlScb (pktControl pkt) with
  | false => simp [unchecked, hb]
  | true =>
    simp only [hb, if_true] at href
    by_cases hc : p.flags.pdMode = true ∧ ¬ p.scIsCapable = true
    · have hcap : p.scIsCapable = false := by simpa using hc.2
      simp [unchecked, hc.1, hcap]
    · rw [if_neg hc] at href
      by_cases hr : (pktData pkt 1).toNat < scs11 ∨
          scs18 < (pktData pkt 1).toNat
      · refine unchecked_of_block fun h => ?_
        simp only [scs11, scs14, scs18] at hr h
        omega
      · rw [if_neg hr] at href
        by_cases hs : ¬ p.flags.scActive = true ∧
            scs14 < (pktData pkt 1).toNat
        · exact unchecked_of_block fun h => absurd h.2 (Nat.not_le.mpr hs.2)
        · rw [if_neg hs] at href
          cases href

/-- Nor does a frame that has no room for a payload. -/
theorem unchecked_of_room (h : ¬ 0 < payloadRoom pkt frameLen) :
    unchecked p pkt frameLen = false := by
  simp [unchecked, h]

/-- What a decode returns is authenticated or excepted, but for the
handshake blocks. -/
theorem decoded_authentic {r : DecodeResult}
    (ha : p.flags.scActive = true) (h : Decoded env p pkt frameLen r) :
    (0 < r.len → Authenticated env p pkt frameLen ∨
      Excepted p pkt r.payload) ↔ unchecked p pkt frameLen = false := by
  cases h with
  | refused code href =>
    have hlen : ¬ 0 < errPktNack := by decide
    exact iff_of_true (fun hpos => absurd hpos hlen)
      (unchecked_of_refused href)
  | plain href hm =>
    by_cases hroom : 0 < payloadRoom pkt frameLen
    · constructor
      · intro hauth
        exact (plain_excepted ha href hm hroom).mp (hauth hroom)
      · intro hu _
        exact (plain_excepted ha href hm hroom).mpr hu
    · exact iff_of_true (fun hpos => absurd hpos hroom)
        (unchecked_of_room hroom)
  | dropped pkt' href hm hbad =>
    have hlen : ¬ 0 < errPktNack := by decide
    exact iff_of_true (fun hpos => absurd hpos hlen) (unchecked_of_mac hm)
  | maced href hm hok he =>
    exact iff_of_true (fun _ => .inl (authenticated_of_mac ha href hm hok))
      (unchecked_of_mac hm)
  | decrypted pkt' text href hm hok he =>
    exact iff_of_true (fun _ => .inl (authenticated_of_mac ha href hm hok))
      (unchecked_of_mac hm)

/-- **What a session lets through.**  With the channel active, a payload
that the decoder hands on is authenticated, or one of the two exceptions,
if and only if its frame is none of the handshake frames that are not
checked. -/
theorem decode_authentic {i : Nat} {s t : Osdp} {len : Int}
    {payload : Bytes} (ha : (s.pd i).flags.scActive = true)
    (h : osdpPhyDecodePacket env i s = .ok (len, payload) t) :
    (0 < len →
      Authenticated env (s.pd i) (s.frameBuf i) (s.frameLen i) ∨
        Excepted (s.pd i) (s.frameBuf i) payload) ↔
      unchecked (s.pd i) (s.frameBuf i) (s.frameLen i) = false := by
  obtain ⟨r, hr, rfl, rfl, -⟩ := osdpPhyDecodePacket_ok h
  exact decoded_authentic ha (decoded_of hr)

end Decode

-- =============================================================== examples

/-- Another CHLNG, in an open session. -/
def rechallengeFrame : Bytes :=
  writeBe 19 0x530113000E03110176B0B1B2B3B4B5B6B7F57F

/-- KEYSET behind the block of a CHLNG: no MAC, and in the clear. -/
def bareKeysetFrame : Bytes :=
  writeBe 29 0x53011D000E031101750110EEEEEEEEEEEEEEEEEEEEEEEEEEEEEEEE8E55

/-- A frame that reaches the decoder in an open session, and what it is
decoded to. -/
theorem received_in_session {depth : Nat} {s : Osdp} {env : Env}
    (h : ((receivedFrame env (pdRunCalls env depth) 0 s).any fun u =>
      (u.pd 0).flags.scActive) = true)
    (hp : (receivedPayload env (pdRunCalls env depth) 0 s).isSome = true) :
    ∃ u len payload v,
      receivedFrame env (pdRunCalls env depth) 0 s = some u ∧
      (u.pd 0).flags.scActive = true ∧
      osdpPhyDecodePacket env 0 u = .ok (len, payload) v ∧ 0 < len := by
  cases hu : receivedFrame env (pdRunCalls env depth) 0 s with
  | none =>
    rw [hu] at h
    cases h
  | some u =>
    rw [hu] at h
    cases hd : osdpPhyDecodePacket env 0 u with
    | error f v =>
      simp [receivedPayload, hu, hd] at hp
    | ok r v =>
      obtain ⟨len, payload⟩ := r
      refine ⟨u, len, payload, v, rfl, by simpa using h, hd, ?_⟩
      by_contra hlen
      simp [receivedPayload, hu, hd, hlen] at hp

/-- A session takes another CHLNG, which is excepted. -/
theorem decode_authentic_rechallenge :
    ∃ s₀ s u len payload v, osdpPdSetup handshakeEnv keyedPd = some s₀ ∧
      PdRun handshakeEnv 1 anyInput s₀ handshakeInputs s ∧
      receivedFrame handshakeEnv (pdRunCalls handshakeEnv 1) 0
        (s.begin 2 rechallengeFrame) = some u ∧
      (u.pd 0).flags.scActive = true ∧
      osdpPhyDecodePacket handshakeEnv 0 u = .ok (len, payload) v ∧
      0 < len ∧
      ((0 < len →
        Authenticated handshakeEnv (u.pd 0) (u.frameBuf 0) (u.frameLen 0) ∨
          Excepted (u.pd 0) (u.frameBuf 0) payload) ↔
        unchecked (u.pd 0) (u.frameBuf 0) (u.frameLen 0) = false) := by
  obtain ⟨s₀, s, hs, hrun, hact, hp⟩ := pdRun_of_setup handshakeEnv 1
    anyInput keyedPd handshakeInputs
    (fun s =>
      ((receivedFrame handshakeEnv (pdRunCalls handshakeEnv 1) 0
        (s.begin 2 rechallengeFrame)).any fun u =>
          (u.pd 0).flags.scActive) = true ∧
      (receivedPayload handshakeEnv (pdRunCalls handshakeEnv 1) 0
        (s.begin 2 rechallengeFrame)).isSome = true)
    (by decide +kernel)
  obtain ⟨u, len, payload, v, hu, hsc, hd, hlen⟩ :=
    received_in_session hact hp
  exact ⟨s₀, s, u, len, payload, v, hs, hrun, hu, hsc, hd, hlen,
    decode_authentic hsc hd⟩

/-- The open session of `handshakeInputs` takes a KEYSET that carries no
MAC, and the application is handed its key. -/
theorem pd_takes_bare_keyset :
    ¬ ∀ (env : Env) (depth : Nat) (info : PdInfo) (s₀ s u v t : Osdp)
        (l : List PdInput) (now len : Int) (rx payload : Bytes),
      osdpPdSetup env info = some s₀ → PdRun env depth anyInput s₀ l s →
      receivedFrame env (pdRunCalls env depth) 0 (s.begin now rx)
        = some u →
      (u.pd 0).flags.scActive = true →
      osdpPhyDecodePacket env 0 u = .ok (len, payload) v →
      osdpPdUpdate env (pdRunCalls env depth) 0 (s.begin now rx)
        = .ok () t →
      .command 0 (.keyset 1 16 (List.replicate 16 0xEE)) 0 ∈ t.log →
      0 < len →
      Authenticated env (u.pd 0) (u.frameBuf 0) (u.frameLen 0) ∨
        Excepted (u.pd 0) (u.frameBuf 0) payload := by
  intro hall
  obtain ⟨s₀, s, hs, hrun, ⟨hact, hp⟩, hun, hran⟩ :=
    pdRun_of_setup handshakeEnv 1 anyInput keyedPd handshakeInputs
    (fun s =>
      (((receivedFrame handshakeEnv (pdRunCalls handshakeEnv 1) 0
        (s.begin 2 bareKeysetFrame)).any fun u =>
          (u.pd 0).flags.scActive) = true ∧
      (receivedPayload handshakeEnv (pdRunCalls handshakeEnv 1) 0
        (s.begin 2 bareKeysetFrame)).isSome = true) ∧
      (∀ u ∈ receivedFrame handshakeEnv (pdRunCalls handshakeEnv 1) 0
          (s.begin 2 bareKeysetFrame),
        unchecked (u.pd 0) (u.frameBuf 0) (u.frameLen 0) = true) ∧
      Reaches (fun t =>
          .command 0 (.keyset 1 16 (List.replicate 16 0xEE)) 0 ∈ t.log)
        (osdpPdUpdate handshakeEnv (pdRunCalls handshakeEnv 1) 0
          (s.begin 2 bareKeysetFrame)))
    (by decide +kernel)
  obtain ⟨u, len, payload, v, hu, hsc, hd, hlen⟩ :=
    received_in_session hact hp
  obtain ⟨t, ht, hcmd⟩ := hran.ok
  have hauth := hall _ _ _ _ _ _ _ _ _ _ _ _ _ hs hrun hu hsc hd ht hcmd
  obtain ⟨r, hr, rfl, rfl, -⟩ := osdpPhyDecodePacket_ok hd
  have hno := (decoded_authentic hsc (decoded_of hr)).mp hauth
  rw [hun u hu] at hno
  cases hno

end LibOsdp
