/-
What `osdp_phy_decode_packet` makes of a frame.

`Decoded` lists the outcomes: refused outright, accepted without a MAC,
dropped over its MAC or its padding, accepted under a MAC in the clear or
encrypted.  Everything proved about decoding starts from `decoded_of`.

# The alias

A length is returned through the same `Int` as the error codes.  The
length of an accepted frame can be anything the security block's first
byte makes of it, so it can be the number that means "a NAK was left
behind" although none was.  `aliasesNack` says exactly which frames do
that: `decode_of_alias` and `decode_nack`.
-/
import LibOsdp.Phy.Framer
import LibOsdp.Common.Frame

namespace LibOsdp

open Lib

variable {env : Env} {p : OsdpPd} {pkt : Bytes} {frameLen : Nat}

-- ============================================================ inversion

@[simp] theorem takeSelector_sc : (takeSelector p pkt).sc = p.sc := by
  unfold takeSelector
  split <;> rfl

@[simp] theorem takeSelector_pdMode :
    (takeSelector p pkt).flags.pdMode = p.flags.pdMode := by
  unfold takeSelector
  split <;> rfl

@[simp] theorem takeSelector_replyId :
    (takeSelector p pkt).replyId = p.replyId := by
  unfold takeSelector
  split <;> rfl

@[simp] theorem takeSelector_pending :
    (takeSelector p pkt).pending = p.pending := by
  unfold takeSelector
  split <;> rfl

/-- The choice of key has no part in the MAC. -/
@[simp] theorem macMatches_takeSelector :
    macMatches env (takeSelector p pkt) pkt frameLen
      = macMatches env p pkt frameLen := by
  simp [macMatches, phyComputeMac]

/-- The PD after the MAC of an accepted frame was computed. -/
abbrev afterMac (env : Env) (p : OsdpPd) (pkt : Bytes) (frameLen : Nat) :
    OsdpPd :=
  phyComputeMac env (takeSelector p pkt) pkt frameLen

/-- The outcomes of decoding a frame. -/
inductive Decoded (env : Env) (p : OsdpPd) (pkt : Bytes) (frameLen : Nat) :
    DecodeResult → Prop where
  | refused (code : UInt8) (h : frameRefusal p pkt = some code) :
      Decoded env p pkt frameLen (decodeNak p pkt code)
  | plain (h : frameRefusal p pkt = none) (hm : carriesMac p pkt = false) :
      Decoded env p pkt frameLen
        ⟨takeSelector p pkt, pkt, payloadRoom pkt frameLen,
          (pkt.drop (pktHdrLen + scbLen pkt)).take
            (payloadRoom pkt frameLen).toNat⟩
  | dropped (pkt' : Bytes) (h : frameRefusal p pkt = none)
      (hm : carriesMac p pkt = true)
      (hbad : macMatches env p pkt frameLen = false ∨
        encryptedType (pktData pkt 1).toNat = true) :
      Decoded env p pkt frameLen
        (decodeDropSc (afterMac env p pkt frameLen) pkt')
  | maced (h : frameRefusal p pkt = none) (hm : carriesMac p pkt = true)
      (hok : macMatches env p pkt frameLen = true)
      (he : encryptedType (pktData pkt 1).toNat = false) :
      Decoded env p pkt frameLen
        ⟨afterMac env p pkt frameLen, pkt, payloadRoom pkt frameLen - 4,
          (pkt.drop (pktHdrLen + scbLen pkt)).take
            (payloadRoom pkt frameLen - 4).toNat⟩
  | decrypted (pkt' text : Bytes) (h : frameRefusal p pkt = none)
      (hm : carriesMac p pkt = true)
      (hok : macMatches env p pkt frameLen = true)
      (he : encryptedType (pktData pkt 1).toNat = true) :
      Decoded env p pkt frameLen
        ⟨afterMac env p pkt frameLen, pkt', (text.length + 1 : Nat),
          byteAt pkt (pktHdrLen + scbLen pkt) :: text⟩

/-- The end of a decode under a MAC. -/
theorem decoded_of_maced {r : DecodeResult}
    (href : frameRefusal p pkt = none) (hm : carriesMac p pkt = true)
    (h : decodeAccept env (takeSelector p pkt) pkt frameLen
      (pktHdrLen + scbLen pkt) (payloadRoom pkt frameLen) true = .ok r) :
    Decoded env p pkt frameLen r := by
  unfold decodeAccept at h
  simp only [Bool.not_true, Bool.false_eq_true, if_false,
    macMatches_takeSelector] at h
  cases hok : macMatches env p pkt frameLen with
  | false =>
    simp only [hok, Bool.not_false, if_true] at h
    cases h
    exact .dropped pkt href hm (.inl hok)
  | true =>
    simp only [hok, Bool.not_true, Bool.false_eq_true, if_false] at h
    cases he : encryptedType (pktData pkt 1).toNat with
    | false =>
      simp only [he, Bool.false_eq_true, if_false] at h
      cases h
      exact .maced href hm hok he
    | true =>
      simp only [he, if_true, decodeDecrypt] at h
      split at h
      · cases h
        exact .dropped pkt href hm (.inr he)
      · split at h
        · cases h
        · split at h
          · cases h
            exact .dropped _ href hm (.inr he)
          · cases h
            exact .decrypted _ _ href hm hok he

/-- Every decode ends in one of the outcomes. -/
theorem decoded_of {r : DecodeResult}
    (h : phyDecode env p pkt frameLen = .ok r) :
    Decoded env p pkt frameLen r := by
  unfold phyDecode at h
  cases href : frameRefusal p pkt with
  | some code =>
    simp only [href] at h
    cases h
    exact .refused code href
  | none =>
    cases hm : carriesMac p pkt with
    | false =>
      simp only [href, hm, decodeAccept] at h
      cases h
      exact .plain href hm
    | true =>
      simp only [href, hm] at h
      exact decoded_of_maced href hm h

-- ============================================================== the alias

/-- The frame is accepted, and its length is the code of a NAK. -/
def aliasesNack (env : Env) (p : OsdpPd) (pkt : Bytes) (frameLen : Nat) :
    Bool :=
  (frameRefusal p pkt).isNone &&
    if carriesMac p pkt then
      macMatches env p pkt frameLen &&
        !encryptedType (pktData pkt 1).toNat &&
        payloadRoom pkt frameLen - 4 == errPktNack
    else payloadRoom pkt frameLen == errPktNack

/-- An alias leaves the reply of an earlier exchange in place; every other
frame that says NAK left one behind. -/
theorem decode_nack {r : DecodeResult}
    (h : phyDecode env p pkt frameLen = .ok r) (hlen : r.len = errPktNack) :
    if aliasesNack env p pkt frameLen then
      r.pd.replyId = p.replyId ∧ r.pd.pending = p.pending
    else r.pd.replyId = replyNak := by
  cases decoded_of h with
  | refused code href => simp [aliasesNack, href, decodeNak, OsdpPd.nak]
  | plain href hm =>
    simp only at hlen
    simp [aliasesNack, href, hm, hlen]
  | dropped pkt' href hm hbad =>
    rcases hbad with hb | hb <;>
      simp [aliasesNack, href, hm, hb, decodeDropSc, decodeNak, OsdpPd.nak]
  | maced href hm hok he =>
    simp only at hlen
    simp [aliasesNack, href, hm, hok, he, hlen, phyComputeMac]
  | decrypted pkt' text href hm hok he =>
    simp only [errPktNack] at hlen
    omega

/-- An alias says NAK. -/
theorem decode_of_alias {r : DecodeResult}
    (h : phyDecode env p pkt frameLen = .ok r)
    (ha : aliasesNack env p pkt frameLen = true) : r.len = errPktNack := by
  cases decoded_of h with
  | refused code href => simp [aliasesNack, href] at ha
  | plain href hm => simpa [aliasesNack, href, hm] using ha
  | dropped pkt' href hm hbad => rfl
  | maced href hm hok he => simpa [aliasesNack, href, hm, hok, he] using ha
  | decrypted pkt' text href hm hok he =>
    simp [aliasesNack, href, hm, hok, he] at ha

end LibOsdp
