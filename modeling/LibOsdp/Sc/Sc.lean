/-
The secure channel (osdp_sc.c): session keys, cryptograms, data blocks
and the message authentication code.

The functions that only compute are pure in the channel context `sc`; the
ones that change the PD's flags or draw random numbers run in `OsdpM`.

# Parameters

The block cipher is whatever `Env.cipher` is.  `osdp_encrypt` without an
IV is one block of it, with an IV it is CBC.

# A decrypt of nothing

`osdp_decrypt_data` on an empty block looks at the byte in front of the
data, which is the command id, and from there backwards into the header.
Whatever it finds, the length it returns is negative, so the model lets
it fail; the one byte of the receive buffer it may clear on the way is
not modelled, as the frame is dropped there and then.
-/
import LibOsdp.Common.State
import LibOsdp.Lib.Bytes

namespace LibOsdp

open Lib

/-- The default key of the specification (`osdp_scbk_default`). -/
def osdpScbkDefault : Bytes :=
  [0x30, 0x31, 0x32, 0x33, 0x34, 0x35, 0x36, 0x37,
   0x38, 0x39, 0x3A, 0x3B, 0x3C, 0x3D, 0x3E, 0x3F]

/-- `OSDP_SC_EOM_MARKER`. -/
abbrev scEomMarker : UInt8 := 0x80

variable (env : Env)

-- ======================================================== session keys

/-- The plaintext a session key is the encryption of: two selector bytes
and six bytes of the challenge. -/
def sessionKeySeed (a b : UInt8) (cpRandom : Bytes) : Bytes :=
  a :: b :: (cpRandom.take 6 ++ zeros 8)

/-- `osdp_compute_session_keys`, on the key the caller selected. -/
def computeSessionKeys (key : Bytes) (sc : OsdpSecureChannel) :
    OsdpSecureChannel :=
  { sc with
    sEnc := env.cipher.enc key (sessionKeySeed 0x01 0x82 sc.cpRandom)
    sMac1 := env.cipher.enc key (sessionKeySeed 0x01 0x01 sc.cpRandom)
    sMac2 := env.cipher.enc key (sessionKeySeed 0x01 0x02 sc.cpRandom) }

/-- The key `osdp_compute_session_keys` works from. -/
def OsdpPd.sessionKeyBase (p : OsdpPd) : Bytes :=
  if p.flags.scUseScbkd then osdpScbkDefault else p.sc.scbk

/-- `osdp_compute_session_keys`. -/
def osdpComputeSessionKeys (i : Nat) : OsdpM Unit := do
  updPd i fun p =>
    { p with sc := computeSessionKeys env p.sessionKeyBase p.sc }
  let p ← getPd i
  observe (.sessionKeys i p.flags.scUseScbkd p.sc)

-- ========================================================== cryptograms

/-- What the CP proves it can encrypt: `pd_random || cp_random`. -/
def cpCryptogramOf (sc : OsdpSecureChannel) : Bytes :=
  env.cipher.enc sc.sEnc (sc.pdRandom ++ sc.cpRandom)

/-- What the PD proves it can encrypt: `cp_random || pd_random`. -/
def pdCryptogramOf (sc : OsdpSecureChannel) : Bytes :=
  env.cipher.enc sc.sEnc (sc.cpRandom ++ sc.pdRandom)

/-- `osdp_compute_cp_cryptogram`. -/
def osdpComputeCpCryptogram (sc : OsdpSecureChannel) : OsdpSecureChannel :=
  { sc with cpCryptogram := cpCryptogramOf env sc }

/-- `osdp_compute_pd_cryptogram`. -/
def osdpComputePdCryptogram (sc : OsdpSecureChannel) : OsdpSecureChannel :=
  { sc with pdCryptogram := pdCryptogramOf env sc }

/-- `osdp_verify_cp_cryptogram`; true where the C function returns 0. -/
def osdpVerifyCpCryptogram (sc : OsdpSecureChannel) : Bool :=
  sc.cpCryptogram == cpCryptogramOf env sc

/-- `osdp_verify_pd_cryptogram`; true where the C function returns 0. -/
def osdpVerifyPdCryptogram (sc : OsdpSecureChannel) : Bool :=
  sc.pdCryptogram == pdCryptogramOf env sc

/-- `osdp_compute_rmac_i`. -/
def osdpComputeRmacI (sc : OsdpSecureChannel) : OsdpSecureChannel :=
  { sc with
    rMac := env.cipher.enc sc.sMac2 (env.cipher.enc sc.sMac1 sc.cpCryptogram) }

-- ================================================== data blocks and MAC

/-- The IV of a data block: the complement of the other side's MAC. -/
def dataIv (isCmd : Bool) (sc : OsdpSecureChannel) : Bytes :=
  (if isCmd then sc.rMac else sc.cMac).map (~~~ ·)

/-- `osdp_encrypt_data`: the ciphertext that replaces the data. -/
def osdpEncryptData (isCmd : Bool) (sc : OsdpSecureChannel) (data : Bytes) :
    Bytes :=
  let p := padMarked scEomMarker data
  cbcEncrypt env.cipher sc.sEnc (dataIv isCmd sc) (p.length / 16) p

/-- `osdp_decrypt_data` on whole blocks: the text, or nothing where the C
function returns a negative length. -/
def osdpDecryptData (allowEmpty isCmd : Bool) (sc : OsdpSecureChannel)
    (data : Bytes) : Option Bytes :=
  if data.length % 16 ≠ 0 then none
  else if data = [] then if allowEmpty then some [] else none
  else
    stripPad scEomMarker
      (cbcDecrypt env.cipher sc.sEnc (dataIv isCmd sc) (data.length / 16) data)

/-- The MAC `osdp_compute_mac` leaves in the context. -/
def macOf (isCmd : Bool) (sc : OsdpSecureChannel) (data : Bytes) : Bytes :=
  cbcMac env.cipher scEomMarker sc.sMac1 sc.sMac2
    (if isCmd then sc.rMac else sc.cMac) data

/-- `osdp_compute_mac`: the MAC of a command goes to `c_mac`, that of a
reply to `r_mac`. -/
def osdpComputeMac (isCmd : Bool) (data : Bytes) (sc : OsdpSecureChannel) :
    OsdpSecureChannel :=
  if isCmd then { sc with cMac := macOf env isCmd sc data }
  else { sc with rMac := macOf env isCmd sc data }

-- ================================================== channel life cycle

/-- The next `n` random bytes. -/
def randomBytes (start n : Nat) : Bytes :=
  (List.range n).map fun k => env.rand (start + k)

/-- `osdp_fill_random`. -/
def osdpFillRandom (n : Nat) : OsdpM Bytes := fun s =>
  .ok (randomBytes env s.drawn n)
    { s with
      drawn := s.drawn + n
      log := .random s.drawn (randomBytes env s.drawn n) :: s.log }

/-- The client UID a PD derives from its identity in `osdp_sc_setup`. -/
def pdClientUid (id : PdId) : Bytes :=
  [byteOf id.vendorCode.toNat 0, byteOf id.vendorCode.toNat 1,
   byteOf id.model.toNat 0, byteOf id.version.toNat 1,
   byteOf id.serialNumber.toNat 0, byteOf id.serialNumber.toNat 1,
   byteOf id.serialNumber.toNat 2, byteOf id.serialNumber.toNat 3]

/-- `osdp_sc_setup`: everything but the SCBK starts over. -/
def osdpScSetup (i : Nat) : OsdpM Unit := do
  let p ← getPd i
  if p.flags.pdMode then
    updPd i fun p =>
      { p with
        lastTxLen := 0
        sc := { scbk := p.sc.scbk, pdClientUid := pdClientUid p.id } }
  else
    let r ← osdpFillRandom env 8
    updPd i fun p =>
      { p with lastTxLen := 0, sc := { scbk := p.sc.scbk, cpRandom := r } }

/-- `sc_activate`. -/
def scActivate (i : Nat) : OsdpM Unit := do
  updPd i fun p => { p with flags := { p.flags with scActive := true } }
  observe (.scActivated i)

/-- `sc_deactivate`: the flag and the retransmit cache go; keys, randoms
and cryptograms stay. -/
def scDeactivate (i : Nat) : OsdpM Unit :=
  updPd i fun p =>
    { p with flags := { p.flags with scActive := false }, lastTxLen := 0 }

end LibOsdp
