/-
Card commands and the packet they have to fit.

# Three lengths

`cp_band_admit` takes an APDU that leaves forty bytes of the packet, and
nineteen more where a PIN block goes in front of it.
`osdp_trs_cmd_build` builds into what the header leaves of the packet,
less two bytes.  `osdp_phy_finalize_packet` adds at most twenty-two bytes:
the MAC, the padding of the last block, and the check bytes.

A header takes eight bytes, so a plain APDU of `n` bytes makes a packet of
at most `8 + 4 + n + 22`, and one behind a PIN block a packet of at most
`8 + 21 + n + 22`.  Both are within the size, whatever it is.

# The mark byte

The header is where the finalizer looks for it only on a CP that counts
the packet with the mark byte it writes.  On one that skips mark bytes and
received one with the last reply it is not, and nothing is finalized.
-/
import LibOsdp.Proofs.Reserve
import LibOsdp.Cp.Proofs.TrsCodec

namespace LibOsdp

open Lib

section CardRoom

-- ============================================================= the block

/-- The commands of a session that carry an APDU. -/
def carriesApdu : TrsCmd → Bool
  | .sendApdu _ | .enterPin _ => true
  | _ => false

theorem card_of_carriesApdu {c : TrsCmd} (h : carriesApdu c = true) :
    c ≠ .start ∧ c ≠ .stop := by
  constructor
  · rintro rfl
    cases h
  · rintro rfl
    cases h

/-- The fixed part of a PIN block. -/
theorem length_trsPinBytes {e : TrsPinEntry} {hd : Bytes}
    (h : trsPinBytes e = some hd) : hd.length = 15 := by
  unfold trsPinBytes at h
  obtain ⟨f, -, h⟩ := Option.bind_eq_some_iff.mp h
  obtain ⟨⟨po, pu⟩, -, h⟩ := Option.bind_eq_some_iff.mp h
  obtain ⟨⟨lo, lu⟩, -, h⟩ := Option.bind_eq_some_iff.mp h
  obtain rfl := Option.some.inj h
  simp only [List.length_append, length_writeBe, length_fieldBytes,
    List.length_cons, List.length_nil]

variable {p : OsdpPd} {c : TrsCmd} {t : OsdpTrs} {size : Nat}

/-- `c` carries an APDU, and was admitted for a PD that takes packets of
`size` bytes. -/
structure CardAdmitted (c : TrsCmd) (size : Nat) : Prop where
  card : carriesApdu c = true
  admitted : ∃ p, getTxBufSize p = size ∧ (cpBandAdmit p (.xwr c)).isSome
  smallest : minimumPacketSize ≤ size
  largest : size ≤ packetBufSize

/-- The data block of a command that was admitted leaves thirty-seven
bytes of the packet. -/
theorem CardAdmitted.length_le (ha : CardAdmitted c size) {maxLen : Int}
    {d : Bytes} (h : osdpTrsCmdBuild t (some (.xwr c)) maxLen = some d) :
    d.length + 37 ≤ size := by
  obtain ⟨p, hsize, hband⟩ := ha.admitted
  obtain ⟨isOpen, hband⟩ := Option.isSome_iff_exists.mp hband
  have hcard := ha.card
  have hmax : osdpTrsMaxApduLen p ≤ (getTxBufSize p : Int) - 40 :=
    min_le_left _ _
  unfold osdpTrsCmdBuild at h
  obtain ⟨code, -, h⟩ := Option.bind_eq_some_iff.mp h
  by_cases hroom : maxLen < 3
  · rw [if_pos hroom] at h
    cases h
  · rw [if_neg hroom] at h
    obtain ⟨body, hbody, rfl⟩ := Option.map_eq_some_iff.mp h
    rw [List.length_append]
    cases c with
    | sendApdu apdu =>
      have hcap := sendApdu_admitted hband
      rw [trsAppCmdBody] at hbody
      split at hbody
      · cases hbody
      · obtain rfl := Option.some.inj hbody
        show 3 + apdu.length + 37 ≤ _
        omega
    | enterPin e =>
      obtain ⟨hcap, -⟩ := enterPin_admitted hband
      rw [trsAppCmdBody] at hbody
      split at hbody
      · cases hbody
      · split at hbody
        · cases hbody
        · obtain ⟨hd, hhd, rfl⟩ := Option.map_eq_some_iff.mp hbody
          have hfixed := length_trsPinBytes hhd
          rw [List.length_append, List.length_append, length_writeBe]
          show 3 + (hd.length + 2 + e.apdu.length) + 37 ≤ _
          omega
    | start => cases hcard
    | stop => cases hcard
    | cardScan => cases hcard

/-- Whatever header goes first, it leaves what the command needs. -/
theorem CardAdmitted.built (ha : CardAdmitted c size) {hdr : Nat}
    (hhdr : hdr ≤ 9) :
    (osdpTrsCmdBuild t (some (.xwr c))
      ((size - hdr - 1 : Nat) - 1)).isSome := by
  obtain ⟨p, hsize, hband⟩ := ha.admitted
  obtain ⟨isOpen, hband⟩ := Option.isSome_iff_exists.mp hband
  refine osdpTrsCmdBuild_admitted hband (card_of_carriesApdu ha.card) ?_
  have hmax : osdpTrsMaxApduLen p ≤ (getTxBufSize p : Int) - 40 :=
    min_le_left _ _
  have hmin : 128 ≤ size := ha.smallest
  unfold trsCmdRoom
  omega

-- ============================================================ the packet

variable {env : Env} {depth i : Nat} {s u : Osdp}

/-- PD `i` is about to be sent a card command of the application's, in a
packet of at most `size` bytes.  Whether the channel is active, a mark
byte goes first and a CRC or a checksum last is open. -/
structure AboutToSend (c : TrsCmd) (size : Nat) (i : Nat) (s : Osdp) :
    Prop where
  mode : (s.pd i).flags.pdMode = false
  cmdId : (s.pd i).cmdId = cmdXwr
  cmd : (s.pd i).activeCmd.map (·.cmd) = some (.xwr c)
  size : getTxBufSize (s.pd i) = size
  rMac : (s.pd i).sc.rMac.length = 16
  cMac : (s.pd i).sc.cMac.length = 16
  room : packetBufSize ≤ s.txBuf.length

/-- The packet is built, and finalized into `size` bytes at most. -/
def CardFits (env : Env) (depth size i : Nat) (s : Osdp) : Prop :=
  ∃ total u, cpLayCommand env (cpRunCalls env depth) i size s
      = .ok (some total) u ∧ FinalizedWithin env i size total u

theorem AboutToSend.packetCmd (h : AboutToSend c size i s) :
    cpPacketCmd (s.pd i) = some (.xwr c) := by
  unfold cpPacketCmd
  rw [if_neg (by rw [h.cmdId]; exact fun e => by cases e.2)]
  exact h.cmd

theorem AboutToSend.ordinary (h : AboutToSend c size i s) :
    hsCommand (s.pd i).cmdId = false := by
  rw [h.cmdId]
  rfl

/-- The header of CMD_XWR: a mark byte at most, five bytes, and a security
block of two. -/
theorem AboutToSend.scb_le (h : AboutToSend c size i s) :
    initScbLen (s.pd i) (s.pd i).cmdId ≤ 2 := by
  unfold initScbLen
  rw [h.mode, Bool.false_and, if_neg Bool.false_ne_true, h.cmdId]
  split
  · omega
  · rw [if_neg (by decide)]
    omega

/-- The case of `cp_build_command` such a command takes. -/
theorem AboutToSend.cases (h : AboutToSend c size i s) {x : Osdp}
    {hdr : Nat} (hx : x.pd i = headedPd (s.pd i) hdr)
    (run : List ApiCall → OsdpM Unit) (smb : Option Nat) (maxLen : Int) :
    cpBuildCases env run i (cpPacketCmd (s.pd i)) smb maxLen x =
      .ok (.of (osdpTrsCmdBuild (s.pd i).trs (some (.xwr c)) (maxLen - 1)))
        x := by
  have hid : (x.pd i).cmdId = cmdXwr := by
    rw [hx]
    exact h.cmdId
  have htrs : (x.pd i).trs = (s.pd i).trs := by
    rw [hx]
    rfl
  unfold cpBuildCases
  rw [bind_eq (m := getPd i) (s := x) rfl, hid, htrs, h.packetCmd]
  rfl

/-- A packet is laid. -/
theorem AboutToSend.laid (h : AboutToSend c size i s)
    (ha : CardAdmitted c size) (hmark : MarkAgrees (s.pd i)) :
    ∃ total u, cpLayCommand env (cpRunCalls env depth) i size s
      = .ok (some total) u := by
  refine cpLayCommand_total h.mode hmark h.room ha.smallest
    (fun e => by rw [h.packetCmd] at e; cases e) fun x smb hx => ?_
  have hhdr : headerLen (s.pd i) (s.pd i).cmdId ≤ 9 := by
    have hsom := somPos_le (s.pd i)
    have hscb := h.scb_le
    unfold headerLen
    omega
  obtain ⟨d, hd⟩ := Option.isSome_iff_exists.mp
    (ha.built (t := (s.pd i).trs) hhdr)
  refine ⟨_, _, h.cases hx _ smb _, ?_⟩
  rw [hd]
  exact fun e => by cases e

/-- What was laid with the mark byte it is counted with is finalized. -/
theorem AboutToSend.finalized (h : AboutToSend c size i s)
    (ha : CardAdmitted c size) (hmark : MarkAgrees (s.pd i)) {total : Nat}
    (hlay : cpLayCommand env (cpRunCalls env depth) i size s
      = .ok (some total) u) : FinalizedWithin env i size total u := by
  obtain ⟨block, rfl, hne, hlaid⟩ := cpLayCommand_ok
    (keeps_cpRunCalls depth) hlay h.mode hmark h.room h.ordinary
  have hsc : (u.pd i).sc = (s.pd i).sc := congrArg Prod.fst hlaid.chan
  have hr : (u.pd i).sc.rMac.length = 16 := by rw [hsc]; exact h.rMac
  have hc : (u.pd i).sc.cMac.length = 16 := by rw [hsc]; exact h.cMac
  rw [finalizedWithin_iff hlaid.laid hne ha.largest hr hc]
  refine finalizes_short env hlaid.laid hne ha.largest hr hc ?_
  -- the block is the id and what the builder made of the command
  obtain ⟨x, y, smb, body, hx, hcases, hbody⟩ := hlaid.what
  rw [h.cases hx] at hcases
  cases hcases
  cases hd : osdpTrsCmdBuild (s.pd i).trs (some (.xwr c))
      ((size - dataPos i u - 1 : Nat) - 1) with
  | none =>
    rw [hd] at hbody
    cases hbody
  | some d =>
    rw [hd] at hbody
    obtain rfl := Option.some.inj hbody
    have hlen := ha.length_le hd
    have hm := markLen_le (u.pd i)
    have hscb := h.scb_le
    have hpos := hlaid.pos
    have hseal : sealMax = 22 := rfl
    rw [List.length_cons]
    omega

/-- Without it nothing is. -/
theorem AboutToSend.unfinished (h : AboutToSend c size i s)
    (ha : CardAdmitted c size) (hmark : ¬ MarkAgrees (s.pd i)) :
    ¬ CardFits env depth size i s := by
  rintro ⟨total, u, hlay, hfin⟩
  exact not_finalizedWithin_stale hlay hmark h.room ha.largest h.ordinary
    hfin

-- ================================================================= result

/-- **Room for card commands.**  Take a packet size from the smallest to
the size of the buffer, and an APDU or a PIN entry that was admitted under
it.  Whatever the header, the session and the channel, the command is
built.  Its packet is finalized within the size exactly where the CP
counts it with the mark byte it writes. -/
theorem card_command_fits_iff (ha : CardAdmitted c size) :
    (∀ (trs : OsdpTrs) (hdr : Nat), hdr ≤ 9 →
      (osdpTrsCmdBuild trs (some (.xwr c))
        ((size - hdr - 1 : Nat) - 1)).isSome) ∧
    ∀ (env : Env) (depth i : Nat) (s : Osdp), AboutToSend c size i s →
      (CardFits env depth size i s ↔ MarkAgrees (s.pd i)) := by
  refine ⟨fun trs hdr hhdr => ha.built hhdr, fun env depth i s h =>
    ⟨fun hfits => ?_, fun hmark => ?_⟩⟩
  · exact not_not.mp fun hmark => h.unfinished ha hmark hfits
  · obtain ⟨total, u, hlay⟩ := h.laid ha hmark
    exact ⟨total, u, hlay, h.finalized ha hmark hlay⟩

/-- A CP with a session running at the smallest packet size, about to send
an APDU of two bytes. -/
def cardCp (mark skip : Bool) : Osdp :=
  { pd := fun _ =>
      { flags :=
          { scActive := true, pktHasMark := mark, pktSkipMark := skip }
        peerRxSize := minimumPacketSize
        cmdId := cmdXwr
        activeCmd := some { node := 0, cmd := .xwr (.sendApdu [0x00, 0xa4]) }
        trs := { bandOpen := true } } }

theorem cardAdmitted_cardCp :
    CardAdmitted (.sendApdu [0x00, 0xa4]) minimumPacketSize :=
  ⟨rfl, ⟨(cardCp true false).pd 0, by decide, by decide⟩, by decide,
    by decide⟩

theorem aboutToSend_cardCp (mark skip : Bool) :
    AboutToSend (.sendApdu [0x00, 0xa4]) minimumPacketSize 0
      (cardCp mark skip) := by
  refine ⟨rfl, rfl, rfl, ?_, rfl, rfl, ?_⟩
  · rfl
  · show 256 ≤ (zeros _).length
    rw [zeros, List.length_replicate]

/-- With the mark byte it writes it is sent. -/
theorem card_command_fits_marked :
    CardFits (plainEnv (knownCipher []) fun _ => 0) 0 minimumPacketSize 0
      (cardCp true false) :=
  ((card_command_fits_iff cardAdmitted_cardCp).2 _ 0 0 _
    (aboutToSend_cardCp true false)).mpr fun e => by cases e

/-- A CP that skips mark bytes, and received one last, does not send
it. -/
theorem card_command_unmarked :
    ¬ ∀ (c : TrsCmd) (size : Nat), CardAdmitted c size →
      ∀ (env : Env) (depth i : Nat) (s : Osdp), AboutToSend c size i s →
        CardFits env depth size i s := fun hall =>
  (aboutToSend_cardCp true true).unfinished cardAdmitted_cardCp
    (fun h => by cases h rfl)
    (hall _ _ cardAdmitted_cardCp (plainEnv (knownCipher []) fun _ => 0) 0 0
      _ (aboutToSend_cardCp true true))

end CardRoom

end LibOsdp
