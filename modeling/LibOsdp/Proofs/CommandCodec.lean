/-
A command from the application of a CP to the application of a PD: what
`cp_build_command` serialises and `pd_decode_command` parses
(osdp_cp.c, osdp_pd.c).

# What travels

`OsdpCmd.onWire` is the command as it can arrive.  The arrays are cut to
the length that goes with them; the fields no data block has room for are
gone: the permanent half of a LED has no timer, and a status request is
its kind alone.

# The two switches

The encoder and the decoder agree record by record: `appCmdBytes` lays
the fields, the parsers of the decoder take them up again in the same
order and byte order.  Between them stand the decoder's checks, gathered
in `PdAdmits`; a command that meets them reaches the application once.
-/
import LibOsdp.Cp.Proofs.Commands
import LibOsdp.Pd.Proofs.Handing

namespace LibOsdp

open Lib

-- ============================================================= on the wire

/-- What the data blocks of a command carry. -/
def OsdpCmd.onWire : OsdpCmd → OsdpCmd
  | .led reader ledNumber temporary permanent =>
    .led reader ledNumber temporary { permanent with timerCount := 0 }
  | .text reader controlCode tempTime offsetRow offsetCol length data =>
    .text reader controlCode tempTime offsetRow offsetCol length
      (fieldBytes data length.toNat)
  | .mfg vendorCode length data =>
    .mfg vendorCode length (fieldBytes data length.toNat)
  | .bioread a => .bioread { a with length := 0, data := [] }
  | .biomatch a =>
    .biomatch { a with data := fieldBytes a.data a.length.toNat }
  | .keyset type length data =>
    .keyset type length (fieldBytes data length.toNat)
  | .status r => .status { type := r.type }
  | c => c

/-- The commands that ride the queue of a CP, those of a card session
apart. -/
def queuedFamily : OsdpCmd → Bool
  | .output .. | .led .. | .buzzer .. | .text .. | .tdset .. | .comset ..
  | .mfg .. | .bioread _ | .biomatch _ | .status _ | .keyset .. => true
  | _ => false

/-- Lengths within the arrays they count, and fields within the width
they have on the wire. -/
def OsdpCmd.fits : OsdpCmd → Prop
  | .text _ _ _ _ _ length _ => length ≤ 32
  | .mfg vendorCode length _ => vendorCode.toNat < 256 ^ 3 ∧ length ≤ 64
  | .biomatch a => a.length ≤ 128
  | .keyset _ length _ => length ≤ 32
  | _ => True

/-- The output or LED a command names, counted from one. -/
def cmdItem : OsdpCmd → Option Nat
  | .output outputNo .. => some (outputNo.toNat + 1)
  | .led _ ledNumber .. => some (ledNumber.toNat + 1)
  | _ => none

/-- The checks a PD makes on a command before its application sees it. -/
structure PdAdmits (env : Env) (p : OsdpPd) (id : Nat) (cmd : OsdpCmd) :
    Prop where
  asked : env.commandCallback.isSome = true
  policy : refusedByPolicy p id = false
  capable : (cmdCapability id).isSome = true →
    capAllows { p with cmdId := id } (cmdItem cmd) = true
  valid : validateCommand p cmd = true
  address : ∀ a b, cmd = .comset a b → a < 0x7F
  keyed : id = cmdKeyset → p.flags.scActive = true

-- =========================================================== the PD's half

section Decode

variable {env : Env} {run : List ApiCall → OsdpM Unit}
variable (hr : ∀ calls, Abides SameCalls (run calls))
variable (hreg : env.commandCallback.isSome = true)
variable {j : Nat} {s : Osdp} {c : OsdpCmd}

/-- A capability that is there lets the command through. -/
theorem pdCmdCapOk_ok {item : Option Nat}
    (h : capAllows (s.pd j) item = true) :
    pdCmdCapOk j item s = .ok true s := by
  unfold pdCmdCapOk
  rw [bind_eq (getPd_ok.mpr ⟨rfl, rfl⟩), if_pos h]
  rfl

include hr hreg

/-- The record loop on one record. -/
theorem hands_pdRecords {size : Nat} {parse : Bytes → OsdpCmd}
    {item : Bytes → Option Nat} {data : Bytes}
    (hcap : capAllows (s.pd j) (item data) = true)
    (hv : validateCommand (s.pd j) (parse data) = true) :
    Hands j (parse data) (pdRecords env run j size parse item 1 data) s := by
  unfold pdRecords
  refine Hands.after (pdCmdCapOk_ok hcap) rfl ?_
  refine (hands_doCommandCallback hr hreg hv).settle fun r => ?_
  unfold pdRecords
  grind

/-- CMD_LED and CMD_BUZ on one record. -/
theorem hands_pdDecodeRecords {size : Nat} {parse : Bytes → OsdpCmd}
    {item : Bytes → Option Nat} {data : Bytes} (hsize : data.length = size)
    (hpos : 0 < size) (hcap : capAllows (s.pd j) (item data) = true)
    (hv : validateCommand (s.pd j) (parse data) = true) :
    Hands j (parse data) (pdDecodeRecords env run j size parse item data)
      s := by
  unfold pdDecodeRecords
  rw [hsize, Nat.mod_self, Nat.div_self hpos, if_neg (by decide)]
  refine (hands_pdRecords hr hreg hcap hv).settle fun ok => ?_
  grind

/-- The tail of CMD_TEXT and CMD_TDSET. -/
theorem hands_pdCapThenAck (hcap : capAllows (s.pd j) none = true)
    (hv : validateCommand (s.pd j) c = true) :
    Hands j c (pdCapThenAck env run j c) s := by
  unfold pdCapThenAck
  refine Hands.after (pdCmdCapOk_ok hcap) rfl ?_
  refine (hands_doCommandCallback hr hreg hv).settle fun r => ?_
  grind

/-- CMD_LSTAT and its siblings: a command with no data. -/
theorem hands_pdDecodeStatus {type : StatusType} {replyId : Nat}
    {needCap : Bool}
    (hcap : needCap = true → capAllows (s.pd j) none = true)
    (hv : validateCommand (s.pd j) (.status { type := type }) = true) :
    Hands j (.status { type := type })
      (pdDecodeStatus env run j [] type replyId needCap) s := by
  have hask : Hands j (.status { type := type })
      (pdStatusReply env run j type replyId) s := by
    unfold pdStatusReply
    refine (hands_doCommandCallback hr hreg hv).settle fun r => ?_
    obtain ⟨ok, cmd⟩ := r
    cases ok with
    | false => exact .pure _
    | true =>
      refine .bind (abides_pdTakeInlineReply j) fun taken => ?_
      cases taken with
      | true => exact .pure _
      | false =>
        refine .bind (abides_pdPrebuildStatusReply env j _ _) fun built => ?_
        cases built with
        | false => exact .pure _
        | true => exact .bind (abides_setReply j _) fun _ => .pure _
  unfold pdDecodeStatus
  rw [if_neg (by decide)]
  cases needCap with
  | false => exact hask
  | true =>
    rw [if_pos rfl]
    exact Hands.after (pdCmdCapOk_ok (hcap rfl)) rfl hask

end Decode

-- ============================================================== the records

theorem ifFits_some {maxLen : Int} {d e : Bytes}
    (h : ifFits maxLen d = some e) : d = e := by
  unfold ifFits at h
  split at h
  · cases h
  · exact Option.some.inj h

/-- A 16-bit field is read back as it was laid. -/
theorem readLe_uint16 (v : UInt16) (l : Bytes) :
    UInt16.ofNat (readLe 2 (writeLe 2 v.toNat ++ l)) = v := by
  rw [readLe_writeLe_of_lt (by exact v.toNat_lt)]
  exact UInt16.ofNat_toNat

theorem parseOutput_bytes (o k : UInt8) (t : UInt16) :
    parseOutput ([o, k] ++ writeLe 2 t.toNat) = .output o k t := by
  have hr := readLe_uint16 t []
  rw [List.append_nil] at hr
  show OsdpCmd.output o k (UInt16.ofNat (readLe 2 (writeLe 2 t.toNat))) = _
  rw [hr]

theorem parseLed_bytes (r n : UInt8) (t p : LedParams) :
    parseLed ([r, n] ++ ledBytes t ++ writeLe 2 t.timerCount.toNat ++
      ledBytes p) = .led r n t { p with timerCount := 0 } := by
  have hr := readLe_uint16 t.timerCount (ledBytes p)
  obtain ⟨t₁, t₂, t₃, t₄, t₅, t₆⟩ := t
  obtain ⟨p₁, p₂, p₃, p₄, p₅, p₆⟩ := p
  show OsdpCmd.led r n ⟨t₁, t₂, t₃, t₄, t₅, UInt16.ofNat (readLe 2
      (writeLe 2 t₆.toNat ++ [p₁, p₂, p₃, p₄, p₅]))⟩
    ⟨p₁, p₂, p₃, p₄, p₅, 0⟩ = _
  rw [show readLe 2 (writeLe 2 t₆.toNat ++ [p₁, p₂, p₃, p₄, p₅])
    = readLe 2 (writeLe 2 t₆.toNat ++ ledBytes ⟨p₁, p₂, p₃, p₄, p₅, p₆⟩)
    from rfl, hr]

-- ========================================================= one by one

section Decode

variable {env : Env} {run : List ApiCall → OsdpM Unit}
variable (hr : ∀ calls, Abides SameCalls (run calls))
variable (hreg : env.commandCallback.isSome = true)
variable {j : Nat} {s : Osdp}
include hr hreg

/-- CMD_OUT. -/
theorem hands_pdDecodeOut {o k : UInt8} {t : UInt16}
    (hcap : capAllows (s.pd j) (some (o.toNat + 1)) = true)
    (hv : validateCommand (s.pd j) (.output o k t) = true) :
    Hands j (.output o k t)
      (pdDecodeOut env run j ([o, k] ++ writeLe 2 t.toNat)) s := by
  have hp := parseOutput_bytes o k t
  have hlen : ([o, k] ++ writeLe 2 t.toNat).length = 4 := by
    rw [List.length_append, length_writeLe]
    rfl
  unfold pdDecodeOut
  rw [hlen, if_neg (by decide)]
  have hrec : Hands j (parseOutput ([o, k] ++ writeLe 2 t.toNat))
      (pdRecords env run j 4 parseOutput
        (fun d => some ((byteAt d 0).toNat + 1)) 1
        ([o, k] ++ writeLe 2 t.toNat)) s :=
    hands_pdRecords hr hreg hcap (by rw [hp]; exact hv)
  rw [hp] at hrec
  exact hrec.settle fun ok => by grind

/-- CMD_LED. -/
theorem hands_pdDecodeLed {r n : UInt8} {t p : LedParams}
    (hcap : capAllows (s.pd j) (some (n.toNat + 1)) = true)
    (hv : validateCommand (s.pd j)
      (.led r n t { p with timerCount := 0 }) = true) :
    Hands j (.led r n t { p with timerCount := 0 })
      (pdDecodeLed env run j ([r, n] ++ ledBytes t ++
        writeLe 2 t.timerCount.toNat ++ ledBytes p)) s := by
  have hp := parseLed_bytes r n t p
  have hlen : ([r, n] ++ ledBytes t ++ writeLe 2 t.timerCount.toNat ++
      ledBytes p).length = 14 := by
    rw [List.length_append, List.length_append, length_writeLe]
    rfl
  rw [← hp] at hv ⊢
  exact hands_pdDecodeRecords hr hreg hlen (by decide) hcap hv

/-- CMD_BUZ. -/
theorem hands_pdDecodeBuz {r k on off rep : UInt8}
    (hcap : capAllows (s.pd j) none = true)
    (hv : validateCommand (s.pd j) (.buzzer r k on off rep) = true) :
    Hands j (.buzzer r k on off rep)
      (pdDecodeBuz env run j [r, k, on, off, rep]) s :=
  hands_pdDecodeRecords hr hreg rfl (by decide) hcap hv

/-- CMD_TEXT. -/
theorem hands_pdDecodeText {r k tt row col n : UInt8} {data : Bytes}
    (hn : n ≤ 32) (hlen : data.length = n.toNat)
    (hcap : capAllows (s.pd j) none = true)
    (hv : validateCommand (s.pd j) (.text r k tt row col n data) = true) :
    Hands j (.text r k tt row col n data)
      (pdDecodeText env run j ([r, k, tt, row, col, n] ++ data)) s := by
  have hn : n.toNat ≤ 32 := hn
  have htake : data.take n.toNat = data := by
    rw [← hlen, List.take_length]
  have hread : byteAt ([r, k, tt, row, col, n] ++ data) 5 = n := rfl
  unfold pdDecodeText
  rw [if_neg (by simp), hread]
  dsimp only
  rw [if_neg (by
    rintro (h | h)
    · omega
    · simp at h
      omega)]
  show Hands j _ (pdCapThenAck env run j
    (.text r k tt row col n (data.take n.toNat))) s
  rw [htake]
  exact hands_pdCapThenAck hr hreg hcap hv

/-- CMD_TDSET. -/
theorem hands_pdDecodeTdset {year : UInt16} {mo d h mi se : UInt8}
    (hcap : capAllows (s.pd j) none = true)
    (hv : validateCommand (s.pd j) (.tdset year mo d h mi se) = true) :
    Hands j (.tdset year mo d h mi se)
      (pdDecodeTdset env run j
        (writeLe 2 year.toNat ++ [mo, d, h, mi, se])) s := by
  have hyear := readLe_uint16 year [mo, d, h, mi, se]
  unfold pdDecodeTdset
  rw [if_neg (by simp), hyear]
  exact hands_pdCapThenAck hr hreg hcap hv

/-- CMD_COMSET. -/
theorem hands_pdDecodeComset {a : UInt8} {b : UInt32} (ha : a < 0x7F)
    (hv : validateCommand (s.pd j) (.comset a b) = true) :
    Hands j (.comset a b)
      (pdDecodeComset env run j (a :: writeLe 4 b.toNat)) s := by
  have hb : UInt32.ofNat (readLe 4 (writeLe 4 b.toNat)) = b := by
    have h := readLe_writeLe_of_lt (n := 4) b.toNat_lt []
    rw [List.append_nil] at h
    rw [h]
    exact UInt32.ofNat_toNat
  have hdrop : (a :: writeLe 4 b.toNat).drop 1 = writeLe 4 b.toNat := rfl
  unfold pdDecodeComset
  rw [if_neg (by simp), byteAt_zero, hdrop, hb]
  dsimp only
  rw [if_neg (UInt8.not_le.mpr ha)]
  refine (hands_doCommandCallback hr hreg hv).settle fun r => ?_
  unfold pdParkComset
  grind

/-- CMD_MFG. -/
theorem hands_pdDecodeMfg {v : UInt32} {n : UInt8} {data : Bytes}
    (hvendor : v.toNat < 256 ^ 3) (hn : n ≤ 64)
    (hlen : data.length = n.toNat)
    (hv : validateCommand (s.pd j) (.mfg v n data) = true) :
    Hands j (.mfg v n data)
      (pdDecodeMfg env run j (writeLe 3 v.toNat ++ data)) s := by
  have hread : UInt32.ofNat (readLe 3 (writeLe 3 v.toNat ++ data)) = v := by
    rw [readLe_writeLe_of_lt hvendor]
    exact UInt32.ofNat_toNat
  have hcount : UInt8.ofNat ((writeLe 3 v.toNat ++ data).length - 3) = n := by
    rw [List.length_append, length_writeLe, hlen, Nat.add_sub_cancel_left]
    exact UInt8.ofNat_toNat
  have hdrop : (writeLe 3 v.toNat ++ data).drop 3 = data :=
    List.drop_left' (length_writeLe 3 _)
  have htake : data.take n.toNat = data := by
    rw [← hlen, List.take_length]
  unfold pdDecodeMfg
  rw [if_neg (by simp), hcount, hread, hdrop]
  dsimp only
  rw [if_neg (UInt8.not_lt.mpr hn), htake]
  refine (hands_doCommandCallback hr hreg hv).settle fun r => ?_
  grind

/-- CMD_BIOREAD. -/
theorem hands_pdDecodeBioread {a : BioArgs}
    (hcap : capAllows (s.pd j) none = true)
    (hv : validateCommand (s.pd j)
      (.bioread { a with length := 0, data := [] }) = true) :
    Hands j (.bioread { a with length := 0, data := [] })
      (pdDecodeBioread env run j [a.reader, a.type, a.format, a.quality])
      s := by
  unfold pdDecodeBioread
  rw [if_neg (by simp)]
  refine Hands.after (pdCmdCapOk_ok hcap) rfl ?_
  refine (hands_doCommandCallback hr hreg hv).settle fun r => ?_
  grind

/-- CMD_BIOMATCH. -/
theorem hands_pdDecodeBiomatch {a : BioArgs} (hn : a.length ≤ 128)
    (hlen : a.data.length = a.length.toNat)
    (hcap : capAllows (s.pd j) none = true)
    (hv : validateCommand (s.pd j) (.biomatch a) = true) :
    Hands j (.biomatch a)
      (pdDecodeBiomatch env run j
        ([a.reader, a.type, a.format, a.quality] ++
          writeLe 2 a.length.toNat ++ a.data)) s := by
  have hn : a.length.toNat ≤ 128 := hn
  have hread : readLe 2 (writeLe 2 a.length.toNat ++ a.data)
      = a.length.toNat := readLe_writeLe_of_lt a.length.toNat_lt _
  unfold pdDecodeBiomatch
  rw [if_neg (by simp)]
  refine Hands.after (pdCmdCapOk_ok hcap) rfl ?_
  have hdrop : ([a.reader, a.type, a.format, a.quality] ++
      writeLe 2 a.length.toNat ++ a.data).drop 4
        = writeLe 2 a.length.toNat ++ a.data := rfl
  have hargs : ({ parseBioArgs ([a.reader, a.type, a.format, a.quality] ++
      writeLe 2 a.length.toNat ++ a.data) with
      length := UInt16.ofNat a.length.toNat
      data := ([a.reader, a.type, a.format, a.quality] ++
        writeLe 2 a.length.toNat ++ a.data).drop 6 } : BioArgs) = a := by
    rw [UInt16.ofNat_toNat]
    rfl
  rw [if_neg (by simp), hdrop, hread]
  dsimp only
  rw [if_neg (by
    rintro (h | h)
    · simp [hlen] at h
    · omega), hargs]
  refine (hands_doCommandCallback hr hreg hv).settle fun r => ?_
  grind

/-- CMD_KEYSET. -/
theorem hands_pdDecodeKeyset {key : Bytes} (hkey : key.length = 16)
    (hcap : capAllows (s.pd j) none = true)
    (hsc : (s.pd j).flags.scActive = true)
    (hv : validateCommand (s.pd j) (.keyset 1 16 key) = true) :
    Hands j (.keyset 1 16 key)
      (pdDecodeKeyset env run j ([1, 16] ++ key)) s := by
  obtain ⟨u, hu⟩ : ∃ u, u = s.updPd j fun p => p.setNak nakScCond :=
    ⟨_, rfl⟩
  have hset : setNakCode j nakScCond s = .ok () u := updPd_ok.mpr hu.symm
  have hlog : u.log = s.log := by
    rw [hu]
    rfl
  have hpd : u.pd j = (s.pd j).setNak nakScCond := by
    rw [hu, updPd_pd_same]
  have hcap : capAllows (u.pd j) none = true := by
    rw [hpd]
    exact hcap
  have hv : validateCommand (u.pd j) (.keyset 1 16 key) = true := by
    rw [hpd]
    exact hv
  have hsc : (u.pd j).flags.scActive = true := by
    rw [hpd]
    exact hsc
  have hsome : env.commandCallback.isNone = false := by
    rw [← Option.not_isSome, hreg]
    rfl
  unfold pdDecodeKeyset
  rw [if_neg (by simp [hkey]), if_neg (by simp)]
  refine Hands.after hset hlog ?_
  refine Hands.after (pdCmdCapOk_ok hcap) rfl ?_
  refine Hands.after (getPd_ok.mpr ⟨rfl, rfl⟩) rfl ?_
  rw [if_neg (by simp [hsc, hsome])]
  have hnak := abides_updPd j fun p => p.setNak nakScCond
  refine (hands_doCommandCallback hr hreg hv).settle fun r => ?_
  unfold setNakCode pdParkKey
  grind

/-- What the checks of `pd_decode_command` have come to when its `switch`
is reached. -/
structure PdReady (j id : Nat) (cmd : OsdpCmd) (s : Osdp) : Prop where
  capable : (cmdCapability id).isSome = true →
    capAllows (s.pd j) (cmdItem cmd) = true
  valid : validateCommand (s.pd j) cmd.onWire = true
  address : ∀ a b, cmd = .comset a b → a < 0x7F
  keyed : id = cmdKeyset → (s.pd j).flags.scActive = true

/-- The data block of an application's command, decoded. -/
theorem hands_appCmdBytes {envC : Env} {p q : OsdpPd} {maxLen : Int}
    {cmd : OsdpCmd} {id : Nat} {d : Bytes} (hid : wireCmdOf cmd = some id)
    (hride : queuedFamily cmd = true) (hkey : keysetRefused q cmd = false)
    (hfit : cmd.fits) (hd : appCmdBytes envC p maxLen cmd = some d)
    (hs : PdReady j id cmd s) :
    Hands j cmd.onWire (pdDecodeCases env run j id d) s := by
  have hcap := hs.capable
  have hv := hs.valid
  cases cmd with
  | output o k t =>
    cases hid
    obtain rfl := ifFits_some hd
    exact (hands_pdDecodeOut hr hreg (hcap rfl) hv).settle fun _ => .pure _
  | led r n t p =>
    cases hid
    obtain rfl := ifFits_some hd
    exact (hands_pdDecodeLed hr hreg (hcap rfl) hv).settle fun _ => .pure _
  | buzzer r k on off rep =>
    cases hid
    obtain rfl := ifFits_some hd
    exact (hands_pdDecodeBuz hr hreg (hcap rfl) hv).settle fun _ => .pure _
  | text r k tt row col n data =>
    cases hid
    obtain rfl := ifFits_some hd
    exact (hands_pdDecodeText hr hreg hfit (length_fieldBytes _ _)
      (hcap rfl) hv).settle fun _ => .pure _
  | tdset year mo d h mi se =>
    cases hid
    obtain rfl := ifFits_some hd
    exact (hands_pdDecodeTdset hr hreg (hcap rfl) hv).settle fun _ =>
      .pure _
  | comset a b =>
    cases hid
    obtain rfl := ifFits_some hd
    exact (hands_pdDecodeComset hr hreg (hs.address a b rfl) hv).settle
      fun _ => .pure _
  | mfg v n data =>
    cases hid
    have hd : (if n > 64 then none else ifFits maxLen _) = some d := hd
    rw [if_neg (UInt8.not_lt.mpr hfit.2)] at hd
    obtain rfl := ifFits_some hd
    exact (hands_pdDecodeMfg hr hreg hfit.1 hfit.2 (length_fieldBytes _ _)
      hv).settle fun _ => .pure _
  | bioread a =>
    cases hid
    obtain rfl := ifFits_some hd
    exact (hands_pdDecodeBioread hr hreg (hcap rfl) hv).settle fun _ =>
      .pure _
  | biomatch a =>
    cases hid
    have hd : (if a.length > 128 then none else ifFits maxLen _) = some d :=
      hd
    rw [if_neg (UInt16.not_lt.mpr hfit)] at hd
    obtain rfl := ifFits_some hd
    have hbio := hands_pdDecodeBiomatch hr hreg
      (a := { a with data := fieldBytes a.data a.length.toNat }) hfit
      (length_fieldBytes _ _) (hcap rfl) hv
    exact hbio.settle fun _ => .pure _
  | keyset type n data =>
    cases hid
    have htype : type = 1 := by
      simp only [keysetRefused, Bool.or_eq_false_iff, bne_eq_false_iff_eq]
        at hkey
      exact hkey.1
    subst htype
    have hblock : keysetBytes envC p maxLen 1 n data = some d := hd
    unfold keysetBytes at hblock
    split at hblock
    · cases hblock
    · next hcond =>
      have hn : n = 16 := by
        by_contra hne
        exact hcond (.inr (.inl hne))
      subst hn
      rw [if_pos rfl] at hblock
      obtain rfl := Option.some.inj hblock
      exact (hands_pdDecodeKeyset hr hreg (length_fieldBytes _ _) (hcap rfl)
        (hs.keyed rfl) hv).settle fun _ => .pure _
  | status r => cases hd
  | _ => cases hride

/-- A status request has no data block. -/
theorem hands_status {r : StatusReport} {id : Nat}
    (hid : wireCmdOf (.status r) = some id)
    (hs : PdReady j id (.status r) s) :
    Hands j (.status { type := r.type }) (pdDecodeCases env run j id [])
      s := by
  obtain ⟨type, n, report⟩ := r
  have hcap := hs.capable
  have hv := hs.valid
  cases type with
  | input =>
    cases hid
    exact (hands_pdDecodeStatus hr hreg (fun _ => hcap rfl) hv).settle
      fun _ => .pure _
  | output =>
    cases hid
    exact (hands_pdDecodeStatus hr hreg (fun _ => hcap rfl) hv).settle
      fun _ => .pure _
  | «local» =>
    cases hid
    exact (hands_pdDecodeStatus hr hreg (fun e => by cases e) hv).settle
      fun _ => .pure _
  | reader =>
    cases hid
    exact (hands_pdDecodeStatus hr hreg (fun e => by cases e) hv).settle
      fun _ => .pure _
  | unlisted code => cases hid

end Decode

-- =========================================================== the CP's half

section Encode

variable {env : Env} {run : List ApiCall → OsdpM Unit} {i : Nat}

/-- What `cp_build_command` puts behind the id of a queued command. -/
def queuedBody (env : Env) (p : OsdpPd) (maxLen : Int) : OsdpCmd → CmdBody
  | .status _ => .data []
  | c => .of (appCmdBytes env p maxLen c)

theorem of_eq_data {o : Option Bytes} {d : Bytes}
    (h : CmdBody.of o = .data d) : o = some d := by
  cases o with
  | none => cases h
  | some e =>
    cases h
    rfl

theorem of_ne_abort (o : Option Bytes) : CmdBody.of o ≠ .abort := by
  cases o <;> exact fun h => by cases h

theorem queuedBody_ne_abort {p : OsdpPd} {maxLen : Int} (cmd : OsdpCmd) :
    queuedBody env p maxLen cmd ≠ .abort := by
  intro h
  cases cmd <;> first
    | cases h
    | exact absurd h (of_ne_abort _)

/-- Building from the application's command reads it and nothing else. -/
theorem buildAppCmd_ok {cmd : OsdpCmd} {maxLen : Int} {x w : Osdp}
    {body : CmdBody} (hid : wireCmdOf cmd = some (x.pd i).cmdId)
    (h : buildAppCmd env i (some cmd) maxLen x = .ok body w) :
    w = x ∧ body = .of (appCmdBytes env (x.pd i) maxLen cmd) := by
  unfold buildAppCmd at h
  obtain ⟨p, u, hg, h⟩ := bind_ok.mp h
  obtain ⟨rfl, rfl⟩ := getPd_ok.mp hg
  dsimp only at h
  rw [if_neg (not_not_intro hid)] at h
  obtain ⟨rfl, rfl⟩ := pure_ok.mp h
  exact ⟨rfl, rfl⟩

/-- The case of a queued command. -/
theorem cpBuildCases_queued {cmd : OsdpCmd} {smb : Option Nat}
    {maxLen : Int} {x w : Osdp} {body : CmdBody}
    (hid : wireCmdOf cmd = some (x.pd i).cmdId)
    (hride : queuedFamily cmd = true)
    (h : cpBuildCases env run i (some cmd) smb maxLen x = .ok body w) :
    w = x ∧ body = queuedBody env (x.pd i) maxLen cmd := by
  unfold cpBuildCases at h
  obtain ⟨p, u, hg, h⟩ := bind_ok.mp h
  obtain ⟨rfl, rfl⟩ := getPd_ok.mp hg
  have hid' := hid
  generalize (x.pd i).cmdId = id at h hid'
  cases cmd with
  | status r =>
    obtain ⟨type, n, report⟩ := r
    cases type <;> cases hid' <;>
      · obtain ⟨rfl, rfl⟩ := pure_ok.mp h
        exact ⟨rfl, rfl⟩
  | output | led | buzzer | text | tdset | comset | mfg | bioread
  | biomatch | keyset =>
    cases hid'
    exact buildAppCmd_ok hid h
  | _ => cases hride

/-- The security block, where it is rewritten, lies in front of the data
block. -/
def SmbClear (i : Nat) (s : Osdp) : Prop :=
  (s.pd i).flags.scActive = true →
    ∀ k, osdpPhyPacketGetSmb (s.pd i) s.txBuf = some k → k + 2 ≤ dataPos i s

/-- So the type picked at the end does not touch the data block. -/
theorem pickBlockType_drop {smb : Option Nat} {n off : Nat} {s t : Osdp}
    (hclear : (s.pd i).flags.scActive = true →
      ∀ k, smb = some k → k + 2 ≤ off)
    (hlen : off ≤ s.txBuf.length)
    (h : cpPickBlockType i smb n s = .ok () t) :
    t.txBuf.drop off = s.txBuf.drop off := by
  unfold cpPickBlockType at h
  cases smb with
  | none =>
    obtain ⟨-, rfl⟩ := pure_ok.mp h
    rfl
  | some k =>
    obtain ⟨p, u, hg, h⟩ := bind_ok.mp h
    obtain ⟨rfl, rfl⟩ := getPd_ok.mp hg
    obtain ⟨buf, u, hread, h⟩ := bind_ok.mp h
    cases hread
    split at h
    · next hact =>
      cases h
      have hk := hclear hact.2 k rfl
      exact drop_writeAt hk (by omega)
    · obtain ⟨-, rfl⟩ := pure_ok.mp h
      rfl

/-- The header `osdp_phy_packet_init` writes leaves room for the block. -/
theorem smbClear_init {size : Nat} {hdr : Int} {s t : Osdp}
    (h : osdpPhyPacketInit i size s = .ok hdr t) (hok : 0 ≤ hdr)
    (hroom : packetBufSize ≤ s.txBuf.length)
    (hmode : (s.pd i).flags.pdMode = false) :
    SmbClear i t ∧ t.txBuf.length = s.txBuf.length := by
  by_cases hmark : MarkAgrees (s.pd i)
  · obtain ⟨hl, -, hlen, -⟩ := laid_init h hok hroom hmark
    refine ⟨fun _ k hk => ?_, hlen⟩
    rw [getSmb_eq] at hk
    split at hk
    · next hctl =>
      have htwo := hl.scb hctl
      rw [← Option.some.inj hk, (dataPos_ge i t).2 hctl]
      omega
    · cases hk
  · obtain ⟨hwrites, hflag⟩ := stale_parts hmark
    rcases osdpPhyPacketInit_ok h with ⟨-, rfl, -⟩ | ⟨-, hpd, htx, -⟩
    · exact absurd hok (by decide)
    · have hroom : 256 ≤ s.txBuf.length := hroom
      refine ⟨fun hact k hk => ?_, by rw [htx, length_headerBuf (by omega)]⟩
      -- the control byte is looked for where the block's length went
      have hone : (t.pd i).markLen = 1 := by
        rw [hpd]
        show (if (s.pd i).flags.pktHasMark || _ then 1 else 0) = 1
        rw [hflag]
        rfl
      have hsom : somPos (s.pd i) = 0 := if_neg (by
        rw [hwrites]
        exact Bool.false_ne_true)
      have hact : (s.pd i).flags.scActive = true := by
        rw [hpd] at hact
        exact hact
      have hscb : initScb (s.pd i) (txId (s.pd i)) = [2, 0x15] := by
        unfold initScb
        rw [hmode, Bool.false_and, if_neg Bool.false_ne_true, if_pos hact]
      have hfive := @byteAt_headerBuf_ge (s.pd i) s.txBuf 1 (by omega)
        (by rw [hscb]; decide)
      rw [hsom, hscb] at hfive
      have hplain : ctrlScb 2 = false := by decide
      rw [getSmb_eq, hone, htx, hfive, byteAt_succ, byteAt_zero, hplain,
        if_neg Bool.false_ne_true] at hk
      cases hk

/-- What `cp_build_command` leaves of a queued command: its id and its data
block. -/
theorem cpBuildCommand_queued {cmd : OsdpCmd} {size len : Nat}
    {s t : Osdp}
    (h : cpBuildCommand env run i (some cmd) size s = .ok (some len) t)
    (hid : wireCmdOf cmd = some (s.pd i).cmdId)
    (hride : queuedFamily cmd = true) (hclear : SmbClear i s)
    (hroom : size ≤ s.txBuf.length) :
    ∃ d, queuedBody env (s.pd i) (size - dataPos i s - 1 : Nat) cmd
        = .data d ∧
      (t.txBuf.drop (dataPos i s)).take len
        = UInt8.ofNat (s.pd i).cmdId :: d := by
  unfold cpBuildCommand at h
  obtain ⟨p, u, hg, h⟩ := bind_ok.mp h
  obtain ⟨rfl, rfl⟩ := getPd_ok.mp hg
  obtain ⟨buf, u, hread, h⟩ := bind_ok.mp h
  cases hread
  have hbuf : s.buf .tx = s.txBuf := by
    simp [Osdp.buf]
  rw [hbuf] at h
  split at h
  · cases (pure_ok.mp h).1
  · next hstart =>
    have hsize : dataPos i s < size :=
      Nat.not_le.mp fun hle => hstart (.inl hle)
    obtain ⟨_, v, hv, h⟩ := bind_ok.mp h
    cases hv
    obtain ⟨body, w, hcases, h⟩ := bind_ok.mp h
    obtain ⟨rfl, rfl⟩ := cpBuildCases_queued (x := { s with
      txBuf := writeAt s.txBuf (dataPos i s) [UInt8.ofNat (s.pd i).cmdId] })
      hid hride hcases
    have hpos : osdpPhyPacketGetDataOffset (s.pd i) s.txBuf = dataPos i s :=
      rfl
    rw [hpos] at h
    dsimp only at h
    unfold cpFinishCommand at h
    cases hbody : queuedBody env (s.pd i) (size - dataPos i s - 1 : Nat)
        cmd with
    | fail =>
      rw [show queuedBody env _ _ cmd = _ from hbody] at h
      cases (pure_ok.mp h).1
    | abort =>
      exact absurd hbody (queuedBody_ne_abort cmd)
    | data d =>
      rw [show queuedBody env _ _ cmd = _ from hbody] at h
      obtain ⟨_, z, hz, h⟩ := bind_ok.mp h
      cases hz
      obtain ⟨_, y, hy, h⟩ := bind_ok.mp h
      obtain ⟨e, rfl⟩ := pure_ok.mp h
      obtain rfl := Option.some.inj e
      have hfit : dataPos i s ≤ s.txBuf.length := by omega
      have hall : writeAt (writeAt s.txBuf (dataPos i s)
          [UInt8.ofNat (s.pd i).cmdId]) (dataPos i s + 1) d
            = writeAt s.txBuf (dataPos i s)
              (UInt8.ofNat (s.pd i).cmdId :: d) := writeAt_writeAt _ d hfit
      have hlong := length_le_writeAt s.txBuf (dataPos i s)
        (UInt8.ofNat (s.pd i).cmdId :: d)
      have hdrop := pickBlockType_drop (s := { s with
          txBuf := writeAt (writeAt s.txBuf (dataPos i s)
            [UInt8.ofNat (s.pd i).cmdId]) (dataPos i s + 1) d }) hclear
        (by
          show dataPos i s ≤ (writeAt (writeAt s.txBuf _ _) _ d).length
          rw [hall]
          omega) hy
      refine ⟨d, rfl, ?_⟩
      rw [hdrop]
      show ((writeAt (writeAt s.txBuf (dataPos i s)
        [UInt8.ofNat (s.pd i).cmdId]) (dataPos i s + 1) d).drop
          (dataPos i s)).take (d.length + 1) = _
      have hslice := slice_writeAt (UInt8.ofNat (s.pd i).cmdId :: d) hfit
      rw [List.drop_take, Nat.add_sub_cancel_left] at hslice
      rw [hall]
      exact hslice

end Encode

-- ============================================================ both halves

/-- What is checked of a command is on the wire. -/
theorem validateCommand_onWire (p : OsdpPd) (cmd : OsdpCmd) :
    validateCommand p cmd.onWire = validateCommand p cmd := by
  have hform : commandWellFormed cmd.onWire = commandWellFormed cmd := by
    cases cmd <;> rfl
  have hreader : osdpCmdReaderNo cmd.onWire = osdpCmdReaderNo cmd := by
    cases cmd <;> rfl
  unfold validateCommand
  rw [hform, hreader]

/-- The PD's checks, where its `switch` is reached. -/
theorem PdAdmits.ready {env : Env} {j id : Nat} {cmd : OsdpCmd}
    {s u : Osdp} (h : PdAdmits env (s.pd j) id cmd)
    (hu : u.pd j = { (s.pd j).nak nakRecord with cmdId := id }) :
    PdReady j id cmd u := by
  have hcap : (u.pd j).cap = (s.pd j).cap := by
    rw [hu]
    rfl
  have hvalid : validateCommand (u.pd j) cmd.onWire
      = validateCommand (s.pd j) cmd := by
    rw [validateCommand_onWire]
    unfold validateCommand
    rw [hcap]
  refine ⟨fun hc => ?_, hvalid.trans h.valid, h.address, fun e => ?_⟩
  · rw [hu]
    exact h.capable hc
  · rw [hu]
    exact h.keyed e

/-- A payload whose id and data block are known, up to the `switch`. -/
theorem hands_pdDecodeCommand {env : Env} {run : List ApiCall → OsdpM Unit}
    {j id : Nat} {d : Bytes} {cmd c : OsdpCmd} {s : Osdp} (hid : id < 256)
    (h : PdAdmits env (s.pd j) id cmd)
    (hcases : ∀ u, PdReady j id cmd u →
      Hands j c (pdDecodeCases env run j id d) u) :
    Hands j c (pdDecodeCommand env run j (UInt8.ofNat id :: d)) s := by
  obtain ⟨u, hu⟩ : ∃ u, u = s.updPd j fun p => p.nak nakRecord := ⟨_, rfl⟩
  obtain ⟨v, hv⟩ : ∃ v, v = u.updPd j fun p => { p with cmdId := id } :=
    ⟨_, rfl⟩
  have hnak : replyWithNak j nakRecord s = .ok () u := updPd_ok.mpr hu.symm
  have hcmd : updPd j (fun p => { p with cmdId := id }) u = .ok () v :=
    updPd_ok.mpr hv.symm
  have hpd : v.pd j = { (s.pd j).nak nakRecord with cmdId := id } := by
    rw [hv, updPd_pd_same, hu, updPd_pd_same]
  have hbyte : (byteAt (UInt8.ofNat id :: d) 0).toNat = id := by
    rw [byteAt_zero, UInt8.toNat_ofNat']
    exact Nat.mod_eq_of_lt hid
  have hpolicy : refusedByPolicy (v.pd j) id = false := by
    rw [hpd]
    exact h.policy
  unfold pdDecodeCommand
  rw [hbyte]
  dsimp only
  refine Hands.after hnak (by rw [hu]; rfl) ?_
  refine Hands.after hcmd (by rw [hv]; rfl) ?_
  refine Hands.after (getPd_ok.mpr ⟨rfl, rfl⟩) rfl ?_
  rw [if_neg (by rw [hpolicy]; exact Bool.false_ne_true)]
  refine (hcases v (h.ready hpd)).settle fun o => ?_
  unfold replyWithNak
  grind

/-- Only commands have a number on the wire that one byte holds. -/
theorem wireCmdOf_lt {cmd : OsdpCmd} {id : Nat}
    (h : wireCmdOf cmd = some id) : id < 256 := by
  unfold wireCmdOf at h
  split at h
  all_goals first
    | (cases h; decide)
    | skip
  split at h
  all_goals first
    | (cases h; decide)
    | cases h

/-- What `cp_translate_cmd` lets through. -/
theorem cpTranslateCmd_ok {q : OsdpPd} {cmd : OsdpCmd} {id : Nat}
    {r r' : Osdp} (h : cpTranslateCmd q cmd r = .ok id r')
    (hid : id ≠ cmdInvalid) :
    wireCmdOf cmd = some id ∧ keysetRefused q cmd = false := by
  unfold cpTranslateCmd at h
  split at h
  · obtain ⟨rfl, -⟩ := pure_ok.mp h
    exact absurd rfl hid
  · next hno =>
    rw [Bool.or_eq_true, not_or] at hno
    refine ⟨?_, Bool.eq_false_iff.mpr hno.1⟩
    cases hw : wireCmdOf cmd with
    | none =>
      rw [hw] at h
      exact absurd h throw_ok
    | some n =>
      rw [hw] at h
      obtain ⟨rfl, -⟩ := pure_ok.mp h
      rfl

/-- A CP took `cmd` from its queue, as the wire command `id`, and
`cp_build_command` emitted `payload` for it, behind a header that
`osdp_phy_packet_init` wrote into a buffer of `size` bytes. -/
def CpEmits (env : Env) (run : List ApiCall → OsdpM Unit) (i id : Nat)
    (cmd : OsdpCmd) (payload : Bytes) : Prop :=
  (∃ p s t, cpTranslateCmd p cmd s = .ok id t ∧ id ≠ cmdInvalid) ∧
    ∃ size s hdr t len u, size ≤ packetBufSize ∧
      s.txBuf.length = packetBufSize ∧ (s.pd i).flags.pdMode = false ∧
      (s.pd i).cmdId = id ∧
      osdpPhyPacketInit i size s = .ok hdr t ∧ 0 ≤ hdr ∧
      cpBuildCommand env run i (some cmd) size t = .ok (some len) u ∧
      payload = (u.txBuf.drop (dataPos i t)).take len

/-- A queued command reaches the application of a PD that admits it: once,
and as it travels. -/
theorem command_codec {envC envP : Env} {run : List ApiCall → OsdpM Unit}
    {depth i j id : Nat} {cmd : OsdpCmd} {payload : Bytes} {s : Osdp}
    (hride : queuedFamily cmd = true) (hfit : cmd.fits)
    (hemit : CpEmits envC run i id cmd payload)
    (hasked : PdAdmits envP (s.pd j) id cmd) :
    callbacks (leaves (pdDecodeCommand envP (pdRunCalls envP depth) j
      payload) s).log = (j, cmd.onWire) :: callbacks s.log := by
  obtain ⟨⟨p, x, y, htranslated, hwire⟩, size, t, hdr, u, len, v, hsize,
    hbuf, hrole, hcmd, hinit, hhdr, hbuild, rfl⟩ := hemit
  obtain ⟨hid, hkey⟩ := cpTranslateCmd_ok htranslated hwire
  obtain ⟨hclear, hlen⟩ :=
    smbClear_init hinit hhdr (Nat.le_of_eq hbuf.symm) hrole
  have hpd : u.pd i = startedPd (t.pd i) := by
    rcases osdpPhyPacketInit_ok hinit with ⟨-, rfl, -⟩ | ⟨-, hpd, -⟩
    · exact absurd hhdr (by decide)
    · exact hpd
  have hid' : wireCmdOf cmd = some (u.pd i).cmdId := by
    rw [hpd, hid, ← hcmd]
    rfl
  obtain ⟨d, hbody, hbytes⟩ := cpBuildCommand_queued hbuild hid' hride hclear
    (by omega)
  have hsame : (u.pd i).cmdId = id :=
    Option.some.inj (hid'.symm.trans hid)
  rw [hbytes, hsame]
  have hr := abides_pdRunCalls envP depth
  refine hands_pdDecodeCommand (wireCmdOf_lt hid) hasked fun w hw => ?_
  cases cmd with
  | status r =>
    cases hbody
    exact hands_status hr hasked.asked hid hw
  | output | led | buzzer | text | tdset | comset | mfg | bioread
  | biomatch | keyset =>
    exact hands_appCmdBytes hr hasked.asked hid hride hkey hfit
      (of_eq_data hbody) hw
  | _ => cases hride

-- ============================================================== on inputs

/-- A CP online with its PD, about to send the command `id`. -/
def codecCp (id : Nat) : Osdp :=
  { pd := fun _ => { state := .online, cmdId := id } }

/-- A PD with one reader that has a text display, and one input. -/
def codecPd : Osdp :=
  { pd := fun _ =>
      { flags := { pdMode := true }
        cap := fun k =>
          if k = capReaders ∨ k = capReaderTextOutput ∨
              k = capContactStatusMonitoring then ⟨k, 1, 1⟩
          else {} } }

/-- An application that accepts what it is handed. -/
def codecEnv : Env := plainEnv (knownCipher []) fun _ => 0

/-- A text of two characters. -/
def codecText : OsdpCmd := .text 0 1 0 1 1 2 [0x68, 0x69]

theorem command_codec_text :
    CpEmits codecEnv (fun _ => return) 0 cmdText codecText
        [0x6B, 0, 1, 0, 1, 1, 2, 0x68, 0x69] ∧
      callbacks (leaves (pdDecodeCommand codecEnv (pdRunCalls codecEnv 0) 0
        [0x6B, 0, 1, 0, 1, 1, 2, 0x68, 0x69]) codecPd).log
          = [(0, .text 0 1 0 1 1 2 [0x68, 0x69])] := by
  have hemit : CpEmits codecEnv (fun _ => return) 0 cmdText codecText
      [0x6B, 0, 1, 0, 1, 1, 2, 0x68, 0x69] :=
    ⟨⟨{}, codecCp cmdText, _, rfl, by decide⟩, packetBufSize,
      codecCp cmdText, _, _, _, _, Nat.le_refl _, List.length_replicate,
      rfl, rfl, rfl, by decide +kernel, rfl, by decide +kernel⟩
  have hasked : PdAdmits codecEnv (codecPd.pd 0) cmdText codecText :=
    ⟨rfl, rfl, fun _ => rfl, by decide, fun _ _ h => (by cases h),
      fun h => absurd h (by decide)⟩
  have hfit : codecText.fits := by
    show (2 : UInt8) ≤ 32
    decide
  exact ⟨hemit, command_codec rfl hfit hemit hasked⟩

/-- A status request that says how many entries it has room for arrives
without that number. -/
theorem command_codec_status :
    (∃ t, osdpCpSubmitCommand codecEnv 0
      { node := 1, cmd := .status { type := .input, nrEntries := 1 } }
      (codecCp cmdIstat) = .ok true t) ∧
    CpEmits codecEnv (fun _ => return) 0 cmdIstat
        (.status { type := .input, nrEntries := 1 }) [0x65] ∧
      PdAdmits codecEnv (codecPd.pd 0) cmdIstat
        (.status { type := .input, nrEntries := 1 }) ∧
      callbacks (leaves (pdDecodeCommand codecEnv (pdRunCalls codecEnv 0) 0
        [0x65]) codecPd).log
          ≠ [(0, .status { type := .input, nrEntries := 1 })] := by
  refine ⟨⟨_, rfl⟩, ⟨⟨{}, codecCp cmdIstat, _, rfl, by decide⟩, packetBufSize,
      codecCp cmdIstat, _, _, _, _, Nat.le_refl _, List.length_replicate,
      rfl, rfl, rfl, by decide +kernel, rfl, by decide +kernel⟩,
    ⟨rfl, rfl, fun _ => rfl, by decide, fun _ _ h => (by cases h),
      fun h => absurd h (by decide)⟩, ?_⟩
  decide +kernel

end LibOsdp
