/-
The secure-channel reserve of the transfer engines.

# The arithmetic

A fragment is built into what the header leaves of the buffer less
sixteen bytes.  Those have to cover four MAC bytes, the check bytes, and
the marker with which the data are padded to whole blocks.  The largest
fragment makes a data block of `size - mark - 23` bytes, id included; how
far that is from a whole block depends on the size alone, and on some
sizes the sixteen bytes are not enough: one to six too few.

# Which builder decides

All four builders keep to the same bound, so `ReserveCovers` is enough
for every fragment packet.  The file builder reaches the bound, whatever
the size, as soon as the application has that much to read; so the
condition is also needed (`fullChunk`).
-/
import LibOsdp.Cp.Proofs.Commands
import LibOsdp.Engine.Proofs.Sizes
import LibOsdp.Pd.Proofs.Sendable

namespace LibOsdp

open Lib

section Reserve

-- ============================================================== the packet

/-- A command whose data block is a fragment of a transfer. -/
def fragmentCmd (p : OsdpPd) : Bool :=
  p.cmdId == cmdFiletransfer || p.cmdId == cmdPivdata ||
    p.cmdId == cmdGenauth || p.cmdId == cmdCrauth

/-- A reply whose data block is one, or a whole template where that fits
a single packet. -/
def fragmentReply (p : OsdpPd) : Bool :=
  p.replyId == replyPivdatar || p.replyId == replyGenauthr ||
    p.replyId == replyCrauthr ||
    (p.replyId == replyBioreadr && p.flags.bioreadrMp)

/-- PD `i` has its channel up and is about to build a packet of at most
`size` bytes, with a mark byte or without, checked by a CRC or a
checksum. -/
structure AboutToBuild (size : Nat) (mark crc : Bool) (i : Nat) (s : Osdp) :
    Prop where
  active : (s.pd i).flags.scActive = true
  size : getTxBufSize (s.pd i) = size
  mark : writesMark (s.pd i) = mark
  crc : ((s.pd i).flags.pdMode || (s.pd i).flags.cpUseCrc) = crc
  rMac : (s.pd i).sc.rMac.length = 16
  cMac : (s.pd i).sc.cMac.length = 16
  room : packetBufSize ≤ s.txBuf.length

/-- The finalizer takes the packet, and it is no longer than `size`. -/
def FinalizedWithin (env : Env) (i size total : Nat) (t : Osdp) : Prop :=
  ∃ done u, osdpPhyFinalizePacket env i total size t = .ok done u ∧
    0 ≤ done ∧ done ≤ size

/-- Every fragment packet of that size is finalized: the file and the
smartcard commands of a CP, the smartcard and the biometric replies of a
PD.  A CP's packet starts with a mark byte exactly where it is counted
with one. -/
def ReserveSuffices (size : Nat) (mark crc : Bool) : Prop :=
  ∀ (env : Env) (depth i total : Nat) (s t : Osdp), ReadsWithin env →
    AboutToBuild size mark crc i s → MarkAgrees (s.pd i) →
    ((s.pd i).flags.pdMode = false → fragmentCmd (s.pd i) = true →
      cpLayCommand env (cpRunCalls env depth) i size s
        = .ok (some total) t → FinalizedWithin env i size total t) ∧
    ((s.pd i).flags.pdMode = true → fragmentReply (s.pd i) = true →
      pdLayReply env (pdRunCalls env depth) i size s
        = .ok (some total) t → FinalizedWithin env i size total t)

/-- The mark byte, as the length it adds. -/
def markBytes (mark : Bool) : Nat := if mark then 1 else 0

/-- The check bytes. -/
def crcBytes (crc : Bool) : Nat := if crc then 2 else 1

/-- The size, less the mark byte, is less than eight bytes above a
multiple of sixteen, or enough above it. -/
def ReserveCovers (size : Nat) (mark crc : Bool) : Prop :=
  (size - markBytes mark) % 16 < 8 ∨
    12 + crcBytes crc ≤ (size - markBytes mark) % 16

instance (size : Nat) (mark crc : Bool) :
    Decidable (ReserveCovers size mark crc) :=
  inferInstanceAs (Decidable (_ ∨ _))

-- ========================================================= the arithmetic

theorem markBytes_le (mark : Bool) : markBytes mark ≤ 1 := by
  cases mark <;> decide

theorem crcBytes_bounds (crc : Bool) :
    1 ≤ crcBytes crc ∧ crcBytes crc ≤ 2 := by
  cases crc <;> decide

theorem padLen_mono {a b : Nat} (h : a ≤ b) : padLen a ≤ padLen b := by
  unfold padLen
  omega

theorem sealedSpan_mono {m c a b : Nat} (h : a ≤ b) :
    sealedSpan m c a ≤ sealedSpan m c b := by
  have hpad := padLen_mono h
  unfold sealedSpan
  split
  · rw [if_pos (by omega)]
    omega
  · omega

/-- The largest fragment fits exactly where the reserve covers what
sealing it adds. -/
theorem largest_fits_iff {size : Nat} (hmin : minimumPacketSize ≤ size)
    (mark crc : Bool) :
    sealedSpan (markBytes mark) (crcBytes crc)
        (size - markBytes mark - 23) ≤ size ↔
      ReserveCovers size mark crc := by
  have hm := markBytes_le mark
  have hc := crcBytes_bounds crc
  have hmin : 128 ≤ size := hmin
  unfold ReserveCovers sealedSpan padLen
  rw [if_pos (by omega)]
  omega

-- ============================================================ every packet

section Fits

variable {env : Env} {run : List ApiCall → OsdpM Unit}
variable {i size : Nat} {s t : Osdp} {block : Bytes}

/-- A command laid under the channel is ready to be sealed. -/
theorem sealable_command (h : CommandLaid env run i size s block t)
    (hmode : (s.pd i).flags.pdMode = false)
    (hact : (s.pd i).flags.scActive = true) :
    Sealable i t block ∧
      checkLen (byteAt t.txBuf ((t.pd i).markLen + 4))
        = crcBytes (s.pd i).flags.cpUseCrc := by
  have hlen2 : initScbLen (s.pd i) (s.pd i).cmdId = 2 := by
    unfold initScbLen
    rw [hmode, Bool.false_and, if_neg Bool.false_ne_true, if_pos hact]
  have hdp := h.pos
  rw [hlen2] at hdp
  have htype := h.type hact
  refine ⟨⟨h.laid, ?_, ?_, hdp, ?_, ?_⟩, ?_⟩
  · have e := congrArg (fun v => v.2.1) h.chan
    exact e.trans hact
  · rw [h.control, ctrlScb_initControl, hlen2]
    rfl
  · rw [htype]
    unfold cpFinalType
    split <;> decide
  · rw [htype]
    unfold cpFinalType
    by_cases hn : block.length > 1
    · rw [if_pos hn, decide_eq_true hn]
      rfl
    · rw [if_neg hn, decide_eq_false hn]
      rfl
  · unfold checkLen
    rw [h.control, ctrlCrc_initControl_eq, hmode, Bool.false_or]
    rfl

/-- A packet whose span fits is finalized within it. -/
theorem finalizedWithin_iff {total : Nat} (hl : Laid i t block total)
    (hne : block ≠ []) (hsize : size ≤ packetBufSize)
    (hr : (t.pd i).sc.rMac.length = 16)
    (hc : (t.pd i).sc.cMac.length = 16) :
    FinalizedWithin env i size total t ↔ Finalizes env i size total t := by
  obtain ⟨hiff, hvalue⟩ := finalizes_laid_iff env hl hne hsize hr hc
  constructor
  · rintro ⟨done, u, hok, hpos, -⟩
    exact ⟨done, u, hok, hpos⟩
  · rintro ⟨done, u, hok, hpos⟩
    refine ⟨done, u, hok, hpos, ?_⟩
    have hle := hiff.mp ⟨done, u, hok, hpos⟩
    have hdone := hvalue done u hok hpos
    omega

/-- A fragment is no step of the handshake. -/
theorem ordinary_of_fragmentCmd {p : OsdpPd} (h : fragmentCmd p = true) :
    hsCommand p.cmdId = false := by
  unfold fragmentCmd at h
  simp only [Bool.or_eq_true, beq_iff_eq] at h
  rcases h with ((e | e) | e) | e <;> rw [e] <;> rfl

/-- A command counted with a mark byte that was not written is not
finalized. -/
theorem not_finalizedWithin_stale {depth total : Nat}
    (hlay : cpLayCommand env (cpRunCalls env depth) i size s
      = .ok (some total) t) (hmark : ¬ MarkAgrees (s.pd i))
    (hroom : packetBufSize ≤ s.txBuf.length) (hsize : size ≤ packetBufSize)
    (hord : hsCommand (s.pd i).cmdId = false) :
    ¬ FinalizedWithin env i size total t := by
  rintro ⟨done, u, hok, hpos, -⟩
  obtain ⟨hfirst, hm⟩ := cpLayCommand_stale (keeps_cpRunCalls depth) hlay
    hmark hroom hsize hord
  exact finalize_unmarked hfirst hm ⟨done, u, hok, hpos⟩

variable {mark crc : Bool}

/-- The header takes the mark byte it is to have. -/
theorem AboutToBuild.markLen (h : AboutToBuild size mark crc i s)
    (ha : MarkAgrees (s.pd i)) :
    (startedPd (s.pd i)).markLen = markBytes mark := by
  rw [markLen_startedPd ha, ← h.mark]
  rfl

/-- A fragment, id included, keeps to the largest size there is. -/
theorem Sized.block_le {small : Nat} {d : Bytes} {hdr : Nat}
    (hs : Sized small (size - hdr - 1 : Nat) d) (hsmall : small ≤ 11)
    (hdr_eq : hdr = markBytes mark + 7)
    (hmin : minimumPacketSize ≤ size) :
    d.length + 1 ≤ size - markBytes mark - 23 := by
  have hm := markBytes_le mark
  have hmin : 128 ≤ size := hmin
  rcases hs.reserve with h | h
  · omega
  · have h : (d.length : Int) + 16 ≤ (size - hdr - 1 : Nat) := h
    omega

/-- The data block of a fragment command. -/
theorem fragmentCmd_block_le (hread : ReadsWithin env)
    (h : CommandLaid env run i size s block t)
    (hfrag : fragmentCmd (s.pd i) = true)
    (hpos : dataPos i t = markBytes mark + 7) :
    block.length ≤ size - markBytes mark - 23 := by
  obtain ⟨x, y, smb, body, hx, hcases, hbody⟩ := h.what
  have hm := markBytes_le mark
  have hmin : 128 ≤ size := h.large
  have hid : (x.pd i).cmdId = (s.pd i).cmdId := by
    rw [hx]
    rfl
  have habort {body : CmdBody} (hb : body.block (s.pd i).cmdId = some block)
      (he : body = .abort) : block.length ≤ size - markBytes mark - 23 := by
    rw [he] at hb
    obtain rfl := Option.some.inj hb
    show 1 ≤ _
    omega
  unfold cpBuildCases at hcases
  obtain ⟨p, u, hg, hcases⟩ := bind_ok.mp hcases
  obtain ⟨rfl, rfl⟩ := getPd_ok.mp hg
  rw [hid] at hcases
  unfold fragmentCmd at hfrag
  simp only [Bool.or_eq_true, beq_iff_eq] at hfrag
  have hfile (hc : buildFiletransfer env run i
      (size - dataPos i t - 1 : Nat) x = .ok body y) :
      block.length ≤ size - markBytes mark - 23 := by
    obtain ⟨o, v, hv, hc⟩ := bind_ok.mp hc
    obtain ⟨rfl, -⟩ := pure_ok.mp hc
    cases o with
    | none => exact habort hbody rfl
    | some d =>
      obtain rfl := Option.some.inj hbody
      exact (osdpFileCmdTxBuild_sized hread hv).block_le (by decide) hpos
        h.large
  have hpiv (hc : buildPiv env run i
      (size - dataPos i t - 1 : Nat) x = .ok body y) :
      block.length ≤ size - markBytes mark - 23 := by
    obtain ⟨o, v, hv, hc⟩ := bind_ok.mp hc
    cases o with
    | none =>
      obtain ⟨_, w, hw, hc⟩ := bind_ok.mp hc
      obtain ⟨rfl, -⟩ := pure_ok.mp hc
      exact habort hbody rfl
    | some d =>
      obtain ⟨rfl, -⟩ := pure_ok.mp hc
      obtain rfl := Option.some.inj hbody
      exact (osdpPivCpCmdBuild_sized hread hv).block_le (by decide) hpos
        h.large
  rcases hfrag with ((e | e) | e) | e
  · rw [e] at hcases
    exact hfile hcases
  · rw [e] at hcases
    exact hpiv hcases
  · rw [e] at hcases
    exact hpiv hcases
  · rw [e] at hcases
    exact hpiv hcases

/-- The data block of a fragment reply, or the NAK in its place. -/
theorem fragmentReply_block_le (hread : ReadsWithin env)
    (h : ReplyLaid env run i size s block t)
    (hfrag : fragmentReply (s.pd i) = true)
    (hpos : dataPos i t = markBytes mark + 7) :
    block.length ≤ size - markBytes mark - 23 := by
  have hm := markBytes_le mark
  have hmin : 128 ≤ size := h.large
  rcases h.what with ⟨u, hu, hpu, data, x, y, hx, hdata, rfl⟩ |
    ⟨u, -, -, -, rfl⟩
  · rw [hpu] at hdata
    have hid : (u.pd i).replyId = (s.pd i).replyId := by
      rw [hu]
      rfl
    have hmp : (x.pd i).flags.bioreadrMp = (s.pd i).flags.bioreadrMp := by
      rw [hx, hu]
      rfl
    unfold pdBuildData at hdata
    split at hdata
    · cases (pure_ok.mp hdata).1
    · obtain ⟨p, v, hg, hcases⟩ := bind_ok.mp hdata
      obtain ⟨rfl, rfl⟩ := getPd_ok.mp hg
      rw [hid] at hcases
      unfold fragmentReply at hfrag
      simp only [Bool.or_eq_true, Bool.and_eq_true, beq_iff_eq] at hfrag
      rw [List.length_cons]
      have hpiv {seed : Option (Nat × Bytes)}
          (hc : osdpPivPdReplyBuild env run i seed
            (size - dataPos i t - 1 : Nat) x = .ok (some data) y) :
          data.length + 1 ≤ size - markBytes mark - 23 :=
        (osdpPivPdReplyBuild_sized hread hc).block_le (by decide) hpos
          h.large
      rcases hfrag with ((e | e) | e) | ⟨e, hb⟩
      · rw [e] at hcases
        exact hpiv hcases
      · rw [e] at hcases
        exact hpiv hcases
      · rw [e] at hcases
        exact hpiv hcases
      · rw [e] at hcases
        obtain ⟨p, v, hg, hcases⟩ := bind_ok.mp hcases
        obtain ⟨rfl, rfl⟩ := getPd_ok.mp hg
        rw [if_pos (hmp.trans hb)] at hcases
        exact (osdpBioPdReplyBuild_sized hread hcases).block_le
          (by decide) hpos h.large
  · show 2 ≤ _
    omega

/-- Where the reserve covers the largest fragment it covers every one. -/
theorem reserve_suffices (hmin : minimumPacketSize ≤ size)
    (hmax : size ≤ packetBufSize) (h : ReserveCovers size mark crc) :
    ReserveSuffices size mark crc := by
  intro env depth i total s t hread hs ha
  have hlargest := (largest_fits_iff hmin mark crc).mpr h
  refine ⟨fun hmode hfrag hlay => ?_, fun hmode hfrag hlay => ?_⟩
  · obtain ⟨block, rfl, hne, hlaid⟩ :=
      cpLayCommand_ok (keeps_cpRunCalls depth) hlay hmode ha hs.room
        (ordinary_of_fragmentCmd hfrag)
    obtain ⟨hseal, hcheck⟩ := sealable_command hlaid hmode hs.active
    have hm : (t.pd i).markLen = markBytes mark := by
      rw [markLen_of_sealView hlaid.chan, hs.markLen ha]
    have hsc : (t.pd i).sc = (s.pd i).sc := congrArg Prod.fst hlaid.chan
    have hcrc := hs.crc
    rw [hmode, Bool.false_or] at hcrc
    rw [finalizedWithin_iff hlaid.laid hne hmax (hsc ▸ hs.rMac)
      (hsc ▸ hs.cMac), hseal.finalizes_iff hne hmax (hsc ▸ hs.rMac)
      (hsc ▸ hs.cMac), hcheck, hm, hcrc]
    have hpos : dataPos i t = markBytes mark + 7 := by rw [hseal.pos, hm]
    have hblock := fragmentCmd_block_le hread hlaid hfrag hpos
    exact Nat.le_trans (sealedSpan_mono hblock) hlargest
  · have hids : hsReply (s.pd i).replyId = false ∧
        (s.pd i).replyId ≠ replyBusy := by
      unfold fragmentReply at hfrag
      simp only [Bool.or_eq_true, Bool.and_eq_true, beq_iff_eq] at hfrag
      rcases hfrag with ((e | e) | e) | ⟨e, -⟩ <;> rw [e] <;> decide
    obtain ⟨block, rfl, hne, hlaid⟩ := pdLayReply_ok
      (quiet_pdRunCalls env depth) hlay hmode hs.room hids.1
    obtain ⟨hseal, hcheck⟩ :=
      sealable_reply hlaid hmode hs.active hids.2
    have hm : (t.pd i).markLen = markBytes mark := by
      rw [markLen_of_sealView hlaid.chan,
        ← markLen_of_sealView (sealView_started hmode), hs.markLen ha]
    have hsc : (t.pd i).sc = (s.pd i).sc := congrArg Prod.fst hlaid.chan
    have hcrc := hs.crc
    rw [hmode, Bool.true_or] at hcrc
    rw [finalizedWithin_iff hlaid.laid hne hmax (hsc ▸ hs.rMac)
      (hsc ▸ hs.cMac), hseal.finalizes_iff hne hmax (hsc ▸ hs.rMac)
      (hsc ▸ hs.cMac), hcheck, hm]
    have hpos : dataPos i t = markBytes mark + 7 := by rw [hseal.pos, hm]
    have hblock := fragmentReply_block_le hread hlaid hfrag hpos
    rw [← hcrc] at hlargest
    exact Nat.le_trans (sealedSpan_mono hblock) hlargest

end Fits

-- ====================================================== the largest fragment

/-- File operations that always have as much to read as is asked for. -/
abbrev readingEnv : Env :=
  { plainEnv (knownCipher []) fun _ => 0 with
    fileOps :=
      { openFile := fun _ _ _ => (-1, 0)
        readFile := fun _ n _ => (n, [])
        writeFile := fun _ _ _ => -1
        closeFile := fun _ => 0
        finalize := none } }

/-- The transfer of a file larger than any packet, at its start. -/
def wholeFile : OsdpFile :=
  { mp :=
      { binding := .fileOps, state := .inprog, width := .w32
        total := packetBufSize } }

/-- A CP with its channel up, about to send a fragment of that file to a
PD that takes packets of `size` bytes. -/
def chunkCp (size : Nat) (mark crc : Bool) : Osdp :=
  { pd := fun _ =>
      { flags :=
          { scActive := true, pktHasMark := mark, pktSkipMark := !mark
            cpUseCrc := crc }
        peerRxSize := size
        cmdId := cmdFiletransfer
        file := some wholeFile } }

/-- The engine fills what it is given. -/
theorem txBuildEx_full {i : Nat} {maxLen : Int} {x : Osdp}
    (hfile : (x.pd i).file = some wholeFile) (hlow : 10 < maxLen)
    (hhigh : maxLen ≤ packetBufSize) :
    ∃ frag y, osdpMpTxBuildEx readingEnv i .file maxLen [] x
        = .ok (some frag) y ∧ (frag.length : Int) = maxLen ∧
      (y.pd i).file.isSome := by
  have hhigh : maxLen ≤ 256 := hhigh
  have hmp : (x.pd i).mp .file = wholeFile.mp := by
    show ((x.pd i).file.getD {}).mp = _
    rw [hfile]
    rfl
  have hsize : min (maxLen - 10).toNat 256 = (maxLen - 10).toNat := by
    omega
  have hread : mpRead readingEnv i .file (maxLen - 10).toNat 0 x
      = .ok (((maxLen - 10).toNat : Int), [])
        { x with
          log := .file i (.read (maxLen - 10).toNat 0) :: x.log } := by
    unfold mpRead
    rw [bind_eq (m := getPd i) (s := x) rfl, hmp]
    rfl
  unfold osdpMpTxBuildEx
  rw [bind_eq (m := getMp i .file) (s := x) (a := wholeFile.mp)
    (by rw [← hmp]; rfl)]
  have hroom : ¬ (maxLen - 10 < 0 ∨ maxLen - 10 = 0 ∧ 256 > 0) := by omega
  simp only [wholeFile, mpHdrSize, ite_self, List.length_nil, Nat.cast_ofNat,
    Nat.cast_zero, sub_zero, Nat.sub_zero]
  rw [if_neg hroom, hsize, bind_eq hread]
  dsimp only
  rw [if_neg (by omega), if_neg (by omega)]
  refine ⟨_, _, rfl, ?_, ?_⟩
  · rw [List.length_append, List.length_append, length_osdpMpHdrWrite,
      List.length_take, List.length_append, zeros, List.length_replicate]
    simp only [mpHdrSize, List.length_nil]
    omega
  · show (((({ x with log := _ } : Osdp).updPd i _).pd i).file).isSome
    rw [updPd_pd_same]
    show ((x.pd i).file.map _).isSome
    rw [hfile]
    rfl

/-- The file builder leaves nothing but the reserve. -/
theorem fullChunk {run : List ApiCall → OsdpM Unit} {i : Nat} {maxLen : Int}
    {x : Osdp} (hfile : (x.pd i).file = some wholeFile)
    (hlow : 27 < maxLen) (hhigh : maxLen ≤ packetBufSize) :
    ∃ d y, osdpFileCmdTxBuild readingEnv run i maxLen x = .ok (some d) y ∧
      (d.length : Int) + 16 = maxLen := by
  obtain ⟨frag, y, hfrag, hlen, hsome⟩ :=
    txBuildEx_full hfile
      (show (10 : Int) < maxLen - 1 - mpScReserve by
        show (10 : Int) < maxLen - 1 - 16
        omega)
      (by
        have hhigh : maxLen ≤ 256 := hhigh
        show maxLen - 1 - 16 ≤ (256 : Int)
        omega)
  have hlen : (frag.length : Int) = maxLen - 1 - 16 := hlen
  unfold osdpFileCmdTxBuild
  rw [bind_eq (m := getPd i) (s := x) rfl]
  rw [show (x.pd i).mp .file = wholeFile.mp by
    show ((x.pd i).file.getD {}).mp = _
    rw [hfile]
    rfl, hfile]
  rw [bind_eq (m := assertC _) (s := x) (a := ()) rfl,
    bind_eq (m := assertC _) (s := x) (a := ()) rfl]
  dsimp only
  rw [if_neg (by omega), if_neg (by
    show ¬ (MpState.inprog = .wait ∧ _)
    simp), if_neg (by
    show ¬ (maxLen - 1 - 16 ≤ 10)
    omega), bind_eq hfrag]
  dsimp only
  rw [bind_eq (m := getMp i .file) (s := y) (a := (y.pd i).mp .file) rfl]
  split
  · split
    · exact ⟨_, _, rfl, by rw [List.length_cons]; omega⟩
    · exact ⟨_, _, rfl, by rw [List.length_cons]; omega⟩
  · exact ⟨_, _, rfl, by rw [List.length_cons]; omega⟩

section Needed

variable {size : Nat} {mark crc : Bool}

theorem aboutToBuild_chunkCp (hmin : minimumPacketSize ≤ size)
    (hmax : size ≤ packetBufSize) :
    AboutToBuild size mark crc 0 (chunkCp size mark crc) := by
  have hmin : 128 ≤ size := hmin
  have hroom : packetBufSize ≤ (chunkCp size mark crc).txBuf.length := by
    show 256 ≤ (zeros _).length
    rw [zeros, List.length_replicate]
  refine ⟨rfl, ?_, ?_, Bool.false_or crc, rfl, rfl, hroom⟩
  · show (if size = 0 then packetBufSize else min packetBufSize size) = size
    rw [if_neg (by omega), Nat.min_eq_right hmax]
  · show (!!mark) = mark
    exact Bool.not_not mark

theorem markAgrees_chunkCp :
    MarkAgrees ((chunkCp size mark crc).pd 0) := by
  intro e
  have e : (!!mark) = false := e
  rwa [Bool.not_not] at e

/-- If every fragment packet of that size is finalized, so is the largest;
there the reserve covers what sealing adds. -/
theorem reserve_needed (hmin : minimumPacketSize ≤ size)
    (hmax : size ≤ packetBufSize) (h : ReserveSuffices size mark crc) :
    ReserveCovers size mark crc := by
  have hmin' : 128 ≤ size := hmin
  have hmax' : size ≤ 256 := hmax
  have hs : AboutToBuild size mark crc 0 (chunkCp size mark crc) :=
    aboutToBuild_chunkCp hmin hmax
  have ha : MarkAgrees ((chunkCp size mark crc).pd 0) := markAgrees_chunkCp
  obtain ⟨s, hsdef⟩ : ∃ s, s = chunkCp size mark crc := ⟨_, rfl⟩
  rw [← hsdef] at hs ha
  have hmode : (s.pd 0).flags.pdMode = false := by
    rw [hsdef]
    rfl
  have hid : (s.pd 0).cmdId = cmdFiletransfer := by
    rw [hsdef]
    rfl
  -- the case of `cp_build_command`, on any such CP
  have hcase {x : Osdp} {hdr : Nat} (maxLen : Nat) (smb : Option Nat)
      (hx : x.pd 0 = headedPd (s.pd 0) hdr) (hlow : 27 < maxLen)
      (hhigh : maxLen ≤ 256) :
      ∃ d y, cpBuildCases readingEnv (cpRunCalls readingEnv 0) 0
          (cpPacketCmd (s.pd 0)) smb maxLen x = .ok (.data d) y ∧
        d.length + 16 = maxLen := by
    have hfile : (x.pd 0).file = some wholeFile := by
      rw [hx, hsdef]
      rfl
    have hxid : (x.pd 0).cmdId = cmdFiletransfer := by
      rw [hx]
      exact hid
    obtain ⟨d, y, hd, hlen⟩ : ∃ d y,
        osdpFileCmdTxBuild readingEnv (cpRunCalls readingEnv 0) 0 maxLen x
          = .ok (some d) y ∧ (d.length : Int) + 16 = maxLen :=
      fullChunk hfile (by omega) (by show (maxLen : Int) ≤ 256; omega)
    refine ⟨d, y, ?_, by omega⟩
    unfold cpBuildCases
    rw [bind_eq (m := getPd 0) (s := x) rfl, hxid]
    exact bind_ok.mpr ⟨some d, y, hd, rfl⟩
  have hsom : somPos (s.pd 0) = markBytes mark := by
    rw [← hs.mark]
    rfl
  have hscb : initScbLen (s.pd 0) (s.pd 0).cmdId = 2 := by
    unfold initScbLen
    rw [hmode, Bool.false_and, if_neg Bool.false_ne_true, if_pos hs.active]
  have hhdr : headerLen (s.pd 0) (s.pd 0).cmdId = markBytes mark + 7 := by
    unfold headerLen
    rw [hsom, hscb]
  have hm := markBytes_le mark
  obtain ⟨total, t, hlay⟩ : ∃ total t,
      cpLayCommand readingEnv (cpRunCalls readingEnv 0) 0 size s
        = .ok (some total) t :=
    cpLayCommand_total hmode ha hs.room hmin
    (fun _ => by rw [hid]; rfl) fun x smb hx => by
      obtain ⟨d, y, hd, -⟩ := hcase
        (size - headerLen (s.pd 0) (s.pd 0).cmdId - 1) smb hx (by omega)
        (by omega)
      exact ⟨.data d, y, hd, fun e => by cases e⟩
  have hfin := (h readingEnv 0 0 total s t (fun _ _ _ => Int.le_refl _) hs
    ha).1 hmode (by unfold fragmentCmd; rw [hid]; rfl) hlay
  obtain ⟨block, rfl, hne, hlaid⟩ := cpLayCommand_ok
    (keeps_cpRunCalls 0) hlay hmode ha hs.room (by rw [hid]; rfl)
  obtain ⟨hseal, hcheck⟩ := sealable_command hlaid hmode hs.active
  have hmt : (t.pd 0).markLen = markBytes mark := by
    rw [markLen_of_sealView hlaid.chan, hs.markLen ha]
  have hpos : dataPos 0 t = markBytes mark + 7 := by rw [hseal.pos, hmt]
  have hsc : (t.pd 0).sc = (s.pd 0).sc := congrArg Prod.fst hlaid.chan
  have hcrc := hs.crc
  rw [hmode, Bool.false_or] at hcrc
  rw [finalizedWithin_iff hlaid.laid hne hmax (hsc ▸ hs.rMac)
    (hsc ▸ hs.cMac), hseal.finalizes_iff hne hmax (hsc ▸ hs.rMac)
    (hsc ▸ hs.cMac), hcheck, hmt, hcrc] at hfin
  -- the block that was laid is the largest there is
  obtain ⟨x, y, smb, body, hx, hbuild, hbody⟩ := hlaid.what
  obtain ⟨d, z, hd, hlen⟩ := hcase (size - dataPos 0 t - 1) smb hx
    (by omega) (by omega)
  rw [hd] at hbuild
  cases hbuild
  obtain rfl := Option.some.inj hbody
  rw [List.length_cons, show d.length + 1 = size - markBytes mark - 23 by
    omega] at hfin
  exact (largest_fits_iff hmin mark crc).mp hfin

-- ================================================================ result

/-- **The reserve.**  Take a packet size from the smallest to the size of
the buffer.  Every fragment packet a builder makes under the channel is
finalized into that size exactly where the sixteen bytes cover MAC,
padding and check bytes, and that is a matter of the size alone.  A CP
that counts its packet with a mark byte it does not write finishes
none. -/
theorem sc_reserve_suffices_iff (hmin : minimumPacketSize ≤ size)
    (hmax : size ≤ packetBufSize) (mark crc : Bool) :
    (ReserveSuffices size mark crc ↔ ReserveCovers size mark crc) ∧
    ∀ (env : Env) (depth i total : Nat) (s t : Osdp),
      AboutToBuild size mark crc i s → ¬ MarkAgrees (s.pd i) →
      fragmentCmd (s.pd i) = true →
      cpLayCommand env (cpRunCalls env depth) i size s
        = .ok (some total) t → ¬ FinalizedWithin env i size total t := by
  refine ⟨⟨reserve_needed hmin hmax, reserve_suffices hmin hmax⟩, ?_⟩
  intro env depth i total s t hs ha hfrag hlay
  exact not_finalizedWithin_stale hlay ha hs.room hmax
    (ordinary_of_fragmentCmd hfrag)

/-- At the smallest size it suffices. -/
theorem sc_reserve_suffices_smallest :
    ReserveSuffices minimumPacketSize true true :=
  (sc_reserve_suffices_iff (Nat.le_refl _) (by decide) true true).1.mpr
    (by decide)

/-- At 137 bytes, with a mark byte and a CRC, it does not: the largest
fragment makes a data block of 113 bytes, and a packet of 143. -/
theorem sc_reserve_short :
    ¬ ∀ (size : Nat) (mark crc : Bool), minimumPacketSize ≤ size →
      size ≤ packetBufSize → ReserveSuffices size mark crc := fun hall =>
  absurd (reserve_needed (by decide) (by decide)
    (hall 137 true true (by decide) (by decide))) (by decide)

end Needed

end Reserve

end LibOsdp
