/-
The packet a CP's command is built into.

`cp_build_packet` starts a packet, lets `cp_build_command` lay the data
block, and finalizes it.  `CommandLaid` is what the finalizer finds on an
ordinary command, one that is no handshake message: a header written for
the PD as it was, and behind it either the data block worked out for the
command or the id CMD_ABORT in its place.

# The mark byte

The CP writes a mark byte unless the PD is set up without one, but how
long the packet is counted to be is read from a flag that nothing clears.
The two agree (`MarkAgrees`) as long as no frame was sent or received
with a mark byte before.
-/
import LibOsdp.Cp.Proofs.Footprint
import LibOsdp.Phy.Proofs.Sealing

namespace LibOsdp

open Lib

section Commands

variable {env : Env} {run : List ApiCall → OsdpM Unit}

-- ========================================================= what is left

/-- A command of the handshake starts its own security block. -/
def hsCommand (id : Nat) : Bool := id == cmdChlng || id == cmdScrypt

/-- Nothing the packet depends on changed: not the buffer, and of no PD
what sealing reads. -/
abbrev Calm : Osdp → Osdp → Prop := Frame sealView Osdp.txBuf Obs.isCall

instance : CallMoves Calm where
  call s j f h := Frame.updPd s j fun p => by
    have e := congrArg sealView (h p)
    exact e
  enable s j _ := Frame.updPd s j fun _ => rfl
  disable s j := Frame.updPd s j fun _ => rfl
  note s o h := ⟨fun _ => rfl, rfl, LogExt.cons h⟩
  running s b := ⟨fun _ => rfl, rfl, refl_of (LogExt Obs.isCall) s⟩

/-- Working out the data block of an ordinary command is calm: at most a
transfer moves on or ends. -/
theorem calm_cpBuildCases (hr : ∀ calls, Keeps Calm (run calls)) {i : Nat}
    {cmd : Option OsdpCmd} {smb : Option Nat} {maxLen : Int} {s t : Osdp}
    {body : CmdBody}
    (h : cpBuildCases env run i cmd smb maxLen s = .ok body t)
    (hord : hsCommand (s.pd i).cmdId = false) : Calm s t := by
  have happ : Keeps Calm (buildAppCmd env i cmd maxLen) := by
    unfold buildAppCmd
    grind
  have hfile : Keeps Calm (buildFiletransfer env run i maxLen) := by
    have hb : Keeps Calm (osdpFileCmdTxBuild env run i maxLen) :=
      keeps_osdpFileCmdTxBuild (keeps_osdpMpPdNotify hr) i maxLen
    unfold buildFiletransfer
    exact .bind hb fun _ => .pure _
  have hpiv : Keeps Calm (buildPiv env run i maxLen) := by
    have hb : Keeps Calm (osdpPivCpCmdBuild env run i maxLen) :=
      keeps_osdpPivCpCmdBuild (keeps_osdpMpPdNotify hr) i maxLen
    have ha : Keeps Calm (osdpPivAbort env run i) :=
      keeps_osdpPivAbort (keeps_osdpMpPdNotify hr) i
    unfold buildPiv
    refine .bind hb fun o => ?_
    split
    · exact .pure _
    · exact .bind ha fun _ => .pure _
  unfold cpBuildCases at h
  obtain ⟨p, u, hg, h⟩ := bind_ok.mp h
  obtain ⟨rfl, rfl⟩ := getPd_ok.mp hg
  generalize (s.pd i).cmdId = id at h hord
  refine Keeps.of ?_ h
  split
  all_goals first
    | exact absurd hord (by decide)
    | exact .pure _
    | assumption

-- ============================================================== the block

/-- The final type of the security block over a data block of `n` bytes:
SCS_17 where there is something to encrypt, SCS_15 otherwise. -/
def cpFinalType (n : Nat) : UInt8 := if n > 1 then 0x17 else 0x15

/-- The builder picks that type. -/
theorem cpPickBlockType_eq (i : Nat) (smb : Option Nat) (n : Nat) :
    cpPickBlockType i smb n = pickBlockType i smb (cpFinalType n) := rfl

/-- The data block a case of `cp_build_command` leaves. -/
def CmdBody.block (id : Nat) : CmdBody → Option Bytes
  | .fail => none
  | .data d => some (UInt8.ofNat id :: d)
  | .abort => some [UInt8.ofNat cmdAbort]

/-- How `cp_build_command` ends on an ordinary command. -/
theorem cpBuildCommand_ok (hr : ∀ calls, Keeps Calm (run calls))
    {i size hdr : Nat} {cmd : Option OsdpCmd} {len : Option Nat}
    {s t : Osdp} (h : cpBuildCommand env run i cmd size s = .ok len t)
    (hl : Laid i s [] hdr) (hb : BlockStarted i s)
    (hord : hsCommand (s.pd i).cmdId = false) :
    len = none ∨
      ∃ block x y body, len = some block.length ∧ dataPos i s < size ∧
        x.pd = s.pd ∧
        cpBuildCases env run i cmd (osdpPhyPacketGetSmb (s.pd i) s.txBuf)
          (size - dataPos i s - 1 : Nat) x = .ok body y ∧
        body.block (s.pd i).cmdId = some block ∧
        Laid i t block (dataPos i s + block.length) ∧
        Retyped i (cpFinalType block.length) s t ∧
        sealView (t.pd i) = sealView (s.pd i) := by
  unfold cpBuildCommand at h
  obtain ⟨p, u, hg, h⟩ := bind_ok.mp h
  obtain ⟨rfl, rfl⟩ := getPd_ok.mp hg
  obtain ⟨buf, u, hread, h⟩ := bind_ok.mp h
  cases hread
  have hbuf : s.buf .tx = s.txBuf := by
    simp [Osdp.buf]
  rw [hbuf] at h
  split at h
  · exact .inl (pure_ok.mp h).1.symm
  · next hstart =>
    have hsize : dataPos i s < size :=
      Nat.not_le.mp fun hle => hstart (.inl hle)
    have hfit : dataPos i s ≤ s.txBuf.length := by
      have hstop := hl.stop
      have hroom := hl.room
      rw [List.length_nil] at hstop
      omega
    obtain ⟨_, v, hv, h⟩ := bind_ok.mp h
    cases hv
    obtain ⟨body, w, hcases, h⟩ := bind_ok.mp h
    have hcalm := calm_cpBuildCases hr hcases hord
    have hpd : sealView (w.pd i) = sealView (s.pd i) := by
      have e := hcalm.pd i
      exact e
    have htx : w.txBuf = writeAt s.txBuf (dataPos i s)
        [UInt8.ofNat (s.pd i).cmdId] := by
      have e := hcalm.rest
      exact e
    -- the block is stored and its type picked; `z` is in between
    have hdone {z : Osdp} {block : Bytes} (hz : z.pd = w.pd)
        (htxz : z.txBuf = writeAt s.txBuf (dataPos i s) block)
        (hbody : body.block (s.pd i).cmdId = some block)
        (h : (do
          cpPickBlockType i (osdpPhyPacketGetSmb (s.pd i) s.txBuf)
            block.length
          return some block.length) z = .ok len t) :
        ∃ block x y body, len = some block.length ∧ dataPos i s < size ∧
          x.pd = s.pd ∧
          cpBuildCases env run i cmd (osdpPhyPacketGetSmb (s.pd i) s.txBuf)
            (size - dataPos i s - 1 : Nat) x = .ok body y ∧
          body.block (s.pd i).cmdId = some block ∧
          Laid i t block (dataPos i s + block.length) ∧
          Retyped i (cpFinalType block.length) s t ∧
          sealView (t.pd i) = sealView (s.pd i) := by
      obtain ⟨_, z', hpick, h⟩ := bind_ok.mp h
      obtain ⟨rfl, rfl⟩ := pure_ok.mp h
      rw [cpPickBlockType_eq] at hpick
      obtain ⟨hlt, hty, htv⟩ := laid_typed hl hb
        (by rw [hz]; exact hpd) htxz hpick
      refine ⟨block, _, w, body, rfl, hsize, ?_, hcases, hbody, hlt, hty,
        ?_⟩
      · rfl
      · rw [htv, hz]
        exact hpd
    unfold cpFinishCommand at h
    cases body with
    | fail => exact .inl (pure_ok.mp h).1.symm
    | data d =>
      obtain ⟨_, z, hz, h⟩ := bind_ok.mp h
      cases hz
      refine .inr (hdone (z := { w with
          txBuf := writeAt w.txBuf (dataPos i s + 1) d })
        rfl ?_ rfl h)
      show writeAt w.txBuf (dataPos i s + 1) d = _
      rw [htx]
      exact writeAt_writeAt _ d hfit
    | abort =>
      obtain ⟨_, z, hz, h⟩ := bind_ok.mp h
      cases hz
      refine .inr (hdone (z := { w with
          txBuf := writeAt w.txBuf (dataPos i s) [UInt8.ofNat cmdAbort] })
        rfl ?_ rfl h)
      show writeAt w.txBuf (dataPos i s) [UInt8.ofNat cmdAbort] = _
      rw [htx]
      exact writeAt_writeAt_over hfit (by simp)

-- ============================================================= the packet

/-- `cp_build_packet` up to the call of the finalizer: the length of the
packet that is to be finalized, if it gets that far. -/
def cpLayCommand (env : Env) (run : List ApiCall → OsdpM Unit)
    (i size : Nat) : OsdpM (Option Nat) := do
  updPd i fun p => { p with packetBuf := .tx }
  let hdr ← osdpPhyPacketInit i size
  if hdr < 0 then
    return none
  setPacketBufLen i hdr.toNat
  let p ← getPd i
  match ← cpBuildCommand env run i (cpPacketCmd p) size with
  | none => return none
  | some len =>
    setPacketBufLen i (hdr.toNat + len)
    return some (hdr.toNat + len)

/-- The rest of it. -/
def cpFinishPacket (env : Env) (i size : Nat) : Option Nat → OsdpM Bool
  | none => return false
  | some total => do
    let done ← osdpPhyFinalizePacket env i total size
    if done < 0 then
      return false
    setPacketBufLen i done.toNat
    return true

/-- Building a packet is laying it and finishing it. -/
theorem cpBuildPacket_eq (i : Nat) :
    cpBuildPacket env run i = (do
      let p ← getPd i
      observe (.build i p.cmdId p.flags.scActive)
      let total ← cpLayCommand env run i (getTxBufSize p)
      cpFinishPacket env i (getTxBufSize p) total) := by
  unfold cpBuildPacket cpLayCommand cpBuildRest
  simp only [bind_assoc]
  refine bind_congr fun p => bind_congr fun _ => bind_congr fun _ =>
    bind_congr fun hdr => ?_
  by_cases hh : hdr < 0
  · rw [if_pos hh, if_pos hh, pure_bind]
    rfl
  · rw [if_neg hh, if_neg hh]
    simp only [bind_assoc]
    refine bind_congr fun _ => bind_congr fun q => bind_congr fun len => ?_
    cases len with
    | none =>
      rw [pure_bind]
      rfl
    | some len =>
      simp only [bind_assoc, pure_bind]
      rfl

/-- A PD once the header of its command has been written. -/
def headedPd (p : OsdpPd) (hdr : Nat) : OsdpPd :=
  { startedPd { p with packetBuf := .tx } with packetBufLen := hdr }

/-- What the finalizer finds: the data block of PD `i`'s command, laid
behind a header written for the PD as it was in `s`.  `x` is where the
data block was worked out. -/
structure CommandLaid (env : Env) (run : List ApiCall → OsdpM Unit)
    (i size : Nat) (s : Osdp) (block : Bytes) (t : Osdp) : Prop where
  laid : Laid i t block (dataPos i t + block.length)
  chan : sealView (t.pd i) = sealView (startedPd (s.pd i))
  control : byteAt t.txBuf ((t.pd i).markLen + 4)
    = initControl (s.pd i) (s.pd i).cmdId
  type : (s.pd i).flags.scActive = true →
    byteAt t.txBuf ((t.pd i).markLen + 6) = cpFinalType block.length
  pos : dataPos i t = (t.pd i).markLen + 5 +
    initScbLen (s.pd i) (s.pd i).cmdId
  large : minimumPacketSize ≤ size
  fits : dataPos i t < size
  what : ∃ x y smb body, x.pd i = headedPd (s.pd i) (dataPos i t) ∧
    cpBuildCases env run i (cpPacketCmd (s.pd i)) smb
      (size - dataPos i t - 1 : Nat) x = .ok body y ∧
    body.block (s.pd i).cmdId = some block

/-- Laying an ordinary command of a CP. -/
theorem cpLayCommand_ok (hr : ∀ calls, Keeps Calm (run calls))
    {i size total : Nat} {s t : Osdp}
    (h : cpLayCommand env run i size s = .ok (some total) t)
    (hmode : (s.pd i).flags.pdMode = false)
    (hmark : MarkAgrees (s.pd i)) (hroom : packetBufSize ≤ s.txBuf.length)
    (hord : hsCommand (s.pd i).cmdId = false) :
    ∃ block, total = dataPos i t + block.length ∧ block ≠ [] ∧
      CommandLaid env run i size s block t := by
  unfold cpLayCommand at h
  obtain ⟨_, u, hu, h⟩ := bind_ok.mp h
  obtain rfl := updPd_ok.mp hu
  obtain ⟨hdr, v, hinit, h⟩ := bind_ok.mp h
  split at h
  · cases (pure_ok.mp h).1
  · next hhdr =>
    have hhdr := Int.not_lt.mp hhdr
    have hmark' : MarkAgrees ((s.updPd i fun p =>
        { p with packetBuf := .tx }).pd i) := by
      rw [updPd_pd_same]
      exact hmark
    obtain ⟨hl, hpd, -, hctl, -, hposv⟩ := laid_init hinit hhdr hroom hmark'
    have htxid : txId { s.pd i with packetBuf := .tx } = (s.pd i).cmdId := by
      show (if (s.pd i).flags.pdMode then _ else (s.pd i).cmdId) = _
      rw [hmode]
      rfl
    rw [updPd_pd_same] at hpd hctl hposv
    rw [htxid] at hctl hposv
    obtain ⟨_, w, hw, h⟩ := bind_ok.mp h
    obtain rfl := updPd_ok.mp hw
    obtain ⟨p, w, hg, h⟩ := bind_ok.mp h
    obtain ⟨rfl, rfl⟩ := getPd_ok.mp hg
    obtain ⟨len, x, hx, h⟩ := bind_ok.mp h
    cases len with
    | none => cases (pure_ok.mp h).1
    | some len =>
      obtain ⟨_, y, hy, h⟩ := bind_ok.mp h
      obtain rfl := updPd_ok.mp hy
      obtain ⟨e, rfl⟩ := pure_ok.mp h
      have htotal : hdr.toNat + len = total := Option.some.inj e
      -- the state in which `cp_build_command` starts
      obtain ⟨w, hwdef⟩ : ∃ w, w = v.updPd i fun p =>
        { p with packetBufLen := hdr.toNat } := ⟨_, rfl⟩
      rw [← hwdef] at hx
      have hwpd : w.pd i = headedPd (s.pd i) hdr.toNat := by
        rw [hwdef, updPd_pd_same, hpd]
        rfl
      have hwtx : w.txBuf = v.txBuf := by
        rw [hwdef]
        rfl
      have hwm : (w.pd i).markLen = (v.pd i).markLen := by
        rw [hwpd, hpd]
        rfl
      obtain ⟨hlw, hposw⟩ := hl.congr hwm hwtx
      have hstart : BlockStarted i w :=
        blockStarted_init hinit hhdr hroom hmark'
          (by rw [hwpd, updPd_pd_same]; rfl) hwm hwtx
      have hid : (w.pd i).cmdId = (s.pd i).cmdId := by
        rw [hwpd]
        rfl
      have hcmd : cpPacketCmd (w.pd i) = cpPacketCmd (s.pd i) := by
        rw [hwpd]
        rfl
      rw [hcmd] at hx
      rcases cpBuildCommand_ok hr hx hlw hstart (by rw [hid]; exact hord)
        with e | ⟨block, x₀, y₀, body, e, hsize, hx₀, hcases, hbody, hlx,
          hty, hseal⟩
      · cases e
      · obtain rfl := Option.some.inj e
        rw [hid] at hbody
        -- the last store is of the length alone
        obtain ⟨t, htdef⟩ : ∃ t, t = x.updPd i fun p =>
          { p with packetBufLen := hdr.toNat + block.length } := ⟨_, rfl⟩
        have htm : (t.pd i).markLen = (x.pd i).markLen := by
          rw [htdef, updPd_pd_same]
          rfl
        have httx : t.txBuf = x.txBuf := by
          rw [htdef]
          rfl
        obtain ⟨hlt, hpost⟩ := hlx.congr htm httx
        have hpost : dataPos i t = dataPos i v := by
          rw [hpost, hty.pos, hposw]
        have hmt : (t.pd i).markLen = (v.pd i).markLen := by
          rw [htm, hty.mark, hwm]
        have hstop := hl.stop
        rw [List.length_nil, Nat.add_zero] at hstop
        have hlarge : minimumPacketSize ≤ size := by
          rcases osdpPhyPacketInit_ok hinit with ⟨-, rfl, -⟩ | ⟨hge, -⟩
          · exact absurd hhdr (by decide)
          · exact hge
        show ∃ block', total = dataPos i (x.updPd i fun p =>
          { p with packetBufLen := hdr.toNat + block.length }) + _ ∧ _
        rw [← htdef]
        refine ⟨block, ?_, ?_,
          ⟨?_, ?_, ?_, fun ha => ?_, ?_, hlarge, ?_, ?_⟩⟩
        · rw [← htotal, hpost, hstop]
        · intro e
          rw [e] at hbody
          cases body <;> cases hbody
        · rw [hpost, ← hposw]
          exact hlt
        · have hx : sealView (t.pd i) = sealView (x.pd i) := by
            rw [htdef, updPd_pd_same]
            rfl
          rw [hx, hseal, hwpd]
          rfl
        · rw [hmt, httx, ← hwm, hty.control, hwm, hwtx]
          exact hctl
        · have hscb : initScbLen (s.pd i) (s.pd i).cmdId ≠ 0 := by
            unfold initScbLen
            rw [hmode, Bool.false_and, if_neg Bool.false_ne_true, if_pos ha]
            decide
          rw [hmt, httx, ← hwm]
          refine hty.type (by rw [hwpd]; exact ha) ?_
          rw [hwm, hwtx, hctl]
          exact (ctrlScb_initControl _ _).trans (decide_eq_true hscb)
        · rw [hpost, hposv, hmt]
          rfl
        · rw [hpost, ← hposw]
          exact hsize
        · refine ⟨x₀, y₀, osdpPhyPacketGetSmb (w.pd i) w.txBuf, body, ?_, ?_,
            hbody⟩
          · rw [hx₀, hwpd, hpost, hstop]
          · rw [hpost, ← hposw]
            exact hcases

-- ======================================================= a stale mark flag

/-- A PD that is to be sent no mark byte, and whose flag says it was. -/
theorem stale_parts {p : OsdpPd} (h : ¬ MarkAgrees p) :
    writesMark p = false ∧ p.flags.pktHasMark = true := by
  unfold MarkAgrees at h
  simp only [Classical.not_imp, Bool.not_eq_false] at h
  exact h

/-- What is built then is stored behind the first byte. -/
theorem cpBuildCommand_first (hr : ∀ calls, Keeps Calm (run calls))
    {i size : Nat} {cmd : Option OsdpCmd} {len : Option Nat} {s t : Osdp}
    (h : cpBuildCommand env run i cmd size s = .ok len t)
    (hord : hsCommand (s.pd i).cmdId = false)
    (hsize : size ≤ s.txBuf.length) :
    byteAt t.txBuf 0 = byteAt s.txBuf 0 ∧
      sealView (t.pd i) = sealView (s.pd i) := by
  unfold cpBuildCommand at h
  obtain ⟨p, u, hg, h⟩ := bind_ok.mp h
  obtain ⟨rfl, rfl⟩ := getPd_ok.mp hg
  obtain ⟨buf, u, hread, h⟩ := bind_ok.mp h
  cases hread
  have hbuf : s.buf .tx = s.txBuf := by
    simp [Osdp.buf]
  rw [hbuf] at h
  split at h
  · obtain ⟨-, rfl⟩ := pure_ok.mp h
    exact ⟨rfl, rfl⟩
  · next hstart =>
    have hoff : dataPos i s < size :=
      Nat.not_le.mp fun hle => hstart (.inl hle)
    obtain ⟨hge, -⟩ := dataPos_ge i s
    obtain ⟨_, v, hv, h⟩ := bind_ok.mp h
    cases hv
    obtain ⟨body, w, hcases, h⟩ := bind_ok.mp h
    have hcalm := calm_cpBuildCases hr hcases hord
    have htx : w.txBuf = writeAt s.txBuf (dataPos i s)
        [UInt8.ofNat (s.pd i).cmdId] := by
      have e := hcalm.rest
      exact e
    have hw : byteAt w.txBuf 0 = byteAt s.txBuf 0 := by
      rw [htx]
      exact byteAt_writeAt_lt _ (by omega) (by omega)
    have hwlen : w.txBuf.length = s.txBuf.length := by
      rw [htx]
      exact length_writeAt (by
        show dataPos i s + 1 ≤ _
        omega)
    have hwpd : sealView (w.pd i) = sealView (s.pd i) := by
      have e := hcalm.pd i
      exact e
    -- the type is stored in the security block, or not at all
    have hpick {n : Nat} {x y : Osdp}
        (h : cpPickBlockType i (osdpPhyPacketGetSmb (s.pd i) s.txBuf) n x
          = .ok () y) (hx : 6 ≤ x.txBuf.length) :
        byteAt y.txBuf 0 = byteAt x.txBuf 0 ∧ y.pd = x.pd := by
      rw [getSmb_eq] at h
      split at h
      · obtain ⟨q, u, hq, h⟩ := bind_ok.mp h
        obtain ⟨rfl, rfl⟩ := getPd_ok.mp hq
        obtain ⟨buf, u, hread, h⟩ := bind_ok.mp h
        cases hread
        split at h
        · cases h
          have hle := markLen_le (s.pd i)
          exact ⟨byteAt_writeAt_lt _ (by omega) (by omega), rfl⟩
        · obtain ⟨-, rfl⟩ := pure_ok.mp h
          exact ⟨rfl, rfl⟩
      · obtain ⟨-, rfl⟩ := pure_ok.mp h
        exact ⟨rfl, rfl⟩
    have hpos : osdpPhyPacketGetDataOffset (s.pd i) s.txBuf = dataPos i s :=
      rfl
    unfold cpFinishCommand at h
    rw [hpos] at h
    cases body with
    | fail =>
      obtain ⟨-, rfl⟩ := pure_ok.mp h
      exact ⟨hw, hwpd⟩
    | data d =>
      obtain ⟨_, x, hx, h⟩ := bind_ok.mp h
      cases hx
      obtain ⟨_, y, hy, h⟩ := bind_ok.mp h
      obtain ⟨-, rfl⟩ := pure_ok.mp h
      have hlen := length_le_writeAt w.txBuf (dataPos i s + 1) d
      obtain ⟨hfirst, hpd⟩ := hpick hy (by
        show 6 ≤ (writeAt w.txBuf (dataPos i s + 1) d).length
        omega)
      refine ⟨?_, by rw [hpd]; exact hwpd⟩
      rw [hfirst, ← hw]
      exact byteAt_writeAt_lt _ (by omega) (by omega)
    | abort =>
      obtain ⟨_, x, hx, h⟩ := bind_ok.mp h
      cases hx
      obtain ⟨_, y, hy, h⟩ := bind_ok.mp h
      obtain ⟨-, rfl⟩ := pure_ok.mp h
      have hlen := length_le_writeAt w.txBuf (dataPos i s)
        [UInt8.ofNat cmdAbort]
      obtain ⟨hfirst, hpd⟩ := hpick hy (by
        show 6 ≤ (writeAt w.txBuf (dataPos i s)
          [UInt8.ofNat cmdAbort]).length
        omega)
      refine ⟨?_, by rw [hpd]; exact hwpd⟩
      rw [hfirst, ← hw]
      exact byteAt_writeAt_lt _ (by omega) (by omega)

/-- The packet starts without the mark byte that it is counted with. -/
theorem cpLayCommand_stale (hr : ∀ calls, Keeps Calm (run calls))
    {i size total : Nat} {s t : Osdp}
    (h : cpLayCommand env run i size s = .ok (some total) t)
    (hmark : ¬ MarkAgrees (s.pd i)) (hroom : packetBufSize ≤ s.txBuf.length)
    (hsize : size ≤ packetBufSize)
    (hord : hsCommand (s.pd i).cmdId = false) :
    byteAt t.txBuf 0 = pktSom ∧ (t.pd i).markLen = 1 := by
  obtain ⟨hwrites, hflag⟩ := stale_parts hmark
  unfold cpLayCommand at h
  obtain ⟨_, u, hu, h⟩ := bind_ok.mp h
  obtain rfl := updPd_ok.mp hu
  obtain ⟨hdr, v, hinit, h⟩ := bind_ok.mp h
  split at h
  · cases (pure_ok.mp h).1
  · next hhdr =>
    rcases osdpPhyPacketInit_ok hinit with ⟨-, rfl, -⟩ | ⟨-, hpd, htx, -⟩
    · exact absurd (by decide) hhdr
    · rw [updPd_pd_same] at hpd htx
      have htx : v.txBuf = headerBuf { s.pd i with packetBuf := .tx }
          s.txBuf := htx
      have hroom : 256 ≤ s.txBuf.length := hroom
      have hsize : size ≤ 256 := hsize
      have hsom : somPos { s.pd i with packetBuf := .tx } = 0 :=
        if_neg (by
          show ¬ writesMark (s.pd i) = true
          rw [hwrites]
          exact Bool.false_ne_true)
      have hfirst : byteAt v.txBuf 0 = pktSom := by
        rw [htx, byteAt_headerBuf_lt (by omega) (by omega), hsom]
        rfl
      have hvlen : v.txBuf.length = s.txBuf.length := by
        rw [htx]
        exact length_headerBuf (by omega)
      obtain ⟨_, w, hw, h⟩ := bind_ok.mp h
      obtain rfl := updPd_ok.mp hw
      obtain ⟨p, w, hg, h⟩ := bind_ok.mp h
      obtain ⟨rfl, rfl⟩ := getPd_ok.mp hg
      obtain ⟨len, x, hx, h⟩ := bind_ok.mp h
      have hwpd : sealView ((v.updPd i fun p =>
          { p with packetBufLen := hdr.toNat }).pd i)
            = sealView (startedPd (s.pd i)) := by
        rw [updPd_pd_same, hpd]
        rfl
      have hcmd : ((v.updPd i fun p =>
          { p with packetBufLen := hdr.toNat }).pd i).cmdId
            = (s.pd i).cmdId := by
        rw [updPd_pd_same, hpd]
        rfl
      obtain ⟨hxf, hxpd⟩ := cpBuildCommand_first hr hx
        (by rw [hcmd]; exact hord) (by
          show size ≤ v.txBuf.length
          omega)
      have hxm : (x.pd i).markLen = 1 := by
        rw [markLen_of_sealView (hxpd.trans hwpd)]
        show (if (s.pd i).flags.pktHasMark || _ then 1 else 0) = 1
        rw [hflag]
        rfl
      cases len with
      | none => cases (pure_ok.mp h).1
      | some len =>
        obtain ⟨_, y, hy, h⟩ := bind_ok.mp h
        obtain rfl := updPd_ok.mp hy
        obtain ⟨-, rfl⟩ := pure_ok.mp h
        refine ⟨hxf.trans hfirst, ?_⟩
        rw [updPd_pd_same]
        exact hxm

/-- The finalizer refuses a packet that lacks the mark byte it is counted
with. -/
theorem finalize_unmarked {i size total : Nat} {t : Osdp}
    (hfirst : byteAt t.txBuf 0 = pktSom) (hm : (t.pd i).markLen = 1) :
    ¬ Finalizes env i size total t := by
  rintro ⟨done, u, h, hpos⟩
  unfold osdpPhyFinalizePacket at h
  split at h
  · obtain ⟨rfl, -⟩ := pure_ok.mp h
    exact absurd hpos (by decide)
  · obtain ⟨p, v, hg, h⟩ := bind_ok.mp h
    obtain ⟨rfl, rfl⟩ := getPd_ok.mp hg
    obtain ⟨buf, v, hread, h⟩ := bind_ok.mp h
    cases hread
    have hbuf : t.buf .tx = t.txBuf := by
      simp [Osdp.buf]
    rw [hbuf, if_pos ⟨hm, by rw [hfirst]; decide⟩] at h
    obtain ⟨rfl, -⟩ := pure_ok.mp h
    exact absurd hpos (by decide)

-- ============================================================== success

/-- Where the data block of a header written now starts. -/
def headerLen (p : OsdpPd) (id : Nat) : Nat :=
  somPos p + 5 + initScbLen p id

theorem headerLen_le (p : OsdpPd) (id : Nat) : headerLen p id ≤ 9 := by
  have hsom := somPos_le p
  have hscb := initScbLen_le p id
  unfold headerLen
  omega

/-- A packet is laid for every command whose case gives a data block. -/
theorem cpLayCommand_total {i size : Nat} {s : Osdp}
    (hmode : (s.pd i).flags.pdMode = false) (hmark : MarkAgrees (s.pd i))
    (hroom : packetBufSize ≤ s.txBuf.length)
    (hlarge : minimumPacketSize ≤ size)
    (hneeds : (cpPacketCmd (s.pd i)).isNone →
      cmdNeedsPayload (s.pd i).cmdId = false)
    (hcases : ∀ x smb,
      x.pd i = headedPd (s.pd i) (headerLen (s.pd i) (s.pd i).cmdId) →
      ∃ body y, cpBuildCases env run i (cpPacketCmd (s.pd i)) smb
        (size - headerLen (s.pd i) (s.pd i).cmdId - 1 : Nat) x
          = .ok body y ∧ body ≠ .fail) :
    ∃ total t, cpLayCommand env run i size s = .ok (some total) t := by
  obtain ⟨u, hu⟩ : ∃ u, u = s.updPd i fun p => { p with packetBuf := .tx } :=
    ⟨_, rfl⟩
  have hupd : u.pd i = { s.pd i with packetBuf := .tx } := by
    rw [hu, updPd_pd_same]
  have hutx : u.txBuf = s.txBuf := by
    rw [hu]
    rfl
  obtain ⟨hdr, v, hinit, hhdr⟩ := osdpPhyPacketInit_total i u hlarge
  have hmark' : MarkAgrees (u.pd i) := by
    rw [hupd]
    exact hmark
  obtain ⟨hl, hpd, -, -, -, hposv⟩ :=
    laid_init hinit hhdr (hutx ▸ hroom) hmark'
  have htxid : txId (u.pd i) = (s.pd i).cmdId := by
    rw [hupd]
    show (if (s.pd i).flags.pdMode then _ else (s.pd i).cmdId) = _
    rw [hmode]
    rfl
  have hposv : dataPos i v = headerLen (s.pd i) (s.pd i).cmdId := by
    rw [hposv, htxid, hpd, markLen_startedPd hmark', hupd]
    rfl
  have hstop := hl.stop
  rw [List.length_nil, Nat.add_zero, hposv] at hstop
  -- where `cp_build_command` starts
  obtain ⟨w, hw⟩ : ∃ w, w = v.updPd i fun p =>
    { p with packetBufLen := hdr.toNat } := ⟨_, rfl⟩
  have hwpd : w.pd i
      = headedPd (s.pd i) (headerLen (s.pd i) (s.pd i).cmdId) := by
    rw [hw, updPd_pd_same, hpd, hupd, hstop]
    rfl
  have hwm : (w.pd i).markLen = (v.pd i).markLen := by
    rw [hwpd, hpd, hupd]
    rfl
  have hwtx : w.txBuf = v.txBuf := by
    rw [hw]
    rfl
  have hbuf : w.buf .tx = w.txBuf := by
    simp [Osdp.buf]
  have hoff : osdpPhyPacketGetDataOffset (w.pd i) (w.buf .tx)
      = headerLen (s.pd i) (s.pd i).cmdId := by
    rw [← hposv, hbuf]
    exact dataPos_congr hwm (by rw [hwtx]) fun _ => by rw [hwtx]
  have hid : (w.pd i).cmdId = (s.pd i).cmdId := by
    rw [hwpd]
    rfl
  have hcmd : cpPacketCmd (w.pd i) = cpPacketCmd (s.pd i) := by
    rw [hwpd]
    rfl
  have hstart : ¬ (size ≤ headerLen (s.pd i) (s.pd i).cmdId ∨
      (cpPacketCmd (s.pd i)).isNone ∧ cmdNeedsPayload (s.pd i).cmdId) := by
    have hle := headerLen_le (s.pd i) (s.pd i).cmdId
    have hmin : 128 ≤ size := hlarge
    rintro (h | ⟨h, h'⟩)
    · omega
    · rw [hneeds h] at h'
      cases h'
  obtain ⟨x, hx⟩ : ∃ x, x = { w with
    txBuf := writeAt w.txBuf (headerLen (s.pd i) (s.pd i).cmdId)
      [UInt8.ofNat (s.pd i).cmdId] } := ⟨_, rfl⟩
  obtain ⟨body, y, hy, hne⟩ := hcases x
    (osdpPhyPacketGetSmb (w.pd i) (w.buf .tx)) (by rw [hx]; exact hwpd)
  have hbuild : ∃ len z, cpBuildCommand env run i (cpPacketCmd (s.pd i)) size
      w = .ok (some len) z := by
    have hfin : ∃ len z, cpFinishCommand i
        (headerLen (s.pd i) (s.pd i).cmdId)
        (osdpPhyPacketGetSmb (w.pd i) (w.buf .tx)) body y
          = .ok (some len) z := by
      unfold cpFinishCommand
      cases body with
      | fail => exact absurd rfl hne
      | data d =>
        obtain ⟨z, hz⟩ := pickBlockType_total i
          (osdpPhyPacketGetSmb (w.pd i) (w.buf .tx))
          (cpFinalType (d.length + 1)) { y with
            txBuf := writeAt y.txBuf
              (headerLen (s.pd i) (s.pd i).cmdId + 1) d }
        exact ⟨_, z, bind_ok.mpr ⟨(), _, rfl,
          bind_ok.mpr ⟨(), z, hz, rfl⟩⟩⟩
      | abort =>
        obtain ⟨z, hz⟩ := pickBlockType_total i
          (osdpPhyPacketGetSmb (w.pd i) (w.buf .tx))
          (cpFinalType 1) { y with
            txBuf := writeAt y.txBuf (headerLen (s.pd i) (s.pd i).cmdId)
              [UInt8.ofNat cmdAbort] }
        exact ⟨_, z, bind_ok.mpr ⟨(), _, rfl,
          bind_ok.mpr ⟨(), z, hz, rfl⟩⟩⟩
    obtain ⟨len, z, hz⟩ := hfin
    refine ⟨len, z, bind_ok.mpr ⟨w.pd i, w, rfl,
      bind_ok.mpr ⟨w.buf .tx, w, rfl, ?_⟩⟩⟩
    rw [hoff, hid, if_neg hstart]
    refine bind_ok.mpr ⟨(), x, ?_, bind_ok.mpr ⟨body, y, hy, hz⟩⟩
    rw [hx]
    rfl
  obtain ⟨len, z, hz⟩ := hbuild
  have hset : setPacketBufLen i hdr.toNat v = .ok () w := by
    rw [hw]
    rfl
  unfold cpLayCommand
  rw [bind_eq (show updPd i (fun p => { p with packetBuf := .tx }) s
      = .ok () u by rw [hu]; rfl), bind_eq hinit,
    if_neg (Int.not_lt.mpr hhdr), bind_eq hset,
    bind_eq (m := getPd i) (s := w) rfl, hcmd, bind_eq hz]
  exact ⟨_, _, rfl⟩

end Commands

end LibOsdp
