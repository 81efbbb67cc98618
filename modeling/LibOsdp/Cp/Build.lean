/-
Commands on the CP (osdp_cp.c, `cp_translate_cmd` to `cp_build_packet`).

The command that is built is the one `cmd_id` names.  Its data block
comes from the application's command where it needs one, from a transfer
engine, from the card session, or from the state of the secure channel.

# A retry builds again

The same function runs for the first transmission and for every retry:
nothing is kept of the bytes sent before.  Building a fragment of a
transfer may also end that transfer, and then CMD_ABORT goes out in the
place of the command; `cmd_id` keeps its value.
-/
import LibOsdp.Engine.Engines
import LibOsdp.Engine.TrsCp

namespace LibOsdp

open Lib

variable (env : Env) (run : List ApiCall → OsdpM Unit)

-- ========================================================= translation

/-- The wire command of an application's command. -/
def wireCmdOf : OsdpCmd → Option Nat
  | .output .. => some cmdOut
  | .led .. => some cmdLed
  | .buzzer .. => some cmdBuz
  | .text .. => some cmdText
  | .tdset .. => some cmdTdset
  | .comset .. => some cmdComset
  | .mfg .. => some cmdMfg
  | .bioread _ => some cmdBioread
  | .biomatch _ => some cmdBiomatch
  | .xwr _ => some cmdXwr
  | .keyset .. => some cmdKeyset
  | .status r =>
    match r.type with
    | .input => some cmdIstat
    | .output => some cmdOstat
    | .local => some cmdLstat
    | .reader => some cmdRstat
    | .unlisted _ => none
  | _ => none

/-- A KEYSET that is not one of an SCBK under an active channel. -/
def keysetRefused (p : OsdpPd) : OsdpCmd → Bool
  | .keyset type .. => type != 1 || !p.flags.scActive
  | _ => false

/-- A status command for a report nobody knows. -/
def statusUnlisted : OsdpCmd → Bool
  | .status ⟨.unlisted _, _, _⟩ => true
  | _ => false

/-- `cp_translate_cmd`; `cmdInvalid` where the C function returns -1. -/
def cpTranslateCmd (p : OsdpPd) (cmd : OsdpCmd) : OsdpM Nat := do
  if keysetRefused p cmd || statusUnlisted cmd then
    return cmdInvalid
  match wireCmdOf cmd with
  | some id => return id
  | none => throw .bug

/-- `cmd_needs_payload`. -/
def cmdNeedsPayload (cmdId : Nat) : Bool :=
  match cmdId with
  | cmdOut | cmdLed | cmdBuz | cmdText | cmdTdset | cmdComset | cmdMfg
  | cmdBioread | cmdBiomatch | cmdKeyset => true
  | _ => false

-- ========================================================= data blocks

/-- `osdp_compute_scbk`. -/
def osdpComputeScbk (sc : OsdpSecureChannel) (masterKey : Bytes) : Bytes :=
  env.cipher.enc masterKey (sc.pdClientUid ++ sc.pdClientUid.map (~~~ ·))

/-- The data block of CMD_KEYSET. -/
def keysetBytes (p : OsdpPd) (maxLen : Int) (type length : UInt8)
    (data : Bytes) : Option Bytes :=
  if !p.flags.scActive ∨ length ≠ 16 ∨ maxLen < 18 then none
  else if type = 1 then some ([1, 16] ++ fieldBytes data 16)
  else if type = 0 then
    some ([1, 16] ++ osdpComputeScbk env p.sc (fieldBytes data 16))
  else none

/-- One half of the data block of CMD_LED. -/
def ledBytes (l : LedParams) : Bytes :=
  [l.controlCode, l.onCount, l.offCount, l.onColor, l.offColor]

/-- The data block of a command that is built from what the application
queued. -/
def appCmdBytes (p : OsdpPd) (maxLen : Int) : OsdpCmd → Option Bytes
  | .output outputNo controlCode timerCount =>
    ifFits maxLen ([outputNo, controlCode] ++ writeLe 2 timerCount.toNat)
  | .led reader ledNumber temporary permanent =>
    ifFits maxLen
      ([reader, ledNumber] ++ ledBytes temporary ++
        writeLe 2 temporary.timerCount.toNat ++ ledBytes permanent)
  | .buzzer reader controlCode onCount offCount repCount =>
    ifFits maxLen [reader, controlCode, onCount, offCount, repCount]
  | .text reader controlCode tempTime offsetRow offsetCol length data =>
    ifFits maxLen
      ([reader, controlCode, tempTime, offsetRow, offsetCol, length] ++
        fieldBytes data length.toNat)
  | .tdset year month day hour minute second =>
    ifFits maxLen
      (writeLe 2 year.toNat ++ [month, day, hour, minute, second])
  | .comset address baudRate =>
    ifFits maxLen (address :: writeLe 4 baudRate.toNat)
  | .mfg vendorCode length data =>
    if length > 64 then none
    else
      ifFits maxLen
        (writeLe 3 vendorCode.toNat ++ fieldBytes data length.toNat)
  | .bioread a => ifFits maxLen [a.reader, a.type, a.format, a.quality]
  | .biomatch a =>
    if a.length > 128 then none
    else
      ifFits maxLen
        ([a.reader, a.type, a.format, a.quality] ++
          writeLe 2 a.length.toNat ++ fieldBytes a.data a.length.toNat)
  | .keyset type length data => keysetBytes env p maxLen type length data
  | _ => none

/-- What a case of `cp_build_command` leaves behind the id byte. -/
inductive CmdBody where
  | fail
  | data (d : Bytes)
  /-- the id becomes CMD_ABORT -/
  | abort
  deriving DecidableEq, Repr

/-- A data block, or the failure of its case. -/
def CmdBody.of : Option Bytes → CmdBody
  | none => .fail
  | some d => .data d

/-- A fragment of a transfer, or the end of the transfer. -/
def CmdBody.ofEngine : Option Bytes → CmdBody
  | none => .abort
  | some d => .data d

/-- The third byte of a handshake block: which key the CP works from. -/
def keySelector (p : OsdpPd) : UInt8 := if p.flags.scUseScbkd then 0 else 1

/-- CMD_CHLNG. -/
def buildChlng (i : Nat) (smb : Option Nat) (maxLen : Int) :
    OsdpM CmdBody := do
  let p ← getPd i
  match smb with
  | none => return .fail
  | some smb =>
    if maxLen < 8 then
      return .fail
    writeBuf .tx smb [3, 0x11, keySelector p]
    return .data p.sc.cpRandom

/-- CMD_SCRYPT. -/
def buildScrypt (i : Nat) (smb : Option Nat) (maxLen : Int) :
    OsdpM CmdBody := do
  match smb with
  | none => return .fail
  | some smb =>
    if maxLen < 16 then
      return .fail
    updPd i fun p => { p with sc := osdpComputeCpCryptogram env p.sc }
    let p ← getPd i
    writeBuf .tx smb [3, 0x13, keySelector p]
    return .data p.sc.cpCryptogram

/-- A fragment of a file transfer. -/
def buildFiletransfer (i : Nat) (maxLen : Int) : OsdpM CmdBody := do
  return .ofEngine (← osdpFileCmdTxBuild env run i maxLen)

/-- A fragment of a smartcard command. -/
def buildPiv (i : Nat) (maxLen : Int) : OsdpM CmdBody := do
  match ← osdpPivCpCmdBuild env run i maxLen with
  | some d => return .data d
  | none =>
    osdpPivAbort env run i
    return .abort

/-- A command that carries the application's own data.  A command of
another kind behind the id would be a read of the wrong union member. -/
def buildAppCmd (i : Nat) (cmd : Option OsdpCmd) (maxLen : Int) :
    OsdpM CmdBody := do
  let p ← getPd i
  match cmd with
  | none => return .fail
  | some c =>
    if wireCmdOf c ≠ some p.cmdId then
      throw .outOfBounds
    return .of (appCmdBytes env p maxLen c)

/-- The `switch` of `cp_build_command`. -/
def cpBuildCases (i : Nat) (cmd : Option OsdpCmd) (smb : Option Nat)
    (maxLen : Int) : OsdpM CmdBody := do
  let p ← getPd i
  match p.cmdId with
  | cmdPoll | cmdLstat | cmdIstat | cmdOstat | cmdRstat | cmdAbort =>
    return .data []
  | cmdIdent | cmdCap => return .of (ifFits maxLen [0])
  | cmdOut | cmdLed | cmdBuz | cmdText | cmdTdset | cmdComset | cmdMfg
  | cmdBioread | cmdBiomatch | cmdKeyset => buildAppCmd env i cmd maxLen
  | cmdAcurxsize => return .of (ifFits maxLen (writeLe 2 packetBufSize))
  | cmdKeepactive => return .of (ifFits maxLen (writeLe 2 0))
  | cmdFiletransfer => buildFiletransfer env run i maxLen
  | cmdPivdata | cmdGenauth | cmdCrauth => buildPiv env run i maxLen
  | cmdXwr => return .of (osdpTrsCmdBuild p.trs cmd (maxLen - 1))
  | cmdChlng => buildChlng i smb maxLen
  | cmdScrypt => buildScrypt env i smb maxLen
  | _ => return .fail

-- ========================================================== the packet

/-- The block type of a command of `len` bytes, once that is final. -/
def cpPickBlockType (i : Nat) (smb : Option Nat) (len : Nat) :
    OsdpM Unit := do
  match smb with
  | none => return
  | some smb =>
    let p ← getPd i
    let buf ← readBuf .tx
    if scs14 < (byteAt buf (smb + 1)).toNat ∧ p.flags.scActive then
      writeBuf .tx smb [2, if len > 1 then 0x17 else 0x15]

/-- The end of `cp_build_command`: the length of the command, unless its
case failed. -/
def cpFinishCommand (i off : Nat) (smb : Option Nat) :
    CmdBody → OsdpM (Option Nat)
  | .fail => return none
  | .data d => do
    writeBuf .tx (off + 1) d
    cpPickBlockType i smb (d.length + 1)
    return some (d.length + 1)
  | .abort => do
    writeBuf .tx off [UInt8.ofNat cmdAbort]
    cpPickBlockType i smb 1
    return some 1

/-- `cp_build_command`. -/
def cpBuildCommand (i : Nat) (cmd : Option OsdpCmd) (size : Nat) :
    OsdpM (Option Nat) := do
  let p ← getPd i
  let buf ← readBuf .tx
  let off := osdpPhyPacketGetDataOffset p buf
  let smb := osdpPhyPacketGetSmb p buf
  if size ≤ off ∨ (cmd.isNone ∧ cmdNeedsPayload p.cmdId) then
    return none
  writeBuf .tx off [UInt8.ofNat p.cmdId]
  let body ← cpBuildCases env run i cmd smb (size - off - 1 : Nat)
  cpFinishCommand i off smb body

/-- `fill_local_keyset_cmd`, where `cp_build_packet` calls it: the command
the packet is built from. -/
def cpPacketCmd (p : OsdpPd) : Option OsdpCmd :=
  if p.state = .setScbk ∧ p.cmdId = cmdKeyset then
    some (.keyset 1 16 p.sc.scbk)
  else p.activeCmd.map (·.cmd)

/-- `pd->packet_buf_len = len`. -/
def setPacketBufLen (i len : Nat) : OsdpM Unit :=
  updPd i fun p => { p with packetBufLen := len }

/-- `cp_build_packet` past `osdp_phy_packet_init`: `hdr` is the length of
what that wrote. -/
def cpBuildRest (i size hdr : Nat) : OsdpM Bool := do
  setPacketBufLen i hdr
  let p ← getPd i
  match ← cpBuildCommand env run i (cpPacketCmd p) size with
  | none => return false
  | some len =>
    setPacketBufLen i (hdr + len)
    let done ← osdpPhyFinalizePacket env i (hdr + len) size
    if done < 0 then
      return false
    setPacketBufLen i done.toNat
    return true

/-- `cp_build_packet`: false where the C function returns an error. -/
def cpBuildPacket (i : Nat) : OsdpM Bool := do
  let p ← getPd i
  observe (.build i p.cmdId p.flags.scActive)
  let size := getTxBufSize p
  updPd i fun p => { p with packetBuf := .tx }
  let hdr ← osdpPhyPacketInit i size
  if hdr < 0 then
    return false
  cpBuildRest env run i size hdr.toNat

end LibOsdp
