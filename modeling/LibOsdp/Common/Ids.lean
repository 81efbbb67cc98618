/-
The numeric vocabulary of the protocol (osdp_common.h, osdp.h,
osdp_tunables.h).

Command and reply ids are kept as the numbers that travel on the wire,
because the C code stores a received byte in `pd->cmd_id` /
`pd->reply_id` before it knows whether the byte names anything: an
inductive type would have to invent a value for the unknown ones.  `int`
result codes stay `Int`, under the names of their enumerations.

# Why ids are `Nat`

`pd->cmd_id` is an `int` that holds a wire byte or, on the CP, the `-1`
of "send nothing this round".  Every test the code makes on it is an
equality with a positive id or `> 0`, so the model stores the `-1` as
`cmdInvalid`: no comparison can tell the two apart.
-/
import Mathlib.Data.List.Basic

namespace LibOsdp

-- ============================================================ commands

abbrev cmdInvalid : Nat := 0x00
@[match_pattern] abbrev cmdPoll : Nat := 0x60
@[match_pattern] abbrev cmdIdent : Nat := 0x61
@[match_pattern] abbrev cmdCap : Nat := 0x62
@[match_pattern] abbrev cmdLstat : Nat := 0x64
@[match_pattern] abbrev cmdIstat : Nat := 0x65
@[match_pattern] abbrev cmdOstat : Nat := 0x66
@[match_pattern] abbrev cmdRstat : Nat := 0x67
@[match_pattern] abbrev cmdOut : Nat := 0x68
@[match_pattern] abbrev cmdLed : Nat := 0x69
@[match_pattern] abbrev cmdBuz : Nat := 0x6A
@[match_pattern] abbrev cmdText : Nat := 0x6B
@[match_pattern] abbrev cmdTdset : Nat := 0x6D
@[match_pattern] abbrev cmdComset : Nat := 0x6E
@[match_pattern] abbrev cmdBioread : Nat := 0x73
@[match_pattern] abbrev cmdBiomatch : Nat := 0x74
@[match_pattern] abbrev cmdKeyset : Nat := 0x75
@[match_pattern] abbrev cmdChlng : Nat := 0x76
@[match_pattern] abbrev cmdScrypt : Nat := 0x77
@[match_pattern] abbrev cmdAcurxsize : Nat := 0x7B
@[match_pattern] abbrev cmdFiletransfer : Nat := 0x7C
@[match_pattern] abbrev cmdMfg : Nat := 0x80
@[match_pattern] abbrev cmdXwr : Nat := 0xA1
@[match_pattern] abbrev cmdAbort : Nat := 0xA2
@[match_pattern] abbrev cmdPivdata : Nat := 0xA3
@[match_pattern] abbrev cmdGenauth : Nat := 0xA4
@[match_pattern] abbrev cmdCrauth : Nat := 0xA5
@[match_pattern] abbrev cmdKeepactive : Nat := 0xA7

-- ============================================================= replies

abbrev replyInvalid : Nat := 0x00
@[match_pattern] abbrev replyAck : Nat := 0x40
@[match_pattern] abbrev replyNak : Nat := 0x41
@[match_pattern] abbrev replyPdid : Nat := 0x45
@[match_pattern] abbrev replyPdcap : Nat := 0x46
@[match_pattern] abbrev replyLstatr : Nat := 0x48
@[match_pattern] abbrev replyIstatr : Nat := 0x49
@[match_pattern] abbrev replyOstatr : Nat := 0x4A
@[match_pattern] abbrev replyRstatr : Nat := 0x4B
@[match_pattern] abbrev replyRaw : Nat := 0x50
@[match_pattern] abbrev replyFmt : Nat := 0x51
@[match_pattern] abbrev replyKeypad : Nat := 0x53
@[match_pattern] abbrev replyCom : Nat := 0x54
@[match_pattern] abbrev replyBioreadr : Nat := 0x57
@[match_pattern] abbrev replyBiomatchr : Nat := 0x58
@[match_pattern] abbrev replyCcrypt : Nat := 0x76
@[match_pattern] abbrev replyRmacI : Nat := 0x78
@[match_pattern] abbrev replyBusy : Nat := 0x79
@[match_pattern] abbrev replyFtstat : Nat := 0x7A
@[match_pattern] abbrev replyPivdatar : Nat := 0x80
@[match_pattern] abbrev replyGenauthr : Nat := 0x81
@[match_pattern] abbrev replyCrauthr : Nat := 0x82
@[match_pattern] abbrev replyMfgstatr : Nat := 0x83
@[match_pattern] abbrev replyMfgerrr : Nat := 0x84
@[match_pattern] abbrev replyMfgrep : Nat := 0x90
@[match_pattern] abbrev replyXrd : Nat := 0xB1

-- =============================================== secure block types

abbrev scs11 : Nat := 0x11
abbrev scs12 : Nat := 0x12
abbrev scs13 : Nat := 0x13
abbrev scs14 : Nat := 0x14
abbrev scs15 : Nat := 0x15
abbrev scs16 : Nat := 0x16
abbrev scs17 : Nat := 0x17
abbrev scs18 : Nat := 0x18

-- ============================================= NAK and error codes

/-- `enum osdp_pd_nak_code_e`, as the byte that follows REPLY_NAK. -/
abbrev nakNone : UInt8 := 0
abbrev nakMsgChk : UInt8 := 1
abbrev nakCmdLen : UInt8 := 2
abbrev nakCmdUnknown : UInt8 := 3
abbrev nakSeqNum : UInt8 := 4
abbrev nakScUnsup : UInt8 := 5
abbrev nakScCond : UInt8 := 6
abbrev nakBioType : UInt8 := 7
abbrev nakBioFmt : UInt8 := 8
abbrev nakRecord : UInt8 := 9

/-- `enum osdp_pkt_errors_e`: the negative half of the `int` the phy
layer returns.  `errPktNack` is also what a payload length of minus six
looks like. -/
abbrev errPktNone : Int := 0
abbrev errPktFmt : Int := -1
abbrev errPktWait : Int := -2
abbrev errPktSkip : Int := -3
abbrev errPktCheck : Int := -4
abbrev errPktBusy : Int := -5
abbrev errPktNack : Int := -6
abbrev errPktBuild : Int := -7
abbrev errPktNoData : Int := -8
abbrev errPktWaitTx : Int := -9

/-- `enum osdp_pd_error_e` (osdp_pd.c). -/
abbrev pdErrNone : Int := 0
abbrev pdErrWait : Int := -1
abbrev pdErrGeneric : Int := -2
abbrev pdErrReply : Int := -3
abbrev pdErrIgnore : Int := -4
abbrev pdErrNoData : Int := -5
abbrev pdErrRetrySend : Int := -6

/-- `enum osdp_cp_error_e` (osdp_cp.c). -/
abbrev cpErrNone : Int := 0
abbrev cpErrGeneric : Int := -1
abbrev cpErrNoData : Int := -2
abbrev cpErrRetryCmd : Int := -3
abbrev cpErrDefer : Int := -4
abbrev cpErrInprog : Int := -5
abbrev cpErrUnknown : Int := -6
abbrev cpErrSeqNum : Int := -7
abbrev cpErrApp : Int := -8

-- ======================================================== capabilities

abbrev capContactStatusMonitoring : Nat := 1
abbrev capOutputControl : Nat := 2
abbrev capReaderLedControl : Nat := 4
abbrev capReaderAudibleOutput : Nat := 5
abbrev capReaderTextOutput : Nat := 6
abbrev capTimeKeeping : Nat := 7
abbrev capCheckCharacterSupport : Nat := 8
abbrev capCommunicationSecurity : Nat := 9
abbrev capReceiveBuffersize : Nat := 10
abbrev capSmartCardSupport : Nat := 12
abbrev capReaders : Nat := 13
abbrev capBiometrics : Nat := 14
abbrev capOsdpVersion : Nat := 16
abbrev capSentinel : Nat := 17

-- ============================================================ tunables

abbrev packetBufSize : Nat := 256
abbrev minimumPacketSize : Nat := 128
abbrev rxRbSize : Nat := 512
abbrev respToutMs : Int := 200
abbrev cmdMaxRetries : Nat := 8
abbrev cmdRetryWaitMs : Int := 800
abbrev pdPollTimeoutMs : Int := 50
abbrev pdScRetryMs : Int := 600000
abbrev pdScTimeoutMs : Int := 8000
abbrev pdOnlineToutMs : Int := 8000
abbrev onlineRetryWaitMaxMs : Int := 300000
abbrev fileErrorRetryMax : Nat := 10

/-- Room a multi-part sender leaves for the secure channel's padding. -/
abbrev mpScReserve : Nat := 16

end LibOsdp
