/-
Packet sizes that leave a device without a packet.

Both sides store the size the other announces as it comes, in a
CMD_ACURXSIZE on the PD and in a REPLY_PDCAP on the CP, and both read it
as the size of their own transmit buffer.  `osdp_phy_packet_init` starts
no packet in fewer than `OSDP_MINIMUM_PACKET_SIZE` bytes, so a size that
is neither zero nor that large leaves nothing to send, not even the ACK
to the command it came in.

`sizes_leave_packets` is about every run of either side in which no such
size was accepted: whatever else was, the packets without a payload of
their own are built.
-/
import LibOsdp.Common.PlainEnv
import LibOsdp.Cp.Proofs.PeerSize
import LibOsdp.Pd.Proofs.PeerSize

namespace LibOsdp

open Lib

/-- The states in which a CP may have a packet to build: those between two
inputs of a run, and those in which a pass of a refresh starts or ends. -/
inductive CpOnTurn (env : Env) (depth : Nat) (infos : List CpPdInfo) :
    Osdp → Prop where
  | idle {s₀ s : Osdp} {l : List CpInput}
      (setup : osdpCpSetup env infos = some s₀)
      (run : CpRun env depth anyCpInput s₀ l s) : CpOnTurn env depth infos s
  | starts {s₀ s u v : Osdp} {l : List CpInput} {now : Int} {rx : Bytes}
      (setup : osdpCpSetup env infos = some s₀)
      (run : CpRun env depth anyCpInput s₀ l s)
      (pass : RefreshPass env depth s now rx u v) : CpOnTurn env depth infos u
  | ends {s₀ s u v : Osdp} {l : List CpInput} {now : Int} {rx : Bytes}
      (setup : osdpCpSetup env infos = some s₀)
      (run : CpRun env depth anyCpInput s₀ l s)
      (pass : RefreshPass env depth s now rx u v) : CpOnTurn env depth infos v

variable {env : Env} {depth : Nat}

/-- An invariant of the runs holds in all of these. -/
theorem CpOnTurn.invariant {I : Osdp → Prop} {infos : List CpPdInfo}
    {x : Osdp} (hI : CpInvariant env depth I)
    (hstart : ∀ s, osdpCpSetup env infos = some s → I s)
    (h : CpOnTurn env depth infos x) : I x := by
  cases h with
  | idle setup run => exact hI.run run (hstart _ setup)
  | starts setup run pass =>
    exact (hI.refreshPass (hI.run run (hstart _ setup)) pass).1
  | ends setup run pass =>
    exact (hI.refreshPass (hI.run run (hstart _ setup)) pass).2.2

/-- **No size that leaves room mutes a device.**  In every state of a run
in which it may have a packet to build, as long as it accepted no size
from 1 to 127: a PD builds its ACK and its NAK, and a CP its POLL, ID and
CAP, these provided that it counts the mark byte as it writes it. -/
theorem sizes_leave_packets (env : Env) (depth : Nat) :
    (∀ info x, PdOnTurn env depth info x → AcceptsRoom 0 x.log →
      (x.pd 0).sc.rMac.length = 16 → (x.pd 0).sc.cMac.length = 16 →
      ∀ id, shortReply id = true →
        PdBuilds env (pdRunCalls env depth) 0 id x) ∧
    ∀ infos x i, CpOnTurn env depth infos x → AcceptsCapRoom i x.log →
      (x.pd i).sc.rMac.length = 16 → (x.pd i).sc.cMac.length = 16 →
      ∀ id, shortCommand id = true →
        (CpBuilds env (cpRunCalls env depth) i id x ↔
          MarkAgrees (x.pd i)) := by
  constructor
  · intro info x hx hroom hr hc id hid
    obtain ⟨hmode, hbuf, hkept⟩ := hx.kept
    exact (pdBuilds_iff (quiet_pdRunCalls env depth) hid hmode hbuf hr
      hc).mpr (hkept hroom)
  · intro infos x i hx hroom hr hc id hid
    have hinv : RoomInv x :=
      hx.invariant (roomInv_invariant env depth) fun _ => roomInv_setup
    rw [cpBuilds_iff (keeps_cpRunCalls depth) hid (hinv.mode i) hinv.room hr
      hc]
    exact and_iff_left (hinv.size i hroom).force

-- =============================================================== examples

/-- An environment whose channel takes everything. -/
def muteEnv : Env := plainEnv (knownCipher []) fun _ => 0

/-- A plain CMD_ACURXSIZE of 64 bytes, and one of 256. -/
def acurxsize64 : Bytes := writeBe 10 0x53010A00047B40008F33

def acurxsize256 : Bytes := writeBe 10 0x53010A00047B0001622E

/-- An entry of the history that stores no size too small. -/
def verdictRoom : Obs → Bool
  | .verdict _ payload _ =>
    (acurxsizeOf payload).all fun n => decide (¬ Mutes n)
  | _ => true

theorem acceptsRoom_of_all {i : Nat} {log : List Obs}
    (h : log.all verdictRoom = true) : AcceptsRoom i log := by
  intro payload n hv hn
  have hroom : (acurxsizeOf payload).all (fun n => decide (¬ Mutes n))
      = true := List.all_eq_true.mp h _ hv
  rw [hn] at hroom
  exact of_decide_eq_true hroom

/-- A PD that was told that the CP takes 256 bytes still has its ACK. -/
theorem sizes_leave_packets_256 :
    ∃ s₀ s, osdpPdSetup muteEnv keyedPd = some s₀ ∧
      PdRun muteEnv 1 anyInput s₀ [.refresh 0 acurxsize256] s ∧
      (s.pd 0).peerRxSize = 256 ∧
      PdBuilds muteEnv (pdRunCalls muteEnv 1) 0 replyAck s := by
  obtain ⟨s₀, s, hs, hrun, hlive, hroom, hr, hc, hsize⟩ :=
    pdRun_of_setup muteEnv 1 anyInput keyedPd [.refresh 0 acurxsize256]
      (fun s => s.tearingDown = false ∧ s.log.all verdictRoom = true ∧
        (s.pd 0).sc.rMac.length = 16 ∧ (s.pd 0).sc.cMac.length = 16 ∧
        (s.pd 0).peerRxSize = 256)
      (by decide +kernel)
  exact ⟨s₀, s, hs, hrun, hsize, (sizes_leave_packets muteEnv 1).1 keyedPd s
    (.idle hs hrun hlive) (acceptsRoom_of_all hroom) hr hc replyAck rfl⟩

/-- A PD that was told that the CP takes 64 bytes accepts that, and has no
ACK from then on. -/
theorem acurxsize64_mutes :
    ¬ ∀ (env : Env) (depth : Nat) (info : PdInfo) (s₀ s : Osdp)
        (l : List PdInput) (payload : Bytes),
      osdpPdSetup env info = some s₀ → PdRun env depth anyInput s₀ l s →
      s.tearingDown = false → .verdict 0 payload pdErrNone ∈ s.log →
      acurxsizeOf payload ≠ none →
      PdBuilds env (pdRunCalls env depth) 0 replyAck s := by
  intro hall
  obtain ⟨s₀, s, hs, hrun, hlive, hv, hmode, hroom, hr, hc, hsize⟩ :=
    pdRun_of_setup muteEnv 1 anyInput keyedPd [.refresh 0 acurxsize64]
      (fun s => s.tearingDown = false ∧
        .verdict 0 [0x7B, 0x40, 0] pdErrNone ∈ s.log ∧
        (s.pd 0).flags.pdMode = true ∧ packetBufSize ≤ s.txBuf.length ∧
        (s.pd 0).sc.rMac.length = 16 ∧ (s.pd 0).sc.cMac.length = 16 ∧
        (s.pd 0).peerRxSize = 64)
      (by decide +kernel)
  have hbuilds := hall muteEnv 1 keyedPd s₀ s _ _ hs hrun hlive hv (by decide)
  rw [pdBuilds_iff (quiet_pdRunCalls muteEnv 1) rfl hmode hroom hr hc, hsize]
    at hbuilds
  exact hbuilds (by decide)

end LibOsdp
