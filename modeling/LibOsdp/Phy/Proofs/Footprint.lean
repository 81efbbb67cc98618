/-
What the packet layer touches: the transmit buffer, two flags, the
sequence number last sent, and the MAC chain.

As with the engines, the lemmas are for any preorder closed under these
moves.
-/
import LibOsdp.Phy.Framer
import LibOsdp.Common.Frame

namespace LibOsdp

open Lib

/-- A PD without what building a packet may change. -/
@[grind] def OsdpPd.sansPacket (p : OsdpPd) : OsdpPd :=
  { p with
    phyTxSeq := 0
    flags := { p.flags with pktBroadcast := false, pktHasMark := false }
    sc := { p.sc with rMac := [], cMac := [] } }

/-- A preorder on states that building a packet stays within. -/
class PacketMoves (R : Osdp → Osdp → Prop) : Prop extends
    IsPreorder Osdp R where
  packet : ∀ s i f, (∀ p : OsdpPd, (f p).sansPacket = p.sansPacket) →
    R s (s.updPd i f)
  txBuf : ∀ s off data, R s { s with txBuf := writeAt s.txBuf off data }

/-- The transmit buffer was not cut short. -/
def Roomy (s t : Osdp) : Prop := s.txBuf.length ≤ t.txBuf.length

theorem roomy_of_eq {s t : Osdp} (h : t.txBuf = s.txBuf) : Roomy s t :=
  (congrArg List.length h).ge

instance : PacketMoves Roomy where
  refl _ := Nat.le_refl _
  trans _ _ _ := Nat.le_trans
  packet _ _ _ _ := Nat.le_refl _
  txBuf s off data := length_le_writeAt s.txBuf off data

section Buffers

variable {R : Osdp → Osdp → Prop} [IsPreorder Osdp R]

@[grind ←]
theorem keeps_readBuf (ref : BufRef) : Keeps R (readBuf ref) := by
  intro s a t e
  cases e
  exact refl_of R s

end Buffers

variable {env : Env} {R : Osdp → Osdp → Prop} [PacketMoves R]

theorem keeps_updPd_packet {i : Nat} {f : OsdpPd → OsdpPd}
    (h : ∀ p : OsdpPd, (f p).sansPacket = p.sansPacket) :
    Keeps R (updPd i f) := by
  intro s a t e
  cases e
  exact PacketMoves.packet s i f h

@[grind ←]
theorem keeps_writeBuf_tx (off : Nat) (data : Bytes) :
    Keeps R (writeBuf .tx off data) := by
  intro s a t e
  cases e
  exact PacketMoves.txBuf s _ _

@[grind ←]
theorem keeps_phySetMark (i : Nat) (mark : Bool) :
    Keeps R (phySetMark i mark) :=
  keeps_updPd_packet fun _ => rfl

@[grind ←]
theorem keeps_phyPacketStarted (i : Nat) (c : UInt8) :
    Keeps R (phyPacketStarted i c) :=
  keeps_updPd_packet fun _ => rfl

@[grind ←]
theorem keeps_phyWriteHeader (i : Nat) (p : OsdpPd) :
    Keeps R (phyWriteHeader i p) := by
  unfold phyWriteHeader
  grind

@[grind ←]
theorem keeps_osdpPhyPacketInit (i maxLen : Nat) :
    Keeps R (osdpPhyPacketInit i maxLen) := by
  unfold osdpPhyPacketInit
  grind

/-- Sealing a packet moves the MAC chain and nothing else of the
channel. -/
theorem finalizePacket_sc (env : Env) (p : OsdpPd) (pkt : Bytes)
    (maxLen : Nat) :
    ({ (finalizePacket env p pkt maxLen).1 with rMac := [], cMac := [] } :
        OsdpSecureChannel)
      = { p.sc with rMac := [], cMac := [] } := by
  unfold finalizePacket
  dsimp only
  split
  · split
    · rfl
    · split
      · rfl
      · unfold osdpComputeMac
        split <;> rfl
  · rfl

@[grind ←]
theorem keeps_phySealChannel (i : Nat) (pkt : Bytes) (maxLen : Nat) :
    Keeps R (phySealChannel env i pkt maxLen) := by
  refine keeps_updPd_packet fun p => ?_
  unfold OsdpPd.sansPacket
  rw [finalizePacket_sc env p pkt maxLen]

@[grind ←]
theorem keeps_osdpPhyFinalizePacket (i len maxLen : Nat) :
    Keeps R (osdpPhyFinalizePacket env i len maxLen) := by
  unfold osdpPhyFinalizePacket
  grind

end LibOsdp
