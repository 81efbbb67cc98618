/-
The status masks: `osdp_get_status_mask` and `osdp_get_sc_status_mask` of
osdp_common.c.

Both read the PDs of a context and write to a buffer of the caller's, and
nothing else.  So they are programs over that buffer; `mask` is how far the
pointer has moved in it.  A store past the end of the buffer and a look at
a record the array of PDs does not have are faults.
-/
import LibOsdp.Cp.Update
import LibOsdp.Lib.Bits

namespace LibOsdp

open Lib

/-- A program over the caller's buffer. -/
abbrev MaskM := EStateM Fault Bytes

/-- `*mask = x`. -/
def maskStore (mask : Nat) (x : UInt8) : MaskM Unit := fun b =>
  if mask < b.length then .ok () (b.set mask x) else .error .outOfBounds b

/-- `*mask |= 1 << pos`. -/
def maskMark (mask pos : Nat) : MaskM Unit := do
  let b ← get
  maskStore mask (setBit (byteAt b mask) pos)

variable (s : Osdp)

/-- A record of the array of PDs, read through `osdp_to_pd`. -/
def osdpToPd (i : Nat) : MaskM OsdpPd :=
  if i < s.numPd then pure (s.pd i) else throw .outOfBounds

/-- The pointer moves on to a byte of its own for every eighth PD. -/
def maskAdvance (i mask : Nat) : MaskM Nat := do
  if i ≠ 0 ∧ i &&& 7 = 0 then
    maskStore (mask + 1) 0
    return mask + 1
  else
    return mask

variable (test : OsdpPd → Bool)

/-- The bit of a PD. -/
def maskPd (p : OsdpPd) (mask pos : Nat) : MaskM Unit :=
  if test p then maskMark mask pos else pure ()

/-- The loop of both functions, with `n` PDs to go from PD `i` on. -/
def maskPds : Nat → Nat → Nat → MaskM Unit
  | 0, _, _ => pure ()
  | n + 1, i, mask => do
    let mask ← maskAdvance i mask
    let p ← osdpToPd s i
    maskPd test p mask (i &&& 7)
    maskPds n (i + 1) mask

/-- The session with a PD is active, and on a key of its own. -/
def hasOwnSc (p : OsdpPd) : Bool :=
  p.flags.scActive && !p.flags.scUseScbkd

/-- `osdp_get_sc_status_mask`. -/
def osdpGetScStatusMask : MaskM Unit := do
  maskStore 0 0
  maskPds s hasOwnSc s.numPd 0 0

/-- `osdp_get_status_mask`.  The role is read off the first PD, whatever
their number. -/
def osdpGetStatusMask : MaskM Unit := do
  let p ← osdpToPd s 0
  if p.flags.pdMode then
    maskStore 0 (if s.now - p.tstamp < pdOnlineToutMs then 1 else 0)
  else
    maskStore 0 0
    maskPds s cpIsOnline s.numPd 0 0

end LibOsdp
