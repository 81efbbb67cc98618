/-
The receive ring (osdp_common.c, `osdp_rb_push` to `osdp_rb_reset`).

Two indices into a buffer of `OSDP_RX_RB_SIZE` bytes; the byte at the head
is the next to be filled, the one at the tail the next to be taken.  The C
loops over a byte count are recursions over what is left of it.
-/
import LibOsdp.Common.Types
import LibOsdp.Lib.Bytes
import LibOsdp.Lib.Ring

namespace LibOsdp

open Lib

/-- `struct osdp_rb`, as it is allocated. -/
structure OsdpRb where
  head : Nat := 0
  tail : Nat := 0
  buffer : Bytes := List.replicate rxRbSize 0

namespace OsdpRb

/-- `osdp_rb_push`. -/
def push (p : OsdpRb) (data : UInt8) : OsdpRb × Int :=
  let next := ringNext rxRbSize p.head
  if next = p.tail then (p, -1)
  else ({ p with buffer := p.buffer.set p.head data, head := next }, 0)

/-- `osdp_rb_push_buf`, over the `len` bytes of the buffer. -/
def pushBuf (p : OsdpRb) : Bytes → OsdpRb × Nat
  | [] => (p, 0)
  | data :: rest =>
    let (q, ret) := p.push data
    if ret ≠ 0 then (q, 0)
    else
      let (r, n) := q.pushBuf rest
      (r, n + 1)

/-- `osdp_rb_pop`: nothing where it returns -1. -/
def pop (p : OsdpRb) : OsdpRb × Option UInt8 :=
  if p.head = p.tail then (p, none)
  else
    ({ p with tail := ringNext rxRbSize p.tail },
      some (byteAt p.buffer p.tail))

/-- `osdp_rb_pop_buf` with `maxLen` bytes still to go: the bytes stored,
as many as it returns. -/
def popBuf (p : OsdpRb) : Nat → OsdpRb × Bytes
  | 0 => (p, [])
  | n + 1 =>
    match p.pop with
    | (q, none) => (q, [])
    | (q, some data) =>
      let (r, l) := q.popBuf n
      (r, data :: l)

/-- `osdp_rb_reset`. -/
def reset (p : OsdpRb) : OsdpRb := { p with head := 0, tail := 0 }

-- ============================================================== histories

/-- What is done to a ring; a length is an `int` and may be negative. -/
inductive Op where
  | push (data : UInt8)
  | pushBuf (data : Bytes)
  | pop
  | popBuf (maxLen : Int)
  | reset

/-- What comes back. -/
inductive Ret where
  | status (ret : Int)
  | moved (n : Nat)
  | byte (data : Option UInt8)
  | bytes (data : Bytes)
  | nothing
  deriving DecidableEq, Repr

def step (p : OsdpRb) : Op → OsdpRb × Ret
  | .push data => ((p.push data).1, .status (p.push data).2)
  | .pushBuf data => ((p.pushBuf data).1, .moved (p.pushBuf data).2)
  | .pop => (p.pop.1, .byte p.pop.2)
  | .popBuf maxLen =>
    ((p.popBuf maxLen.toNat).1, .bytes (p.popBuf maxLen.toNat).2)
  | .reset => (p.reset, .nothing)

/-- A history, and what came back in it. -/
def run (p : OsdpRb) : List Op → OsdpRb × List Ret
  | [] => (p, [])
  | op :: ops =>
    let (q, ret) := p.step op
    let (r, rets) := q.run ops
    (r, ret :: rets)

end OsdpRb

end LibOsdp
