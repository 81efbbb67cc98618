/-
The 16-bit cyclic redundancy check with polynomial 0x1021, most
significant bit first, a byte at a time.
-/
import Mathlib.Data.List.Basic

namespace LibOsdp.Lib

/-- One byte into the remainder. -/
def crc16Step (crc : UInt16) (b : UInt8) : UInt16 :=
  let c := (crc >>> 8) ||| (crc <<< 8)
  let c := c ^^^ b.toUInt16
  let c := c ^^^ ((c &&& 0xff) >>> 4)
  let c := c ^^^ (c <<< 12)
  c ^^^ ((c &&& 0xff) <<< 5)

/-- The remainder of a message, from a start value. -/
def crc16 (start : UInt16) (msg : List UInt8) : UInt16 :=
  msg.foldl crc16Step start

/-- A message in two parts. -/
theorem crc16_append (start : UInt16) (a b : List UInt8) :
    crc16 start (a ++ b) = crc16 (crc16 start a) b := List.foldl_append

example : crc16 0x1D0F [0x53, 0x65, 0x08, 0x00, 0x04, 0x60] = 0x9060 := by
  decide

end LibOsdp.Lib
