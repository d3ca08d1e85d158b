import VideoComputer.Processor.Basic

/-!
# Arithmetic and logic

Binary and decimal addition and subtraction with carry, comparison, bit test, shifts, rotations
and increments. Sums are taken in the natural numbers, differences of digits in the integers, and
only the last step drops what does not fit a byte.
-/

namespace VideoComputer

namespace Processor

/-- The accumulator plus a byte plus the carry, before it is cut to a byte. -/
def sum (p : Processor) (value : Byte) : Nat :=
  p.a.toNat + value.toNat + p.flags.carry.toNat

/-- Two summands of one sign have a result of the other. -/
def signedOverflow (left right result : Byte) : Bool :=
  left.isNegative == right.isNegative && result.isNegative != left.isNegative

def addBinary (p : Processor) (value : Byte) : Processor :=
  let result := UInt8.ofNat (p.sum value)
  { p with
    a := result
    flags := { p.flags.describing result with
      carry := decide (256 ≤ p.sum value)
      overflow := signedOverflow p.a value result } }

/-- A low digit above nine is brought back among the digits and carries sixteen. -/
def adjustedLowDigit (p : Processor) (value : Byte) : Nat :=
  let digit := p.a.toNat % 16 + value.toNat % 16 + p.flags.carry.toNat
  if 10 ≤ digit then (digit + 6) % 16 + 16 else digit

/-- Both digits added, the low one adjusted and the high one not yet. -/
def halfAdjustedSum (p : Processor) (value : Byte) : Nat :=
  p.a.toNat / 16 * 16 + value.toNat / 16 * 16 + p.adjustedLowDigit value

/-- Addition of two-digit decimal numbers. Zero is that of the binary sum; negative and overflow
are those of the sum whose high digit is not yet adjusted. -/
def addDecimal (p : Processor) (value : Byte) : Processor :=
  let half := p.halfAdjustedSum value
  let shown : Byte := UInt8.ofNat half
  let total := if 160 ≤ half then half + 96 else half
  { p with
    a := UInt8.ofNat total
    flags := { p.flags with
      negative := shown.isNegative
      overflow := signedOverflow p.a value shown
      zero := UInt8.ofNat (p.sum value) == 0
      carry := decide (256 ≤ total) } }

/-- The accumulator after subtraction of two-digit decimal numbers. -/
def decimalDifference (p : Processor) (value : Byte) : Byte :=
  let digit : Int := p.a.toNat % 16 - value.toNat % 16 + p.flags.carry.toNat - 1
  let low := if digit < 0 then (digit - 6) % 16 - 16 else digit
  let half : Int := p.a.toNat / 16 * 16 - value.toNat / 16 * 16 + low
  let total := if half < 0 then half - 96 else half
  UInt8.ofNat (total % 256).toNat

def add (p : Processor) (value : Byte) : Processor :=
  if p.flags.decimal then p.addDecimal value else p.addBinary value

/-- Subtraction is addition of the complement; in decimal mode only the accumulator differs. -/
def subtract (p : Processor) (value : Byte) : Processor :=
  let binary := p.addBinary (255 - value)
  if p.flags.decimal then { binary with a := p.decimalDifference value } else binary

/-- Carry tells that the register is at least the value, zero and negative describe the
difference. -/
def compare (p : Processor) (register value : Byte) : Processor :=
  { p with flags := { p.flags.describing (register - value) with
      carry := decide (value.toNat ≤ register.toNat) } }

/-- Zero tells that no bit is shared with the accumulator, negative and overflow are bits 7 and 6.
-/
def testBits (p : Processor) (value : Byte) : Processor :=
  { p with flags := { p.flags with
      negative := value.bit 7
      overflow := value.bit 6
      zero := p.a &&& value == 0 } }

end Processor

/-- What can be done to a byte in place, in memory or in a register. -/
inductive Modification where
  | shiftLeft
  | shiftRight
  | rotateLeft
  | rotateRight
  | increment
  | decrement
deriving DecidableEq

namespace Modification

/-- The new byte; a rotation takes the carry in at the other end. -/
def result (modification : Modification) (value : Byte) (carry : Bool) : Byte :=
  match modification with
  | shiftLeft => UInt8.ofNat (value.toNat * 2)
  | shiftRight => UInt8.ofNat (value.toNat / 2)
  | rotateLeft => UInt8.ofNat (value.toNat * 2 + carry.toNat)
  | rotateRight => UInt8.ofNat (value.toNat / 2 + carry.toNat * 128)
  | increment => value + 1
  | decrement => value - 1

/-- The new carry: the bit that left the byte, or the old carry where none does. -/
def carryOut (modification : Modification) (value : Byte) (carry : Bool) : Bool :=
  match modification with
  | shiftLeft | rotateLeft => value.bit 7
  | shiftRight | rotateRight => value.bit 0
  | increment | decrement => carry

/-- The flags after a byte has been modified. -/
def flags (modification : Modification) (value : Byte) (flags : Flags) : Flags :=
  { flags.describing (modification.result value flags.carry) with
    carry := modification.carryOut value flags.carry }

end Modification

end VideoComputer
