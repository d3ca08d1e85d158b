import VideoComputer.Machine.Basic
import VideoComputer.Machine.Failure

/-!
# Effective addresses

Where the operand of an instruction lies, found from the bytes after the opcode and the index
registers. Zero page arithmetic never leaves page zero; indexing from a word may leave its page,
and that is noted because some instructions pay for it.
-/

namespace VideoComputer

structure Operand where
  address : Word
  /-- Indexing has moved the address to another page. -/
  pageCrossed : Bool := false
deriving DecidableEq

namespace Operand

def indexed (base : Word) (index : Byte) : Operand :=
  let address := base + index.toUInt16
  { address := address, pageCrossed := base.page != address.page }

def onPageZero (offset : Byte) : Operand := { address := .join offset 0 }

end Operand

namespace Machine

variable {B : Type} [Bus B]

/-- A word whose high byte is taken from the page of its low byte: the last address of a page is
followed by the first of the same page. -/
def readWordInPage (m : Machine B) (address : Word) : Word :=
  .join (m.read address) (m.read (.join (address.low + 1) address.high))

/-- Consumes the operand bytes of a mode and finds the address they name. An immediate operand
lies where its byte does; three modes have no address. -/
def operand (m : Machine B) (mode : AddressingMode) : Except Failure Operand × Machine B :=
  match mode with
  | .implicit | .accumulator | .relative => (.error (.noEffectiveAddress mode), m)
  | .immediate =>
    let address := m.processor.pc
    (.ok { address := address }, m.skip 1)
  | .zeroPage =>
    let (offset, m) := m.fetchByte
    (.ok (.onPageZero offset), m)
  | .zeroPageX =>
    let (offset, m) := m.fetchByte
    (.ok (.onPageZero (offset + m.processor.x)), m)
  | .zeroPageY =>
    let (offset, m) := m.fetchByte
    (.ok (.onPageZero (offset + m.processor.y)), m)
  | .absolute =>
    let (address, m) := m.fetchWord
    (.ok { address := address }, m)
  | .absoluteX =>
    let (base, m) := m.fetchWord
    (.ok (.indexed base m.processor.x), m)
  | .absoluteY =>
    let (base, m) := m.fetchWord
    (.ok (.indexed base m.processor.y), m)
  | .indirect =>
    let (pointer, m) := m.fetchWord
    (.ok { address := m.readWordInPage pointer }, m)
  | .indirectX =>
    let (offset, m) := m.fetchByte
    (.ok { address := m.readWordInPage (.join (offset + m.processor.x) 0) }, m)
  | .indirectY =>
    let (offset, m) := m.fetchByte
    (.ok (.indexed (m.readWordInPage (.join offset 0)) m.processor.y), m)

/-- Lets an action that needs an operand's address go on with it; the action tells its extra
cycles. -/
def withOperand (m : Machine B) (mode : AddressingMode)
    (action : Machine B → Operand → Nat × Machine B) : Except Failure Nat × Machine B :=
  match m.operand mode with
  | (.error failure, m) => (.error failure, m)
  | (.ok operand, m) =>
    let (extra, m) := action m operand
    (.ok extra, m)

end Machine

end VideoComputer
