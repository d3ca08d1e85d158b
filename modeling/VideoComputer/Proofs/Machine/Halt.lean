import Mathlib.Data.List.Nodup
import VideoComputer.Proofs.Machine.Calls

/-!
# The halt of a machine

A running machine fails at the opcodes that the instruction set does not document and nowhere else.
The failure names the opcode and its address, the processor stands behind the opcode and is halted,
and nothing else is different. From then on everything that would let the machine work is refused
and leaves it as it is.
-/

namespace VideoComputer

namespace Instruction

/-- The opcodes that the instruction set does not document, by their high digit. No opcode that ends
in 3, 7, B or F is documented, and only one that ends in 2. -/
def undocumented : List Byte :=
  [0x02, 0x03, 0x04, 0x07, 0x0B, 0x0C, 0x0F,
    0x12, 0x13, 0x14, 0x17, 0x1A, 0x1B, 0x1C, 0x1F,
    0x22, 0x23, 0x27, 0x2B, 0x2F,
    0x32, 0x33, 0x34, 0x37, 0x3A, 0x3B, 0x3C, 0x3F,
    0x42, 0x43, 0x44, 0x47, 0x4B, 0x4F,
    0x52, 0x53, 0x54, 0x57, 0x5A, 0x5B, 0x5C, 0x5F,
    0x62, 0x63, 0x64, 0x67, 0x6B, 0x6F,
    0x72, 0x73, 0x74, 0x77, 0x7A, 0x7B, 0x7C, 0x7F,
    0x80, 0x82, 0x83, 0x87, 0x89, 0x8B, 0x8F,
    0x92, 0x93, 0x97, 0x9B, 0x9C, 0x9E, 0x9F,
    0xA3, 0xA7, 0xAB, 0xAF,
    0xB2, 0xB3, 0xB7, 0xBB, 0xBF,
    0xC2, 0xC3, 0xC7, 0xCB, 0xCF,
    0xD2, 0xD3, 0xD4, 0xD7, 0xDA, 0xDB, 0xDC, 0xDF,
    0xE2, 0xE3, 0xE7, 0xEB, 0xEF,
    0xF2, 0xF3, 0xF4, 0xF7, 0xFA, 0xFB, 0xFC, 0xFF]

end Instruction

namespace Machine

variable {B : Type} [Bus B]

/-- A step from `m` fails and leaves `m'`: the opcode is undocumented, the failure tells it and where
it was fetched, and the halt latch and the program counter are all that has changed. -/
structure HaltsAt (m : Machine B) (failure : Failure) (m' : Machine B) : Prop where
  opcode : m.read m.processor.pc ∈ Instruction.undocumented
  failure : failure = .unimplementedOpcode (m.read m.processor.pc) m.processor.pc
  processor : m'.processor = { m.processor with pc := m.processor.pc + 1, halted := true }
  bus : m'.bus = m.bus

variable {m m' : Machine B} {failure : Failure} {count : Nat}

theorem HaltsAt.halted (h : m.HaltsAt failure m') : m'.processor.halted = true := by
  rw [h.processor]

theorem running_after (hrunning : m.processor.halted = false) (h : m.Completes count) :
    (m.after count).processor.halted = false := by
  cases count with
  | zero => exact hrunning
  | succ count =>
    obtain ⟨cycles, hstep⟩ := h count (Nat.lt_succ_self count)
    rw [after_succ]
    exact running_of_step (Prod.ext hstep rfl)

end Machine

end VideoComputer
