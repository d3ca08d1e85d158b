import VideoComputer.Instruction.AddressingMode
import VideoComputer.Text.Quoted

/-!
# Failures of execution

Why an instruction, or a line of instructions, did not complete, and how each cause is worded.
-/

namespace VideoComputer

inductive Failure where
  /-- The byte fetched as an opcode is not documented; the processor has halted. -/
  | unimplementedOpcode (opcode : Byte) (address : Word)
  | halted
  /-- An instruction asked for an address in a mode that has none. -/
  | noEffectiveAddress (mode : AddressingMode)
  /-- The cycles of one scanline do not fit 32 bits. -/
  | cycleSumOverflow
deriving DecidableEq

namespace Failure

open Text

def message : Failure → String
  | unimplementedOpcode opcode address =>
    String.ofList ("opcode 0x".toList ++ hexByte opcode ++ " at 0x".toList ++ hexWord address ++
      " is not implemented".toList)
  | halted => "CPU is halted; reset required"
  | noEffectiveAddress mode => mode.name ++ " has no effective address"
  | cycleSumOverflow => "attempt to add with overflow"

def describe : Failure → String
  | unimplementedOpcode opcode address =>
    describeFields "UnimplementedOpcode"
      [("opcode", toString opcode.toNat), ("address", toString address.toNat)]
  | halted => "Halted"
  | noEffectiveAddress mode => describeFields "NoEffectiveAddress" [("mode", mode.name)]
  | cycleSumOverflow => "CycleSumOverflow"

end Failure

end VideoComputer
