import VideoComputer.Text.Quoted

/-!
# Trace records

What is noted about an instruction just before it runs: where it stands, its bytes, and the
registers and cycle count it starts from. The line of a record has fixed columns up to the cycle
count.
-/

namespace VideoComputer

structure TraceRecord where
  pc : Word
  opcode : Byte
  mnemonic : String
  operands : List Byte
  a : Byte
  x : Byte
  y : Byte
  sp : Byte
  status : Byte
  cycles : Nat
deriving DecidableEq

namespace TraceRecord

open Text

/-- Opcode and operand bytes, separated by blanks. -/
def code (record : TraceRecord) : List Char :=
  hexByte record.opcode ++ record.operands.flatMap fun operand ↦ ' ' :: hexByte operand

def line (record : TraceRecord) : List Char :=
  hexWord record.pc ++ "  ".toList ++ padRight 8 record.code ++ "  ".toList ++
    padRight 4 record.mnemonic.toList ++ "  A:".toList ++ hexByte record.a ++
    " X:".toList ++ hexByte record.x ++ " Y:".toList ++ hexByte record.y ++
    " P:".toList ++ hexByte record.status ++ " SP:".toList ++ hexByte record.sp ++
    " CYC:".toList ++ decimal record.cycles

def text (record : TraceRecord) : String := String.ofList record.line

def describe (record : TraceRecord) : String :=
  describeFields "TraceRecord"
    [("pc", toString record.pc.toNat), ("opcode", toString record.opcode.toNat),
      ("mnemonic", quote record.mnemonic),
      ("operands", describeList (record.operands.map fun operand ↦ toString operand.toNat)),
      ("a", toString record.a.toNat), ("x", toString record.x.toNat),
      ("y", toString record.y.toNat), ("sp", toString record.sp.toNat),
      ("p", toString record.status.toNat), ("cycles", toString record.cycles)]

end TraceRecord

/-- What becomes of a trace record: it is kept as it is, or written to the log. -/
inductive Tracer where
  | recording
  | logging
deriving DecidableEq

end VideoComputer
