import VideoComputer.Trace.Record

/-!
# Events

What the outside can notice while the machine works: writes that reach plain memory, writes that
reach a watched chip, trace records and log messages. Each log message has a level and a fixed
wording.
-/

namespace VideoComputer

inductive LogLevel where
  | trace
  | debug
  | info
  | warn
deriving DecidableEq

inductive LogEntry where
  | processorReset (pc : Word)
  | undocumentedOpcode (opcode : Byte) (address : Word)
  /-- An image of `size` bytes was inserted and `kept` of them fit. -/
  | cartridgeInserted (size kept : Nat)
  | cartridgeWrite (offset : Nat) (value : Byte)
  | openBusWrite (address : Word) (value : Byte)
  | instruction (record : TraceRecord)
deriving DecidableEq

namespace LogEntry

open Text

def level : LogEntry → LogLevel
  | processorReset .. => .debug
  | undocumentedOpcode .. => .warn
  | cartridgeInserted .. => .info
  | cartridgeWrite .. | openBusWrite .. | instruction .. => .trace

def characters : LogEntry → List Char
  | processorReset pc => "CPU reset, PC loaded from vector: 0x".toList ++ hexWord pc
  | undocumentedOpcode opcode address =>
    "Halting on unimplemented opcode 0x".toList ++ hexByte opcode ++
      " at 0x".toList ++ hexWord address
  | cartridgeInserted size kept =>
    if kept < size then
      "Loaded ROM: ".toList ++ decimal size ++ " bytes, truncated to ".toList ++ decimal kept
    else "Loaded ROM: ".toList ++ decimal kept ++ " bytes".toList
  | cartridgeWrite offset value =>
    "Dropped write of 0x".toList ++ hexByte value ++ " to ROM offset 0x".toList ++
      hexAtLeast 3 offset
  | openBusWrite address value =>
    "Open-bus write of 0x".toList ++ hexByte value ++ " to 0x".toList ++ hexWord address
  | instruction record => record.line

def text (entry : LogEntry) : String := String.ofList entry.characters

end LogEntry

inductive Event where
  | memoryWrite (address : Word) (value : Byte)
  /-- A chip with the named observer took a write. -/
  | chipWrite (observer : String) (offset : Nat) (value : Byte)
  | traced (record : TraceRecord)
  | logged (entry : LogEntry)
deriving DecidableEq

def Tracer.event : Tracer → TraceRecord → Event
  | recording, record => .traced record
  | logging, record => .logged (.instruction record)

end VideoComputer
