import VideoComputer.Instruction.Table
import VideoComputer.Memory.Bus

/-!
# Machines

A processor wired to a bus, with an optional tracer and the journal of what the outside has
noticed so far. Every access of an instruction goes through `read`, `write`, `fetchByte`, `push`
and `pull`.
-/

namespace VideoComputer

structure Machine (B : Type) where
  processor : Processor
  bus : B
  tracer : Option Tracer := none
  journal : Array Event := #[]

namespace Machine

variable {B : Type}

/-- A machine that has just been switched on: nothing has been read from the bus yet. -/
def powerOn (bus : B) : Machine B := { processor := .initial 0, bus := bus }

def note (m : Machine B) (event : Event) : Machine B := { m with journal := m.journal.push event }

def mapProcessor (m : Machine B) (f : Processor → Processor) : Machine B :=
  { m with processor := f m.processor }

/-- Installs a tracer in place of any other. -/
def attach (m : Machine B) (tracer : Tracer) : Machine B := { m with tracer := some tracer }

/-- Takes the tracer off the machine. -/
def detach (m : Machine B) : Option Tracer × Machine B := (m.tracer, { m with tracer := none })

/-- Moves the program counter on; the last address is followed by the first. -/
def skip (m : Machine B) (count : Word) : Machine B :=
  m.mapProcessor fun p ↦ { p with pc := p.pc + count }

@[simp] theorem processor_mapProcessor (m : Machine B) (f : Processor → Processor) :
    (m.mapProcessor f).processor = f m.processor := rfl

@[simp] theorem bus_mapProcessor (m : Machine B) (f : Processor → Processor) :
    (m.mapProcessor f).bus = m.bus := rfl

@[simp] theorem tracer_mapProcessor (m : Machine B) (f : Processor → Processor) :
    (m.mapProcessor f).tracer = m.tracer := rfl

@[simp] theorem journal_mapProcessor (m : Machine B) (f : Processor → Processor) :
    (m.mapProcessor f).journal = m.journal := rfl

variable [Bus B]

def read (m : Machine B) (address : Word) : Byte := Bus.read m.bus address

def write (m : Machine B) (address : Word) (value : Byte) : Machine B :=
  let reports := Bus.report m.bus address value
  { m with bus := Bus.write m.bus address value, journal := m.journal ++ reports }

/-- Stores bytes at consecutive addresses, one write each. -/
def writeMany (m : Machine B) (address : Word) : List Byte → Machine B
  | [] => m
  | value :: values => (m.write address value).writeMany (address + 1) values

def fetchByte (m : Machine B) : Byte × Machine B := (m.read m.processor.pc, m.skip 1)

def fetchWord (m : Machine B) : Word × Machine B :=
  let (low, m) := m.fetchByte
  let (high, m) := m.fetchByte
  (.join low high, m)

/-- Stores at the stack pointer, which then moves down within its page. -/
def push (m : Machine B) (value : Byte) : Machine B :=
  (m.write m.processor.stackAddress value).mapProcessor fun p ↦ { p with sp := p.sp - 1 }

/-- Moves the stack pointer up within its page and reads there. -/
def pull (m : Machine B) : Byte × Machine B :=
  let m := m.mapProcessor fun p ↦ { p with sp := p.sp + 1 }
  (m.read m.processor.stackAddress, m)

def pushWord (m : Machine B) (value : Word) : Machine B := (m.push value.high).push value.low

def pullWord (m : Machine B) : Word × Machine B :=
  let (low, m) := m.pull
  let (high, m) := m.pull
  (.join low high, m)

/-- Address of the word that a reset starts from. -/
def resetVector : Word := 0xFFFC

/-- Address of the word that an interrupt goes to. -/
def interruptVector : Word := 0xFFFE

/-- Starts the processor afresh where the reset vector points; bus and tracer are kept. -/
def reset (m : Machine B) : Machine B :=
  let pc := Bus.readWord m.bus resetVector
  { m with processor := .initial pc }.note (.logged (.processorReset pc))

/-- The record of the instruction that the machine is about to run. -/
def traceRecord (m : Machine B) : TraceRecord :=
  let p := m.processor
  let opcode := m.read p.pc
  { pc := p.pc
    opcode := opcode
    mnemonic := Instruction.mnemonicOf opcode
    operands := Bus.readMany m.bus (p.pc + 1) (Instruction.operandBytesOf opcode)
    a := p.a
    x := p.x
    y := p.y
    sp := p.sp
    status := p.status
    cycles := p.cycles }

/-- Hands the coming instruction to the tracer, if there is one. -/
def trace (m : Machine B) : Machine B :=
  match m.tracer with
  | none => m
  | some tracer => m.note (tracer.event m.traceRecord)

/-! ## What each operation leaves alone -/

@[simp] theorem read_mapProcessor (m : Machine B) (f : Processor → Processor) (address : Word) :
    (m.mapProcessor f).read address = m.read address := rfl

@[simp] theorem processor_write (m : Machine B) (address : Word) (value : Byte) :
    (m.write address value).processor = m.processor := rfl

@[simp] theorem bus_write (m : Machine B) (address : Word) (value : Byte) :
    (m.write address value).bus = Bus.write m.bus address value := rfl

@[simp] theorem tracer_write (m : Machine B) (address : Word) (value : Byte) :
    (m.write address value).tracer = m.tracer := rfl

theorem toList_journal_write (m : Machine B) (address : Word) (value : Byte) :
    (m.write address value).journal.toList =
      m.journal.toList ++ Bus.report m.bus address value := by
  simp [write]

@[simp] theorem processor_trace (m : Machine B) : m.trace.processor = m.processor := by
  unfold trace
  split <;> rfl

@[simp] theorem bus_trace (m : Machine B) : m.trace.bus = m.bus := by
  unfold trace
  split <;> rfl

@[simp] theorem tracer_trace (m : Machine B) : m.trace.tracer = m.tracer := by
  unfold trace
  split <;> simp [note]

@[simp] theorem read_trace (m : Machine B) (address : Word) :
    m.trace.read address = m.read address := by
  simp [read]

theorem toList_journal_trace (m : Machine B) :
    m.trace.journal.toList =
      m.journal.toList ++ m.tracer.toList.map fun tracer ↦ tracer.event m.traceRecord := by
  unfold trace
  split <;> simp_all [note]

end Machine

end VideoComputer
