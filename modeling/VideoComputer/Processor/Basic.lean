import VideoComputer.Processor.Flags

/-!
# Processor state

An accumulator, two index registers, a stack pointer into page one, a program counter, the flags,
a count of elapsed cycles and a halt latch that only a reset clears.
-/

namespace VideoComputer

inductive Register where
  | a
  | x
  | y
  | sp
deriving DecidableEq

@[ext]
structure Processor where
  a : Byte
  x : Byte
  y : Byte
  sp : Byte
  pc : Word
  flags : Flags
  cycles : Nat
  halted : Bool
deriving DecidableEq

namespace Processor

/-- Cleared registers, interrupts disabled, an empty stack: the state after power-on, and after a
reset up to the program counter. -/
def initial (pc : Word) : Processor where
  a := 0
  x := 0
  y := 0
  sp := 0xFF
  pc := pc
  flags := { interrupt := true }
  cycles := 0
  halted := false

def get (p : Processor) : Register → Byte
  | .a => p.a
  | .x => p.x
  | .y => p.y
  | .sp => p.sp

def set (p : Processor) (register : Register) (value : Byte) : Processor :=
  match register with
  | .a => { p with a := value }
  | .x => { p with x := value }
  | .y => { p with y := value }
  | .sp => { p with sp := value }

def setFlag (p : Processor) (flag : Flag) (value : Bool) : Processor :=
  { p with flags := p.flags.set flag value }

/-- Sets a register, and zero and negative from its new value. -/
def load (p : Processor) (register : Register) (value : Byte) : Processor :=
  { p.set register value with flags := p.flags.describing value }

def status (p : Processor) : Byte := p.flags.pack

/-- Address of the stack cell that the stack pointer selects. -/
def stackAddress (p : Processor) : Word := .join p.sp 1

def jump (p : Processor) (target : Word) : Processor := { p with pc := target }

theorem get_set (p : Processor) (register other : Register) (value : Byte) :
    (p.set register value).get other = if other = register then value else p.get other := by
  cases register <;> cases other <;> rfl

@[simp] theorem flags_set (p : Processor) (register : Register) (value : Byte) :
    (p.set register value).flags = p.flags := by
  cases register <;> rfl

@[simp] theorem pc_set (p : Processor) (register : Register) (value : Byte) :
    (p.set register value).pc = p.pc := by
  cases register <;> rfl

end Processor

end VideoComputer
