import VideoComputer.Machine.Operand

/-!
# Execution of one instruction

What each action does to the machine once its opcode has been fetched, and the cycles it takes
beyond those of the table: one for a read through a crossed page, one for a taken branch and one
more if the branch leaves its page.
-/

namespace VideoComputer.Machine

variable {B : Type} [Bus B]

/-- Lets the processor take the operand's value. -/
def takeOperand (m : Machine B) (mode : AddressingMode) (take : Processor → Byte → Processor) :
    Except Failure Nat × Machine B :=
  m.withOperand mode fun m operand ↦
    let value := m.read operand.address
    (operand.pageCrossed.toNat, m.mapProcessor (take · value))

def store (m : Machine B) (mode : AddressingMode) (source : Register) :
    Except Failure Nat × Machine B :=
  m.withOperand mode fun m operand ↦
    let value := m.processor.get source
    (0, m.write operand.address value)

def modifyRegister (m : Machine B) (target : Register) (change : Modification) : Machine B :=
  m.mapProcessor fun p ↦
    let value := p.get target
    { p.set target (change.result value p.flags.carry) with flags := change.flags value p.flags }

def modifyMemory (m : Machine B) (address : Word) (change : Modification) : Machine B :=
  let value := m.read address
  let result := change.result value m.processor.flags.carry
  (m.write address result).mapProcessor fun p ↦ { p with flags := change.flags value p.flags }

def modifyOperand (m : Machine B) (mode : AddressingMode) (change : Modification) :
    Except Failure Nat × Machine B :=
  if mode = .accumulator then (.ok 0, m.modifyRegister .a change)
  else m.withOperand mode fun m operand ↦ (0, m.modifyMemory operand.address change)

/-- Zero and negative describe what was copied, except that the stack pointer takes a value
silently. -/
def transfer (m : Machine B) (source target : Register) : Machine B :=
  m.mapProcessor fun p ↦
    match target with
    | .sp => p.set .sp (p.get source)
    | target => p.load target (p.get source)

/-- The offset counts from the instruction after the branch. -/
def branch (m : Machine B) (taken : Bool) : Nat × Machine B :=
  let (offset, m) := m.fetchByte
  if taken then
    let next := m.processor.pc
    let target := next.displace offset
    (if next.page = target.page then 1 else 2, m.mapProcessor (·.jump target))
  else (0, m)

def jump (m : Machine B) (mode : AddressingMode) : Except Failure Nat × Machine B :=
  m.withOperand mode fun m operand ↦ (0, m.mapProcessor (·.jump operand.address))

def call (m : Machine B) (mode : AddressingMode) : Except Failure Nat × Machine B :=
  m.withOperand mode fun m operand ↦
    let last := m.processor.pc - 1
    (0, (m.pushWord last).mapProcessor (·.jump operand.address))

def returnFromCall (m : Machine B) : Machine B :=
  let (address, m) := m.pullWord
  m.mapProcessor (·.jump (address + 1))

/-- The byte after the opcode is skipped, so that the saved address lies behind it. The vector is
read once everything is saved. -/
def interrupt (m : Machine B) : Machine B :=
  let m := m.pushWord (m.processor.pc + 1)
  let m := m.push m.processor.flags.pushed
  let target := Bus.readWord m.bus interruptVector
  m.mapProcessor fun p ↦ (p.setFlag .interrupt true).jump target

def pullStatus (m : Machine B) : Machine B :=
  let (status, m) := m.pull
  m.mapProcessor fun p ↦ { p with flags := .pulled status }

def returnFromInterrupt (m : Machine B) : Machine B :=
  let (address, m) := m.pullStatus.pullWord
  m.mapProcessor (·.jump address)

def pullAccumulator (m : Machine B) : Machine B :=
  let (value, m) := m.pull
  m.mapProcessor (·.load .a value)

/-- Performs an action on the operand that the mode names and tells the extra cycles. -/
def execute (m : Machine B) (mode : AddressingMode) : Action → Except Failure Nat × Machine B
  | .load target => m.takeOperand mode (·.load target ·)
  | .store source => m.store mode source
  | .combine combination => m.takeOperand mode (·.combine combination ·)
  | .compare register => m.takeOperand mode fun p value ↦ p.compare (p.get register) value
  | .testBits => m.takeOperand mode (·.testBits ·)
  | .modifyOperand change => m.modifyOperand mode change
  | .modifyRegister target change => (.ok 0, m.modifyRegister target change)
  | .transfer source target => (.ok 0, m.transfer source target)
  | .setFlag flag value => (.ok 0, m.mapProcessor (·.setFlag flag value))
  | .branch flag value =>
    let (extra, m) := m.branch (m.processor.flags.get flag == value)
    (.ok extra, m)
  | .jump => m.jump mode
  | .call => m.call mode
  | .returnFromCall => (.ok 0, m.returnFromCall)
  | .interrupt => (.ok 0, m.interrupt)
  | .returnFromInterrupt => (.ok 0, m.returnFromInterrupt)
  | .pushAccumulator => (.ok 0, m.push m.processor.a)
  | .pullAccumulator => (.ok 0, m.pullAccumulator)
  | .pushStatus => (.ok 0, m.push m.processor.flags.pushed)
  | .pullStatus => (.ok 0, m.pullStatus)
  | .idle => (.ok 0, m)

end VideoComputer.Machine
