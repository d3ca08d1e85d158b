import VideoComputer.Proofs.Machine.Instructions
import VideoComputer.Proofs.Machine.Stack

/-!
# The instructions on the stack one by one

What the steps of the eight instructions come to that push and pull: the writes that they make, and
the whole processor that they leave.
-/

namespace VideoComputer.Machine

variable {B : Type} [Bus B] {m m' : Machine B} {i : Instruction} {cycles : Nat}

/-- A step that succeeds, makes these writes and leaves this processor up to the count of cycles. -/
def StepsTo (m : Machine B) (writes : List (Word × Byte)) (p : Processor) : Prop :=
  ∃ cycles m', m.step = (.ok cycles, m') ∧ m'.bus = (m.writeEach writes).bus ∧
    m'.processor = { p with cycles := m.processor.cycles + cycles }

@[simp] theorem read_fetched (m : Machine B) (address : Word) :
    m.fetched.read address = m.read address :=
  congrArg (Bus.read · address) m.bus_fetched

theorem target_fetched (m : Machine B) (mode : AddressingMode) :
    m.fetched.target mode = m.effectiveAddress (m.processor.pc + 1) mode := by
  obtain ⟨journal, hfetched⟩ := m.fetched_eq
  rw [hfetched]
  cases mode <;> rfl

theorem pull_eq (m : Machine B) :
    m.pull = (m.read (stackCell (m.processor.sp + 1)),
      m.mapProcessor fun p ↦ { p with sp := p.sp + 1 }) :=
  Prod.ext m.pull_fst rfl

theorem pullWord_eq (m : Machine B) :
    m.pullWord = (.join (m.read (stackCell (m.processor.sp + 1)))
      (m.read (stackCell (m.processor.sp + 2))),
      m.mapProcessor fun p ↦ { p with sp := p.sp + 2 }) := by
  have hsp : m.processor.sp + 2 = m.processor.sp + 1 + 1 := by grind
  simp only [pullWord, pull_eq, mapProcessor, hsp]
  rfl

theorem processor_pushWord (m : Machine B) (value : Word) :
    (m.pushWord value).processor = { m.processor with sp := m.processor.sp - 2 } := by
  have hsp : m.processor.sp - 2 = m.processor.sp - 1 - 1 := by grind
  rw [hsp]
  rfl

theorem processor_pullAccumulator (m : Machine B) :
    m.pullAccumulator.processor =
      { m.processor.load .a (m.read (stackCell (m.processor.sp + 1))) with
        sp := m.processor.sp + 1 } := by
  rw [pullAccumulator, pull_eq]
  rfl

theorem processor_pullStatus (m : Machine B) :
    m.pullStatus.processor = { m.processor with
      flags := .pulled (m.read (stackCell (m.processor.sp + 1)))
      sp := m.processor.sp + 1 } := by
  rw [pullStatus, pull_eq]
  rfl

theorem processor_returnFromCall (m : Machine B) :
    m.returnFromCall.processor = { m.processor with
      pc := .join (m.read (stackCell (m.processor.sp + 1)))
        (m.read (stackCell (m.processor.sp + 2))) + 1
      sp := m.processor.sp + 2 } := by
  rw [returnFromCall, pullWord_eq]
  rfl

theorem processor_returnFromInterrupt (m : Machine B) :
    m.returnFromInterrupt.processor = { m.processor with
      flags := .pulled (m.read (stackCell (m.processor.sp + 1)))
      pc := .join (m.read (stackCell (m.processor.sp + 2)))
        (m.read (stackCell (m.processor.sp + 3)))
      sp := m.processor.sp + 3 } := by
  have hread (address : Word) : m.pullStatus.read address = m.read address := rfl
  have hfirst : m.processor.sp + 2 = m.processor.sp + 1 + 1 := by grind
  have hsecond : m.processor.sp + 3 = m.processor.sp + 1 + 2 := by grind
  rw [returnFromInterrupt, pullWord_eq, hfirst, hsecond]
  simp only [processor_mapProcessor, processor_pullStatus, hread]
  rfl

theorem processor_interrupt (m : Machine B) :
    m.interrupt.processor = { m.processor with
      flags := m.processor.flags.set .interrupt true
      pc := Bus.readWord m.interrupt.bus interruptVector
      sp := m.processor.sp - 3 } := by
  have hsp : m.processor.sp - 3 = m.processor.sp - 1 - 1 - 1 := by grind
  rw [hsp]
  rfl

section Steps

variable (hrunning : m.processor.halted = false)
  (hdecode : Instruction.ofOpcode? (m.read m.processor.pc) = some i)
include hrunning hdecode

theorem bus_of_execute {action : Action} {extra : Nat} (haction : i.operation.action = action)
    (hexecute : m.fetched.execute i.mode action = (.ok extra, m')) :
    m'.bus = (m.writeEach (action.footprint m (m.processor.pc + 1) i.mode).writes).bus := by
  subst haction
  have hbus := m.bus_step
  rw [step_of_execute hrunning hdecode hexecute, stepWrites, hrunning, hdecode] at hbus
  rw [← Operation.footprint_eq]
  exact hbus

theorem stepsTo_of_execute {action : Action} {extra : Nat} (haction : i.operation.action = action)
    (hexecute : m.fetched.execute i.mode action = (.ok extra, m')) :
    m.StepsTo (action.footprint m (m.processor.pc + 1) i.mode).writes m'.processor := by
  have hbus := bus_of_execute hrunning hdecode haction hexecute
  subst haction
  exact ⟨_, _, step_of_execute hrunning hdecode hexecute, hbus, rfl⟩

theorem stepsTo_pushAccumulator (haction : i.operation.action = .pushAccumulator) :
    m.StepsTo [(stackCell m.processor.sp, m.processor.a)]
      { m.processor with pc := m.processor.pc + 1, sp := m.processor.sp - 1 } := by
  have hsteps := stepsTo_of_execute hrunning hdecode haction rfl
  rwa [push, processor_mapProcessor, processor_write, processor_fetched] at hsteps

theorem stepsTo_pullAccumulator (haction : i.operation.action = .pullAccumulator) :
    m.StepsTo [] { m.processor.load .a (m.read (stackCell (m.processor.sp + 1))) with
      pc := m.processor.pc + 1, sp := m.processor.sp + 1 } := by
  have hsteps := stepsTo_of_execute hrunning hdecode haction rfl
  rwa [processor_pullAccumulator, read_fetched, processor_fetched] at hsteps

theorem stepsTo_pushStatus (haction : i.operation.action = .pushStatus) :
    m.StepsTo [(stackCell m.processor.sp, m.processor.status ||| 0x30)]
      { m.processor with pc := m.processor.pc + 1, sp := m.processor.sp - 1 } := by
  have hsteps := stepsTo_of_execute hrunning hdecode haction rfl
  rwa [push, processor_mapProcessor, processor_write, processor_fetched] at hsteps

theorem stepsTo_pullStatus (haction : i.operation.action = .pullStatus) :
    m.StepsTo [] { m.processor with
      flags := .pulled (m.read (stackCell (m.processor.sp + 1)))
      pc := m.processor.pc + 1, sp := m.processor.sp + 1 } := by
  have hsteps := stepsTo_of_execute hrunning hdecode haction rfl
  rwa [processor_pullStatus, read_fetched, processor_fetched] at hsteps

theorem stepsTo_call (haction : i.operation.action = .call) (hmode : i.mode = .absolute) :
    m.StepsTo (wordWrites m.processor.sp (m.processor.pc + 2))
      { m.processor with
        pc := m.wordAt (m.processor.pc + 1), sp := m.processor.sp - 2 } := by
  have hsteps := stepsTo_of_execute hrunning hdecode haction (call_eq (hmode ▸ trivial))
  have hlast : m.processor.pc + 1 + UInt16.ofNat AddressingMode.absolute.operandBytes - 1 =
      m.processor.pc + 2 := by
    have hbytes : UInt16.ofNat AddressingMode.absolute.operandBytes = 2 := rfl
    rw [hbytes]
    grind
  rw [target_fetched, hmode, Action.footprint, hlast, processor_mapProcessor, processor_pushWord,
    pastOperand, skip, processor_mapProcessor, processor_fetched] at hsteps
  exact hsteps

theorem stepsTo_returnFromCall (haction : i.operation.action = .returnFromCall) :
    m.StepsTo [] { m.processor with
      pc := .join (m.read (stackCell (m.processor.sp + 1)))
        (m.read (stackCell (m.processor.sp + 2))) + 1
      sp := m.processor.sp + 2 } := by
  have hsteps := stepsTo_of_execute hrunning hdecode haction rfl
  rwa [processor_returnFromCall, read_fetched, read_fetched, processor_fetched] at hsteps

/-- The interrupt vector is read once everything is saved. -/
theorem stepsTo_interrupt (haction : i.operation.action = .interrupt) :
    let writes := wordWrites m.processor.sp (m.processor.pc + 2) ++
      [(stackCell (m.processor.sp - 2), m.processor.status ||| 0x30)]
    m.StepsTo writes { m.processor with
      flags := m.processor.flags.set .interrupt true
      pc := Bus.readWord (m.writeEach writes).bus interruptVector
      sp := m.processor.sp - 3 } := by
  have hbus := bus_of_execute hrunning hdecode haction rfl
  have hsteps := stepsTo_of_execute hrunning hdecode haction rfl
  rw [processor_interrupt, hbus, processor_fetched, Action.footprint, ← Word.add_two] at hsteps
  exact hsteps

theorem stepsTo_returnFromInterrupt (haction : i.operation.action = .returnFromInterrupt) :
    m.StepsTo [] { m.processor with
      flags := .pulled (m.read (stackCell (m.processor.sp + 1)))
      pc := .join (m.read (stackCell (m.processor.sp + 2)))
        (m.read (stackCell (m.processor.sp + 3)))
      sp := m.processor.sp + 3 } := by
  have hsteps := stepsTo_of_execute hrunning hdecode haction rfl
  rwa [processor_returnFromInterrupt, read_fetched, read_fetched, read_fetched,
    processor_fetched] at hsteps

end Steps

end VideoComputer.Machine
