import VideoComputer.Console.Basic
import VideoComputer.Proofs.Machine.Dispatch
import VideoComputer.Proofs.Machine.Footprint

/-!
# Effects of instructions

What each instruction may change and write, as the instruction set documents it by mnemonic. Main
statement: the step of a documented instruction changes nothing outside its footprint, the program
counter and the count of cycles aside, and makes exactly the writes of its footprint, in their
order.
-/

namespace VideoComputer

variable {B : Type} [Bus B]

/-- A byte changed in place: the accumulator, or one write to the address that was read. -/
def Footprint.inPlace (m : Machine B) (start : Word) (mode : AddressingMode) (flags : List Flag)
    (change : Modification) : Footprint :=
  if mode = .accumulator then { registers := [.a], flags := flags }
  else
    let address := m.effectiveAddress start mode
    { flags := flags
      writes := [(address, change.result (m.read address) m.processor.flags.carry)] }

/-- Everything that a status from the stack replaces. -/
def Flag.all : List Flag :=
  [.negative, .overflow, .breakMark, .decimal, .interrupt, .zero, .carry]

theorem Flag.mem_all (flag : Flag) : flag ∈ all := by
  cases flag <;> decide

/-- The documented footprint of an operation whose operand bytes begin at `start`. -/
def Operation.footprint (m : Machine B) (start : Word) (mode : AddressingMode) :
    Operation → Footprint
  | lda => { registers := [.a], flags := [.negative, .zero] }
  | ldx => { registers := [.x], flags := [.negative, .zero] }
  | ldy => { registers := [.y], flags := [.negative, .zero] }
  | sta => { writes := [(m.effectiveAddress start mode, m.processor.a)] }
  | stx => { writes := [(m.effectiveAddress start mode, m.processor.x)] }
  | sty => { writes := [(m.effectiveAddress start mode, m.processor.y)] }
  | adc | sbc => { registers := [.a], flags := [.negative, .overflow, .zero, .carry] }
  | and | ora | eor => { registers := [.a], flags := [.negative, .zero] }
  | cmp | cpx | cpy => { flags := [.negative, .zero, .carry] }
  | bit => { flags := [.negative, .overflow, .zero] }
  | asl => .inPlace m start mode [.negative, .zero, .carry] .shiftLeft
  | lsr => .inPlace m start mode [.negative, .zero, .carry] .shiftRight
  | rol => .inPlace m start mode [.negative, .zero, .carry] .rotateLeft
  | ror => .inPlace m start mode [.negative, .zero, .carry] .rotateRight
  | inc => .inPlace m start mode [.negative, .zero] .increment
  | dec => .inPlace m start mode [.negative, .zero] .decrement
  | inx | dex | tax | tsx => { registers := [.x], flags := [.negative, .zero] }
  | iny | dey | tay => { registers := [.y], flags := [.negative, .zero] }
  | txa | tya => { registers := [.a], flags := [.negative, .zero] }
  | txs => { registers := [.sp] }
  | clc | sec => { flags := [.carry] }
  | cld | sed => { flags := [.decimal] }
  | cli | sei => { flags := [.interrupt] }
  | clv => { flags := [.overflow] }
  | bcc | bcs | beq | bmi | bne | bpl | bvc | bvs | jmp | nop => {}
  | pha => { registers := [.sp], writes := [(stackCell m.processor.sp, m.processor.a)] }
  | php =>
    { registers := [.sp], writes := [(stackCell m.processor.sp, m.processor.status ||| 0x30)] }
  | jsr =>
    let last := start + UInt16.ofNat mode.operandBytes - 1
    { registers := [.sp], writes := wordWrites m.processor.sp last }
  | brk =>
    { registers := [.sp]
      flags := [.interrupt]
      writes := wordWrites m.processor.sp (start + 1) ++
        [(stackCell (m.processor.sp - 2), m.processor.status ||| 0x30)] }
  | pla => { registers := [.a, .sp], flags := [.negative, .zero] }
  | plp | rti => { registers := [.sp], flags := Flag.all }
  | rts => { registers := [.sp] }

/-- The footprint of an action, whatever operation it is the action of. -/
def Action.footprint (m : Machine B) (start : Word) (mode : AddressingMode) : Action → Footprint
  | load target => { registers := [target], flags := [.negative, .zero] }
  | store source => { writes := [(m.effectiveAddress start mode, m.processor.get source)] }
  | combine combination => { registers := [.a], flags := combination.changedFlags }
  | compare _ => { flags := [.negative, .zero, .carry] }
  | testBits => { flags := [.negative, .overflow, .zero] }
  | modifyOperand change => .inPlace m start mode change.changedFlags change
  | modifyRegister target change => { registers := [target], flags := change.changedFlags }
  | transfer _ .sp => { registers := [.sp] }
  | transfer _ target => { registers := [target], flags := [.negative, .zero] }
  | setFlag flag _ => { flags := [flag] }
  | branch .. | jump | idle => {}
  | call =>
    let last := start + UInt16.ofNat mode.operandBytes - 1
    { registers := [.sp], writes := wordWrites m.processor.sp last }
  | returnFromCall => { registers := [.sp] }
  | interrupt =>
    { registers := [.sp]
      flags := [.interrupt]
      writes := wordWrites m.processor.sp (start + 1) ++
        [(stackCell (m.processor.sp - 2), m.processor.status ||| 0x30)] }
  | pushAccumulator => { registers := [.sp], writes := [(stackCell m.processor.sp, m.processor.a)] }
  | pullAccumulator => { registers := [.a, .sp], flags := [.negative, .zero] }
  | pushStatus =>
    { registers := [.sp], writes := [(stackCell m.processor.sp, m.processor.status ||| 0x30)] }
  | pullStatus | returnFromInterrupt => { registers := [.sp], flags := Flag.all }

theorem Operation.footprint_eq (m : Machine B) (start : Word) (mode : AddressingMode)
    (operation : Operation) :
    operation.footprint m start mode = operation.action.footprint m start mode := by
  cases operation <;> rfl

namespace Machine

/-- An execution that succeeds and stays within a footprint. -/
def SucceedsWithin (m : Machine B) (footprint : Footprint)
    (result : Except Failure Nat × Machine B) : Prop :=
  ∃ extra m', result = (.ok extra, m') ∧ m.Within footprint m'

variable {m m' : Machine B} {mode : AddressingMode} {footprint : Footprint}

/-- What happens behind the operand counts from before it. -/
theorem Within.ofPastOperand (h : (m.pastOperand mode).Within footprint m') :
    m.Within footprint m' :=
  (skip _).trans h

theorem takeOperand_within (hmode : mode.NamesAddress) {take : Processor → Byte → Processor}
    {registers : List Register} {flags : List Flag}
    (htake : ∀ (p : Processor) value, p.ChangesOnly registers flags (take p value)) :
    m.SucceedsWithin { registers := registers, flags := flags } (m.takeOperand mode take) := by
  refine ⟨_, _, takeOperand_eq hmode take, ?_⟩
  apply Within.ofPastOperand
  apply Within.mapProcessor
  exact htake _ _

theorem store_within (hmode : mode.NamesAddress) (source : Register) :
    m.SucceedsWithin { writes := [(m.target mode, m.processor.get source)] }
      (m.store mode source) := by
  refine ⟨_, _, store_eq hmode source, ?_⟩
  apply Within.ofPastOperand
  exact .write _ _

theorem modifyRegister_within (target : Register) (change : Modification) :
    m.Within { registers := [target], flags := change.changedFlags }
      (m.modifyRegister target change) :=
  .mapProcessor (m.processor.changesOnly_modified target change _)

theorem modifyMemory_within (address : Word) (change : Modification) :
    m.Within { flags := change.changedFlags, writes := [(address,
        change.result (m.read address) m.processor.flags.carry)] }
      (m.modifyMemory address change) := by
  let written := m.write address (change.result (m.read address) m.processor.flags.carry)
  have hwrite : m.Within _ written := .write _ _
  have hflags : written.Within { flags := change.changedFlags } (m.modifyMemory address change) := by
    refine ⟨?_, rfl⟩
    apply Processor.changesOnly_withFlags
    intro flag hflag
    exact Flags.get_modified change _ hflag
  exact hwrite.trans hflags

theorem modifyOperand_within (hmode : mode ≠ .accumulator → mode.NamesAddress)
    (change : Modification) :
    m.SucceedsWithin (.inPlace m m.processor.pc mode change.changedFlags change)
      (m.modifyOperand mode change) := by
  unfold Footprint.inPlace
  split
  · rename_i haccumulator
    have hexecute : m.modifyOperand mode change = (.ok 0, m.modifyRegister .a change) :=
      if_pos haccumulator
    exact ⟨0, _, hexecute, modifyRegister_within .a change⟩
  · rename_i hother
    refine ⟨_, _, modifyOperand_eq (hmode hother) change, ?_⟩
    apply Within.ofPastOperand
    exact modifyMemory_within _ change

theorem transfer_within (source target : Register) :
    m.Within ((Action.transfer source target).footprint m m.processor.pc mode)
      (m.transfer source target) := by
  cases target with
  | sp => exact .mapProcessor (m.processor.changesOnly_set .sp _)
  | a => exact .mapProcessor (m.processor.changesOnly_load .a _)
  | x => exact .mapProcessor (m.processor.changesOnly_load .x _)
  | y => exact .mapProcessor (m.processor.changesOnly_load .y _)

theorem branch_within (taken : Bool) : m.Within {} (m.branch taken).2 := by
  cases taken with
  | false => exact .skip 1
  | true => exact (Within.skip 1).thenJump _

theorem call_within (hmode : mode.NamesAddress) :
    m.SucceedsWithin (Action.call.footprint m m.processor.pc mode) (m.call mode) := by
  refine ⟨_, _, call_eq hmode, ?_⟩
  apply Within.ofPastOperand
  apply Within.thenJump
  exact .pushWord _

theorem interrupt_within :
    m.Within (Action.interrupt.footprint m m.processor.pc mode) m.interrupt := by
  let saved := m.pushWord (m.processor.pc + 1)
  let pushed := saved.push m.processor.flags.pushed
  have hword : m.Within _ saved := .pushWord (m.processor.pc + 1)
  have hstatus : saved.Within _ pushed := .push m.processor.flags.pushed
  have hflag : pushed.Within { flags := [.interrupt] }
      (pushed.mapProcessor (·.setFlag .interrupt true)) :=
    ⟨Processor.changesOnly_setFlag _ .interrupt true, rfl⟩
  have hall : m.Within _ m.interrupt :=
    ((hword.trans hstatus).trans hflag).thenJump (Bus.readWord pushed.bus interruptVector)
  have hsp : saved.processor.sp = m.processor.sp - 2 := by
    change m.processor.sp - 1 - 1 = m.processor.sp - 2
    grind
  refine hall.mono (by simp [Action.footprint]) (by simp [Action.footprint]) ?_
  simp only [Footprint.writes_append, Action.footprint, List.append_nil, hsp, Flags.pushed_eq,
    Processor.status]

theorem pushStatus_within :
    m.Within (Action.pushStatus.footprint m m.processor.pc mode)
      (m.push m.processor.flags.pushed) := by
  have hpush := Within.push (m := m) m.processor.flags.pushed
  rw [Action.footprint, Processor.status, ← Flags.pushed_eq]
  exact hpush

theorem pullStatus_within :
    m.Within { registers := [.sp], flags := Flag.all } m.pullStatus := by
  have hflags : m.pull.2.Within { flags := Flag.all } m.pullStatus := by
    refine ⟨?_, rfl⟩
    apply Processor.changesOnly_withFlags
    intro flag hflag
    exact absurd flag.mem_all hflag
  exact Within.pull.trans hflags

theorem returnFromInterrupt_within :
    m.Within { registers := [.sp], flags := Flag.all } m.returnFromInterrupt := by
  have hpulled : m.Within _ m.pullStatus.pullWord.2 := pullStatus_within.trans .pullWord
  have hjump : m.Within _ m.returnFromInterrupt := hpulled.thenJump m.pullStatus.pullWord.1
  exact hjump.mono (by simp) (by simp) rfl

theorem pullAccumulator_within :
    m.Within { registers := [.a, .sp], flags := [.negative, .zero] } m.pullAccumulator := by
  have hload : m.pull.2.Within { registers := [.a], flags := [.negative, .zero] }
      m.pullAccumulator :=
    ⟨Processor.changesOnly_load _ .a _, rfl⟩
  exact (Within.pull.trans hload).mono (by simp) (by simp) rfl

/-- Every action that finds its operand succeeds within its footprint. -/
theorem execute_within (action : Action)
    (hmode : action.NeedsAddress mode → mode.NamesAddress) :
    m.SucceedsWithin (action.footprint m m.processor.pc mode) (m.execute mode action) := by
  cases action with
  | load target => exact takeOperand_within (hmode trivial) (·.changesOnly_load target)
  | store source => exact store_within (hmode trivial) source
  | combine combination =>
    exact takeOperand_within (hmode trivial) (·.changesOnly_combine combination)
  | compare register =>
    exact takeOperand_within (hmode trivial) fun p ↦ p.changesOnly_compare (p.get register)
  | testBits => exact takeOperand_within (hmode trivial) Processor.changesOnly_testBits
  | modifyOperand change => exact modifyOperand_within hmode change
  | modifyRegister target change => exact ⟨0, _, rfl, modifyRegister_within target change⟩
  | transfer source target => exact ⟨0, _, rfl, transfer_within source target⟩
  | setFlag flag value =>
    exact ⟨0, _, rfl, .mapProcessor (m.processor.changesOnly_setFlag flag value)⟩
  | branch flag value => exact ⟨_, _, rfl, branch_within _⟩
  | jump => exact ⟨_, _, jump_eq (hmode trivial), .ofPastOperand (.jump _)⟩
  | call => exact call_within (hmode trivial)
  | returnFromCall => exact ⟨0, _, rfl, Within.pullWord.thenJump _⟩
  | interrupt => exact ⟨0, _, rfl, interrupt_within⟩
  | returnFromInterrupt => exact ⟨0, _, rfl, returnFromInterrupt_within⟩
  | pushAccumulator => exact ⟨0, _, rfl, .push _⟩
  | pullAccumulator => exact ⟨0, _, rfl, pullAccumulator_within⟩
  | pushStatus => exact ⟨0, _, rfl, pushStatus_within⟩
  | pullStatus => exact ⟨0, _, rfl, pullStatus_within⟩
  | idle => exact ⟨0, _, rfl, ⟨⟨fun _ _ ↦ rfl, fun _ _ ↦ rfl, rfl⟩, rfl⟩⟩

/-- The count of cycles is nobody's footprint. -/
theorem Within.thenCount (h : m.Within footprint m') (cycles : Nat) :
    m.Within footprint (m'.mapProcessor fun p ↦ { p with cycles := cycles }) := by
  have hcount : m'.Within {} (m'.mapProcessor fun p ↦ { p with cycles := cycles }) :=
    .mapProcessor ⟨fun register _ ↦ by cases register <;> rfl, fun _ _ ↦ rfl, rfl⟩
  exact (h.trans hcount).mono (by simp) (by simp) (List.append_nil _)

/-- A footprint does not depend on where the processor stands. -/
theorem footprint_fetched (m : Machine B) (start : Word) (mode : AddressingMode)
    (operation : Operation) :
    operation.footprint m.fetched start mode = operation.footprint m start mode := by
  obtain ⟨journal, hfetched⟩ := m.fetched_eq
  rw [hfetched]
  cases operation <;> rfl

/-- A status from the stack replaces all the flags and loses its break mark. -/
theorem flags_execute_pulled (m : Machine B) (mode : AddressingMode) {action : Action}
    (haction : action = .pullStatus ∨ action = .returnFromInterrupt) :
    (m.execute mode action).2.processor.flags =
      { Flags.unpack (m.read (stackCell (m.processor.sp + 1))) with breakMark := false } := by
  have hcell := Processor.stackAddress_eq { m.processor with sp := m.processor.sp + 1 }
  have hpulled : m.pullStatus.processor.flags =
      .pulled (m.read (stackCell (m.processor.sp + 1))) := by
    rw [← hcell]
    rfl
  obtain rfl | rfl := haction
  · exact hpulled
  · exact hpulled

theorem step_within {m : Machine B} {i : Instruction} (hrunning : m.processor.halted = false)
    (hdecode : Instruction.ofOpcode? (m.read m.processor.pc) = some i) :
    ∃ cycles m', m.step = (.ok cycles, m') ∧
      m.trace.Within (i.operation.footprint m (m.processor.pc + 1) i.mode) m' := by
  obtain ⟨extra, m', hexecute, hwithin⟩ :=
    execute_within (m := m.fetched) i.operation.action (Instruction.namesAddress hdecode)
  rw [processor_fetched, ← Operation.footprint_eq, footprint_fetched] at hwithin
  exact ⟨_, _, step_of_execute hrunning hdecode hexecute,
    ((Within.skip 1).trans hwithin).thenCount _⟩

theorem flags_step_pulled {m : Machine B} {i : Instruction} (hrunning : m.processor.halted = false)
    (hdecode : Instruction.ofOpcode? (m.read m.processor.pc) = some i)
    (hoperation : i.operation = .plp ∨ i.operation = .rti) :
    m.step.2.processor.flags =
      { Flags.unpack (m.read (stackCell (m.processor.sp + 1))) with breakMark := false } := by
  have haction : i.operation.action = .pullStatus ∨
      i.operation.action = .returnFromInterrupt := by
    obtain hplp | hrti := hoperation
    · exact .inl (by rw [hplp]; rfl)
    · exact .inr (by rw [hrti]; rfl)
  obtain ⟨extra, m', hexecute, -⟩ :=
    execute_within (m := m.fetched) i.operation.action (Instruction.namesAddress hdecode)
  have hflags := flags_execute_pulled m.fetched i.mode haction
  rw [hexecute, read, bus_fetched, processor_fetched] at hflags
  rw [step_of_execute hrunning hdecode hexecute]
  exact hflags

/-- A documented instruction succeeds and does what its footprint says: outside of it no register
and no flag changes, nor does the halt latch, and beyond the trace and the writes of the footprint
nothing happens. -/
theorem step_effects {m : Machine B} {i : Instruction} (hrunning : m.processor.halted = false)
    (hdecode : Instruction.ofOpcode? (m.read m.processor.pc) = some i) :
    ∃ cycles m', m.step = (.ok cycles, m') ∧
      m.trace.Within (i.operation.footprint m (m.processor.pc + 1) i.mode) m' ∧
      (i.operation = .plp ∨ i.operation = .rti → m'.processor.flags =
        { Flags.unpack (m.read (stackCell (m.processor.sp + 1))) with breakMark := false }) := by
  obtain ⟨cycles, m', hstep, hwithin⟩ := step_within hrunning hdecode
  refine ⟨cycles, m', hstep, hwithin, fun hoperation ↦ ?_⟩
  have hflags := flags_step_pulled hrunning hdecode hoperation
  rw [hstep] at hflags
  exact hflags

/-- An interrupt instruction at address 0 leaves the address two bytes on and the status on the
stack. -/
theorem step_effects_brk :
    ∃ cycles m', (powerOn ({} : ConsoleBus)).step = (.ok cycles, m') ∧
      (powerOn ({} : ConsoleBus)).trace.Within
        { registers := [.sp], flags := [.interrupt],
          writes := [(0x01FF, 0x00), (0x01FE, 0x02), (0x01FD, 0x34)] } m' := by
  have hdecode : Instruction.ofOpcode? ((powerOn ({} : ConsoleBus)).read 0) =
      some ⟨.brk, .implicit, 7⟩ := rfl
  obtain ⟨cycles, m', hstep, hwithin, -⟩ :=
    step_effects (m := powerOn ({} : ConsoleBus)) rfl hdecode
  exact ⟨cycles, m', hstep, hwithin⟩

end Machine

end VideoComputer
