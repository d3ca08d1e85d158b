import VideoComputer.Proofs.Machine.Duration
import VideoComputer.Proofs.Machine.OperandNumbers
import VideoComputer.Proofs.Machine.StackInstructions

/-!
# Where instructions go on

The length of an instruction is told twice: by the table, which the tracer goes by, and by what its
execution fetches. The two agree, so that most instructions go on right behind the bytes that the
trace shows, and branches, jumps and calls go where these bytes say. Main statement: every
documented instruction goes on by its route, whatever it writes.
-/

namespace VideoComputer

/-- The ways in which an instruction finds the next one. -/
inductive Route where
  /-- Right behind it. -/
  | onward
  /-- By a signed offset from there, if the flag has the value. -/
  | branch (flag : Flag) (value : Bool)
  /-- At the address that its operand bytes are. -/
  | jump
  /-- At the address that lies where its operand bytes point. -/
  | pointer
  /-- As a jump, once the way back is saved. -/
  | call
  /-- Where the interrupt vector points, once the way back and the status are saved. -/
  | interrupt
  /-- Behind the address on the stack. -/
  | back
  /-- At the address on the stack that lies under the status. -/
  | resume
deriving DecidableEq

def Operation.route (mode : AddressingMode) : Operation → Route
  | bcc => .branch .carry false
  | bcs => .branch .carry true
  | bne => .branch .zero false
  | beq => .branch .zero true
  | bpl => .branch .negative false
  | bmi => .branch .negative true
  | bvc => .branch .overflow false
  | bvs => .branch .overflow true
  | jmp => if mode = .indirect then .pointer else .jump
  | jsr => .call
  | brk => .interrupt
  | rts => .back
  | rti => .resume
  | adc | and | asl | bit | clc | cld | cli | clv | cmp | cpx | cpy | dec | dex | dey | eor | inc
  | inx | iny | lda | ldx | ldy | lsr | nop | ora | pha | php | pla | plp | rol | ror | sbc | sec
  | sed | sei | sta | stx | sty | tax | tay | tsx | txa | txs | tya => .onward

/-- The route of an action, whatever operation it is the action of. -/
def Action.route (mode : AddressingMode) : Action → Route
  | branch flag value => .branch flag value
  | jump => if mode = .indirect then .pointer else .jump
  | call => .call
  | interrupt => .interrupt
  | returnFromCall => .back
  | returnFromInterrupt => .resume
  | load _ | store _ | combine _ | compare _ | testBits | modifyOperand _ | modifyRegister ..
  | transfer .. | setFlag .. | pushAccumulator | pullAccumulator | pushStatus | pullStatus
  | idle => .onward

theorem Operation.route_eq (mode : AddressingMode) (operation : Operation) :
    operation.route mode = operation.action.route mode := by
  cases operation <;> rfl

/-- The mode of the instructions that do not go onward. -/
def Route.mode? : Route → Option AddressingMode
  | onward => none
  | branch .. => some .relative
  | jump | call => some .absolute
  | pointer => some .indirect
  | interrupt | back | resume => some .implicit

theorem Operation.timingClass_of_branch {operation : Operation} {flag : Flag} {value : Bool}
    (h : operation.action = .branch flag value) : operation.timingClass = .branch flag value := by
  cases operation <;> cases h <;> rfl

namespace Instruction

def route (i : Instruction) : Route := i.operation.route i.mode

variable {opcode : Byte} {i : Instruction}

theorem mode_of_route (h : ofOpcode? opcode = some i) : ∀ mode ∈ i.route.mode?, i.mode = mode := by
  have htable : ∀ n < 256, ∀ i ∈ ofOpcode? (UInt8.ofNat n),
      ∀ mode ∈ i.route.mode?, i.mode = mode := by
    decide +kernel
  exact forall_documented htable h

/-- What goes onward without an operand is one byte long. -/
theorem operandBytes_eq_zero (h : ofOpcode? opcode = some i) (hroute : i.route = .onward)
    (haddress : ¬i.operation.action.NeedsAddress i.mode) : i.mode.operandBytes = 0 := by
  have htable : ∀ n < 256, ∀ i ∈ ofOpcode? (UInt8.ofNat n), i.route = .onward →
      ¬i.operation.action.NeedsAddress i.mode → i.mode.operandBytes = 0 := by
    decide +kernel
  exact forall_documented htable h hroute haddress

end Instruction

namespace Processor

theorem pc_load (p : Processor) (target : Register) (value : Byte) :
    (p.load target value).pc = p.pc :=
  p.pc_set target value

theorem pc_combine (p : Processor) (combination : Combination) (value : Byte) :
    (p.combine combination value).pc = p.pc := by
  cases combination with
  | add =>
    simp only [combine, add]
    split <;> rfl
  | subtract =>
    simp only [combine, subtract]
    split <;> rfl
  | conjunction | disjunction | difference => exact pc_load p .a _

end Processor

namespace Machine

variable {B : Type} [Bus B] {m m' : Machine B} {i : Instruction} {mode : AddressingMode}

/-- Where the step of an instruction of so many bytes leads by a route, as the trace shows its
operand bytes. A branch that is taken can be told by its cycles even if it goes nowhere. -/
def Leads (m : Machine B) (size : Nat) (operands : List Byte) (cycles : Nat) (m' : Machine B) :
    Route → Prop
  | .onward => m'.processor.pc.toNat = (m.processor.pc.toNat + size) % 65536
  | .branch flag value =>
    (2 < cycles ↔ m.processor.flags.get flag = value) ∧ ∃ offset, operands = [offset] ∧
      (m'.processor.pc.toNat : Int) = (m.processor.pc.toNat + 2 +
        if m.processor.flags.get flag = value then offset.signed else 0) % 65536
  | .jump => ∃ low high, operands = [low, high] ∧
      m'.processor.pc.toNat = low.toNat + 256 * high.toNat
  | .pointer => ∃ low high, operands = [low, high] ∧ m'.processor.pc.toNat =
      m.pairNumber (low.toNat + 256 * high.toNat) ((low.toNat + 1) % 256 + 256 * high.toNat)
  | .call => ∃ low high, operands = [low, high] ∧
      m'.processor.pc.toNat = low.toNat + 256 * high.toNat ∧
      m'.processor.sp = m.processor.sp - 2 ∧
      m'.bus = (m.writeEach (wordWrites m.processor.sp (m.processor.pc + 2))).bus
  | .interrupt =>
    m'.processor.pc = Bus.readWord m'.bus interruptVector ∧
      m'.processor.sp = m.processor.sp - 3 ∧
      m'.bus = (m.writeEach (wordWrites m.processor.sp (m.processor.pc + 2) ++
        [(stackCell (m.processor.sp - 2), m.processor.status ||| 0x30)])).bus
  | .back => m'.processor.pc =
      .join (m.read (stackCell (m.processor.sp + 1))) (m.read (stackCell (m.processor.sp + 2))) + 1
  | .resume => m'.processor.pc =
      .join (m.read (stackCell (m.processor.sp + 2))) (m.read (stackCell (m.processor.sp + 3)))

/-- An action that goes onward leaves the processor behind the operand. -/
theorem pc_execute_onward {action : Action} (hroute : action.route mode = .onward)
    (hmode : action.NeedsAddress mode → mode.NamesAddress)
    (hbytes : ¬action.NeedsAddress mode → mode.operandBytes = 0) :
    (m.execute mode action).2.processor.pc =
      m.processor.pc + UInt16.ofNat mode.operandBytes := by
  have hnone (h : ¬action.NeedsAddress mode) :
      m.processor.pc = m.processor.pc + UInt16.ofNat mode.operandBytes := by
    rw [hbytes h]
    exact (UInt16.add_zero _).symm
  cases action with
  | load target =>
    simp only [execute, takeOperand_eq (hmode trivial)]
    exact Processor.pc_load _ target _
  | combine combination =>
    simp only [execute, takeOperand_eq (hmode trivial)]
    exact Processor.pc_combine _ combination _
  | compare | testBits =>
    simp only [execute, takeOperand_eq (hmode trivial)]
    rfl
  | store source =>
    simp only [execute, store_eq (hmode trivial)]
    rfl
  | modifyOperand change =>
    by_cases haccumulator : mode = .accumulator
    · subst haccumulator
      exact hnone fun h ↦ h rfl
    · simp only [execute, modifyOperand_eq (hmode haccumulator)]
      rfl
  | modifyRegister target => exact (Processor.pc_set _ target _).trans (hnone id)
  | transfer source target => cases target <;> exact hnone id
  | pullAccumulator => exact (Processor.pc_load _ .a _).trans (hnone id)
  | setFlag | pushAccumulator | pushStatus | pullStatus | idle => exact hnone id
  | jump =>
    rw [Action.route] at hroute
    split at hroute <;> cases hroute
  | branch | call | returnFromCall | interrupt | returnFromInterrupt => cases hroute

/-- A branch goes by its offset from behind it, or no further. -/
theorem toNat_pc_branch (m : Machine B) (taken : Bool) :
    ((m.branch taken).2.processor.pc.toNat : Int) = (m.processor.pc.toNat + 1 +
      if taken then (m.read m.processor.pc).signed else 0) % 65536 := by
  have hpc := m.processor.pc.toNat_lt
  have hnext : (m.processor.pc + 1).toNat = (m.processor.pc.toNat + 1) % 65536 :=
    UInt16.toNat_add m.processor.pc 1
  cases taken with
  | false =>
    change ((m.processor.pc + 1).toNat : Int) = _
    simp only [hnext, Bool.false_eq_true, if_false]
    omega
  | true =>
    change (((m.processor.pc + 1).displace (m.read m.processor.pc)).toNat : Int) = _
    rw [Word.toNat_displace, hnext, if_pos rfl]
    omega

theorem operands_traceRecord (hdecode : Instruction.ofOpcode? (m.read m.processor.pc) = some i) :
    m.traceRecord.operands = Bus.readMany m.bus (m.processor.pc + 1) i.mode.operandBytes := by
  simp only [traceRecord, Instruction.operandBytesOf, hdecode]
  rfl

/-- A word of operand bytes as the trace shows them. -/
theorem exists_operands_word (hdecode : Instruction.ofOpcode? (m.read m.processor.pc) = some i)
    (hbytes : i.mode.operandBytes = 2) :
    ∃ low high, m.traceRecord.operands = [low, high] ∧
      m.wordAt (m.processor.pc + 1) = .join low high := by
  rw [operands_traceRecord hdecode, hbytes]
  exact ⟨_, _, rfl, rfl⟩

/-- A pointer by its two bytes: its high byte stays when its low byte goes on. -/
theorem toNat_pointer_join (m : Machine B) (low high : Byte) :
    (Word.join (m.read (.join low high)) (m.read (.join (low + 1) high))).toNat =
      m.pairNumber (low.toNat + 256 * high.toNat)
        ((low.toNat + 1) % 256 + 256 * high.toNat) := by
  have hnext : (low + 1).toNat = (low.toNat + 1) % 256 := UInt8.toNat_add low 1
  rw [toNat_join_read, Word.toNat_join, Word.toNat_join, hnext, Nat.mul_comm high.toNat]
  exact congrArg₂ m.pairNumber (Nat.add_comm _ _) (Nat.add_comm _ _)

section Routes

variable (hrunning : m.processor.halted = false)
  (hdecode : Instruction.ofOpcode? (m.read m.processor.pc) = some i)
include hrunning hdecode

theorem leads_onward (hroute : i.route = .onward) :
    ∃ cycles m', m.step = (.ok cycles, m') ∧
      m.Leads i.size m.traceRecord.operands cycles m' .onward := by
  have haction : i.operation.action.route i.mode = .onward := by
    rw [← Operation.route_eq]
    exact hroute
  obtain ⟨extra, last, hexecute, -⟩ :=
    execute_within (m := m.fetched) i.operation.action (Instruction.namesAddress hdecode)
  have hpc := pc_execute_onward (m := m.fetched) haction (Instruction.namesAddress hdecode)
    (Instruction.operandBytes_eq_zero hdecode hroute)
  rw [hexecute, processor_fetched] at hpc
  refine ⟨_, _, step_of_execute hrunning hdecode hexecute, ?_⟩
  have hnumber := congrArg UInt16.toNat hpc
  simp only [UInt16.toNat_add, UInt16.toNat_ofNat', UInt16.toNat_one] at hnumber
  simp only [Leads, processor_mapProcessor, hnumber, Instruction.size]
  omega

theorem leads_branch {flag : Flag} {value : Bool}
    (haction : i.operation.action = .branch flag value) (hmode : i.mode = .relative) :
    ∃ cycles m', m.step = (.ok cycles, m') ∧
      m.Leads i.size m.traceRecord.operands cycles m' (.branch flag value) := by
  have htiming : i.operation.timingClass = .branch flag value :=
    Operation.timingClass_of_branch haction
  have hbase : i.baseCycles = 2 := by
    have htable := Instruction.baseCycles?_eq hdecode
    rw [htiming, hmode] at htable
    exact (Option.some.inj htable).symm
  have hcycles := step_fst hrunning hdecode
  rw [hbase, htiming] at hcycles
  refine ⟨_, m.step.2, Prod.ext hcycles rfl, ?_, m.read (m.processor.pc + 1), ?_, ?_⟩
  · rw [TimingClass.extraCycles]
    split
    · rename_i htaken
      refine iff_of_true ?_ htaken
      split <;> omega
    · rename_i huntaken
      exact iff_of_false (by omega) huntaken
  · rw [operands_traceRecord hdecode, hmode]
    rfl
  · have hexecute : m.fetched.execute i.mode i.operation.action =
        (.ok (m.fetched.branch (m.fetched.processor.flags.get flag == value)).1,
          (m.fetched.branch (m.fetched.processor.flags.get flag == value)).2) := by
      rw [haction]
      rfl
    have hpc := m.fetched.toNat_pc_branch (m.fetched.processor.flags.get flag == value)
    simp only [read_fetched, processor_fetched, UInt16.toNat_add, UInt16.toNat_one,
      beq_iff_eq] at hpc
    simp only [step_of_execute hrunning hdecode hexecute, processor_mapProcessor,
      processor_fetched, hpc]
    omega

theorem stepsTo_jump (haction : i.operation.action = .jump) :
    m.StepsTo [] { m.processor with
      pc := m.effectiveAddress (m.processor.pc + 1) i.mode } := by
  have hmode : i.mode.NamesAddress := Instruction.namesAddress hdecode (haction ▸ trivial)
  have hsteps := stepsTo_of_execute hrunning hdecode haction (jump_eq hmode)
  rwa [target_fetched, pastOperand, skip, processor_mapProcessor, processor_mapProcessor,
    processor_fetched] at hsteps

theorem leads_jump (haction : i.operation.action = .jump) (hmode : i.mode = .absolute) :
    ∃ cycles m', m.step = (.ok cycles, m') ∧
      m.Leads i.size m.traceRecord.operands cycles m' .jump := by
  obtain ⟨cycles, m', hstep, -, hprocessor⟩ := stepsTo_jump hrunning hdecode haction
  obtain ⟨low, high, hoperands, hword⟩ := exists_operands_word hdecode (hmode ▸ rfl)
  refine ⟨cycles, m', hstep, low, high, hoperands, ?_⟩
  simp only [hprocessor, hmode, effectiveAddress, hword, Word.toNat_join]
  omega

theorem leads_pointer (haction : i.operation.action = .jump) (hmode : i.mode = .indirect) :
    ∃ cycles m', m.step = (.ok cycles, m') ∧
      m.Leads i.size m.traceRecord.operands cycles m' .pointer := by
  obtain ⟨cycles, m', hstep, -, hprocessor⟩ := stepsTo_jump hrunning hdecode haction
  obtain ⟨low, high, hoperands, hword⟩ := exists_operands_word hdecode (hmode ▸ rfl)
  refine ⟨cycles, m', hstep, low, high, hoperands, ?_⟩
  simp only [hprocessor, hmode, effectiveAddress, hword, Word.low_join, Word.high_join]
  exact m.toNat_pointer_join low high

theorem leads_call (haction : i.operation.action = .call) (hmode : i.mode = .absolute) :
    ∃ cycles m', m.step = (.ok cycles, m') ∧
      m.Leads i.size m.traceRecord.operands cycles m' .call := by
  obtain ⟨cycles, m', hstep, hbus, hprocessor⟩ := stepsTo_call hrunning hdecode haction hmode
  obtain ⟨low, high, hoperands, hword⟩ := exists_operands_word hdecode (hmode ▸ rfl)
  have hsp : m'.processor.sp = m.processor.sp - 2 := by rw [hprocessor]
  refine ⟨cycles, m', hstep, low, high, hoperands, ?_, hsp, hbus⟩
  simp only [hprocessor, hword, Word.toNat_join]
  omega

theorem leads_interrupt (haction : i.operation.action = .interrupt) :
    ∃ cycles m', m.step = (.ok cycles, m') ∧
      m.Leads i.size m.traceRecord.operands cycles m' .interrupt := by
  obtain ⟨cycles, m', hstep, hbus, hprocessor⟩ := stepsTo_interrupt hrunning hdecode haction
  have hpc : m'.processor.pc = Bus.readWord m'.bus interruptVector := by rw [hprocessor, hbus]
  have hsp : m'.processor.sp = m.processor.sp - 3 := by rw [hprocessor]
  exact ⟨cycles, m', hstep, hpc, hsp, hbus⟩

theorem leads_back (haction : i.operation.action = .returnFromCall) :
    ∃ cycles m', m.step = (.ok cycles, m') ∧
      m.Leads i.size m.traceRecord.operands cycles m' .back := by
  obtain ⟨cycles, m', hstep, -, hprocessor⟩ := stepsTo_returnFromCall hrunning hdecode haction
  exact ⟨cycles, m', hstep, congrArg Processor.pc hprocessor⟩

theorem leads_resume (haction : i.operation.action = .returnFromInterrupt) :
    ∃ cycles m', m.step = (.ok cycles, m') ∧
      m.Leads i.size m.traceRecord.operands cycles m' .resume := by
  obtain ⟨cycles, m', hstep, -, hprocessor⟩ :=
    stepsTo_returnFromInterrupt hrunning hdecode haction
  exact ⟨cycles, m', hstep, congrArg Processor.pc hprocessor⟩

end Routes

/-- **The table and the execution agree on every instruction.** The trace shows as many bytes as the
instruction has, and these bytes are what the execution goes by: the next instruction lies right
behind them, even if they are overwritten, or where they lead. -/
theorem step_leads (hrunning : m.processor.halted = false)
    (hdecode : Instruction.ofOpcode? (m.read m.processor.pc) = some i) :
    m.traceRecord.operands.length + 1 = i.size ∧ ∃ cycles m', m.step = (.ok cycles, m') ∧
      m.Leads i.size m.traceRecord.operands cycles m' i.route := by
  constructor
  · rw [operands_traceRecord hdecode, Bus.length_readMany, Instruction.size, Nat.add_comm]
  have hroute : i.route = i.operation.action.route i.mode := Operation.route_eq _ _
  have hmode := Instruction.mode_of_route hdecode
  cases haction : i.operation.action with
  | branch flag value =>
    rw [haction] at hroute
    rw [hroute] at hmode ⊢
    exact leads_branch hrunning hdecode haction (hmode _ rfl)
  | jump =>
    rw [haction, Action.route] at hroute
    split at hroute
    · rename_i hindirect
      rw [hroute]
      exact leads_pointer hrunning hdecode haction hindirect
    · rw [hroute] at hmode ⊢
      exact leads_jump hrunning hdecode haction (hmode _ rfl)
  | call =>
    rw [haction] at hroute
    rw [hroute] at hmode ⊢
    exact leads_call hrunning hdecode haction (hmode _ rfl)
  | interrupt =>
    rw [hroute, haction]
    exact leads_interrupt hrunning hdecode haction
  | returnFromCall =>
    rw [hroute, haction]
    exact leads_back hrunning hdecode haction
  | returnFromInterrupt =>
    rw [hroute, haction]
    exact leads_resume hrunning hdecode haction
  | load | store | combine | compare | testBits | modifyOperand | modifyRegister | transfer
  | setFlag | pushAccumulator | pullAccumulator | pushStatus | pullStatus | idle =>
    have honward : i.route = .onward := by
      rw [hroute, haction]
      rfl
    rw [honward]
    exact leads_onward hrunning hdecode honward

/-- A machine at a store whose opcode lies at the last address, and whose operand byte, which is
where it writes to, at the first. -/
def atLastAddress : Machine ReferenceMemory where
  processor := { Processor.initial 0xFFFF with a := 7 }
  bus := ⟨fun _ ↦ 0, fun _ ↦ 0, fun _ ↦ 0x85⟩

theorem step_leads_atLastAddress :
    atLastAddress.traceRecord.operands = [0] ∧ atLastAddress.step.2.processor.pc.toNat = 1 ∧
      atLastAddress.step.2.read 0 = 7 := by
  have hdecode : Instruction.ofOpcode? (atLastAddress.read atLastAddress.processor.pc) =
      some ⟨.sta, .zeroPage, 3⟩ := by
    decide +kernel
  obtain ⟨-, cycles, m', hstep, hleads⟩ := step_leads (m := atLastAddress) rfl hdecode
  have hnext : m'.processor.pc.toNat = (atLastAddress.processor.pc.toNat + 2) % 65536 := hleads
  refine ⟨by decide +kernel, ?_, by decide +kernel⟩
  rw [hstep, hnext]
  rfl

end Machine

end VideoComputer
