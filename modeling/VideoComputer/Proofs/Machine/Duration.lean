import VideoComputer.Console.Basic
import VideoComputer.Proofs.Machine.Dispatch
import VideoComputer.Proofs.Machine.Run

/-!
# Duration of instructions

The published count of cycles of every instruction, told by the kind of the operation, the mode and
the operands, without the instruction table. Main statement: each step of a documented instruction
returns this count, and over a run the cycle counter grows by the sum of the counts.
-/

namespace VideoComputer

/-- Operations that take their time alike. -/
inductive TimingClass where
  | read
  | store
  | modify
  | branch (flag : Flag) (value : Bool)
  | jump
  | fixed (cycles : Nat)

def Operation.timingClass : Operation → TimingClass
  | lda | ldx | ldy | adc | sbc | and | ora | eor | cmp | cpx | cpy | bit => .read
  | sta | stx | sty => .store
  | asl | lsr | rol | ror | inc | dec => .modify
  | bcc => .branch .carry false
  | bcs => .branch .carry true
  | bne => .branch .zero false
  | beq => .branch .zero true
  | bpl => .branch .negative false
  | bmi => .branch .negative true
  | bvc => .branch .overflow false
  | bvs => .branch .overflow true
  | jmp => .jump
  | jsr | rts | rti => .fixed 6
  | brk => .fixed 7
  | pha | php => .fixed 3
  | pla | plp => .fixed 4
  | clc | cld | cli | clv | sec | sed | sei | dex | dey | inx | iny | nop | tax | tay | tsx | txa
  | txs | tya => .fixed 2

namespace TimingClass

/-- The cycles of a class in a mode, unless a page is crossed or a branch taken. -/
def baseCycles? : TimingClass → AddressingMode → Option Nat
  | read, .immediate => some 2
  | read, .zeroPage => some 3
  | read, .zeroPageX | read, .zeroPageY => some 4
  | read, .absolute | read, .absoluteX | read, .absoluteY => some 4
  | read, .indirectX => some 6
  | read, .indirectY => some 5
  | store, .zeroPage => some 3
  | store, .zeroPageX | store, .zeroPageY => some 4
  | store, .absolute => some 4
  | store, .absoluteX | store, .absoluteY => some 5
  | store, .indirectX | store, .indirectY => some 6
  | modify, .accumulator => some 2
  | modify, .zeroPage => some 5
  | modify, .zeroPageX | modify, .absolute => some 6
  | modify, .absoluteX => some 7
  | branch .., .relative => some 2
  | jump, .absolute => some 3
  | jump, .indirect => some 5
  | fixed cycles, _ => some cycles
  | _, _ => none

variable {B : Type} [Bus B]

/-- The further cycles of a class whose operand bytes begin at `start`: a read pays for a crossed
page, a branch for being taken and for leaving its page. -/
def extraCycles (m : Machine B) (start : Word) (mode : AddressingMode) : TimingClass → Nat
  | read => if m.crossesPage start mode then 1 else 0
  | branch flag value =>
    if m.processor.flags.get flag = value then
      if (start + 1).leavesPage (m.read start) then 2 else 1
    else 0
  | store | modify | jump | fixed _ => 0

/-- The most further cycles that a class ever pays for. -/
def extraLimit : TimingClass → Nat
  | read => 1
  | branch .. => 2
  | store | modify | jump | fixed _ => 0

theorem extraCycles_le (timing : TimingClass) (m : Machine B) (start : Word)
    (mode : AddressingMode) : timing.extraCycles m start mode ≤ timing.extraLimit := by
  cases timing with
  | read =>
    simp only [extraCycles, extraLimit]
    split <;> omega
  | branch flag value =>
    simp only [extraCycles, extraLimit]
    split
    · split <;> omega
    · omega
  | store | modify | jump | fixed => exact Nat.le_refl 0

end TimingClass

theorem Instruction.baseCycles_add_extraLimit_le {opcode : Byte} {i : Instruction}
    (h : ofOpcode? opcode = some i) :
    i.baseCycles + i.operation.timingClass.extraLimit ≤ 7 := by
  have htable : ∀ n < 256, ∀ i ∈ ofOpcode? (UInt8.ofNat n),
      i.baseCycles + i.operation.timingClass.extraLimit ≤ 7 := by
    decide +kernel
  exact forall_documented htable h

/-- The table has the published cycles of every instruction. -/
theorem Instruction.baseCycles?_eq {opcode : Byte} {i : Instruction}
    (h : ofOpcode? opcode = some i) :
    i.operation.timingClass.baseCycles? i.mode = some i.baseCycles := by
  have htable : ∀ n < 256, ∀ i ∈ ofOpcode? (UInt8.ofNat n),
      i.operation.timingClass.baseCycles? i.mode = some i.baseCycles := by
    decide +kernel
  exact forall_documented htable h

variable {B : Type} [Bus B]

/-- The further cycles of an action. -/
def Action.extraCycles (m : Machine B) (start : Word) (mode : AddressingMode) : Action → Nat
  | load _ | combine _ | compare _ | testBits => TimingClass.read.extraCycles m start mode
  | branch flag value => (TimingClass.branch flag value).extraCycles m start mode
  | _ => 0

theorem Operation.extraCycles_eq (m : Machine B) (start : Word) (mode : AddressingMode)
    (operation : Operation) :
    operation.timingClass.extraCycles m start mode = operation.action.extraCycles m start mode := by
  cases operation <;> rfl

namespace Machine

variable {m : Machine B} {mode : AddressingMode}

/-- The published cycles of the instruction at the program counter. -/
def publishedCycles? (m : Machine B) : Option Nat := do
  let i ← Instruction.ofOpcode? (m.read m.processor.pc)
  let base ← i.operation.timingClass.baseCycles? i.mode
  return base + i.operation.timingClass.extraCycles m (m.processor.pc + 1) i.mode

theorem takeOperand_fst (h : mode.NamesAddress) (take : Processor → Byte → Processor) :
    (m.takeOperand mode take).1 =
      .ok (TimingClass.read.extraCycles m m.processor.pc mode) := by
  rw [takeOperand_eq h, TimingClass.extraCycles]
  cases m.crossesPage m.processor.pc mode <;> rfl

/-- A branch pays for being taken, and once more if its target is on another page. -/
theorem branch_fst (mode : AddressingMode) (flag : Flag) (value : Bool) :
    (m.branch (m.processor.flags.get flag == value)).1 =
      (TimingClass.branch flag value).extraCycles m m.processor.pc mode := by
  let next := m.processor.pc + 1
  let offset := m.read m.processor.pc
  have hleaves := Word.leavesPage_iff next offset
  have hpages : (if next.page = (next.displace offset).page then 1 else 2) =
      if next.leavesPage offset then 2 else 1 := by
    split
    · rename_i hsame
      rw [if_neg (fun h ↦ hleaves.mp h hsame)]
    · rename_i hother
      rw [if_pos (hleaves.mpr hother)]
  by_cases htaken : m.processor.flags.get flag = value
  · rw [TimingClass.extraCycles, if_pos htaken, ← hpages, beq_iff_eq.mpr htaken]
    rfl
  · rw [TimingClass.extraCycles, if_neg htaken, beq_eq_false_iff_ne.mpr htaken]
    rfl

/-- Every action that finds its operand tells its further cycles. -/
theorem execute_fst (action : Action) (hmode : action.NeedsAddress mode → mode.NamesAddress) :
    (m.execute mode action).1 = .ok (action.extraCycles m m.processor.pc mode) := by
  cases action with
  | load | combine | compare | testBits => exact takeOperand_fst (hmode trivial) _
  | branch flag value => exact congrArg Except.ok (branch_fst mode flag value)
  | store source => exact congrArg Prod.fst (store_eq (hmode trivial) source)
  | jump => exact congrArg Prod.fst (jump_eq (hmode trivial))
  | call => exact congrArg Prod.fst (call_eq (hmode trivial))
  | modifyOperand change =>
    by_cases haccumulator : mode = .accumulator
    · exact congrArg Prod.fst (if_pos haccumulator)
    · exact congrArg Prod.fst (modifyOperand_eq (hmode haccumulator) change)
  | modifyRegister | transfer | setFlag | returnFromCall | interrupt | returnFromInterrupt
  | pushAccumulator | pullAccumulator | pushStatus | pullStatus | idle => rfl

/-- The further cycles do not depend on where the processor stands. -/
theorem extraCycles_fetched (m : Machine B) (start : Word) (mode : AddressingMode)
    (timing : TimingClass) :
    timing.extraCycles m.fetched start mode = timing.extraCycles m start mode := by
  obtain ⟨journal, hfetched⟩ := m.fetched_eq
  rw [hfetched]
  cases timing <;> rfl

theorem step_fst {i : Instruction} (hrunning : m.processor.halted = false)
    (hdecode : Instruction.ofOpcode? (m.read m.processor.pc) = some i) :
    m.step.1 = .ok (i.baseCycles +
      i.operation.timingClass.extraCycles m (m.processor.pc + 1) i.mode) := by
  have hfirst : (m.fetched.execute i.mode i.operation.action).1 =
      .ok (i.operation.timingClass.extraCycles m (m.processor.pc + 1) i.mode) := by
    calc
      (m.fetched.execute i.mode i.operation.action).1
          = .ok (i.operation.action.extraCycles m.fetched m.fetched.processor.pc i.mode) :=
        execute_fst _ (Instruction.namesAddress hdecode)
      _ = .ok (i.operation.timingClass.extraCycles m.fetched (m.processor.pc + 1) i.mode) := by
        rw [processor_fetched, Operation.extraCycles_eq]
      _ = .ok (i.operation.timingClass.extraCycles m (m.processor.pc + 1) i.mode) := by
        rw [extraCycles_fetched]
  rw [step_of_execute hrunning hdecode (Prod.ext hfirst rfl)]

/-- No instruction takes more than seven cycles. -/
theorem cycles_le_seven {cycles : Nat} (h : m.step.1 = .ok cycles) : cycles ≤ 7 := by
  obtain ⟨hrunning, i, hdecode⟩ := documented_of_step h
  have hlimit := Instruction.baseCycles_add_extraLimit_le hdecode
  have hextra := i.operation.timingClass.extraCycles_le m (m.processor.pc + 1) i.mode
  have hcycles := Except.ok.inj (h.symm.trans (step_fst hrunning hdecode))
  omega

theorem publishedCycles?_eq {i : Instruction}
    (hdecode : Instruction.ofOpcode? (m.read m.processor.pc) = some i) :
    m.publishedCycles? = some (i.baseCycles +
      i.operation.timingClass.extraCycles m (m.processor.pc + 1) i.mode) := by
  rw [publishedCycles?, hdecode, Option.bind_eq_bind, Option.bind_some,
    Instruction.baseCycles?_eq hdecode]
  rfl

/-- Every step of a documented instruction returns the published count, and a run that completes
returns the published count of each instruction on its way, by whose sum the cycle counter grows.
-/
theorem published_cycles (m : Machine B) :
    (m.processor.halted = false →
      (∃ i, Instruction.ofOpcode? (m.read m.processor.pc) = some i) →
      ∃ cycles, m.publishedCycles? = some cycles ∧ m.step.1 = .ok cycles) ∧
    ∀ costs, m.Returns costs →
      (∀ k, (h : k < costs.length) → (m.after k).publishedCycles? = some costs[k]) ∧
      (m.after costs.length).processor.cycles = m.processor.cycles + costs.sum := by
  constructor
  · intro hrunning hdocumented
    obtain ⟨i, hdecode⟩ := hdocumented
    exact ⟨_, publishedCycles?_eq hdecode, step_fst hrunning hdecode⟩
  · intro costs hreturns
    refine ⟨?_, hreturns.cycles_after⟩
    intro k hk
    have hstep := hreturns k hk
    obtain ⟨hrunning, i, hdecode⟩ := documented_of_step hstep
    have hcost := Except.ok.inj (hstep.symm.trans (step_fst hrunning hdecode))
    rw [publishedCycles?_eq hdecode, hcost]

/-- A machine at a branch to itself that is taken. -/
def atBranch : Machine ConsoleBus :=
  (powerOn { cartridge := .ofImage #[0x10, 0xFE] }).mapProcessor (·.jump 0xF000)

theorem published_cycles_atBranch :
    atBranch.step.1 = .ok 3 ∧ (atBranch.after 2).processor.cycles = 6 := by
  have hdecode : Instruction.ofOpcode? (atBranch.read atBranch.processor.pc) =
      some ⟨.bpl, .relative, 2⟩ := rfl
  have hreturns : atBranch.Returns [3, 3] := by
    intro k hk
    match k, hk with
    | 0, _ => rfl
    | 1, _ => rfl
  obtain ⟨hstep, hrun⟩ := published_cycles atBranch
  obtain ⟨cycles, hpublished, hcycles⟩ := hstep rfl ⟨_, hdecode⟩
  have hthree : cycles = 3 := Option.some.inj (hpublished.symm.trans rfl)
  exact ⟨hthree ▸ hcycles, (hrun [3, 3] hreturns).2⟩

end Machine

end VideoComputer
