import VideoComputer.Proofs.Machine.Twins

/-!
# Flags that are not read

Which flags an action looks at. Two machines that differ in one flag only do the same as long as no
instruction looks at it, and may at most go on to differ in it. Main statement: the break mark is
never seen by a program, the interrupt flag only where the status goes to the stack, and the decimal
flag only there and in additions and subtractions.
-/

namespace VideoComputer

/-- A modification takes the carry in only if it rotates. -/
def Modification.reads : Modification → List Flag
  | rotateLeft | rotateRight => [.carry]
  | shiftLeft | shiftRight | increment | decrement => []

def Combination.reads : Combination → List Flag
  | add | subtract => [.decimal, .carry]
  | conjunction | disjunction | difference => []

/-- The flags that an action looks at. The status goes to the stack with its break mark set, so that
nothing looks at that one. -/
def Action.reads : Action → List Flag
  | combine combination => combination.reads
  | modifyOperand change | modifyRegister _ change => change.reads
  | branch flag _ => [flag]
  | interrupt | pushStatus => [.negative, .overflow, .decimal, .interrupt, .zero, .carry]
  | load _ | store _ | compare _ | testBits | transfer .. | setFlag .. | jump | call
  | returnFromCall | returnFromInterrupt | pushAccumulator | pullAccumulator | pullStatus
  | idle => []

namespace Flags

theorem eq_of_get {flags other : Flags} (h : ∀ flag, flags.get flag = other.get flag) :
    flags = other :=
  Flags.ext (h .negative) (h .overflow) (h .breakMark) (h .decimal) (h .interrupt) (h .zero)
    (h .carry)

@[simp] theorem set_get (flags : Flags) (flag : Flag) :
    flags.set flag (flags.get flag) = flags := by
  cases flag <;> rfl

variable (flags : Flags) {flag : Flag}

/-- A modification that does not take the carry in makes the same byte whatever the carry is. -/
theorem result_set {change : Modification} (hreads : flag ∉ change.reads) (byte : Byte)
    (value : Bool) :
    change.result byte (flags.set flag value).carry = change.result byte flags.carry := by
  cases flag with
  | carry =>
    cases change with
    | rotateLeft | rotateRight => simp [Modification.reads] at hreads
    | shiftLeft | shiftRight | increment | decrement => rfl
  | negative | overflow | breakMark | decimal | interrupt | zero => rfl

theorem modified_set {change : Modification} (hreads : flag ∉ change.reads) (byte : Byte)
    (value : Bool) :
    ∃ value', change.flags byte (flags.set flag value) =
      (change.flags byte flags).set flag value' := by
  have hresult := flags.result_set hreads byte value
  rw [Modification.flags, hresult]
  cases flag with
  | carry => cases change <;> exact ⟨_, rfl⟩
  | negative | overflow | breakMark | decimal | interrupt | zero =>
    cases change <;> exact ⟨_, rfl⟩

end Flags

namespace Processor

/-- A change of the processor that does not look at a flag: what was different there before may be
different there afterwards, and that is all. -/
def Overlooks (change : Processor → Processor) (flag : Flag) : Prop :=
  ∀ p value, ∃ value', change (p.setFlag flag value) = (change p).setFlag flag value'

variable (flag : Flag)

@[simp] theorem get_setFlag (p : Processor) (value : Bool) (register : Register) :
    (p.setFlag flag value).get register = p.get register := by
  cases register <;> rfl

/-- Flags that are replaced as a whole do not depend on what they were. -/
theorem overlooks_withFlags (flags : Flags) : Overlooks (fun p ↦ { p with flags := flags }) flag :=
  fun p value ↦ ⟨flags.get flag, congrArg (fun flags ↦ { p with flags := flags }) (by simp)⟩

theorem overlooks_load (target : Register) (byte : Byte) :
    Overlooks (·.load target byte) flag := by
  intro p value
  cases target <;> cases flag <;> exact ⟨_, rfl⟩

theorem overlooks_set (target : Register) (byte : Byte) :
    Overlooks (·.set target byte) flag := by
  intro p value
  cases target <;> exact ⟨value, rfl⟩

theorem overlooks_setFlag (other : Flag) (new : Bool) :
    Overlooks (·.setFlag other new) flag := by
  intro p value
  cases other <;> cases flag <;> exact ⟨_, rfl⟩

theorem overlooks_compare (register : Register) (byte : Byte) :
    Overlooks (fun p ↦ p.compare (p.get register) byte) flag := by
  intro p value
  simp only [get_setFlag]
  cases flag <;> exact ⟨_, rfl⟩

/-- What a transfer copies does not depend on a flag. -/
theorem overlooks_transfer (source target : Register) :
    Overlooks (fun p ↦ match target with
      | .sp => p.set .sp (p.get source)
      | target => p.load target (p.get source)) flag := by
  intro p value
  simp only [get_setFlag]
  cases target with
  | sp => exact overlooks_set flag .sp _ p value
  | a | x | y => exact overlooks_load flag _ _ p value

theorem overlooks_testBits (byte : Byte) : Overlooks (·.testBits byte) flag := by
  intro p value
  cases flag <;> exact ⟨_, rfl⟩

variable {flag}

/-- A choice by something that the flag has no part in. -/
theorem Overlooks.ite {test : Processor → Bool} {change other : Processor → Processor}
    (htest : ∀ p value, test (p.setFlag flag value) = test p) (hchange : Overlooks change flag)
    (hother : Overlooks other flag) :
    Overlooks (fun p ↦ if test p then change p else other p) flag := by
  intro p value
  simp only [htest]
  split
  · exact hchange p value
  · exact hother p value

theorem decimal_setFlag (hflag : flag ≠ .decimal) (p : Processor) (value : Bool) :
    (p.setFlag flag value).flags.decimal = p.flags.decimal := by
  cases flag with
  | decimal => exact absurd rfl hflag
  | negative | overflow | breakMark | interrupt | zero | carry => rfl

theorem overlooks_addBinary (hcarry : flag ≠ .carry) (byte : Byte) :
    Overlooks (·.addBinary byte) flag := by
  intro p value
  cases flag with
  | carry => exact absurd rfl hcarry
  | negative | overflow | breakMark | decimal | interrupt | zero => exact ⟨_, rfl⟩

theorem overlooks_addDecimal (hcarry : flag ≠ .carry) (byte : Byte) :
    Overlooks (·.addDecimal byte) flag := by
  intro p value
  cases flag with
  | carry => exact absurd rfl hcarry
  | negative | overflow | breakMark | decimal | interrupt | zero => exact ⟨_, rfl⟩

/-- In decimal mode the difference replaces the accumulator of the binary one. -/
theorem overlooks_subtractDecimal (hcarry : flag ≠ .carry) (byte : Byte) :
    Overlooks (fun p ↦ { p.addBinary (255 - byte) with a := p.decimalDifference byte }) flag := by
  intro p value
  cases flag with
  | carry => exact absurd rfl hcarry
  | negative | overflow | breakMark | decimal | interrupt | zero => exact ⟨_, rfl⟩

theorem overlooks_combine {combination : Combination} (hreads : flag ∉ combination.reads)
    (byte : Byte) : Overlooks (·.combine combination byte) flag := by
  cases combination with
  | add =>
    obtain ⟨hdecimal, hcarry⟩ : flag ≠ .decimal ∧ flag ≠ .carry := by
      simpa [Combination.reads] using hreads
    exact .ite (decimal_setFlag hdecimal) (overlooks_addDecimal hcarry byte)
      (overlooks_addBinary hcarry byte)
  | subtract =>
    obtain ⟨hdecimal, hcarry⟩ : flag ≠ .decimal ∧ flag ≠ .carry := by
      simpa [Combination.reads] using hreads
    exact .ite (decimal_setFlag hdecimal) (overlooks_subtractDecimal hcarry byte)
      (overlooks_addBinary hcarry (255 - byte))
  | conjunction => exact fun p value ↦ overlooks_load flag .a (p.a &&& byte) p value
  | disjunction => exact fun p value ↦ overlooks_load flag .a (p.a ||| byte) p value
  | difference => exact fun p value ↦ overlooks_load flag .a (p.a ^^^ byte) p value

theorem overlooks_modifiedFlags {change : Modification} (hreads : flag ∉ change.reads)
    (byte : Byte) : Overlooks (fun p ↦ { p with flags := change.flags byte p.flags }) flag := by
  intro p value
  obtain ⟨value', hflags⟩ := p.flags.modified_set hreads byte value
  exact ⟨value', congrArg (fun flags ↦ { p with flags := flags }) hflags⟩

theorem overlooks_modified {change : Modification} (hreads : flag ∉ change.reads)
    (target : Register) :
    Overlooks (fun p ↦ { p.set target (change.result (p.get target) p.flags.carry) with
      flags := change.flags (p.get target) p.flags }) flag := by
  intro p value
  obtain ⟨value', hflags⟩ := p.flags.modified_set hreads (p.get target) value
  have hresult := p.flags.result_set hreads (p.get target) value
  have hsetFlags : (p.setFlag flag value).flags = p.flags.set flag value := rfl
  refine ⟨value', ?_⟩
  simp only [get_setFlag, hsetFlags, hresult, hflags]
  cases target <;> rfl

end Processor

namespace Machine

variable {B : Type}

/-- The machine with one flag set or cleared. -/
def withFlag (m : Machine B) (flag : Flag) (value : Bool) : Machine B :=
  m.mapProcessor (·.setFlag flag value)

/-- One result, and machines that at most differ in a flag. -/
def SameBut {α : Type} (flag : Flag) (result result' : α × Machine B) : Prop :=
  ∃ value, result' = (result.1, result.2.withFlag flag value)

variable {m : Machine B} {mode : AddressingMode} {flag : Flag}

/-- A machine whose flag has been changed comes with the same result. -/
theorem SameBut.withFlag {α : Type} (result : α) (m : Machine B) (value : Bool) :
    SameBut flag (result, m) (result, m.withFlag flag value) :=
  ⟨value, rfl⟩

theorem SameBut.mapProcessor {α : Type} {change : Processor → Processor}
    (h : Processor.Overlooks change flag) (result : α) (m : Machine B) (value : Bool) :
    SameBut flag (result, m.mapProcessor change)
      (result, (m.withFlag flag value).mapProcessor change) := by
  obtain ⟨value', hvalue⟩ := h m.processor value
  exact ⟨value', congrArg (fun p ↦ (result, { m with processor := p })) hvalue⟩

variable [Bus B]

theorem target_withFlag (value : Bool) : (m.withFlag flag value).target mode = m.target mode := by
  cases mode <;> rfl

theorem crossesPage_withFlag (value : Bool) (start : Word) :
    (m.withFlag flag value).crossesPage start mode = m.crossesPage start mode := by
  cases mode <;> rfl

theorem takeOperand_sameBut (hmode : mode.NamesAddress) {take : Processor → Byte → Processor}
    (htake : ∀ byte, Processor.Overlooks (take · byte) flag) (value : Bool) :
    SameBut flag (m.takeOperand mode take) ((m.withFlag flag value).takeOperand mode take) := by
  rw [takeOperand_eq hmode, takeOperand_eq hmode, target_withFlag, crossesPage_withFlag]
  exact .mapProcessor (htake _) _ (m.pastOperand mode) value

theorem modifyMemory_sameBut {change : Modification} (hreads : flag ∉ change.reads)
    (address : Word) (value : Bool) {α : Type} (result : α) :
    SameBut flag (result, m.modifyMemory address change)
      (result, (m.withFlag flag value).modifyMemory address change) := by
  have hbyte : change.result (m.read address) (m.withFlag flag value).processor.flags.carry =
      change.result (m.read address) m.processor.flags.carry :=
    m.processor.flags.result_set hreads (m.read address) value
  have hread : (m.withFlag flag value).read address = m.read address := rfl
  simp only [modifyMemory]
  rw [hread, hbyte]
  exact .mapProcessor (Processor.overlooks_modifiedFlags hreads (m.read address)) _
    (m.write address (change.result (m.read address) m.processor.flags.carry)) value

theorem modifyOperand_sameBut (hmode : mode ≠ .accumulator → mode.NamesAddress)
    {change : Modification} (hreads : flag ∉ change.reads) (value : Bool) :
    SameBut flag (m.modifyOperand mode change)
      ((m.withFlag flag value).modifyOperand mode change) := by
  by_cases haccumulator : mode = .accumulator
  · rw [modifyOperand, modifyOperand, if_pos haccumulator, if_pos haccumulator]
    exact .mapProcessor (Processor.overlooks_modified hreads .a) _ m value
  · rw [modifyOperand_eq (hmode haccumulator), modifyOperand_eq (hmode haccumulator),
      target_withFlag]
    exact modifyMemory_sameBut (m := m.pastOperand mode) hreads (m.target mode) value _

theorem branch_sameBut {other : Flag} (hother : flag ≠ other) (taken value : Bool) :
    SameBut flag (m.execute mode (.branch other taken))
      ((m.withFlag flag value).execute mode (.branch other taken)) := by
  have hget : (m.withFlag flag value).processor.flags.get other = m.processor.flags.get other := by
    change (m.processor.flags.set flag value).get other = _
    rw [Flags.get_set, if_neg hother.symm]
  simp only [execute]
  rw [hget]
  cases m.processor.flags.get other == taken with
  | false => exact .withFlag _ (m.skip 1) value
  | true => exact .withFlag _ (m.branch true).2 value

/-- The status that is pulled replaces all flags. -/
theorem pullStatus_sameBut (m : Machine B) (flag : Flag) (value : Bool) :
    ∃ value', (m.withFlag flag value).pullStatus = m.pullStatus.withFlag flag value' := by
  obtain ⟨value', hvalue⟩ := Processor.overlooks_withFlags flag (.pulled m.pull.1)
    m.pull.2.processor value
  exact ⟨value', congrArg (fun p ↦ { m.pull.2 with processor := p }) hvalue⟩

/-- An action that does not read a flag goes the same way whatever the flag is. -/
theorem execute_sameBut {action : Action} (hreads : flag ∉ action.reads)
    (hmode : action.NeedsAddress mode → mode.NamesAddress) (value : Bool) :
    SameBut flag (m.execute mode action) ((m.withFlag flag value).execute mode action) := by
  cases action with
  | load target =>
    exact takeOperand_sameBut (hmode trivial) (Processor.overlooks_load flag target) value
  | combine combination =>
    exact takeOperand_sameBut (hmode trivial) (Processor.overlooks_combine hreads) value
  | compare register =>
    exact takeOperand_sameBut (hmode trivial) (Processor.overlooks_compare flag register) value
  | testBits =>
    exact takeOperand_sameBut (hmode trivial) (Processor.overlooks_testBits flag) value
  | store source =>
    simp only [execute]
    rw [store_eq (hmode trivial), store_eq (hmode trivial), target_withFlag]
    have hsource : (m.withFlag flag value).processor.get source = m.processor.get source :=
      Processor.get_setFlag flag m.processor value source
    rw [hsource]
    exact .withFlag _ _ value
  | modifyOperand change => exact modifyOperand_sameBut hmode hreads value
  | modifyRegister target change =>
    exact .mapProcessor (Processor.overlooks_modified hreads target) _ m value
  | transfer source target =>
    exact .mapProcessor (Processor.overlooks_transfer flag source target) _ m value
  | setFlag other new => exact .mapProcessor (Processor.overlooks_setFlag flag other new) _ m value
  | branch other taken =>
    exact branch_sameBut (by simpa [Action.reads] using hreads) taken value
  | jump =>
    simp only [execute]
    rw [jump_eq (hmode trivial), jump_eq (hmode trivial), target_withFlag]
    exact .withFlag _ _ value
  | call =>
    simp only [execute]
    rw [call_eq (hmode trivial), call_eq (hmode trivial), target_withFlag]
    exact .withFlag _ _ value
  | returnFromCall => exact .withFlag _ m.returnFromCall value
  | interrupt =>
    cases flag with
    | breakMark => exact .withFlag _ m.interrupt value
    | negative | overflow | decimal | interrupt | zero | carry => simp [Action.reads] at hreads
  | returnFromInterrupt =>
    obtain ⟨value', hpulled⟩ := pullStatus_sameBut m flag value
    simp only [execute, returnFromInterrupt]
    rw [hpulled]
    exact .withFlag _ m.returnFromInterrupt value'
  | pushAccumulator => exact .withFlag _ (m.push m.processor.a) value
  | pullAccumulator =>
    exact .mapProcessor (Processor.overlooks_load flag .a m.pull.1) _ m.pull.2 value
  | pushStatus =>
    cases flag with
    | breakMark => exact .withFlag _ (m.push m.processor.flags.pushed) value
    | negative | overflow | decimal | interrupt | zero | carry => simp [Action.reads] at hreads
  | pullStatus =>
    obtain ⟨value', hpulled⟩ := pullStatus_sameBut m flag value
    exact ⟨value', Prod.ext rfl hpulled⟩
  | idle => exact .withFlag _ m value

/-- Equal buses, and processors that are equal but for one flag. -/
structure AgreeBut (flag : Flag) (m m' : Machine B) : Prop where
  register (register : Register) : m.processor.get register = m'.processor.get register
  pc : m.processor.pc = m'.processor.pc
  flag (other : Flag) (hother : other ≠ flag) :
    m.processor.flags.get other = m'.processor.flags.get other
  cycles : m.processor.cycles = m'.processor.cycles
  halted : m.processor.halted = m'.processor.halted
  bus : m.bus = m'.bus

omit [Bus B] in
/-- Machines agree but for a flag if changing it in one of them makes them twins. -/
theorem agreeBut_iff {m' : Machine B} :
    m.AgreeBut flag m' ↔ ∃ value, (m.withFlag flag value).Twins Eq m' := by
  constructor
  · intro h
    refine ⟨m'.processor.flags.get flag, ?_, h.bus⟩
    have hflags : m.processor.flags.set flag (m'.processor.flags.get flag) =
        m'.processor.flags := by
      apply Flags.eq_of_get
      intro other
      rw [Flags.get_set]
      split
      · rename_i hsame
        rw [hsame]
      · rename_i hother
        exact h.flag other hother
    exact Processor.ext (h.register .a) (h.register .x) (h.register .y) (h.register .sp) h.pc hflags
      h.cycles h.halted
  · rintro ⟨value, hprocessor, hbus⟩
    have hset : m.processor.setFlag flag value = m'.processor := hprocessor
    refine ⟨?_, ?_, ?_, ?_, ?_, hbus⟩
    · intro register
      rw [← hset, Processor.get_setFlag]
    · rw [← hset]
      rfl
    · intro other hother
      rw [← hset]
      change _ = (m.processor.flags.set flag value).get other
      rw [Flags.get_set, if_neg hother]
    · rw [← hset]
      rfl
    · rw [← hset]
      rfl

/-- The trace may show the flag, but nothing else of a fetch does. -/
theorem fetched_withFlag (m : Machine B) (flag : Flag) (value : Bool) :
    (m.fetched.withFlag flag value).Twins Eq (m.withFlag flag value).fetched := by
  constructor
  · rw [processor_fetched]
    change m.fetched.processor.setFlag flag value = _
    rw [processor_fetched]
    rfl
  · rw [bus_fetched]
    exact m.bus_fetched

/-- A step that does not read a flag comes to the same whatever the flag is. -/
theorem step_withFlag (hreads : ∀ operation ∈ m.nextOperation?, flag ∉ operation.action.reads)
    (value : Bool) :
    m.step.1 = (m.withFlag flag value).step.1 ∧
      ∃ value', (m.step.2.withFlag flag value').Twins Eq (m.withFlag flag value).step.2 := by
  have hfetched := fetched_withFlag m flag value
  obtain ⟨hhalted, hstep⟩ | ⟨hrunning, hdecode, hstep⟩ |
      ⟨hrunning, i, hdecode, extra, last, hexecute, -, hstep⟩ := m.step_cases
  · have hstep' := step_of_halted (m := m.withFlag flag value) hhalted
    rw [hstep, hstep']
    exact ⟨rfl, value, rfl, rfl⟩
  · have hstep' := step_of_undocumented (m := m.withFlag flag value) hrunning hdecode
    rw [hstep, hstep']
    exact ⟨rfl, value, hfetched.halt _ _⟩
  · have hoperation := hreads i.operation (nextOperation?_eq hrunning hdecode)
    have hmode := Instruction.namesAddress hdecode
    obtain ⟨value', hsame⟩ := execute_sameBut (m := m.fetched) hoperation hmode value
    rw [hexecute] at hsame
    have hresults := hfetched.execute Bus.bisimulation_eq i.operation.action hmode
    obtain ⟨last', hexecute', hlast⟩ := (hsame ▸ hresults).exists_twin
    have hstep' := step_of_execute (m := m.withFlag flag value) hrunning hdecode hexecute'
    rw [hstep, hstep']
    refine ⟨rfl, value', ?_⟩
    exact hlast.mapProcessor fun p ↦
      { p with cycles := m.processor.cycles + (i.baseCycles + extra) }

/-- Machines that agree but for a flag make the same step if it does not read the flag, and agree
again but for that flag. -/
theorem AgreeBut.step {m' : Machine B} (h : m.AgreeBut flag m')
    (hreads : ∀ operation ∈ m.nextOperation?, flag ∉ operation.action.reads) :
    m.step.1 = m'.step.1 ∧ m.step.2.AgreeBut flag m'.step.2 := by
  obtain ⟨value, htwins⟩ := agreeBut_iff.mp h
  obtain ⟨hresult, value', hnext⟩ := step_withFlag hreads value
  have hstep := htwins.step Bus.bisimulation_eq
  refine ⟨hresult.trans hstep.fst, agreeBut_iff.mpr ⟨value', ?_, ?_⟩⟩
  · exact hnext.processor.trans hstep.snd.processor
  · exact hnext.bus.trans hstep.snd.bus

/-- None of the instructions that so many steps execute is one of these operations. -/
def Avoids (m : Machine B) (operations : List Operation) (count : Nat) : Prop :=
  ∀ k < count, ∀ operation ∈ (m.after k).nextOperation?, operation ∉ operations

instance (m : Machine B) (operations : List Operation) (count : Nat) :
    Decidable (m.Avoids operations count) :=
  inferInstanceAs (Decidable (∀ k < count, ∀ operation ∈ (m.after k).nextOperation?,
    operation ∉ operations))

theorem AgreeBut.after {m' : Machine B} (h : m.AgreeBut flag m') {operations : List Operation}
    (hreads : ∀ operation, operation ∉ operations → flag ∉ operation.action.reads) {count : Nat}
    (havoids : m.Avoids operations count) : (m.after count).AgreeBut flag (m'.after count) := by
  induction count with
  | zero => exact h
  | succ count ih =>
    have hbefore := ih fun k hk ↦ havoids k (Nat.lt_succ_of_lt hk)
    rw [after_succ, after_succ]
    refine (hbefore.step fun operation hoperation ↦ ?_).2
    exact hreads operation (havoids count (Nat.lt_succ_self count) operation hoperation)

/-- A program cannot tell the break mark. It can tell the interrupt flag by the instructions that
push the status only, and the decimal flag by those and by additions and subtractions only: as long
as it executes none of them, machines that agree but for the flag go on to agree but for it. -/
theorem flags_unobserved (m m' : Machine B) (count : Nat) :
    (m.AgreeBut .breakMark m' → (m.after count).AgreeBut .breakMark (m'.after count)) ∧
    (m.AgreeBut .interrupt m' → m.Avoids [.php, .brk] count →
      (m.after count).AgreeBut .interrupt (m'.after count)) ∧
    (m.AgreeBut .decimal m' → m.Avoids [.adc, .sbc, .php, .brk] count →
      (m.after count).AgreeBut .decimal (m'.after count)) := by
  have hbreakMark (operation : Operation) : Flag.breakMark ∉ operation.action.reads := by
    cases operation <;> decide
  have hinterrupt (operation : Operation) (h : operation ∉ [Operation.php, .brk]) :
      Flag.interrupt ∉ operation.action.reads := by
    revert h
    cases operation <;> decide
  have hdecimal (operation : Operation) (h : operation ∉ [Operation.adc, .sbc, .php, .brk]) :
      Flag.decimal ∉ operation.action.reads := by
    revert h
    cases operation <;> decide
  refine ⟨fun h ↦ ?_, fun h havoids ↦ h.after hinterrupt havoids,
    fun h havoids ↦ h.after hdecimal havoids⟩
  have havoids : m.Avoids [] count := fun _ _ operation _ ↦ List.not_mem_nil
  exact h.after (fun operation _ ↦ hbreakMark operation) havoids

/-- A machine that pushes and pulls its status, subtracts, and pushes its status once more. -/
def atStatus : Machine ConsoleBus where
  processor := .initial 0xF000
  bus := { cartridge := .ofImage #[0x08, 0x28, 0xE9, 0x19, 0x08] }

/-- A machine that loads a byte, pushes it and compares it; only then would it pull its status. -/
def atComparison : Machine ConsoleBus where
  processor := .initial 0xF000
  bus := { cartridge := .ofImage #[0xA9, 0x4D, 0x48, 0xC9, 0x50, 0x28] }

theorem flags_unobserved_onConsole :
    (atStatus.after 4).AgreeBut .breakMark ((atStatus.withFlag .breakMark true).after 4) ∧
    (atComparison.after 3).AgreeBut .interrupt
      ((atComparison.withFlag .interrupt false).after 3) ∧
    (atComparison.after 3).AgreeBut .decimal
      ((atComparison.withFlag .decimal true).after 3) := by
  have hagree (m : Machine ConsoleBus) (flag : Flag) (value : Bool) :
      m.AgreeBut flag (m.withFlag flag value) :=
    agreeBut_iff.mpr ⟨value, rfl, rfl⟩
  have hinterrupt : atComparison.Avoids [.php, .brk] 3 := by decide
  have hdecimal : atComparison.Avoids [.adc, .sbc, .php, .brk] 3 := by decide
  refine ⟨?_, ?_, ?_⟩
  · exact (flags_unobserved _ _ 4).1 (hagree ..)
  · exact (flags_unobserved _ _ 3).2.1 (hagree ..) hinterrupt
  · exact (flags_unobserved _ _ 3).2.2 (hagree ..) hdecimal

end Machine

end VideoComputer
