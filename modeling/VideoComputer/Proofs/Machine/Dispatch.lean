import VideoComputer.Machine.Step
import VideoComputer.Proofs.Machine.Addressing

/-!
# Dispatch of instructions

What the step of a documented instruction comes to: the action of its operation, in its mode, on a
machine that stands behind the opcode. The table gives every action that works on an address a mode
that names one, so that no documented instruction fails.
-/

namespace VideoComputer

/-- Whether an action works on the operand that the mode names. -/
def Action.NeedsAddress : Action → AddressingMode → Prop
  | load _, _ | store _, _ | combine _, _ | compare _, _ | testBits, _ | jump, _ | call, _ => True
  | modifyOperand _, mode => mode ≠ .accumulator
  | modifyRegister .., _ | transfer .., _ | setFlag .., _ | branch .., _ | returnFromCall, _
  | interrupt, _ | returnFromInterrupt, _ | pushAccumulator, _ | pullAccumulator, _ | pushStatus, _
  | pullStatus, _ | idle, _ => False

instance : (action : Action) → (mode : AddressingMode) → Decidable (action.NeedsAddress mode)
  | .load _, _ | .store _, _ | .combine _, _ | .compare _, _ | .testBits, _ | .jump, _
  | .call, _ => isTrue trivial
  | .modifyOperand _, mode => inferInstanceAs (Decidable (mode ≠ .accumulator))
  | .modifyRegister .., _ | .transfer .., _ | .setFlag .., _ | .branch .., _ | .returnFromCall, _
  | .interrupt, _ | .returnFromInterrupt, _ | .pushAccumulator, _ | .pullAccumulator, _
  | .pushStatus, _ | .pullStatus, _ | .idle, _ => isFalse id

/-- No instruction asks for an address in a mode that has none. -/
theorem Instruction.namesAddress {opcode : Byte} {i : Instruction} (h : ofOpcode? opcode = some i) :
    i.operation.action.NeedsAddress i.mode → i.mode.NamesAddress := by
  have htable : ∀ n < 256, ∀ i ∈ ofOpcode? (UInt8.ofNat n),
      i.operation.action.NeedsAddress i.mode → i.mode.NamesAddress := by
    decide +kernel
  exact forall_documented htable h

/-- Comparisons with an index register and bit tests have no indexed mode. -/
theorem Instruction.mode_of_unindexed {opcode : Byte} {i : Instruction}
    (h : ofOpcode? opcode = some i)
    (hoperation : i.operation = .cpx ∨ i.operation = .cpy ∨ i.operation = .bit) :
    i.mode = .immediate ∨ i.mode = .zeroPage ∨ i.mode = .absolute := by
  have htable : ∀ n < 256, ∀ i ∈ ofOpcode? (UInt8.ofNat n),
      (i.operation = .cpx ∨ i.operation = .cpy ∨ i.operation = .bit) →
      i.mode = .immediate ∨ i.mode = .zeroPage ∨ i.mode = .absolute := by
    decide +kernel
  exact forall_documented htable h hoperation

/-- What counts its operand up or down does so in memory, never in the accumulator. -/
theorem Instruction.namesAddress_of_counting {opcode : Byte} {i : Instruction}
    (h : ofOpcode? opcode = some i) (hoperation : i.operation = .inc ∨ i.operation = .dec) :
    i.mode.NamesAddress := by
  have htable : ∀ n < 256, ∀ i ∈ ofOpcode? (UInt8.ofNat n),
      (i.operation = .inc ∨ i.operation = .dec) → i.mode.NamesAddress := by
    decide +kernel
  exact forall_documented htable h hoperation

namespace Machine

variable {B : Type} [Bus B]

/-- The machine behind the operand of a mode. -/
def pastOperand (m : Machine B) (mode : AddressingMode) : Machine B :=
  m.skip (UInt16.ofNat mode.operandBytes)

/-- The address that a mode names to a machine that stands behind the opcode. -/
def target (m : Machine B) (mode : AddressingMode) : Word :=
  m.effectiveAddress m.processor.pc mode

variable {m : Machine B} {mode : AddressingMode}

theorem withOperand_eq (h : mode.NamesAddress)
    (action : Machine B → Operand → Nat × Machine B) :
    m.withOperand mode action =
      let (extra, m') := action (m.pastOperand mode)
        ⟨m.target mode, m.crossesPage m.processor.pc mode⟩
      (.ok extra, m') := by
  rw [withOperand, operand_eq m h]
  rfl

theorem takeOperand_eq (h : mode.NamesAddress) (take : Processor → Byte → Processor) :
    m.takeOperand mode take = (.ok (m.crossesPage m.processor.pc mode).toNat,
      (m.pastOperand mode).mapProcessor (take · (m.read (m.target mode)))) :=
  withOperand_eq h _

theorem store_eq (h : mode.NamesAddress) (source : Register) :
    m.store mode source =
      (.ok 0, (m.pastOperand mode).write (m.target mode) (m.processor.get source)) := by
  rw [store, withOperand_eq h]
  cases source <;> rfl

theorem modifyOperand_eq (h : mode.NamesAddress) (change : Modification) :
    m.modifyOperand mode change =
      (.ok 0, (m.pastOperand mode).modifyMemory (m.target mode) change) := by
  have hmode : mode ≠ .accumulator := by
    rintro rfl
    exact h
  rw [modifyOperand, if_neg hmode, withOperand_eq h]

theorem jump_eq (h : mode.NamesAddress) :
    m.jump mode = (.ok 0, (m.pastOperand mode).mapProcessor (·.jump (m.target mode))) :=
  withOperand_eq h _

theorem call_eq (h : mode.NamesAddress) :
    m.call mode = (.ok 0, ((m.pastOperand mode).pushWord
      ((m.pastOperand mode).processor.pc - 1)).mapProcessor (·.jump (m.target mode))) :=
  withOperand_eq h _

/-- Comparisons with an index register and bit tests read their operand as loads do, and never pay
for a crossed page. -/
theorem execute_fst_of_unindexed {opcode : Byte} {i : Instruction}
    (h : Instruction.ofOpcode? opcode = some i)
    (hoperation : i.operation = .cpx ∨ i.operation = .cpy ∨ i.operation = .bit) :
    (m.execute i.mode i.operation.action).1 = .ok 0 := by
  obtain ⟨hnames, hcrossed⟩ :
      i.mode.NamesAddress ∧ m.crossesPage m.processor.pc i.mode = false := by
    obtain hmode | hmode | hmode := Instruction.mode_of_unindexed h hoperation <;> rw [hmode] <;>
      exact ⟨trivial, rfl⟩
  have htake (take : Processor → Byte → Processor) : (m.takeOperand i.mode take).1 = .ok 0 := by
    rw [takeOperand_eq hnames, hcrossed]
    rfl
  obtain hoperation | hoperation | hoperation := hoperation <;> rw [hoperation] <;> exact htake _

/-- Counting up and down goes the way of the shifts, but never into the accumulator. -/
theorem execute_of_counting {opcode : Byte} {i : Instruction} {change : Modification}
    (h : Instruction.ofOpcode? opcode = some i)
    (hoperation : i.operation = .inc ∨ i.operation = .dec)
    (haction : i.operation.action = .modifyOperand change) :
    m.execute i.mode i.operation.action =
      (.ok 0, (m.pastOperand i.mode).modifyMemory (m.target i.mode) change) := by
  rw [haction]
  exact modifyOperand_eq (Instruction.namesAddress_of_counting h hoperation) change

/-- The machine that has noted an instruction and stands behind its opcode. -/
def fetched (m : Machine B) : Machine B := m.trace.skip 1

/-- A fetch moves the processor on; the journal may have grown by the trace. -/
theorem fetched_eq (m : Machine B) : ∃ journal, m.fetched =
    { m with processor := { m.processor with pc := m.processor.pc + 1 }, journal := journal } := by
  unfold fetched trace
  split
  · exact ⟨m.journal, rfl⟩
  · exact ⟨_, rfl⟩

theorem bus_fetched (m : Machine B) : m.fetched.bus = m.bus := by
  obtain ⟨journal, hfetched⟩ := m.fetched_eq
  rw [hfetched]

theorem processor_fetched (m : Machine B) :
    m.fetched.processor = { m.processor with pc := m.processor.pc + 1 } := by
  obtain ⟨journal, hfetched⟩ := m.fetched_eq
  rw [hfetched]

theorem fetchByte_trace (m : Machine B) :
    m.trace.fetchByte = (m.read m.processor.pc, m.fetched) := by
  rw [fetchByte, read_trace, processor_trace, fetched]

/-- A running machine at a documented opcode performs the action of that instruction. -/
theorem step_of_execute {m' : Machine B} {i : Instruction} {extra : Nat}
    (hrunning : m.processor.halted = false)
    (hdecode : Instruction.ofOpcode? (m.read m.processor.pc) = some i)
    (hexecute : m.fetched.execute i.mode i.operation.action = (.ok extra, m')) :
    m.step = (.ok (i.baseCycles + extra), m'.mapProcessor fun p ↦
      { p with cycles := m.processor.cycles + (i.baseCycles + extra) }) := by
  rw [step, if_neg (by rw [hrunning]; decide)]
  simp only [fetchByte_trace, hdecode, hexecute]

/-- A running machine halts at an undocumented opcode. -/
theorem step_of_undocumented (hrunning : m.processor.halted = false)
    (hdecode : Instruction.ofOpcode? (m.read m.processor.pc) = none) :
    m.step = (.error (.unimplementedOpcode (m.read m.processor.pc) m.processor.pc),
      m.fetched.halt (m.read m.processor.pc) m.processor.pc) := by
  rw [step, if_neg (by rw [hrunning]; decide)]
  simp only [fetchByte_trace, hdecode]

/-- Only a running machine at a documented opcode completes a step. -/
theorem documented_of_step {cycles : Nat} (h : m.step.1 = .ok cycles) :
    m.processor.halted = false ∧ ∃ i, Instruction.ofOpcode? (m.read m.processor.pc) = some i := by
  cases hrunning : m.processor.halted with
  | true =>
    rw [step_of_halted hrunning] at h
    cases h
  | false =>
    cases hdecode : Instruction.ofOpcode? (m.read m.processor.pc) with
    | none =>
      rw [step_of_undocumented hrunning hdecode] at h
      cases h
    | some i => exact ⟨rfl, i, rfl⟩

/-- The operation of the instruction at the program counter, unless the processor has halted. -/
def nextOperation? (m : Machine B) : Option Operation :=
  if m.processor.halted then none
  else (Instruction.ofOpcode? (m.read m.processor.pc)).map (·.operation)

theorem nextOperation?_eq {i : Instruction} (hrunning : m.processor.halted = false)
    (hdecode : Instruction.ofOpcode? (m.read m.processor.pc) = some i) :
    m.nextOperation? = some i.operation := by
  rw [nextOperation?, hrunning, hdecode]
  rfl

theorem exists_of_nextOperation? {operation : Operation} (h : m.nextOperation? = some operation) :
    m.processor.halted = false ∧ ∃ i, Instruction.ofOpcode? (m.read m.processor.pc) = some i ∧
      i.operation = operation := by
  unfold nextOperation? at h
  split at h
  · cases h
  · rename_i hrunning
    exact ⟨eq_false_of_ne_true hrunning, Option.map_eq_some_iff.mp h⟩

end Machine

end VideoComputer
