import VideoComputer.Proofs.Machine.Dispatch
import VideoComputer.Proofs.Machine.Run

/-!
# Some instructions one by one

What a step comes to where the opcode is known: an immediate load of the accumulator, a store of it
on page zero, and a jump.
-/

namespace VideoComputer

theorem Word.add_two (w : Word) : w + 2 = w + 1 + 1 := by
  rw [UInt16.add_assoc]
  rfl

namespace Machine

variable {B : Type} [Bus B] {m : Machine B}

/-- The accumulator takes the byte behind the opcode. -/
theorem step_loadImmediate (hrunning : m.processor.halted = false)
    (hopcode : m.read m.processor.pc = 0xA9) :
    ∃ next, m.step = (.ok 2, next) ∧ next.bus = m.bus ∧
      next.processor = { m.processor.load .a (m.read (m.processor.pc + 1)) with
        pc := m.processor.pc + 2, cycles := m.processor.cycles + 2 } := by
  have hdecode : Instruction.ofOpcode? (m.read m.processor.pc) = some ⟨.lda, .immediate, 2⟩ := by
    rw [hopcode]
    rfl
  have hmode : AddressingMode.immediate.NamesAddress := trivial
  have hexecute := takeOperand_eq (m := m.fetched) hmode (·.load .a ·)
  refine ⟨_, step_of_execute hrunning hdecode hexecute, m.bus_fetched, ?_⟩
  obtain ⟨journal, hfetched⟩ := m.fetched_eq
  rw [Word.add_two, hfetched]
  rfl

/-- The accumulator is written to the address on page zero that the byte behind the opcode tells. -/
theorem step_storeZeroPage (hrunning : m.processor.halted = false)
    (hopcode : m.read m.processor.pc = 0x85) :
    ∃ next, m.step = (.ok 3, next) ∧
      next.bus = Bus.write m.bus (m.read (m.processor.pc + 1)).toUInt16 m.processor.a ∧
      next.processor = { m.processor with
        pc := m.processor.pc + 2, cycles := m.processor.cycles + 3 } := by
  have hdecode : Instruction.ofOpcode? (m.read m.processor.pc) = some ⟨.sta, .zeroPage, 3⟩ := by
    rw [hopcode]
    rfl
  have hmode : AddressingMode.zeroPage.NamesAddress := trivial
  have hexecute := store_eq (m := m.fetched) hmode .a
  obtain ⟨journal, hfetched⟩ := m.fetched_eq
  refine ⟨_, step_of_execute hrunning hdecode hexecute, ?_, ?_⟩
  · rw [hfetched]
    rfl
  · rw [Word.add_two, hfetched]
    rfl

/-- The processor goes on at the word behind the opcode. -/
theorem step_jumpAbsolute (hrunning : m.processor.halted = false)
    (hopcode : m.read m.processor.pc = 0x4C) :
    ∃ next, m.step = (.ok 3, next) ∧ next.bus = m.bus ∧
      next.processor = { m.processor with
        pc := m.wordAt (m.processor.pc + 1), cycles := m.processor.cycles + 3 } := by
  have hdecode : Instruction.ofOpcode? (m.read m.processor.pc) = some ⟨.jmp, .absolute, 3⟩ := by
    rw [hopcode]
    rfl
  have hmode : AddressingMode.absolute.NamesAddress := trivial
  have hexecute := jump_eq (m := m.fetched) hmode
  obtain ⟨journal, hfetched⟩ := m.fetched_eq
  refine ⟨_, step_of_execute hrunning hdecode hexecute, m.bus_fetched, ?_⟩
  rw [hfetched]
  rfl

/-- A jump to itself changes nothing but the count of cycles, however often it is taken. -/
theorem after_spin (hrunning : m.processor.halted = false)
    (hopcode : m.read m.processor.pc = 0x4C)
    (htarget : m.wordAt (m.processor.pc + 1) = m.processor.pc) (count : Nat) :
    m.Completes count ∧ (m.after count).bus = m.bus ∧
      (m.after count).processor =
        { m.processor with cycles := m.processor.cycles + 3 * count } := by
  induction count generalizing m with
  | zero => exact ⟨m.completes_zero, rfl, rfl⟩
  | succ count ih =>
    obtain ⟨next, hstep, hbus, hprocessor⟩ := step_jumpAbsolute hrunning hopcode
    have hread (address : Word) : next.read address = m.read address :=
      congrArg (Bus.read · address) hbus
    rw [htarget] at hprocessor
    obtain ⟨hcompletes, hafterBus, hafterProcessor⟩ := ih (m := next)
      (by rw [hprocessor]; exact hrunning)
      (by rw [hread, hprocessor]; exact hopcode)
      (by simp only [wordAt, hread, hprocessor]; exact htarget)
    rw [after, hstep, hafterBus, hafterProcessor, hprocessor]
    refine ⟨hcompletes.cons hstep, hbus, ?_⟩
    have hcycles : m.processor.cycles + 3 + 3 * count = m.processor.cycles + 3 * (count + 1) := by
      omega
    simp only [hcycles]

end Machine

end VideoComputer
