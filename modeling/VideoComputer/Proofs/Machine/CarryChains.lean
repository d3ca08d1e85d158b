import Mathlib.Data.Nat.Digits.Lemmas
import VideoComputer.Memory.Flat
import VideoComputer.Proofs.Machine.Dispatch

/-!
# Chains of carries

Arithmetic on numbers of several bytes takes one instruction for each pair of bytes, the least
significant pair first, and the carry flag takes the carry from one to the next. A chain is told by
the machines that stand before its instructions; what they do in between is not looked at, except
that it keeps the carry.
-/

namespace VideoComputer

namespace Processor

variable (p : Processor) (combination : Combination) (value : Byte) (pc : Word)

/-- What is combined does not depend on where the program counter stands. -/
theorem combine_withPc : ({ p with pc := pc } : Processor).combine combination value =
    { p.combine combination value with pc := pc } := by
  cases combination with
  | add =>
    simp only [combine, add]
    split <;> rfl
  | subtract =>
    simp only [combine, subtract]
    split <;> rfl
  | conjunction | disjunction | difference => rfl

end Processor

namespace Machine

variable {B : Type}

/-- The accumulators that a chain starts from. -/
def accumulators (machines : List (Machine B)) : List Byte := machines.map (·.processor.a)

@[simp] theorem length_accumulators (machines : List (Machine B)) :
    (accumulators machines).length = machines.length :=
  List.length_map ..

variable [Bus B]

/-- The byte that the operand of the next instruction names. -/
def operandByte (m : Machine B) : Byte :=
  m.read (m.effectiveAddress (m.processor.pc + 1)
    ((Instruction.ofOpcode? (m.read m.processor.pc)).elim .implicit (·.mode)))

/-- The machine is about to perform an operation, in decimal mode or not. -/
structure Performs (m : Machine B) (operation : Operation) (decimal : Bool) : Prop where
  next : m.nextOperation? = some operation
  mode : m.processor.flags.decimal = decimal

variable {m : Machine B} {operation : Operation} {combination : Combination} {decimal : Bool}

/-- An instruction that combines the accumulator with its operand always completes. -/
theorem step_combine (haction : operation.action = .combine combination)
    (hnext : m.nextOperation? = some operation) :
    ∃ cycles, m.step.1 = .ok cycles ∧
      m.step.2.processor.a = (m.processor.combine combination m.operandByte).a ∧
      m.step.2.processor.flags = (m.processor.combine combination m.operandByte).flags := by
  obtain ⟨hrunning, i, hdecode, rfl⟩ := exists_of_nextOperation? hnext
  have hmode : i.mode.NamesAddress :=
    Instruction.namesAddress hdecode (by rw [haction]; trivial)
  have htarget : m.fetched.target i.mode = m.effectiveAddress (m.processor.pc + 1) i.mode := by
    obtain ⟨journal, hfetched⟩ := m.fetched_eq
    rw [hfetched]
    cases i.mode <;> rfl
  have hoperand : m.fetched.read (m.fetched.target i.mode) = m.operandByte := by
    rw [operandByte, hdecode, htarget, read, bus_fetched]
    rfl
  have hexecute := takeOperand_eq (m := m.fetched) hmode (·.combine combination ·)
  have hstep := step_of_execute hrunning hdecode (by rw [haction]; exact hexecute)
  obtain ⟨pc, hpc⟩ : ∃ pc, (m.fetched.pastOperand i.mode).processor =
      { m.processor with pc := pc } := by
    rw [pastOperand, skip, processor_mapProcessor, processor_fetched]
    exact ⟨_, rfl⟩
  rw [hstep, hoperand, processor_mapProcessor, processor_mapProcessor, hpc,
    Processor.combine_withPc]
  exact ⟨_, rfl, rfl, rfl⟩

theorem Performs.combine (h : m.Performs operation decimal)
    (haction : operation.action = .combine combination) {after : Processor}
    (hafter : m.processor.combine combination m.operandByte = after) :
    m.step.2.processor.a = after.a ∧ m.step.2.processor.flags = after.flags := by
  subst hafter
  obtain ⟨_, -, hstep⟩ := step_combine haction h.next
  exact hstep

theorem Performs.completes (h : m.Performs operation decimal)
    (haction : ∃ combination, operation.action = .combine combination) :
    ∃ cycles, m.step.1 = .ok cycles := by
  obtain ⟨combination, hcombination⟩ := haction
  obtain ⟨cycles, hcycles, -⟩ := step_combine hcombination h.next
  exact ⟨cycles, hcycles⟩

/-- Machines that stand before one instruction each, the first with a carry, the others with the
carry that the instruction before them leaves, and the flags after the last instruction. -/
inductive Chain (operation : Operation) (decimal : Bool) : Bool → List (Machine B) → Flags → Prop
  | last {m : Machine B} (head : m.Performs operation decimal) :
    Chain operation decimal m.processor.flags.carry [m] m.step.2.processor.flags
  | more {m : Machine B} {machines : List (Machine B)} {flags : Flags}
    (head : m.Performs operation decimal)
    (rest : Chain operation decimal m.step.2.processor.flags.carry machines flags) :
    Chain operation decimal m.processor.flags.carry (m :: machines) flags

/-- The bytes that the accumulators are combined with. -/
def operands (machines : List (Machine B)) : List Byte := machines.map (·.operandByte)

/-- The accumulators that the instructions of a chain leave. -/
def results (machines : List (Machine B)) : List Byte := machines.map (·.step.2.processor.a)

@[simp] theorem length_operands (machines : List (Machine B)) :
    (operands machines).length = machines.length :=
  List.length_map ..

@[simp] theorem length_results (machines : List (Machine B)) :
    (results machines).length = machines.length :=
  List.length_map ..

namespace Chain

variable {carry : Bool} {machines : List (Machine B)} {flags : Flags}

/-- One more instruction before a chain that starts with the carry it leaves. -/
theorem cons (head : m.Performs operation decimal)
    (hcarry : carry = m.step.2.processor.flags.carry)
    (rest : Chain operation decimal carry machines flags) :
    Chain operation decimal m.processor.flags.carry (m :: machines) flags :=
  .more head (hcarry ▸ rest)

theorem ne_nil (h : Chain operation decimal carry machines flags) : machines ≠ [] := by
  cases h <;> exact List.cons_ne_nil _ _

theorem performs (h : Chain operation decimal carry machines flags) :
    ∀ m ∈ machines, m.Performs operation decimal := by
  induction h with
  | last head => exact List.forall_mem_singleton.mpr head
  | more head _ ih => exact List.forall_mem_cons.mpr ⟨head, ih⟩

/-- If every instruction leaves one digit and a carry that make the sum of two digits and the carry
before it, then the chain adds the numbers of these digits. -/
theorem ofDigits_add (h : Chain operation decimal carry machines flags) {base : Nat}
    {left right result : Machine B → Nat}
    (hsum : ∀ m ∈ machines, result m + base * m.step.2.processor.flags.carry.toNat =
      left m + right m + m.processor.flags.carry.toNat) :
    Nat.ofDigits base (machines.map result) + base ^ machines.length * flags.carry.toNat =
      Nat.ofDigits base (machines.map left) + Nat.ofDigits base (machines.map right) +
        carry.toNat := by
  induction h with
  | @last m _ =>
    simpa [Nat.ofDigits_cons] using hsum m (List.mem_singleton_self m)
  | @more m machines flags _ _ ih =>
    have hhead := hsum m (List.mem_cons_self ..)
    have hrest := ih fun other hother ↦ hsum other (List.mem_cons_of_mem _ hother)
    simp only [List.map_cons, List.length_cons, Nat.ofDigits_cons, Nat.pow_succ']
    calc
      _ = result m + base * (Nat.ofDigits base (machines.map result) +
          base ^ machines.length * flags.carry.toNat) := by
        ring
      _ = result m + base * m.step.2.processor.flags.carry.toNat +
          base * (Nat.ofDigits base (machines.map left) +
            Nat.ofDigits base (machines.map right)) := by
        rw [hrest]
        ring
      _ = _ := by
        rw [hhead]
        ring

end Chain

/-- A machine that stands before an instruction with an immediate operand. -/
def beforeImmediate (opcode operand a : Byte) (decimal carry : Bool) : Machine FlatMemory where
  processor := { Processor.initial 0 with a := a, flags := { decimal := decimal, carry := carry } }
  bus := FlatMemory.zeroed.load 0 [opcode, operand]

theorem read_beforeImmediate (opcode operand a : Byte) (decimal carry : Bool) :
    (beforeImmediate opcode operand a decimal carry).read 0 = opcode ∧
      (beforeImmediate opcode operand a decimal carry).read 1 = operand := by
  simp [beforeImmediate, read, Bus.read, FlatMemory.load, FlatMemory.read_write]

section

variable {opcode : Byte} {i : Instruction} (hdecode : Instruction.ofOpcode? opcode = some i)

include hdecode

theorem performs_beforeImmediate (operand a : Byte) (decimal carry : Bool) :
    (beforeImmediate opcode operand a decimal carry).Performs i.operation decimal :=
  ⟨nextOperation?_eq rfl ((congrArg _ (read_beforeImmediate ..).1).trans hdecode), rfl⟩

theorem operandByte_beforeImmediate (hmode : i.mode = .immediate) (operand a : Byte)
    (decimal carry : Bool) :
    (beforeImmediate opcode operand a decimal carry).operandByte = operand := by
  have hread := read_beforeImmediate opcode operand a decimal carry
  have hdecoded : Instruction.ofOpcode? ((beforeImmediate opcode operand a decimal carry).read
      (beforeImmediate opcode operand a decimal carry).processor.pc) = some i :=
    (congrArg _ hread.1).trans hdecode
  rw [operandByte, hdecoded, Option.elim_some, hmode]
  exact hread.2

/-- Any two sequences of bytes of one length, and any carry, are those of a chain: what is said of
chains is said of all pairs of numbers. -/
theorem exists_chain (hmode : i.mode = .immediate) (decimal carry : Bool)
    {left right : List Byte} (hlength : left.length = right.length) (hleft : left ≠ []) :
    ∃ (machines : List (Machine FlatMemory)) (flags : Flags),
      Chain i.operation decimal carry machines flags ∧ accumulators machines = left ∧
        operands machines = right := by
  induction left generalizing carry right with
  | nil => exact absurd rfl hleft
  | cons a left ih =>
    obtain ⟨operand, right, rfl⟩ := List.exists_cons_of_length_eq_add_one hlength.symm
    have hperforms := performs_beforeImmediate hdecode operand a decimal carry
    have hoperand := operandByte_beforeImmediate hdecode hmode operand a decimal carry
    by_cases hrest : left = []
    · subst hrest
      obtain rfl := List.eq_nil_of_length_eq_zero (Nat.succ.inj hlength).symm
      refine ⟨_, _, .last hperforms, rfl, ?_⟩
      exact congrArg (fun byte ↦ [byte]) hoperand
    · obtain ⟨machines, flags, hchain, haccumulators, hoperands⟩ :=
        ih (beforeImmediate opcode operand a decimal carry).step.2.processor.flags.carry
          (Nat.succ.inj hlength) hrest
      refine ⟨_, _, .more hperforms hchain, ?_, ?_⟩
      · exact congrArg (a :: ·) haccumulators
      · exact congrArg₂ List.cons hoperand hoperands

end

end Machine

end VideoComputer
