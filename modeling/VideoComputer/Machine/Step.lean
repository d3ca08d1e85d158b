import VideoComputer.Machine.Execute

/-!
# Steps and runs

One step runs one instruction. An undocumented opcode halts the processor: it is reported once,
and from then on every step is refused and changes nothing. A run takes steps until a number of
cycles has gone by.
-/

namespace VideoComputer.Machine

variable {B : Type} [Bus B]

/-- Latches the halt at an undocumented opcode. -/
def halt (m : Machine B) (opcode : Byte) (address : Word) : Machine B :=
  (m.mapProcessor fun p ↦ { p with halted := true }).note
    (.logged (.undocumentedOpcode opcode address))

/-- Runs the instruction at the program counter and tells how many cycles it took. The trace shows
the state before; the cycles are added to the count the instruction started from. -/
def step (m : Machine B) : Except Failure Nat × Machine B :=
  if m.processor.halted then (.error .halted, m)
  else
    let address := m.processor.pc
    let start := m.processor.cycles
    let (opcode, m) := m.trace.fetchByte
    match Instruction.ofOpcode? opcode with
    | none => (.error (.unimplementedOpcode opcode address), m.halt opcode address)
    | some instruction =>
      match m.execute instruction.mode instruction.operation.action with
      | (.error failure, m) => (.error failure, m)
      | (.ok extra, m) =>
        let cycles := instruction.baseCycles + extra
        (.ok cycles, m.mapProcessor fun p ↦ { p with cycles := start + cycles })

/-- The machine after `count` steps, whether they succeed or not. -/
def after (m : Machine B) : Nat → Machine B
  | 0 => m
  | count + 1 => m.step.2.after count

theorem step_of_halted {m : Machine B} (h : m.processor.halted = true) :
    m.step = (.error .halted, m) := by
  simp [step, h]

theorem after_of_halted {m : Machine B} (h : m.processor.halted = true) (count : Nat) :
    m.after count = m := by
  induction count with
  | zero => rfl
  | succ count ih => rw [after, step_of_halted h, ih]

theorem after_add (m : Machine B) (first second : Nat) :
    m.after (first + second) = (m.after first).after second := by
  induction first generalizing m with
  | zero => simp [after]
  | succ first ih => rw [Nat.succ_add, after, after, ih]

/-- A completed step costs something, and the cycle counter grows by that. -/
theorem cycles_step {m m' : Machine B} {cycles : Nat} (h : m.step = (.ok cycles, m')) :
    2 ≤ cycles ∧ m'.processor.cycles = m.processor.cycles + cycles := by
  unfold step at h
  split at h
  · cases h
  · simp only at h
    split at h
    · cases h
    · rename_i instruction hdecode
      split at h
      · cases h
      · cases h
        have hbase := Instruction.two_le_baseCycles hdecode
        exact ⟨by omega, rfl⟩

/-- Steps until the cycle counter reaches the target. -/
def runUntil (m : Machine B) (target : Nat) : Except Failure Unit × Machine B :=
  if m.processor.cycles < target then
    match _h : m.step with
    | (.error failure, m') => (.error failure, m')
    | (.ok _, m') => m'.runUntil target
  else (.ok (), m)
termination_by target - m.processor.cycles
decreasing_by
  have hcycles := cycles_step _h
  omega

/-- Steps until the budget is used up, and tells the cycles used: the last instruction may go
beyond. -/
def runForCycles (m : Machine B) (budget : Nat) : Except Failure Nat × Machine B :=
  let start := m.processor.cycles
  match m.runUntil (start + budget) with
  | (.error failure, m) => (.error failure, m)
  | (.ok (), m) => (.ok (m.processor.cycles - start), m)

end VideoComputer.Machine
