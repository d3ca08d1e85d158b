import VideoComputer.Proofs.Machine.Effects
import VideoComputer.Proofs.Machine.Run

/-!
# Courses of steps

What a driver makes of a machine is always the same: it attempts steps in a row, and the first
failure ends them. A `Course` tells the number of attempts, the failure and the machine that is left,
so that it does not matter which driver made them. Courses that follow each other are one course.
-/

namespace VideoComputer

/-- The failure that a result reports. -/
def failureOf {α : Type} : Except Failure α → Option Failure
  | .ok _ => none
  | .error failure => some failure

namespace Machine

variable {B : Type} [Bus B]

/-- How many of so many steps in a row are attempted: all of them, or those up to the first that
fails, which is counted. -/
def attempts (m : Machine B) : Nat → Nat
  | 0 => 0
  | count + 1 =>
    match m.step with
    | (.error _, _) => 1
    | (.ok _, next) => next.attempts count + 1

/-- How many steps a run attempts until the cycle counter reaches the target or a step fails. -/
def attemptsUntil (m : Machine B) (target : Nat) : Nat :=
  if m.processor.cycles < target then
    match _h : m.step with
    | (.error _, _) => 1
    | (.ok _, next) => next.attemptsUntil target + 1
  else 0
termination_by target - m.processor.cycles
decreasing_by
  have hcycles := cycles_step _h
  omega

/-- So many attempts in a row that all succeed, or of which the last one fails. -/
inductive Course (m : Machine B) : Nat → Option Failure → Machine B → Prop where
  | completed {count : Nat} (h : m.Completes count) : Course m count none (m.after count)
  | failed {count : Nat} {failure : Failure} (h : m.Completes count)
      (hfailure : (m.after count).step.1 = .error failure) :
      Course m (count + 1) (some failure) (m.after (count + 1))

variable {m next m' : Machine B} {first second count : Nat} {failure : Failure}
  {failure? : Option Failure}

theorem Completes.of_le (h : m.Completes second) (hle : first ≤ second) : m.Completes first :=
  fun k hk ↦ h k (Nat.lt_of_lt_of_le hk hle)

/-- A run of successful steps starts with one, and the others follow it. -/
theorem Completes.uncons (h : m.Completes (count + 1)) :
    ∃ cycles next, m.step = (.ok cycles, next) ∧ next.Completes count := by
  obtain ⟨cycles, hstep⟩ := h 0 (Nat.succ_pos count)
  refine ⟨cycles, m.step.2, Prod.ext hstep rfl, fun k hk ↦ ?_⟩
  exact h (k + 1) (Nat.succ_lt_succ hk)

/-- Where a step can go: nowhere on a halted processor, into the halt at an undocumented opcode, and
through a documented instruction otherwise. -/
theorem step_cases (m : Machine B) :
    (m.processor.halted = true ∧ m.step = (.error .halted, m)) ∨
    (m.processor.halted = false ∧ Instruction.ofOpcode? (m.read m.processor.pc) = none ∧
      m.step = (.error (.unimplementedOpcode (m.read m.processor.pc) m.processor.pc),
        m.fetched.halt (m.read m.processor.pc) m.processor.pc)) ∨
    (m.processor.halted = false ∧
      ∃ i, Instruction.ofOpcode? (m.read m.processor.pc) = some i ∧
        ∃ extra last, m.fetched.execute i.mode i.operation.action = (.ok extra, last) ∧
          last.processor.halted = false ∧
          m.step = (.ok (i.baseCycles + extra), last.mapProcessor fun p ↦
            { p with cycles := m.processor.cycles + (i.baseCycles + extra) })) := by
  cases hrunning : m.processor.halted with
  | true => exact .inl ⟨rfl, step_of_halted hrunning⟩
  | false =>
    cases hdecode : Instruction.ofOpcode? (m.read m.processor.pc) with
    | none => exact .inr (.inl ⟨rfl, rfl, step_of_undocumented hrunning hdecode⟩)
    | some i =>
      obtain ⟨extra, last, hexecute, hwithin⟩ :=
        execute_within (m := m.fetched) i.operation.action (Instruction.namesAddress hdecode)
      refine .inr (.inr ⟨rfl, i, rfl, extra, last, hexecute, ?_,
        step_of_execute hrunning hdecode hexecute⟩)
      rw [hwithin.processor.halted, processor_fetched, hrunning]

/-- A successful step leaves the processor running. -/
theorem running_of_step {cycles : Nat} (h : m.step = (.ok cycles, next)) :
    next.processor.halted = false := by
  obtain ⟨-, hstep⟩ | ⟨-, -, hstep⟩ | ⟨-, i, -, extra, last, -, hlast, hstep⟩ := m.step_cases
  · rw [hstep] at h
    cases h
  · rw [hstep] at h
    cases h
  · rw [hstep] at h
    cases h
    exact hlast

/-- A step fails on a halted processor, where it does nothing, or at an undocumented opcode. -/
theorem step_error_cases (h : m.step = (.error failure, m')) :
    (m.processor.halted = true ∧ failure = .halted ∧ m' = m) ∨
    (m.processor.halted = false ∧ Instruction.ofOpcode? (m.read m.processor.pc) = none ∧
      failure = .unimplementedOpcode (m.read m.processor.pc) m.processor.pc ∧
      m' = m.fetched.halt (m.read m.processor.pc) m.processor.pc) := by
  obtain ⟨hhalted, hstep⟩ | ⟨hrunning, hdecode, hstep⟩ | ⟨-, i, -, extra, last, -, -, hstep⟩ :=
      m.step_cases
  · rw [hstep] at h
    cases h
    exact .inl ⟨hhalted, rfl, rfl⟩
  · rw [hstep] at h
    cases h
    exact .inr ⟨hrunning, hdecode, rfl, rfl⟩
  · rw [hstep] at h
    cases h

namespace Course

theorem eq_after (h : m.Course count failure? m') : m' = m.after count := by
  cases h with
  | completed | failed => rfl

theorem completes (h : m.Course count none m') : m.Completes count := by
  cases h with
  | completed hcompletes => exact hcompletes

/-- Every step but the last of a course succeeds. -/
theorem completes_of_lt {done : Nat} (h : m.Course count failure? m') (hdone : done < count) :
    m.Completes done := by
  cases h with
  | completed hcompletes => exact hcompletes.of_le (Nat.le_of_lt hdone)
  | failed hcompletes => exact hcompletes.of_le (Nat.le_of_lt_succ hdone)

/-- A course that fails has a successful part and the step that fails. -/
theorem exists_failed (h : m.Course count (some failure) m') :
    ∃ done, count = done + 1 ∧ m.Completes done ∧ (m.after done).step = (.error failure, m') := by
  cases h with
  | @failed done _ hcompletes hfailure =>
    refine ⟨done, rfl, hcompletes, Prod.ext hfailure ?_⟩
    rw [← after_succ]

/-- A course of steps that all succeed does not fail. -/
theorem eq_none_of_completes (h : m.Course count failure? m') (hcompletes : m.Completes count) :
    failure? = none := by
  cases h with
  | completed => rfl
  | @failed done _ _ hfailure =>
    obtain ⟨cycles, hok⟩ := hcompletes done (Nat.lt_succ_self done)
    rw [hfailure] at hok
    cases hok

/-- A course fails at a halted processor or at an undocumented opcode, and never otherwise. -/
theorem failure_cases (h : m.Course count (some failure) m') :
    failure = .halted ∨ ∃ opcode address, failure = .unimplementedOpcode opcode address := by
  obtain ⟨done, -, -, hstep⟩ := h.exists_failed
  obtain ⟨-, rfl, -⟩ | ⟨-, -, rfl, -⟩ := step_error_cases hstep
  · exact .inl rfl
  · exact .inr ⟨_, _, rfl⟩

theorem zero (m : Machine B) : m.Course 0 none m := .completed m.completes_zero

theorem of_error (h : m.step = (.error failure, m')) : m.Course 1 (some failure) m' := by
  have hcourse : m.Course 1 (some failure) (m.after 1) :=
    .failed m.completes_zero (congrArg Prod.fst h)
  rwa [after_succ, after_zero, h] at hcourse

/-- A course may go on where a successful one ends. -/
theorem trans (hfirst : m.Course first none next) (hsecond : next.Course second failure? m') :
    m.Course (first + second) failure? m' := by
  obtain rfl := hfirst.eq_after
  cases hsecond with
  | completed hcompletes =>
    rw [← after_add]
    exact .completed (hfirst.completes.add hcompletes)
  | @failed done _ hcompletes hfailure =>
    rw [← after_add] at hfailure ⊢
    exact .failed (hfirst.completes.add hcompletes) hfailure

theorem cons {cycles : Nat} (hstep : m.step = (.ok cycles, next))
    (hrest : next.Course count failure? m') : m.Course (count + 1) failure? m' := by
  have hfirst : m.Course 1 none next := by
    have hcourse : m.Course 1 none (m.after 1) := .completed (.cons hstep (completes_zero _))
    rwa [after_succ, after_zero, hstep] at hcourse
  rw [Nat.add_comm]
  exact hfirst.trans hrest

end Course

theorem attempts_le (m : Machine B) (count : Nat) : m.attempts count ≤ count := by
  induction count generalizing m with
  | zero => exact Nat.le_refl 0
  | succ count ih =>
    unfold attempts
    split
    · omega
    · exact Nat.succ_le_succ (ih _)

theorem attempts_of_completes (h : m.Completes count) : m.attempts count = count := by
  induction count generalizing m with
  | zero => rfl
  | succ count ih =>
    obtain ⟨cycles, next, hstep, hrest⟩ := h.uncons
    simp only [attempts, hstep, ih hrest]

/-- Attempts go on behind a successful part. -/
theorem attempts_add (h : m.Completes first) (second : Nat) :
    m.attempts (first + second) = first + (m.after first).attempts second := by
  induction first generalizing m with
  | zero => simp
  | succ first ih =>
    obtain ⟨cycles, next, hstep, hrest⟩ := h.uncons
    simp only [Nat.succ_add, attempts, after, hstep, ih hrest]

/-- Behind a failure nothing more is attempted. -/
theorem Course.attempts_eq (h : m.Course count (some failure) m') {bound : Nat}
    (hbound : count ≤ bound) : m.attempts bound = count := by
  obtain ⟨done, rfl, hcompletes, hfailure⟩ := h.exists_failed
  obtain ⟨rest, rfl⟩ := Nat.exists_eq_add_of_le hbound
  have hone : (m.after done).attempts (1 + rest) = 1 := by
    rw [Nat.add_comm]
    simp only [attempts, hfailure]
  rw [Nat.add_assoc, attempts_add hcompletes, hone]

theorem attemptsUntil_of_ok {target cycles : Nat} (hbelow : m.processor.cycles < target)
    (hstep : m.step = (.ok cycles, next)) :
    m.attemptsUntil target = next.attemptsUntil target + 1 := by
  rw [attemptsUntil, if_pos hbelow]
  split
  · rename_i herror
    rw [hstep] at herror
    cases herror
  · rename_i hok
    rw [hstep] at hok
    cases hok
    rfl

theorem attemptsUntil_of_error {target : Nat} (hbelow : m.processor.cycles < target)
    (hstep : m.step = (.error failure, m')) : m.attemptsUntil target = 1 := by
  rw [attemptsUntil, if_pos hbelow]
  split
  · rfl
  · rename_i hok
    rw [hstep] at hok
    cases hok

theorem runUntil_of_error {target : Nat} (hbelow : m.processor.cycles < target)
    (hstep : m.step = (.error failure, m')) : m.runUntil target = (.error failure, m') := by
  rw [runUntil, if_pos hbelow]
  split
  · rename_i herror
    rw [hstep] at herror
    cases herror
    rfl
  · rename_i hok
    rw [hstep] at hok
    cases hok

theorem runUntil_of_ok {target cycles : Nat} (hbelow : m.processor.cycles < target)
    (hstep : m.step = (.ok cycles, next)) : m.runUntil target = next.runUntil target := by
  rw [runUntil, if_pos hbelow]
  split
  · rename_i herror
    rw [hstep] at herror
    cases herror
  · rename_i hok
    rw [hstep] at hok
    cases hok
    rfl

/-- A run until a number of cycles is a course. -/
theorem runUntil_course (m : Machine B) (target : Nat) :
    m.Course (m.attemptsUntil target) (failureOf (m.runUntil target).1)
      (m.runUntil target).2 := by
  fun_induction runUntil m target with
  | case1 m hbelow failure m' hstep =>
    rw [attemptsUntil_of_error hbelow hstep]
    exact .of_error hstep
  | case2 m hbelow cycles next hstep ih =>
    rw [attemptsUntil_of_ok hbelow hstep]
    exact .cons hstep ih
  | case3 m hreached =>
    rw [attemptsUntil, if_neg hreached]
    exact .zero m

end Machine

end VideoComputer
