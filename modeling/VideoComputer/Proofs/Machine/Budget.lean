import Mathlib.Algebra.BigOperators.Group.Finset.Basic
import Mathlib.Order.Bounds.Basic
import VideoComputer.Proofs.Console.Checks

/-!
# Running for a budget of cycles

A run for a budget takes the fewest steps after which the cycles reach the budget or a step has
failed. A step that succeeds takes two cycles at least and seven at most, so that the steps are no
more than half the budget and the excess is no more than six. Main statements: what a run for a
budget does, and that two of them in a row are one.

The cycle counter has 64 bits. A twin of the run checks that whatever is stored there fits.
-/

namespace VideoComputer.Machine

open Finset

variable {B : Type} [Bus B] {m next last : Machine B} {budget count done target : Nat}

/-! ## What steps cost -/

/-- The cycles that the next step returns; a step that fails returns none. -/
def cost (m : Machine B) : Nat :=
  match m.step.1 with
  | .ok cycles => cycles
  | .error _ => 0

/-- The cycles that the first steps return, all told. -/
def spent (m : Machine B) (count : Nat) : Nat := ∑ k ∈ range count, (m.after k).cost

theorem spent_succ (m : Machine B) (count : Nat) :
    m.spent (count + 1) = m.spent count + (m.after count).cost :=
  sum_range_succ _ count

theorem cost_le_seven (m : Machine B) : m.cost ≤ 7 := by
  unfold cost
  split
  · rename_i cycles hok
    exact cycles_le_seven hok
  · omega

theorem two_le_cost {cycles : Nat} (h : m.step.1 = .ok cycles) : 2 ≤ m.cost := by
  have hstep : m.step = (.ok cycles, m.step.2) := Prod.ext h rfl
  simp only [cost, h]
  exact (cycles_step hstep).1

/-- Failing or not, a step moves the cycle counter by what it returns. -/
theorem cycles_step_snd (m : Machine B) :
    m.step.2.processor.cycles = m.processor.cycles + m.cost := by
  unfold cost
  match hstep : m.step with
  | (.ok cycles, next) => exact (cycles_step hstep).2
  | (.error failure, next) =>
    obtain ⟨-, -, rfl⟩ | ⟨-, -, -, rfl⟩ := step_error_cases hstep
    · rfl
    · exact (congrArg Processor.cycles m.processor_fetched :)

theorem cycles_after (m : Machine B) (count : Nat) :
    (m.after count).processor.cycles = m.processor.cycles + m.spent count := by
  induction count with
  | zero => rfl
  | succ count ih =>
    calc
      (m.after (count + 1)).processor.cycles
          = (m.after count).processor.cycles + (m.after count).cost := by
        rw [after_succ, cycles_step_snd]
      _ = m.processor.cycles + m.spent (count + 1) := by rw [ih, spent_succ, Nat.add_assoc]

/-- Every step that succeeds costs two cycles at least. -/
theorem spent_add_two_mul_le {first second : Nat} (h : m.Completes second) (hle : first ≤ second) :
    m.spent first + 2 * (second - first) ≤ m.spent second := by
  induction second with
  | zero =>
    obtain rfl := Nat.le_zero.mp hle
    exact Nat.le_refl _
  | succ second ih =>
    obtain hbefore | rfl := Nat.lt_or_eq_of_le hle
    · have hgrowth := ih (h.of_le (Nat.le_succ second)) (Nat.le_of_lt_succ hbefore)
      obtain ⟨cycles, hlast⟩ := h second (Nat.lt_succ_self second)
      have hcost := two_le_cost hlast
      rw [spent_succ]
      omega
    · omega

theorem two_mul_le_spent (h : m.Completes count) : 2 * count ≤ m.spent count := by
  have hgrowth := spent_add_two_mul_le h (Nat.zero_le count)
  omega

/-- A machine tells how many steps have made it of another one. -/
theorem Course.count_unique {first second : Nat} (hfirst : m.Course first none next)
    (hsecond : m.Course second none next) : first = second := by
  have hspent : m.spent first = m.spent second := by
    have hcycles := congrArg (·.processor.cycles) (hfirst.eq_after.symm.trans hsecond.eq_after)
    simp only [cycles_after] at hcycles
    exact Nat.add_left_cancel hcycles
  obtain hle | hle := Nat.le_total first second
  · have hgrowth := spent_add_two_mul_le hsecond.completes hle
    omega
  · have hgrowth := spent_add_two_mul_le hfirst.completes hle
    omega

/-! ## The steps of a run -/

/-- So many steps are enough: their cycles reach the budget, or one of them fails. -/
def Done (m : Machine B) (budget count : Nat) : Prop :=
  budget ≤ m.spent count ∨ ¬m.Completes count

/-- A run attempts no step once the cycle counter has reached the target. -/
theorem cycles_after_lt (h : done < m.attemptsUntil target) :
    (m.after done).processor.cycles < target := by
  fun_induction attemptsUntil m target generalizing done with
  | case1 m hbelow failure next hstep =>
    obtain rfl : done = 0 := Nat.lt_one_iff.mp h
    exact hbelow
  | case2 m hbelow cycles next hstep ih =>
    cases done with
    | zero => exact hbelow
    | succ done =>
      rw [after, hstep]
      exact ih (Nat.lt_of_succ_lt_succ h)
  | case3 => exact absurd h (Nat.not_lt_zero done)

theorem cycles_le_runUntil (m : Machine B) (target : Nat) :
    m.processor.cycles ≤ (m.runUntil target).2.processor.cycles := by
  rw [(m.runUntil_course target).eq_after, cycles_after]
  exact Nat.le_add_right _ _

/-- A run for a budget is a run to a target that tells how far the counter has moved. -/
theorem runForCycles_eq (m : Machine B) (budget : Nat) :
    m.runForCycles budget =
      ((m.runUntil (m.processor.cycles + budget)).1.map fun _ ↦
          (m.runUntil (m.processor.cycles + budget)).2.processor.cycles - m.processor.cycles,
        (m.runUntil (m.processor.cycles + budget)).2) := by
  rw [runForCycles]
  cases m.runUntil (m.processor.cycles + budget) with
  | mk result last =>
    cases result with
    | ok | error => rfl

/-- How many steps a run for a budget attempts. -/
def attemptsFor (m : Machine B) (budget : Nat) : Nat :=
  m.attemptsUntil (m.processor.cycles + budget)

theorem completes_of_lt_attemptsFor (h : done < m.attemptsFor budget) : m.Completes done :=
  (m.runForCycles_course budget).completes_of_lt h

theorem spent_lt_of_lt_attemptsFor (h : done < m.attemptsFor budget) : m.spent done < budget := by
  have hbelow := cycles_after_lt h
  rw [cycles_after] at hbelow
  omega

theorem attemptsFor_le (m : Machine B) (budget : Nat) :
    m.attemptsFor budget ≤ (budget + 1) / 2 := by
  match hattempts : m.attemptsFor budget with
  | 0 => exact Nat.zero_le _
  | done + 1 =>
    have hdone : done < m.attemptsFor budget := by omega
    have hspent := spent_lt_of_lt_attemptsFor hdone
    have hcosts := two_mul_le_spent (completes_of_lt_attemptsFor hdone)
    omega

/-- Only the last step can go beyond the budget. -/
theorem spent_attemptsFor_le (m : Machine B) (budget : Nat) :
    m.spent (m.attemptsFor budget) ≤ budget + 6 := by
  match hattempts : m.attemptsFor budget with
  | 0 => exact Nat.zero_le _
  | done + 1 =>
    have hspent : m.spent done < budget := spent_lt_of_lt_attemptsFor (by omega)
    have hcost := (m.after done).cost_le_seven
    rw [spent_succ]
    omega

/-- How a run for a budget ends: its cycles have reached the budget, or its last step has failed. -/
theorem runForCycles_cases (m : Machine B) (budget : Nat) :
    (m.Completes (m.attemptsFor budget) ∧ budget ≤ m.spent (m.attemptsFor budget) ∧
      m.runForCycles budget =
        (.ok (m.spent (m.attemptsFor budget)), m.after (m.attemptsFor budget))) ∨
    ∃ done failure, m.attemptsFor budget = done + 1 ∧ m.Completes done ∧
      (m.after done).step = (.error failure, m.after (done + 1)) ∧
      m.runForCycles budget = (.error failure, m.after (done + 1)) := by
  have hcourse := m.runUntil_course (m.processor.cycles + budget)
  match hrun : m.runUntil (m.processor.cycles + budget) with
  | (.ok (), last) =>
    rw [hrun] at hcourse
    obtain rfl : last = m.after (m.attemptsFor budget) := hcourse.eq_after
    have hreached := le_cycles_of_runUntil hrun
    rw [cycles_after] at hreached
    refine .inl ⟨hcourse.completes, Nat.le_of_add_le_add_left hreached, ?_⟩
    simp only [runForCycles, hrun, cycles_after, Nat.add_sub_cancel_left]
  | (.error failure, last) =>
    rw [hrun] at hcourse
    obtain ⟨done, hattempts, hcompletes, hfailure⟩ := hcourse.exists_failed
    obtain rfl : last = m.after (done + 1) := hattempts ▸ hcourse.eq_after
    refine .inr ⟨done, failure, hattempts, hcompletes, hfailure, ?_⟩
    simp only [runForCycles, hrun]

/-- A run stops as soon as it is done. -/
theorem isLeast_attemptsFor (m : Machine B) (budget : Nat) :
    IsLeast {count | m.Done budget count} (m.attemptsFor budget) := by
  constructor
  · obtain ⟨-, hreached, -⟩ | ⟨done, failure, hattempts, -, hstep, -⟩ := m.runForCycles_cases budget
    · exact .inl hreached
    · refine .inr fun hcompletes ↦ ?_
      obtain ⟨cycles, hok⟩ := hcompletes done (by omega)
      rw [hstep] at hok
      cases hok
  · intro count hdone
    by_contra hbefore
    have hlt : count < m.attemptsFor budget := Nat.lt_of_not_le hbefore
    obtain hreached | hfails := hdone
    · exact absurd hreached (Nat.not_le_of_lt (spent_lt_of_lt_attemptsFor hlt))
    · exact hfails (completes_of_lt_attemptsFor hlt)

/-! ## A counter of 64 bits -/

/-- A checked step whose cycles, added to those before, have to fit the counter. -/
def countedStep (m : Machine B) : Except Fault (Except Failure Nat × Machine B) := do
  match ← m.checkedStep with
  | (.error failure, next) => return (.error failure, next)
  | (.ok cycles, next) =>
    let _ ← Checked.unsigned 64 (m.processor.cycles + cycles)
    return (.ok cycles, next)

theorem countedStep_of_error {failure : Failure} (h : m.step = (.error failure, next)) :
    m.countedStep = .ok (.error failure, next) := by
  rw [countedStep, checkedStep_eq, h]
  rfl

theorem countedStep_of_ok {cycles : Nat} (h : m.step = (.ok cycles, next)) :
    m.countedStep = (do
      let _ ← Checked.unsigned 64 (m.processor.cycles + cycles)
      return (.ok cycles, next)) := by
  rw [countedStep, checkedStep_eq, h]
  rfl

theorem step_of_counted {result : Except Failure Nat × Machine B}
    (h : m.countedStep = .ok result) : m.step = result := by
  match hstep : m.step with
  | (.error failure, next) =>
    rw [countedStep_of_error hstep] at h
    exact Except.ok.inj h
  | (.ok cycles, next) =>
    rw [countedStep_of_ok hstep, Checked.unsigned] at h
    split at h
    · exact Except.ok.inj h
    · cases h

def countedRunUntil (m : Machine B) (target : Nat) :
    Except Fault (Except Failure Unit × Machine B) :=
  if m.processor.cycles < target then
    match _h : m.countedStep with
    | .error fault => .error fault
    | .ok (.error failure, next) => .ok (.error failure, next)
    | .ok (.ok _, next) => next.countedRunUntil target
  else .ok (.ok (), m)
termination_by target - m.processor.cycles
decreasing_by
  have hcycles := cycles_step (step_of_counted _h)
  omega

/-- The target has to fit the counter as well, and the cycles used must not be negative. -/
def countedRunForCycles (m : Machine B) (budget : Nat) :
    Except Fault (Except Failure Nat × Machine B) := do
  let start := m.processor.cycles
  let target ← Checked.unsigned 64 (start + budget)
  match ← m.countedRunUntil target with
  | (.error failure, m) => return (.error failure, m)
  | (.ok (), m) =>
    let used ← Checked.difference m.processor.cycles start
    return (.ok used, m)

theorem countedRunUntil_of_step (hbelow : m.processor.cycles < target) :
    m.countedRunUntil target = match m.countedStep with
      | .error fault => .error fault
      | .ok (.error failure, next) => .ok (.error failure, next)
      | .ok (.ok _, next) => next.countedRunUntil target := by
  rw [countedRunUntil, if_pos hbelow]
  split <;> rename_i hstep <;> rw [hstep]

/-- The counter never goes back: a run stops at it only if what it should leave does not fit. -/
theorem countedRunUntil_cases (m : Machine B) (target : Nat)
    (hstart : m.processor.cycles < 2 ^ 64) :
    ((m.runUntil target).2.processor.cycles < 2 ^ 64 ∧
      m.countedRunUntil target = .ok (m.runUntil target)) ∨
    (¬(m.runUntil target).2.processor.cycles < 2 ^ 64 ∧
      ∃ fault, m.countedRunUntil target = .error fault) := by
  fun_induction runUntil m target with
  | case1 m hbelow failure next hstep =>
    have hstays : next.processor.cycles = m.processor.cycles := by
      have hmoves := m.cycles_step_snd
      simpa only [cost, hstep, Nat.add_zero] using hmoves
    rw [countedRunUntil_of_step hbelow, countedStep_of_error hstep]
    exact .inl ⟨hstays ▸ hstart, rfl⟩
  | case2 m hbelow cycles next hstep ih =>
    have hnext := (cycles_step hstep).2
    rw [countedRunUntil_of_step hbelow, countedStep_of_ok hstep, Checked.unsigned]
    by_cases hfits : m.processor.cycles + cycles < 2 ^ 64
    · rw [if_pos hfits]
      exact ih (hnext ▸ hfits)
    · have hgrows := next.cycles_le_runUntil target
      rw [if_neg hfits]
      exact .inr ⟨by omega, _, rfl⟩
  | case3 m hreached =>
    rw [countedRunUntil, if_neg hreached]
    exact .inl ⟨hstart, rfl⟩

/-- The counter is wide enough for a run if the target and the count that the run leaves fit. -/
theorem countedRunForCycles_eq_iff (m : Machine B) (budget : Nat) :
    m.countedRunForCycles budget = .ok (m.runForCycles budget) ↔
      m.processor.cycles + budget < 2 ^ 64 ∧
        (m.runForCycles budget).2.processor.cycles < 2 ^ 64 := by
  rw [countedRunForCycles, runForCycles_eq]
  by_cases htarget : m.processor.cycles + budget < 2 ^ 64
  · simp only [Checked.unsigned_of_lt htarget, Checked.bind_ok]
    obtain ⟨hfits, hcounted⟩ | ⟨hover, fault, hcounted⟩ :=
      m.countedRunUntil_cases (m.processor.cycles + budget) (by omega)
    · have hgrows := m.cycles_le_runUntil (m.processor.cycles + budget)
      refine iff_of_true ?_ ⟨htarget, hfits⟩
      rw [hcounted, Checked.bind_ok]
      cases hrun : m.runUntil (m.processor.cycles + budget) with
      | mk result last =>
        rw [hrun] at hgrows
        cases result with
        | error => rfl
        | ok =>
          simp only [Checked.difference_of_le hgrows]
          rfl
    · rw [hcounted]
      refine iff_of_false (fun hcounted ↦ ?_) fun h ↦ hover h.2
      cases hcounted
  · rw [Checked.unsigned, if_neg htarget]
    refine iff_of_false (fun hcounted ↦ ?_) fun h ↦ htarget h.1
    cases hcounted

/-- Six cycles beyond the target are room enough. -/
theorem countedRunForCycles_eq (hroom : m.processor.cycles + budget + 6 < 2 ^ 64) :
    m.countedRunForCycles budget = .ok (m.runForCycles budget) := by
  have hspent := m.spent_attemptsFor_le budget
  rw [countedRunForCycles_eq_iff, (m.runForCycles_course budget).eq_after, cycles_after]
  change _ ∧ m.processor.cycles + m.spent (m.attemptsFor budget) < 2 ^ 64
  omega

/-- Without a budget nothing is run, not even on a halted processor. -/
theorem runForCycles_zero (m : Machine B) : m.runForCycles 0 = (.ok 0, m) := by
  rw [runForCycles, runUntil, if_neg (by omega)]
  simp

/-- **A run stops at the first state that meets the budget.** The 64 bits of the counter are enough
if they leave six cycles beyond the budget. The run attempts the least number of steps after which
their cycles reach the budget or one of them has failed, at most one for every two cycles. Unless
one fails, it returns the cycles of all of them, which exceed the budget by six at most; otherwise
it returns the failure and leaves what the failing step has left, and the counter has moved by the
cycles of the steps before. -/
theorem runForCycles_isLeast (m : Machine B) (budget : Nat)
    (hroom : m.processor.cycles + budget + 6 < 2 ^ 64) :
    m.countedRunForCycles budget = .ok (m.runForCycles budget) ∧
    (budget = 0 → m.runForCycles budget = (.ok 0, m)) ∧
    ∃ count ≤ (budget + 1) / 2, m.attemptsFor budget = count ∧
      IsLeast {count | m.Done budget count} count ∧
      ((m.Completes count ∧ m.runForCycles budget = (.ok (m.spent count), m.after count) ∧
          budget ≤ m.spent count ∧ m.spent count ≤ budget + 6) ∨
        ∃ done failure, count = done + 1 ∧ m.Completes done ∧
          (m.after done).step = (.error failure, m.after count) ∧
          m.runForCycles budget = (.error failure, m.after count) ∧
          (m.after count).processor.cycles = m.processor.cycles + m.spent done) := by
  refine ⟨countedRunForCycles_eq hroom, ?_, m.attemptsFor budget, m.attemptsFor_le budget, rfl,
    m.isLeast_attemptsFor budget, ?_⟩
  · rintro rfl
    exact m.runForCycles_zero
  · obtain ⟨hcompletes, hreached, hrun⟩ | ⟨done, failure, hattempts, hcompletes, hstep, hrun⟩ :=
      m.runForCycles_cases budget
    · exact .inl ⟨hcompletes, hrun, hreached, m.spent_attemptsFor_le budget⟩
    · rw [hattempts]
      refine .inr ⟨done, failure, rfl, hcompletes, hstep, hrun, ?_⟩
      have hcost : (m.after done).cost = 0 := by simp only [cost, hstep]
      rw [cycles_after, spent_succ, hcost, Nat.add_zero]

/-- A loop that takes three cycles goes round once for two of them. -/
theorem runForCycles_isLeast_atBranch :
    IsLeast {count | atBranch.Done 2 count} 1 ∧
      atBranch.countedRunForCycles 2 = .ok (.ok 3, atBranch.after 1) := by
  obtain ⟨hcounted, -, count, hcount, -, hleast, hend⟩ :=
    atBranch.runForCycles_isLeast 2 (by decide)
  have hpositive : count ≠ 0 := by
    rintro rfl
    obtain hspent | hfails := hleast.1
    · exact absurd hspent (by decide)
    · exact hfails atBranch.completes_zero
  obtain rfl : count = 1 := by omega
  obtain ⟨-, hrun, -⟩ | ⟨done, failure, hdone, -, hstep, -⟩ := hend
  · rw [hcounted, hrun]
    exact ⟨hleast, rfl⟩
  · obtain rfl : done = 0 := by omega
    cases hstep

/-! ## Runs in a row -/

/-- A run to a later target passes through the end of a run to an earlier one. -/
theorem runUntil_trans {first second : Nat} (h : m.runUntil first = (.ok (), next))
    (hle : first ≤ second) : m.runUntil second = next.runUntil second := by
  fun_induction runUntil m first with
  | case1 => cases h
  | case2 m hbelow cycles m' hstep ih =>
    rw [runUntil_of_ok (Nat.lt_of_lt_of_le hbelow hle) hstep]
    exact ih h
  | case3 =>
    cases h
    rfl

/-- A run for a budget that succeeds is a run to its target, and tells how far the counter went. -/
theorem runUntil_of_runForCycles {used : Nat} (h : m.runForCycles budget = (.ok used, next)) :
    m.runUntil (m.processor.cycles + budget) = (.ok (), next) ∧ budget ≤ used ∧
      next.processor.cycles = m.processor.cycles + used := by
  rw [runForCycles] at h
  cases hrun : m.runUntil (m.processor.cycles + budget) with
  | mk result last =>
    rw [hrun] at h
    cases result with
    | error => cases h
    | ok =>
      cases h
      have hreached := le_cycles_of_runUntil hrun
      exact ⟨rfl, by omega, by omega⟩

/-- What is used and a second budget make the target of the second run, which starts on the way. -/
theorem runUntil_add {first used : Nat} (h : m.runForCycles first = (.ok used, next))
    (second : Nat) :
    m.processor.cycles + (used + second) = next.processor.cycles + second ∧
      m.runUntil (m.processor.cycles + (used + second)) =
        next.runUntil (next.processor.cycles + second) := by
  obtain ⟨huntil, hused, hcycles⟩ := runUntil_of_runForCycles h
  have htarget : m.processor.cycles + (used + second) = next.processor.cycles + second := by omega
  refine ⟨htarget, ?_⟩
  rw [htarget]
  exact runUntil_trans huntil (by omega)

/-- **Runs in a row are one run.** If a run for a budget succeeds, then a run for what it used and a
second budget leads where the run for the second budget leads from there, with the sum of the cycles
or with the same failure. The counter is wide enough for it if it is for the second run. -/
theorem runForCycles_add {first second used : Nat} {result : Except Failure Nat}
    (hfirst : m.runForCycles first = (.ok used, next))
    (hsecond : next.runForCycles second = (result, last)) :
    m.runForCycles (used + second) = (result.map (used + ·), last) ∧
      (next.countedRunForCycles second = .ok (result, last) →
        m.countedRunForCycles (used + second) = .ok (result.map (used + ·), last)) := by
  obtain ⟨htarget, hpasses⟩ := runUntil_add hfirst second
  have hrun : m.runForCycles (used + second) = (result.map (used + ·), last) := by
    have hgrows := next.cycles_le_runUntil (next.processor.cycles + second)
    rw [runForCycles_eq] at hsecond
    cases hsecond
    have hsum : (next.runUntil (next.processor.cycles + second)).2.processor.cycles -
        m.processor.cycles = used +
          ((next.runUntil (next.processor.cycles + second)).2.processor.cycles -
            next.processor.cycles) := by
      omega
    rw [runForCycles_eq, hpasses, hsum]
    cases (next.runUntil (next.processor.cycles + second)).1 <;> rfl
  refine ⟨hrun, fun hcounted ↦ ?_⟩
  rw [← hsecond, countedRunForCycles_eq_iff, hsecond] at hcounted
  rw [← hrun, countedRunForCycles_eq_iff, hrun, htarget]
  exact hcounted

theorem runForCycles_add_atBranch :
    atBranch.runForCycles 4 = (.ok 6, atBranch.after 2) ∧
      atBranch.countedRunForCycles 4 = .ok (.ok 6, atBranch.after 2) := by
  have hround : atBranch.step = (.ok 3, atBranch.after 1) := rfl
  have hagain : (atBranch.after 1).step = (.ok 3, atBranch.after 2) := rfl
  have hfirst : atBranch.runForCycles 2 = (.ok 3, atBranch.after 1) := by
    rw [runForCycles, runUntil_of_ok (by decide) hround, runUntil, if_neg (by decide)]
    rfl
  have hsecond : (atBranch.after 1).runForCycles 1 = (.ok 3, atBranch.after 2) := by
    rw [runForCycles, runUntil_of_ok (by decide) hagain, runUntil, if_neg (by decide)]
    rfl
  obtain ⟨hrun, hcounted⟩ := runForCycles_add hfirst hsecond
  exact ⟨hrun, hcounted (hsecond ▸ countedRunForCycles_eq (by decide))⟩

end VideoComputer.Machine
