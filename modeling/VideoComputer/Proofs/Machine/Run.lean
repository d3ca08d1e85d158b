import Mathlib.Algebra.GroupWithZero.Nat
import VideoComputer.Machine.Step

/-!
# Runs of steps

A run is told by its number of steps. It completes if every one of them succeeds; then the cycle
counter has grown by what the steps returned, in whatever portions the run was taken.
-/

namespace VideoComputer.Machine

variable {B : Type} [Bus B]

/-- The first `count` steps all succeed. -/
def Completes (m : Machine B) (count : Nat) : Prop :=
  ∀ k < count, ∃ cycles, (m.after k).step.1 = .ok cycles

/-- What the first steps return, one number for each of them. -/
def Returns (m : Machine B) (costs : List Nat) : Prop :=
  ∀ k, (h : k < costs.length) → (m.after k).step.1 = .ok costs[k]

@[simp] theorem after_zero (m : Machine B) : m.after 0 = m := rfl

theorem after_succ (m : Machine B) (count : Nat) :
    m.after (count + 1) = (m.after count).step.2 := by
  rw [after_add]
  rfl

theorem completes_zero (m : Machine B) : m.Completes 0 :=
  fun _ hk ↦ absurd hk (Nat.not_lt_zero _)

/-- Two runs in a row are one run. -/
theorem Completes.add {m : Machine B} {first second : Nat} (hfirst : m.Completes first)
    (hsecond : (m.after first).Completes second) : m.Completes (first + second) := by
  intro k hk
  by_cases hinside : k < first
  · exact hfirst k hinside
  · obtain ⟨cycles, hstep⟩ := hsecond (k - first) (by omega)
    rw [← after_add, Nat.add_sub_cancel' (Nat.le_of_not_lt hinside)] at hstep
    exact ⟨cycles, hstep⟩

/-- A run that starts with a successful step goes on from where the step led. -/
theorem Completes.cons {m m' : Machine B} {cycles count : Nat} (hstep : m.step = (.ok cycles, m'))
    (hrest : m'.Completes count) : m.Completes (count + 1) := by
  have hfirst : m.Completes 1 := by
    intro k hk
    obtain rfl : k = 0 := by omega
    exact ⟨cycles, by rw [after_zero, hstep]⟩
  have hafter : m.after 1 = m' := by rw [after_succ, after_zero, hstep]
  rw [Nat.add_comm]
  exact hfirst.add (hafter ▸ hrest)

theorem Returns.tail {m : Machine B} {cost : Nat} {costs : List Nat}
    (h : m.Returns (cost :: costs)) : (m.after 1).Returns costs := by
  intro k hk
  rw [← after_add, Nat.add_comm]
  exact h (k + 1) (by simpa using hk)

/-- The cycle counter grows by the sum of what the steps of a run return. -/
theorem Returns.cycles_after {m : Machine B} {costs : List Nat} (h : m.Returns costs) :
    (m.after costs.length).processor.cycles = m.processor.cycles + costs.sum := by
  induction costs generalizing m with
  | nil => rfl
  | cons cost costs ih =>
    have hstep : m.step.1 = .ok cost := h 0 (by simp)
    have hgrowth := (cycles_step (Prod.ext hstep rfl : m.step = (.ok cost, m.step.2))).2
    have hrest := ih h.tail
    calc
      (m.after (costs.length + 1)).processor.cycles
          = ((m.after 1).after costs.length).processor.cycles := by rw [← after_add, Nat.add_comm]
      _ = (m.after 1).processor.cycles + costs.sum := hrest
      _ = m.processor.cycles + (cost + costs.sum) := by
        rw [after_succ, after_zero, hgrowth, Nat.add_assoc]

end VideoComputer.Machine
