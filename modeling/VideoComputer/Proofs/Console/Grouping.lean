import VideoComputer.Proofs.Console.Calls

/-!
# Grouping of steps

Whether a program is run by single steps, by scanlines or by frames makes no difference to it. Main
statement: calls that attempt as many steps lead equal machines to equal machines, and those are
where that many plain steps lead; timing, position and picture do not come into it.
-/

namespace VideoComputer.Console

variable {c d : Console}

/-- How many steps the calls of a session attempt. -/
def totalAttempts (c : Console) : List Call → Nat
  | [] => 0
  | call :: rest => call.attempts c + (c.perform call).2.totalAttempts rest

/-- A session in which nobody interferes takes the machine through its attempts one by one. -/
theorem machine_performAll {calls : List Call} (hcalls : ∀ call ∈ calls, ¬call.Interferes)
    (hcounters : ∀ answer ∈ (performAll perform c calls).1,
      failureOf answer ≠ some .cycleSumOverflow) :
    (performAll perform c calls).2.machine = c.machine.after (c.totalAttempts calls) := by
  induction calls generalizing c with
  | nil => rfl
  | cons call rest ih =>
    have hcourse := c.perform_course (hcalls call List.mem_cons_self)
      (hcounters _ List.mem_cons_self)
    have hrest := ih (c := (c.perform call).2)
      (fun other hother ↦ hcalls other (List.mem_cons_of_mem call hother))
      (fun answer hanswer ↦ hcounters answer (List.mem_cons_of_mem _ hanswer))
    calc
      (performAll perform c (call :: rest)).2.machine
          = (performAll perform (c.perform call).2 rest).2.machine := rfl
      _ = (c.perform call).2.machine.after ((c.perform call).2.totalAttempts rest) := hrest
      _ = c.machine.after (c.totalAttempts (call :: rest)) := by
        rw [hcourse.eq_after, ← Machine.after_add, totalAttempts]

/-- **The driver does not matter.** Two consoles that hold the same machine, whatever their timing,
position and picture, are led to the same machine by any calls that attempt as many steps, the
failing ones counted: to the machine after that many plain steps. -/
theorem machine_eq_of_totalAttempts_eq (hmachine : c.machine = d.machine)
    {calls others : List Call} (hcalls : ∀ call ∈ calls, ¬call.Interferes)
    (hothers : ∀ call ∈ others, ¬call.Interferes)
    (hcounters : ∀ answer ∈ (performAll perform c calls).1 ++ (performAll perform d others).1,
      failureOf answer ≠ some .cycleSumOverflow)
    (htotal : c.totalAttempts calls = d.totalAttempts others) :
    (performAll perform c calls).2.machine = (performAll perform d others).2.machine ∧
      (performAll perform c calls).2.machine = c.machine.after (c.totalAttempts calls) := by
  have hfirst := machine_performAll hcalls fun answer hanswer ↦
    hcounters answer (List.mem_append_left _ hanswer)
  have hsecond := machine_performAll hothers fun answer hanswer ↦
    hcounters answer (List.mem_append_right _ hanswer)
  rw [hfirst, hsecond, htotal, hmachine]
  exact ⟨rfl, rfl⟩

/-- Three attempts of which the last one fails, once by scanlines of one step and a frame, once by a
step and a longer scanline in the middle of another picture. -/
theorem machine_eq_of_totalAttempts_eq_colourCounter :
    let other := { colourCounter with timing := ⟨5, 7, 3⟩, scanline := 4 }
    let calls : List Call := [.runScanline, .clearFrame, .runScanline, .runFrame]
    let others : List Call := [.machine .step, .runScanline]
    (performAll perform colourCounter calls).2.machine =
        (performAll perform other others).2.machine ∧
      (performAll perform colourCounter calls).2.machine = colourCounter.machine.after 3 ∧
      (colourCounter.machine.after 3).processor.halted = true := by
  intro other calls others
  have htotal : colourCounter.totalAttempts calls = 3 := by decide +kernel
  have hother : other.totalAttempts others = 3 := by decide +kernel
  have hcalls : ∀ call ∈ calls, ¬call.Interferes := by
    simp [calls, Call.Interferes]
  have hothers : ∀ call ∈ others, ¬call.Interferes := by
    simp [others, Call.Interferes, Machine.Call.Interferes]
  have hcounters : ∀ answer ∈ (performAll perform colourCounter calls).1 ++
      (performAll perform other others).1, failureOf answer ≠ some .cycleSumOverflow := by
    intro answer hanswer
    obtain hfirst | hsecond := List.mem_append.mp hanswer
    · exact performAll_ne_overflow _ (by decide) _ answer hfirst
    · exact performAll_ne_overflow _ (by decide) _ answer hsecond
  have hmachine : colourCounter.machine = other.machine := rfl
  obtain ⟨hsame, hafter⟩ := machine_eq_of_totalAttempts_eq hmachine hcalls hothers hcounters
    (htotal.trans hother.symm)
  rw [htotal] at hafter
  exact ⟨hsame, hafter, by decide +kernel⟩

end VideoComputer.Console
