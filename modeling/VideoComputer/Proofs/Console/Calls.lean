import VideoComputer.Proofs.Console.Sweep
import VideoComputer.Proofs.Machine.Calls
import VideoComputer.Proofs.Machine.Duration

/-!
# Calls to a console

What the owner of a console can do with it, as data. Scanlines and frames are courses of steps like
everything else that makes the machine work: a scanline attempts a fixed number of steps, a frame
those of the scanlines that are left, unless a step fails before. Only a sum of cycles beyond 32 bits
ends a scanline otherwise.
-/

namespace VideoComputer

namespace Machine

/-- A burst of steps is a course, unless the sum of its cycles overflows. -/
theorem runSteps_course (m : Machine ConsoleBus) (total count : Nat)
    (h : failureOf (m.runSteps total count).1 ≠ some .cycleSumOverflow) :
    m.Course (m.attempts count) (failureOf (m.runSteps total count).1)
      (m.runSteps total count).2 := by
  induction count generalizing m total with
  | zero => exact .zero m
  | succ count ih =>
    match hstep : m.step with
    | (.error failure, next) =>
      simp only [runSteps, attempts, hstep]
      exact .of_error hstep
    | (.ok cycles, next) =>
      by_cases hfits : total + cycles < 4294967296
      · simp only [runSteps, hstep, if_pos hfits] at h
        simp only [runSteps, attempts, hstep, if_pos hfits]
        exact .cons hstep (ih next (total + cycles) h)
      · simp only [runSteps, hstep, if_neg hfits] at h
        exact absurd rfl h

/-- A burst that is short enough cannot overflow. -/
theorem runSteps_ne_overflow (m : Machine ConsoleBus) (total count : Nat)
    (h : total + 7 * count < 4294967296) :
    failureOf (m.runSteps total count).1 ≠ some .cycleSumOverflow := by
  induction count generalizing m total with
  | zero => simp [runSteps, failureOf]
  | succ count ih =>
    match hstep : m.step with
    | (.error failure, next) =>
      simp only [runSteps, hstep, failureOf]
      obtain ⟨-, rfl, -⟩ | ⟨-, -, rfl, -⟩ := step_error_cases hstep
      · simp
      · simp
    | (.ok cycles, next) =>
      have hcycles : cycles ≤ 7 := cycles_le_seven (congrArg Prod.fst hstep)
      simp only [runSteps, hstep]
      rw [if_pos (by omega)]
      exact ih next (total + cycles) (by omega)

end Machine

theorem Timing.frameLength_pos (timing : Timing) : 0 < timing.frameLength :=
  Nat.lt_of_lt_of_le Nat.zero_lt_one (Nat.le_max_left 1 _)

namespace Console

variable {c next c' : Console}

/-- The scanlines that are left of the frame. There is always one. -/
def linesLeft (c : Console) : Nat := max 1 (c.timing.scanlinesPerFrame.toNat - c.scanline)

inductive Call where
  | machine (call : Machine.Call)
  | runScanline
  | runFrame
  | clearFrame
  | reset
  | load (image : Array Byte)

def perform (c : Console) : Call → Except Failure Answer × Console
  | .machine call =>
    let (answer, machine) := c.machine.perform call
    (answer, { c with machine := machine })
  | .runScanline =>
    let (result, next) := c.runScanline
    (result.map .cycles, next)
  | .runFrame =>
    let (result, next) := c.runFrame
    (result.map .picture, next)
  | .clearFrame => (.ok .done, c.clearFrame)
  | .reset => (.ok .done, c.reset)
  | .load image => (.ok .done, c.load image)

namespace Call

/-- Calls by which the owner changes what the program works on. -/
def Interferes : Call → Prop
  | machine call => call.Interferes
  | reset | load _ => True
  | runScanline | runFrame | clearFrame => False

/-- How many steps a call attempts. -/
def attempts (c : Console) : Call → Nat
  | machine call => call.attempts c.machine
  | runScanline => c.machine.attempts c.timing.stepsPerScanline.toNat
  | runFrame => c.machine.attempts (c.linesLeft * c.timing.stepsPerScanline.toNat)
  | clearFrame | reset | load _ => 0

end Call

theorem runScanline_course (c : Console)
    (h : failureOf c.runScanline.1 ≠ some .cycleSumOverflow) :
    c.machine.Course (c.machine.attempts c.timing.stepsPerScanline.toNat)
      (failureOf c.runScanline.1) c.runScanline.2.machine := by
  match hburst : c.machine.runSteps 0 c.timing.stepsPerScanline.toNat with
  | (.error failure, machine) =>
    have hcourse := c.machine.runSteps_course 0 c.timing.stepsPerScanline.toNat
    simp only [runScanline, hburst] at h hcourse ⊢
    exact hcourse h
  | (.ok cycles, machine) =>
    have hcourse := c.machine.runSteps_course 0 c.timing.stepsPerScanline.toNat
    simp only [runScanline, hburst, machine_advance, machine_drawScanline] at h hcourse ⊢
    exact hcourse h

/-- A scanline that fails has touched nothing but the machine. -/
theorem exists_of_runScanline_error {failure : Failure}
    (h : c.runScanline = (.error failure, next)) :
    ∃ machine, next = { c with machine := machine } := by
  unfold runScanline at h
  simp only at h
  split at h
  · cases h
    exact ⟨_, rfl⟩
  · cases h

theorem timing_runScanline (c : Console) : c.runScanline.2.timing = c.timing := by
  match hscanline : c.runScanline with
  | (.ok cycles, next) => exact (runScanline_ok hscanline).1
  | (.error failure, next) =>
    obtain ⟨machine, rfl⟩ := exists_of_runScanline_error hscanline
    rfl

theorem linesLeft_pos (c : Console) : 0 < c.linesLeft :=
  Nat.lt_of_lt_of_le Nat.zero_lt_one (Nat.le_max_left 1 _)

theorem linesLeft_eq (hinside : c.scanline < c.timing.frameLength) :
    c.linesLeft = c.timing.frameLength - c.scanline := by
  unfold Timing.frameLength at hinside ⊢
  unfold linesLeft
  omega

/-- The position tells how many scanlines are left after one. -/
theorem linesLeft_runScanline {cycles : Nat} (h : c.runScanline = (.ok cycles, next)) :
    (next.scanline = 0 → c.linesLeft = 1) ∧
      (next.scanline ≠ 0 → c.linesLeft = 1 + next.linesLeft) := by
  have htiming := (runScanline_ok h).1
  have hposition := position_runScanline h
  rw [linesLeft, linesLeft, htiming]
  split at hposition
  · omega
  · omega

/-- A frame is a course of the steps of all scanlines that are left of it. -/
theorem runFrame_course (c : Console)
    (h : failureOf c.runFrame.1 ≠ some .cycleSumOverflow) :
    c.machine.Course
      (c.machine.attempts (c.linesLeft * c.timing.stepsPerScanline.toNat))
      (failureOf c.runFrame.1) c.runFrame.2.machine := by
  fun_induction runFrame c with
  | case1 c failure c' hscanline =>
    have hcourse := c.runScanline_course
    rw [hscanline] at hcourse
    have hfailed : c.machine.Course _ (some failure) c'.machine := hcourse h
    -- The failing scanline is the first of those that are left.
    have hbound : c.machine.attempts c.timing.stepsPerScanline.toNat ≤
        c.linesLeft * c.timing.stepsPerScanline.toNat :=
      Nat.le_trans (c.machine.attempts_le _) (Nat.le_mul_of_pos_left _ c.linesLeft_pos)
    rw [hfailed.attempts_eq hbound]
    exact hfailed
  | case2 c cycles next hscanline hfirst =>
    have hcourse := c.runScanline_course
    rw [hscanline] at hcourse
    rw [(linesLeft_runScanline hscanline).1 hfirst, Nat.one_mul]
    exact hcourse (by simp [failureOf])
  | case3 c cycles next hscanline hlater ih =>
    have hcourse := c.runScanline_course
    have hcompletes := (runScanline_eq hscanline).1
    rw [hscanline, Machine.attempts_of_completes hcompletes] at hcourse
    have hline : c.machine.Course c.timing.stepsPerScanline.toNat none next.machine :=
      hcourse (by simp [failureOf])
    have hrest := ih h
    rw [(runScanline_ok hscanline).1, hline.eq_after] at hrest
    rw [(linesLeft_runScanline hscanline).2 hlater, Nat.add_mul, Nat.one_mul,
      Machine.attempts_add hcompletes]
    exact (Machine.Course.completed hcompletes).trans hrest

theorem runScanline_ne_overflow (c : Console)
    (h : 7 * c.timing.stepsPerScanline.toNat < 4294967296) :
    failureOf c.runScanline.1 ≠ some .cycleSumOverflow := by
  have hburst := c.machine.runSteps_ne_overflow 0 c.timing.stepsPerScanline.toNat (by omega)
  match hrun : c.machine.runSteps 0 c.timing.stepsPerScanline.toNat with
  | (.error failure, machine) =>
    simp only [runScanline, hrun] at hburst ⊢
    exact hburst
  | (.ok cycles, machine) => simp [runScanline, hrun, failureOf]

/-- A frame overflows only if one of its scanlines does. -/
theorem runFrame_ne_overflow (c : Console)
    (h : 7 * c.timing.stepsPerScanline.toNat < 4294967296) :
    failureOf c.runFrame.1 ≠ some .cycleSumOverflow := by
  fun_induction runFrame c with
  | case1 c failure c' hscanline =>
    have hline := c.runScanline_ne_overflow h
    rwa [hscanline] at hline
  | case2 => simp [failureOf]
  | case3 c cycles next hscanline _ ih =>
    apply ih
    rwa [(runScanline_ok hscanline).1]

/-- A call that does not interfere is a course of steps, unless a sum of cycles overflows. -/
theorem perform_course (c : Console) {call : Call} (hcall : ¬call.Interferes)
    (h : failureOf (c.perform call).1 ≠ some .cycleSumOverflow) :
    c.machine.Course (call.attempts c) (failureOf (c.perform call).1)
      (c.perform call).2.machine := by
  cases call with
  | machine call => exact c.machine.perform_course hcall
  | runScanline =>
    simp only [perform, failureOf_map] at h ⊢
    exact c.runScanline_course h
  | runFrame =>
    simp only [perform, failureOf_map] at h ⊢
    exact c.runFrame_course h
  | clearFrame => exact .zero c.machine
  | reset | load => exact absurd trivial hcall

theorem timing_runFrame (c : Console) : c.runFrame.2.timing = c.timing := by
  fun_induction runFrame c with
  | case1 c failure c' hscanline => rw [← c.timing_runScanline, hscanline]
  | case2 c cycles next hscanline => rw [← c.timing_runScanline, hscanline]
  | case3 c cycles next hscanline _ ih => rw [ih, ← c.timing_runScanline, hscanline]

/-- No call changes the timing. -/
theorem timing_perform (c : Console) (call : Call) : (c.perform call).2.timing = c.timing := by
  cases call with
  | runScanline => exact c.timing_runScanline
  | runFrame => exact c.timing_runFrame
  | machine | clearFrame | reset | load => rfl

/-- A scanline leaves the position within the frame, also where it fails. -/
theorem inside_runScanline (hinside : c.scanline < c.timing.frameLength) :
    c.runScanline.2.scanline < c.runScanline.2.timing.frameLength := by
  rw [timing_runScanline]
  match hscanline : c.runScanline with
  | (.error failure, next) =>
    obtain ⟨machine, rfl⟩ := exists_of_runScanline_error hscanline
    exact hinside
  | (.ok cycles, next) =>
    have hposition := position_runScanline hscanline
    split at hposition
    · rename_i hmore
      rw [hposition.1]
      exact Nat.lt_of_lt_of_le hmore (Nat.le_max_right 1 _)
    · rw [hposition.1]
      exact c.timing.frameLength_pos

theorem inside_runFrame (hinside : c.scanline < c.timing.frameLength) :
    c.runFrame.2.scanline < c.runFrame.2.timing.frameLength := by
  fun_induction runFrame c with
  | case1 c failure c' hscanline =>
    have hnext := inside_runScanline hinside
    rwa [hscanline] at hnext
  | case2 c cycles next hscanline =>
    have hnext := inside_runScanline hinside
    rwa [hscanline] at hnext
  | case3 c cycles next hscanline _ ih =>
    have hnext := inside_runScanline hinside
    rw [hscanline] at hnext
    exact ih hnext

/-- No call takes the position out of the frame. -/
theorem inside_perform (hinside : c.scanline < c.timing.frameLength) (call : Call) :
    (c.perform call).2.scanline < (c.perform call).2.timing.frameLength := by
  cases call with
  | runScanline => exact inside_runScanline hinside
  | runFrame => exact inside_runFrame hinside
  | machine | clearFrame => exact hinside
  | reset | load => exact c.timing.frameLength_pos

theorem timing_performAll (c : Console) (calls : List Call) :
    (performAll perform c calls).2.timing = c.timing :=
  performAll_invariant (fun s : Console ↦ s.timing = c.timing) (fun _ ↦ True)
    (fun s hs call _ _ ↦ (s.timing_perform call).trans hs) rfl fun _ _ ↦ trivial

theorem perform_ne_overflow (c : Console) (h : 7 * c.timing.stepsPerScanline.toNat < 4294967296)
    (call : Call) : failureOf (c.perform call).1 ≠ some .cycleSumOverflow := by
  cases call with
  | machine call =>
    match hcall : c.machine.perform call with
    | (.ok answer, machine) => simp [perform, hcall, failureOf]
    | (.error failure, machine) =>
      obtain rfl | ⟨opcode, address, rfl⟩ := Machine.perform_failure_cases hcall
      · simp [perform, hcall, failureOf]
      · simp [perform, hcall, failureOf]
  | runScanline =>
    simp only [perform, failureOf_map]
    exact c.runScanline_ne_overflow h
  | runFrame =>
    simp only [perform, failureOf_map]
    exact c.runFrame_ne_overflow h
  | clearFrame | reset | load => simp [perform, failureOf]

/-- Under a timing with few enough steps in a scanline no sum of cycles overflows. -/
theorem performAll_ne_overflow (c : Console)
    (h : 7 * c.timing.stepsPerScanline.toNat < 4294967296) (calls : List Call) :
    ∀ answer ∈ (performAll perform c calls).1, failureOf answer ≠ some .cycleSumOverflow := by
  induction calls generalizing c with
  | nil => simp [performAll]
  | cons call rest ih =>
    intro answer hanswer
    cases hanswer with
    | head => exact c.perform_ne_overflow h call
    | tail _ htail =>
      rw [← c.timing_perform call] at h
      exact ih _ h answer htail

end Console

end VideoComputer
