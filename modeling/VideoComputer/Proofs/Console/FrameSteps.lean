import VideoComputer.Proofs.Console.Calls
import VideoComputer.Proofs.Machine.Budget

/-!
# The steps of a frame

Main statement: a completed frame that has begun at the first scanline has taken the steps of its
scanlines, one scanline at least. That is the number that its timing gives, unless the timing has no
scanlines but steps in each of them.
-/

namespace VideoComputer

/-- The product that a timing gives leaves out the one scanline that every frame has. -/
theorem Timing.stepsPerFrame_eq_iff (timing : Timing) :
    timing.stepsPerFrame = timing.frameLength * timing.stepsPerScanline.toNat ↔
      timing.scanlinesPerFrame ≠ 0 ∨ timing.stepsPerScanline = 0 := by
  rw [stepsPerFrame, frameLength, Nat.mul_comm]
  simp only [ne_eq, ← UInt32.toNat_inj, UInt32.toNat_zero]
  -- Without scanlines the product is zero, but a frame has the steps of one.
  cases timing.scanlinesPerFrame.toNat with
  | zero => simp [eq_comm]
  | succ lines => simp

namespace Console

variable {c c' : Console} {frame : Frame}

theorem course_of_runFrame_ok (hfirst : c.scanline = 0) (hrun : c.runFrame = (.ok frame, c')) :
    c.machine.Course (c.timing.frameLength * c.timing.stepsPerScanline.toNat) none c'.machine := by
  have hinside : c.scanline < c.timing.frameLength := by
    rw [hfirst]
    exact c.timing.frameLength_pos
  obtain ⟨hswept, -⟩ := c.swept_zero.runFrame rfl hinside hrun
  rw [hfirst, Nat.sub_zero] at hswept
  rw [hswept.machine, machineAfter]
  exact .completed hswept.completes

/-- **The steps of a frame.** A frame that is run from the first scanline to its end has taken as many
steps as that many scanlines have, all of them successful: the number that the timing gives, if and
only if it has scanlines or none of them has steps. -/
theorem frame_steps (hfirst : c.scanline = 0) (hrun : c.runFrame = (.ok frame, c')) :
    (∀ count, c.machine.Course count none c'.machine ↔
      count = c.timing.frameLength * c.timing.stepsPerScanline.toNat) ∧
    (c.machine.Course c.timing.stepsPerFrame none c'.machine ↔
      c.timing.scanlinesPerFrame ≠ 0 ∨ c.timing.stepsPerScanline = 0) := by
  have hcourse := course_of_runFrame_ok hfirst hrun
  have hcount : ∀ count, c.machine.Course count none c'.machine ↔
      count = c.timing.frameLength * c.timing.stepsPerScanline.toNat := by
    intro count
    constructor
    · exact fun hother ↦ hother.count_unique hcourse
    · rintro rfl
      exact hcourse
  exact ⟨hcount, (hcount _).trans c.timing.stepsPerFrame_eq_iff⟩

/-- The program that counts the background colour up, under a timing of one's own. -/
def colourCounterUnder (timing : Timing) : Console := { colourCounter with timing := timing }

/-- A frame of one scanline of two steps has two steps, and no other number of them. -/
theorem frame_steps_oneScanline : ∃ frame c',
    (colourCounterUnder ⟨2, 1, 0⟩).scanline = 0 ∧
    (colourCounterUnder ⟨2, 1, 0⟩).runFrame = (.ok frame, c') ∧
    (colourCounterUnder ⟨2, 1, 0⟩).timing.stepsPerFrame = 2 ∧
    ∀ count, (colourCounterUnder ⟨2, 1, 0⟩).machine.Course count none c'.machine ↔ count = 2 := by
  let next := (colourCounterUnder ⟨2, 1, 0⟩).runScanline.2
  have hscanline : (colourCounterUnder ⟨2, 1, 0⟩).runScanline = (.ok 10, next) := rfl
  have hrun : (colourCounterUnder ⟨2, 1, 0⟩).runFrame = (.ok next.frame, next) := by
    rw [runFrame_of_ok hscanline, if_pos (by decide +kernel)]
  exact ⟨next.frame, next, rfl, hrun, rfl, (frame_steps rfl hrun).1⟩

/-- A timing without scanlines gives no steps for a frame, but the frame takes those of a scanline. -/
theorem frame_steps_noScanline : ∃ frame c',
    (colourCounterUnder ⟨1, 0, 0⟩).scanline = 0 ∧
    (colourCounterUnder ⟨1, 0, 0⟩).runFrame = (.ok frame, c') ∧
    (colourCounterUnder ⟨1, 0, 0⟩).timing.stepsPerFrame = 0 ∧
    (colourCounterUnder ⟨1, 0, 0⟩).machine.Course 1 none c'.machine ∧
    ¬(colourCounterUnder ⟨1, 0, 0⟩).machine.Course 0 none c'.machine := by
  let next := (colourCounterUnder ⟨1, 0, 0⟩).runScanline.2
  have hscanline : (colourCounterUnder ⟨1, 0, 0⟩).runScanline = (.ok 5, next) := rfl
  have hrun : (colourCounterUnder ⟨1, 0, 0⟩).runFrame = (.ok next.frame, next) := by
    rw [runFrame_of_ok hscanline, if_pos (by decide +kernel)]
  have hcourse : (colourCounterUnder ⟨1, 0, 0⟩).machine.Course 1 none next.machine :=
    course_of_runFrame_ok rfl hrun
  refine ⟨next.frame, next, rfl, hrun, rfl, hcourse, fun hnone ↦ ?_⟩
  cases hnone.count_unique hcourse

end Console

end VideoComputer
