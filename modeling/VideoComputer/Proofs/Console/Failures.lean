import Mathlib.Data.List.Nodup
import VideoComputer.Proofs.Console.Calls
import VideoComputer.Proofs.Machine.Journal

/-!
# Abandoned scanlines and frames

A step that fails ends the scanline in which it is taken, and with it the frame. Main statement: the
failing scanline is abandoned, so that picture, position and frame count are as if it had not been
begun; a frame that fails has drawn the rows of the scanlines before, each as its own end left it,
and nothing else.
-/

namespace VideoComputer

/-! ## The cartridge stays -/

theorem ConsoleBus.cartridge_write (bus : ConsoleBus) (address : Word) (value : Byte) :
    (bus.write address value).cartridge = bus.cartridge := by
  unfold write
  split <;> rfl

namespace Machine

variable {m m' : Machine ConsoleBus}

theorem cartridge_writeEach (m : Machine ConsoleBus) (writes : List (Word × Byte)) :
    (m.writeEach writes).bus.cartridge = m.bus.cartridge := by
  induction writes generalizing m with
  | nil => rfl
  | cons entry writes ih =>
    calc
      (m.writeEach (entry :: writes)).bus.cartridge
          = (m.write entry.1 entry.2).bus.cartridge := ih _
      _ = m.bus.cartridge := m.bus.cartridge_write entry.1 entry.2

/-- No program writes to its cartridge. -/
theorem cartridge_after (m : Machine ConsoleBus) (count : Nat) :
    (m.after count).bus.cartridge = m.bus.cartridge := by
  induction count with
  | zero => rfl
  | succ count ih =>
    calc
      (m.after (count + 1)).bus.cartridge
          = ((m.after count).writeEach (m.after count).stepWrites).bus.cartridge := by
        rw [after_succ, bus_step]
      _ = m.bus.cartridge := by rw [cartridge_writeEach, ih]

end Machine

namespace Console

variable {c c' next : Console} {failure : Failure} {lines : Nat}

/-! ## A scanline that fails -/

/-- A scanline fails at one of its steps, and that is all that has happened. -/
theorem exists_course_of_runScanline (hcounters : failure ≠ .cycleSumOverflow)
    (h : c.runScanline = (.error failure, c')) :
    ∃ done < c.timing.stepsPerScanline.toNat,
      c.machine.Course (done + 1) (some failure) c'.machine ∧
      c' = { c with machine := c.machine.after (done + 1) } := by
  have hcourse := c.runScanline_course (by rw [h]; simp [failureOf, hcounters])
  rw [h] at hcourse
  obtain ⟨machine, rfl⟩ := exists_of_runScanline_error h
  obtain ⟨done, hattempts, -⟩ := hcourse.exists_failed
  have hbound := c.machine.attempts_le c.timing.stepsPerScanline.toNat
  rw [hattempts] at hcourse
  refine ⟨done, by omega, hcourse, ?_⟩
  rw [← hcourse.eq_after]

/-! ## A frame that fails -/

/-- So many scanlines have been run, and they have not completed the frame. -/
structure Underway (c : Console) (lines : Nat) (c' : Console) : Prop where
  swept : c.Swept lines c'
  position : c'.scanline = c.scanline + lines
  inside : c'.scanline < c'.timing.frameLength
  frameCount : c'.frameCount = c.frameCount

theorem underway_zero (hinside : c.scanline < c.timing.frameLength) : c.Underway 0 c :=
  ⟨c.swept_zero, rfl, hinside, rfl⟩

/-- A scanline that does not complete the frame is one more. -/
theorem Underway.runScanline {cycles : Nat} (h : c.Underway lines c')
    (hrun : c'.runScanline = (.ok cycles, next)) (hlater : next.scanline ≠ 0) :
    c.Underway (lines + 1) next := by
  have hinside := inside_runScanline h.inside
  have hposition := position_runScanline hrun
  rw [hrun] at hinside
  split at hposition
  · refine ⟨h.swept.runScanline h.position hrun, ?_, hinside, ?_⟩
    · rw [hposition.1, h.position, Nat.add_assoc]
    · rw [hposition.2, h.frameCount]
  · exact absurd hposition.1 hlater

/-- A frame that fails is underway until one of its scanlines fails. -/
theorem Underway.exists_of_runFrame (h : c.Underway lines next)
    (hrun : next.runFrame = (.error failure, c')) :
    ∃ lines last, c.Underway lines last ∧ last.runScanline = (.error failure, c') := by
  fun_induction runFrame next generalizing lines with
  | case1 next other last hscanline =>
    cases hrun
    exact ⟨lines, next, h, hscanline⟩
  | case2 => cases hrun
  | case3 next cycles last hscanline hlater ih => exact ih (h.runScanline hscanline hlater) hrun

/-- The scanlines of a frame that fails have all succeeded but the last one, so that the steps that
have succeeded are all of theirs and some of the last. -/
theorem Underway.exists_course (h : c.Underway lines next) (hcounters : failure ≠ .cycleSumOverflow)
    (hrun : next.runScanline = (.error failure, c')) :
    ∃ done, lines * c.timing.stepsPerScanline.toNat ≤ done ∧
      done < (lines + 1) * c.timing.stepsPerScanline.toNat ∧
      c.machine.Course (done + 1) (some failure) c'.machine ∧
      c' = { next with machine := c'.machine } := by
  obtain ⟨done, hdone, hcourse, hconsole⟩ := exists_course_of_runScanline hcounters hrun
  rw [← hcourse.eq_after] at hconsole
  rw [h.swept.timing] at hdone
  rw [h.swept.machine] at hcourse
  -- The failing scanline goes on where the steps of the others have led.
  have hwhole := (Machine.Course.completed h.swept.completes).trans hcourse
  refine ⟨lines * c.timing.stepsPerScanline.toNat + done, Nat.le_add_right _ _, ?_, hwhole,
    hconsole⟩
  rw [Nat.add_mul, Nat.one_mul]
  exact Nat.add_lt_add_left hdone _

/-- **Failures abandon the scanline.** Where a scanline fails, its steps up to the failing one have
moved processor and chips, and everything else is as before. Where a frame fails, the position is
that of the failing scanline; the rows of the scanlines before it show what the television chip held
when each of them ended, the other rows are as before and no frame is counted. As many steps have
succeeded as those scanlines take, and fewer than one more would. -/
theorem failures_abandon (hinside : c.scanline < c.timing.frameLength)
    (hcounters : failure ≠ .cycleSumOverflow) :
    (∀ c', c.runScanline = (.error failure, c') →
      ∃ done < c.timing.stepsPerScanline.toNat,
        c.machine.Course (done + 1) (some failure) c'.machine ∧
        c' = { c with machine := c.machine.after (done + 1) } ∧
        c'.machine.bus.cartridge = c.machine.bus.cartridge) ∧
    ∀ c', c.runFrame = (.error failure, c') →
      c.scanline ≤ c'.scanline ∧ c'.scanline < c.timing.frameLength ∧
      c'.frameCount = c.frameCount ∧ c'.timing = c.timing ∧
      (∀ row : Fin 192, c'.frame.rows.get row =
        if c.scanline ≤ c.lineOf row ∧ c.lineOf row < c'.scanline then
          (c.tiaAtEndOf (c.lineOf row)).scanline
        else c.frame.rows.get row) ∧
      ∃ done,
        (c'.scanline - c.scanline) * c.timing.stepsPerScanline.toNat ≤ done ∧
        done < (c'.scanline - c.scanline + 1) * c.timing.stepsPerScanline.toNat ∧
        c.machine.Course (done + 1) (some failure) c'.machine := by
  constructor
  · intro c' hrun
    obtain ⟨done, hdone, hcourse, hconsole⟩ := exists_course_of_runScanline hcounters hrun
    refine ⟨done, hdone, hcourse, hconsole, ?_⟩
    rw [hcourse.eq_after, Machine.cartridge_after]
  · intro c' hrun
    obtain ⟨lines, last, hunderway, hscanline⟩ := (underway_zero hinside).exists_of_runFrame hrun
    obtain ⟨done, hlower, hupper, hcourse, hconsole⟩ :=
      hunderway.exists_course hcounters hscanline
    have hposition : c'.scanline = c.scanline + lines := by rw [hconsole, hunderway.position]
    have htiming : c'.timing = c.timing := by rw [hconsole, hunderway.swept.timing]
    have hlines : c'.scanline - c.scanline = lines := by rw [hposition, Nat.add_sub_cancel_left]
    refine ⟨?_, ?_, ?_, htiming, fun row ↦ ?_, done, ?_⟩
    · rw [hposition]
      exact Nat.le_add_right _ _
    · rw [← htiming, hconsole]
      exact hunderway.inside
    · rw [hconsole, hunderway.frameCount]
    · rw [hposition, hconsole]
      exact hunderway.swept.rows row
    · rw [hlines]
      exact ⟨hlower, hupper, hcourse⟩

/-- A console of two scanlines of two steps, the last of which has no instruction. -/
def lackingLastStep : Console where
  machine := (Machine.powerOn
    { cartridge := .ofImage #[0xE6, 0x09, 0xE6, 0x09, 0xE6, 0x09] }).mapProcessor (·.jump 0xF000)
  frame := .blank
  timing := ⟨2, 2, 0⟩
  scanline := 0
  frameCount := 0

/-- The second scanline is abandoned: its row stays blank although the television chip has got a new
colour for it. -/
theorem failures_abandon_lackingLastStep : ∃ c',
    lackingLastStep.scanline < lackingLastStep.timing.frameLength ∧
    lackingLastStep.runFrame = (.error (.unimplementedOpcode 0xFF 0xF006), c') ∧
    c'.scanline = 1 ∧ c'.frameCount = 0 ∧ (c'.frame.rows.get 0).get 80 = 2 ∧
    (c'.frame.rows.get 1).get 80 = 0 ∧ c'.machine.bus.tia.get .backgroundColour = 3 ∧
    ∃ done, 2 ≤ done ∧ done < 4 ∧
      lackingLastStep.machine.Course (done + 1) (some (.unimplementedOpcode 0xFF 0xF006))
        c'.machine := by
  have hinside : lackingLastStep.scanline < lackingLastStep.timing.frameLength := by decide
  have hfirst : lackingLastStep.runScanline = (.ok 10, lackingLastStep.runScanline.2) := rfl
  let last := lackingLastStep.runScanline.2.runScanline.2
  have hsecond : lackingLastStep.runScanline.2.runScanline =
      (.error (.unimplementedOpcode 0xFF 0xF006), last) := Prod.ext (by decide +kernel) rfl
  have hrun : lackingLastStep.runFrame = (.error (.unimplementedOpcode 0xFF 0xF006), last) := by
    rw [runFrame_of_ok hfirst, if_neg (by decide +kernel), runFrame_of_error hsecond]
  have hcounters : Failure.unimplementedOpcode 0xFF 0xF006 ≠ .cycleSumOverflow := nofun
  obtain ⟨-, hframe⟩ := failures_abandon hinside hcounters
  obtain ⟨-, -, hcount, -, hrows, done, hlower, hupper, hcourse⟩ := hframe last hrun
  have hposition : last.scanline = 1 := by decide +kernel
  rw [hposition] at hrows hlower hupper
  refine ⟨last, hinside, hrun, hposition, hcount, ?_, ?_, by decide +kernel, done, hlower, hupper,
    hcourse⟩
  · change (last.frame.rows.get 0)[80] = 2
    rw [hrows 0, if_pos (by decide), Tia.getElem_scanline]
    decide +kernel
  · rw [hrows 1, if_neg (by decide)]
    decide +kernel

end Console

end VideoComputer
