import VideoComputer.Console.Run
import VideoComputer.Proofs.Machine.Run

/-!
# The beam of a frame

A frame is drawn while its program runs: each row shows what the television chip held when the
row's scanline ended, not what it held before or holds at the end. Main statement: after a
completed frame every row is either that, or untouched because its scanline was not run.

The invariant `Swept` relates a console to the one that some scanlines have made of it. One
scanline extends it by one, and a frame is as many scanlines as are left.
-/

namespace VideoComputer

theorem Frame.get_rows_setRow (frame : Frame) (line other : Fin 192) (row : Row) :
    (frame.setRow line row).rows.get other =
      if other = line then row else frame.rows.get other := by
  have hget : ∀ (rows : Vector Row 192) (line : Fin 192), rows.get line = rows[line.val] :=
    fun _ _ ↦ rfl
  simp only [setRow, hget, Vector.getElem_setIfInBounds, Fin.val_inj, eq_comm]

/-- A burst that succeeds is a run of as many steps, all of them successful. -/
theorem Machine.runSteps_ok {m m' : Machine ConsoleBus} {total sum count : Nat}
    (h : m.runSteps total count = (.ok sum, m')) : m.Completes count ∧ m' = m.after count := by
  induction count generalizing m total with
  | zero =>
    cases h
    exact ⟨completes_zero _, rfl⟩
  | succ count ih =>
    unfold runSteps at h
    split at h
    · cases h
    · rename_i cycles next hstep
      split at h
      · obtain ⟨hcompletes, hafter⟩ := ih h
        refine ⟨hcompletes.cons hstep, ?_⟩
        rw [after, hstep, hafter]
      · cases h

namespace Console

variable {c c' : Console}

/-- The scanline whose colours a row of the picture shows. -/
def lineOf (c : Console) (row : Fin 192) : Nat := c.timing.firstVisibleScanline.toNat + row

/-- The machine after so many of the console's scanlines. -/
def machineAfter (c : Console) (scanlines : Nat) : Machine ConsoleBus :=
  c.machine.after (scanlines * c.timing.stepsPerScanline.toNat)

/-- The television chip at the end of a scanline that has not been run yet. -/
def tiaAtEndOf (c : Console) (scanline : Nat) : Tia :=
  (c.machineAfter (scanline - c.scanline + 1)).bus.tia

/-- A row of the picture that the scanlines from the present one up to `stop` leave behind. -/
def sweptRow (c : Console) (stop : Nat) (row : Fin 192) : Row :=
  if c.scanline ≤ c.lineOf row ∧ c.lineOf row < stop then (c.tiaAtEndOf (c.lineOf row)).scanline
  else c.frame.rows.get row

theorem visibleRow?_eq_some {timing : Timing} {scanline : Nat} {row : Fin 192} :
    timing.visibleRow? scanline = some row ↔
      timing.firstVisibleScanline.toNat + row = scanline := by
  simp only [Timing.visibleRow?]
  constructor
  · intro h
    split at h
    · cases h
      simp only
      omega
    · cases h
  · intro h
    have hrow := row.isLt
    rw [dif_pos ⟨by omega, by omega⟩]
    exact congrArg some (Fin.ext (by simp only; omega))

/-- Drawing a scanline changes the row that shows it and no other. -/
theorem get_rows_drawScanline (c : Console) (row : Fin 192) :
    c.drawScanline.frame.rows.get row =
      if c.lineOf row = c.scanline then c.machine.bus.tia.scanline else c.frame.rows.get row := by
  unfold drawScanline
  split
  · rename_i hnone
    have hline : c.lineOf row ≠ c.scanline := by
      intro h
      rw [visibleRow?_eq_some.mpr h] at hnone
      cases hnone
    rw [if_neg hline]
  · rename_i shown hsome
    have hshown := visibleRow?_eq_some.mp hsome
    rw [Tia.draw, Frame.get_rows_setRow]
    by_cases hrow : row = shown
    · subst hrow
      rw [if_pos rfl, if_pos (show c.lineOf row = c.scanline from hshown)]
    · have hline : c.lineOf row ≠ c.scanline := by
        intro h
        refine hrow (Fin.ext ?_)
        simp only [lineOf] at h
        omega
      rw [if_neg hrow, if_neg hline]

/-- `c'` is what so many scanlines have made of `c`, the frame not being complete before the last:
the machine has taken their steps and the picture shows their rows. -/
structure Swept (c : Console) (scanlines : Nat) (c' : Console) : Prop where
  timing : c'.timing = c.timing
  machine : c'.machine = c.machineAfter scanlines
  completes : c.machine.Completes (scanlines * c.timing.stepsPerScanline.toNat)
  rows : ∀ row : Fin 192, c'.frame.rows.get row = c.sweptRow (c.scanline + scanlines) row

theorem swept_zero (c : Console) : c.Swept 0 c where
  timing := rfl
  machine := by simp [machineAfter]
  completes := by
    rw [Nat.zero_mul]
    exact c.machine.completes_zero
  rows row := by
    rw [sweptRow, if_neg (by omega)]

/-- What a scanline does: its steps, all of them successful, then its row, then the position. -/
theorem runScanline_eq {cycles : Nat} (h : c.runScanline = (.ok cycles, c')) :
    c.machine.Completes c.timing.stepsPerScanline.toNat ∧
      c' = { c with machine := c.machineAfter 1 }.drawScanline.advance := by
  unfold runScanline at h
  simp only at h
  split at h
  · cases h
  · rename_i sum machine hburst
    obtain ⟨hcompletes, hafter⟩ := Machine.runSteps_ok hburst
    cases h
    rw [machineAfter, Nat.one_mul, ← hafter]
    exact ⟨hcompletes, rfl⟩

/-- One more scanline draws one more row. -/
theorem Swept.runScanline {c₀ : Console} {scanlines cycles : Nat} (h : c₀.Swept scanlines c)
    (hposition : c.scanline = c₀.scanline + scanlines)
    (hrun : c.runScanline = (.ok cycles, c')) : c₀.Swept (scanlines + 1) c' := by
  obtain ⟨hcompletes, rfl⟩ := runScanline_eq hrun
  have hmachine : c.machineAfter 1 = c₀.machineAfter (scanlines + 1) := by
    simp only [machineAfter, h.machine, h.timing, ← Machine.after_add, Nat.add_mul]
  refine ⟨?_, ?_, ?_, fun row ↦ ?_⟩
  · rw [timing_advance, timing_drawScanline, h.timing]
  · rw [machine_advance, machine_drawScanline, hmachine]
  · rw [Nat.add_mul, Nat.one_mul]
    rw [h.machine, h.timing] at hcompletes
    exact h.completes.add hcompletes
  · rw [frame_advance, get_rows_drawScanline]
    have hline : c.lineOf row = c₀.lineOf row := by rw [lineOf, lineOf, h.timing]
    change (if c.lineOf row = c.scanline then (c.machineAfter 1).bus.tia.scanline
      else c.frame.rows.get row) = _
    rw [hline, hposition, hmachine, h.rows row]
    by_cases hdrawn : c₀.lineOf row = c₀.scanline + scanlines
    · have hend : c₀.lineOf row - c₀.scanline + 1 = scanlines + 1 := by omega
      rw [if_pos hdrawn, sweptRow, if_pos (by omega), tiaAtEndOf, hend]
    · have hsame : c₀.scanline ≤ c₀.lineOf row ∧ c₀.lineOf row < c₀.scanline + scanlines ↔
          c₀.scanline ≤ c₀.lineOf row ∧ c₀.lineOf row < c₀.scanline + (scanlines + 1) := by
        omega
      simp only [hdrawn, sweptRow, hsame, if_false]

/-- The position after a scanline, and the frames it has completed. -/
theorem position_runScanline {cycles : Nat} (hrun : c.runScanline = (.ok cycles, c')) :
    if c.scanline + 1 < c.timing.scanlinesPerFrame.toNat then
      c'.scanline = c.scanline + 1 ∧ c'.frameCount = c.frameCount
    else c'.scanline = 0 ∧ c'.frameCount = c.frameCount + 1 := by
  obtain ⟨-, rfl⟩ := runScanline_eq hrun
  unfold advance
  rw [scanline_drawScanline, timing_drawScanline]
  split
  · exact ⟨rfl, frameCount_drawScanline _⟩
  · exact ⟨rfl, congrArg (· + 1) (frameCount_drawScanline _)⟩

theorem runFrame_of_ok {next : Console} {cycles : Nat} (h : c.runScanline = (.ok cycles, next)) :
    c.runFrame = if next.scanline = 0 then (.ok next.frame, next) else next.runFrame := by
  rw [Console.runFrame]
  split
  · rename_i herror
    rw [h] at herror
    cases herror
  · rename_i hok
    rw [h] at hok
    cases hok
    rfl

theorem runFrame_of_error {next : Console} {failure : Failure}
    (h : c.runScanline = (.error failure, next)) : c.runFrame = (.error failure, next) := by
  rw [Console.runFrame]
  split
  · rename_i herror
    rw [h] at herror
    cases herror
    rfl
  · rename_i hok
    rw [h] at hok
    cases hok

/-- A completed frame begins with a scanline, after which it is complete or goes on. -/
theorem runFrame_cases {frame : Frame} (hrun : c.runFrame = (.ok frame, c')) :
    ∃ cycles next, c.runScanline = (.ok cycles, next) ∧
      (next.scanline = 0 ∧ frame = next.frame ∧ c' = next ∨
        next.scanline ≠ 0 ∧ next.runFrame = (.ok frame, c')) := by
  match hscanline : c.runScanline with
  | (.error failure, next) =>
    rw [runFrame_of_error hscanline] at hrun
    cases hrun
  | (.ok cycles, next) =>
    refine ⟨cycles, next, rfl, ?_⟩
    rw [runFrame_of_ok hscanline] at hrun
    split at hrun
    · rename_i hfirst
      cases hrun
      exact .inl ⟨hfirst, rfl, rfl⟩
    · rename_i hlater
      exact .inr ⟨hlater, hrun⟩

/-- Scanlines are added to those already swept until the frame is complete. -/
theorem Swept.runFrame {c₀ : Console} {scanlines : Nat} {frame : Frame}
    (h : c₀.Swept scanlines c) (hposition : c.scanline = c₀.scanline + scanlines)
    (hinside : c.scanline < c.timing.frameLength) (hrun : c.runFrame = (.ok frame, c')) :
    c₀.Swept (c₀.timing.frameLength - c₀.scanline) c' ∧ frame = c'.frame ∧ c'.scanline = 0 ∧
      c'.frameCount = c.frameCount + 1 := by
  -- The measure is the number of scanlines that are left of the frame.
  induction hleft : c.timing.frameLength - c.scanline generalizing c scanlines with
  | zero => omega
  | succ left ih =>
    obtain ⟨cycles, next, hscanline, hend⟩ := runFrame_cases hrun
    have hswept := h.runScanline hposition hscanline
    have htiming : next.timing = c.timing := hswept.timing.trans h.timing.symm
    have hnext := position_runScanline hscanline
    simp only [Timing.frameLength] at hinside hleft
    split at hnext
    · obtain ⟨hscanline', hcount⟩ := hnext
      obtain ⟨hfirst, -, -⟩ | ⟨-, hrest⟩ := hend
      · omega
      · rw [← hcount]
        refine ih hswept (by omega) ?_ hrest ?_
        · rw [htiming, Timing.frameLength]
          omega
        · rw [htiming, Timing.frameLength]
          omega
    · obtain ⟨hscanline', hcount⟩ := hnext
      obtain ⟨-, rfl, rfl⟩ | ⟨hlater, -⟩ := hend
      · have hall : c₀.timing.frameLength - c₀.scanline = scanlines + 1 := by
          rw [← h.timing, Timing.frameLength]
          omega
        rw [hall]
        exact ⟨hswept, rfl, hscanline', hcount⟩
      · exact absurd hscanline' hlater

/-- **Racing the beam.** A completed frame shows in every row whose scanline it ran what the
television chip held when that scanline ended, and leaves every other row alone. The machine has
taken the steps of the scanlines that were left, the position is the first one again and one more
frame is counted. -/
theorem runFrame_rows {frame : Frame} (hinside : c.scanline < c.timing.frameLength)
    (hrun : c.runFrame = (.ok frame, c')) :
    (∀ row : Fin 192, frame.rows.get row =
      if c.scanline ≤ c.lineOf row ∧ c.lineOf row < c.timing.frameLength then
        (c.tiaAtEndOf (c.lineOf row)).scanline
      else c.frame.rows.get row) ∧
    c'.frame = frame ∧ c'.timing = c.timing ∧
    c'.machine = c.machineAfter (c.timing.frameLength - c.scanline) ∧
    c.machine.Completes
      ((c.timing.frameLength - c.scanline) * c.timing.stepsPerScanline.toNat) ∧
    c'.scanline = 0 ∧ c'.frameCount = c.frameCount + 1 := by
  obtain ⟨hswept, hframe, hfirst, hcount⟩ := c.swept_zero.runFrame rfl hinside hrun
  refine ⟨fun row ↦ ?_, hframe.symm, hswept.timing, hswept.machine, hswept.completes, hfirst,
    hcount⟩
  rw [hframe, hswept.rows row, sweptRow, Nat.add_sub_cancel' (Nat.le_of_lt hinside)]

/-- A console whose cartridge counts the background colour up, once for each of its two scanlines.
-/
def colourCounter : Console where
  machine := (Machine.powerOn { cartridge := .ofImage #[0xE6, 0x09, 0xE6, 0x09] }).mapProcessor
    (·.jump 0xF000)
  frame := .blank
  timing := ⟨1, 2, 0⟩
  scanline := 0
  frameCount := 0

/-- The first two rows have the two colours, although the chip holds the second one at the end, and
the third row is as blank as it was. -/
theorem runFrame_rows_colourCounter : ∃ frame c',
    colourCounter.scanline < colourCounter.timing.frameLength ∧
    colourCounter.runFrame = (.ok frame, c') ∧
    (frame.rows.get 0)[80] = 1 ∧ (frame.rows.get 1)[80] = 2 ∧
    (frame.rows.get 2)[80] = 0 ∧ c'.frameCount = 1 := by
  have hinside : colourCounter.scanline < colourCounter.timing.frameLength := by decide
  have hfirst : colourCounter.runScanline = (.ok 5, colourCounter.runScanline.2) := rfl
  have hsecond : colourCounter.runScanline.2.runScanline =
      (.ok 5, colourCounter.runScanline.2.runScanline.2) := Prod.ext rfl rfl
  have hrun : colourCounter.runFrame = (.ok colourCounter.runScanline.2.runScanline.2.frame,
      colourCounter.runScanline.2.runScanline.2) := by
    rw [runFrame_of_ok hfirst, if_neg (by decide +kernel), runFrame_of_ok hsecond,
      if_pos (by decide +kernel)]
  obtain ⟨hrows, -, -, -, -, -, hcount⟩ := runFrame_rows hinside hrun
  refine ⟨_, _, hinside, hrun, ?_, ?_, ?_, hcount⟩
  · rw [hrows 0, if_pos (by decide), Tia.getElem_scanline]
    decide +kernel
  · rw [hrows 1, if_pos (by decide), Tia.getElem_scanline]
    decide +kernel
  · rw [hrows 2, if_neg (by decide)]
    decide +kernel

end Console

end VideoComputer
