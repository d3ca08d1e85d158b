import VideoComputer.Console.Basic

/-!
# Scanlines and frames of the console

A scanline is a fixed number of steps, after which its row is drawn from whatever the television
chip holds and the position moves on. A frame is run scanline by scanline until the position is
back at the first one. Where a step fails nothing is drawn and the position stays.
-/

namespace VideoComputer

/-- Takes `count` steps and adds their cycles to `total`, which has to stay below 32 bits. -/
def Machine.runSteps (m : Machine ConsoleBus) (total : Nat) :
    Nat → Except Failure Nat × Machine ConsoleBus
  | 0 => (.ok total, m)
  | count + 1 =>
    match m.step with
    | (.error failure, m) => (.error failure, m)
    | (.ok cycles, m) =>
      if total + cycles < 4294967296 then m.runSteps (total + cycles) count
      else (.error .cycleSumOverflow, m)

namespace Console

/-- Draws the current scanline if it is visible. -/
def drawScanline (c : Console) : Console :=
  match c.timing.visibleRow? c.scanline with
  | none => c
  | some row => { c with frame := c.machine.bus.tia.draw row c.frame }

/-- Moves on to the next scanline, or to the first one of the next frame. -/
def advance (c : Console) : Console :=
  if c.scanline + 1 < c.timing.scanlinesPerFrame.toNat then { c with scanline := c.scanline + 1 }
  else { c with scanline := 0, frameCount := c.frameCount + 1 }

/-- Runs one scanline and tells the cycles it took. -/
def runScanline (c : Console) : Except Failure Nat × Console :=
  let steps := c.timing.stepsPerScanline.toNat
  match c.machine.runSteps 0 steps with
  | (.error failure, machine) => (.error failure, { c with machine := machine })
  | (.ok cycles, machine) => (.ok cycles, { c with machine := machine }.drawScanline.advance)

theorem scanline_drawScanline (c : Console) : c.drawScanline.scanline = c.scanline := by
  unfold drawScanline
  split <;> rfl

theorem timing_drawScanline (c : Console) : c.drawScanline.timing = c.timing := by
  unfold drawScanline
  split <;> rfl

theorem timing_advance (c : Console) : c.advance.timing = c.timing := by
  unfold advance
  split <;> rfl

theorem frame_advance (c : Console) : c.advance.frame = c.frame := by
  unfold advance
  split <;> rfl

theorem machine_advance (c : Console) : c.advance.machine = c.machine := by
  unfold advance
  split <;> rfl

theorem machine_drawScanline (c : Console) : c.drawScanline.machine = c.machine := by
  unfold drawScanline
  split <;> rfl

theorem frameCount_drawScanline (c : Console) : c.drawScanline.frameCount = c.frameCount := by
  unfold drawScanline
  split <;> rfl

/-- A position other than the first comes from the one before and lies within the frame. -/
theorem scanline_advance {c : Console} (h : c.advance.scanline ≠ 0) :
    c.advance.scanline = c.scanline + 1 ∧ c.scanline + 1 < c.timing.scanlinesPerFrame.toNat := by
  unfold advance at h ⊢
  split
  · rename_i hinside
    exact ⟨rfl, hinside⟩
  · rename_i houtside
    simp [houtside] at h

theorem runScanline_ok {c c' : Console} {cycles : Nat} (h : c.runScanline = (.ok cycles, c')) :
    c'.timing = c.timing ∧ (c'.scanline ≠ 0 →
      c'.scanline = c.scanline + 1 ∧ c.scanline + 1 < c.timing.scanlinesPerFrame.toNat) := by
  unfold runScanline at h
  simp only at h
  split at h
  · cases h
  · cases h
    refine ⟨by rw [timing_advance, timing_drawScanline], fun hscanline ↦ ?_⟩
    have hadvance := scanline_advance hscanline
    rwa [scanline_drawScanline, timing_drawScanline] at hadvance

/-- Runs scanlines until a frame is complete, and shows it. -/
def runFrame (c : Console) : Except Failure Frame × Console :=
  match _h : c.runScanline with
  | (.error failure, c') => (.error failure, c')
  | (.ok _, c') => if c'.scanline = 0 then (.ok c'.frame, c') else c'.runFrame
termination_by c.timing.scanlinesPerFrame.toNat - c.scanline
decreasing_by
  rename_i hscanline
  obtain ⟨htiming, hnext⟩ := runScanline_ok _h
  have hinside := hnext hscanline
  rw [htiming]
  omega

end Console

end VideoComputer
