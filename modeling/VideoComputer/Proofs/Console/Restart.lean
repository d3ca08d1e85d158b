import VideoComputer.Proofs.Console.Calls
import VideoComputer.Proofs.Machine.Twins

/-!
# Restarts

A reset leaves nothing of what a console did before but its cartridge and its count of frames. Main
statement: after a reset two consoles with one timing and one cartridge answer every call alike and
stay alike, whatever they have been through; where an image is loaded not even the cartridges need
to be the same.
-/

namespace VideoComputer

/-- What can be seen of a cartridge, its window and its size, is all there is to it. -/
theorem Cartridge.eq_of_window_eq {first second : Cartridge}
    (hwindow : first.window = second.window) (hsize : first.size = second.size) :
    first = second := by
  have hbyte : ∀ offset < 4096, first.image.getD offset 0 = second.image.getD offset 0 := by
    intro offset hoffset
    have hcell := congrArg (·[offset]) hwindow
    simpa only [window, Vector.getElem_ofFn] using hcell
  have himage : first.image = second.image := by
    apply Array.ext hsize
    intro offset hfirst hsecond
    have hoffset := hbyte offset (Nat.lt_of_lt_of_le hfirst first.size_le)
    rwa [Array.getD_eq_getD_getElem?, Array.getD_eq_getD_getElem?, Array.getElem?_eq_getElem hfirst,
      Array.getElem?_eq_getElem hsecond] at hoffset
  cases first
  cases second
  cases himage
  rfl

theorem Tia.scanline_congr {first second : Tia} (h : first.cells = second.cells) :
    first.scanline = second.scanline := by
  cases first
  cases second
  cases h
  rfl

/-- The chips hold the same bytes and the cartridge is the same. Who observes them may differ. -/
structure ConsoleBus.Alike (first second : ConsoleBus) : Prop where
  tia : first.tia.cells = second.tia.cells
  riot : first.riot.cells = second.riot.cells
  cartridge : first.cartridge = second.cartridge

theorem ConsoleBus.bisimulation_alike : Bus.Bisimulation ConsoleBus.Alike where
  read {first second} h address := by
    change first.read address = second.read address
    unfold ConsoleBus.read
    split
    · rw [RegisterBank.read, RegisterBank.read, h.tia]
    · rw [RegisterBank.read, RegisterBank.read, h.riot]
    · rw [h.cartridge]
    · rfl
  write {first second} h address value := by
    change ConsoleBus.Alike (first.write address value) (second.write address value)
    unfold ConsoleBus.write
    split
    · refine ⟨?_, h.riot, h.cartridge⟩
      simp only [RegisterBank.write, h.tia]
    · refine ⟨h.tia, ?_, h.cartridge⟩
      simp only [RegisterBank.write, h.riot]
    · exact h
    · exact h

namespace Console

/-- Consoles that cannot be told apart but by the frames they have counted. -/
structure Alike (ahead : Int) (c d : Console) : Prop where
  machine : c.machine.Twins ConsoleBus.Alike d.machine
  timing : c.timing = d.timing
  scanline : c.scanline = d.scanline
  frame : c.frame = d.frame
  frameCount : (c.frameCount : Int) - d.frameCount = ahead

/-- Equal results that leave alike consoles. -/
structure AlikeResults {α : Type} (ahead : Int) (result result' : α × Console) : Prop where
  fst : result.1 = result'.1
  snd : result.2.Alike ahead result'.2

end Console

theorem Machine.Twins.runSteps {m m' : Machine ConsoleBus} (h : m.Twins ConsoleBus.Alike m')
    (total count : Nat) :
    TwinResults ConsoleBus.Alike (m.runSteps total count) (m'.runSteps total count) := by
  induction count generalizing m m' total with
  | zero => exact h.results _
  | succ count ih =>
    match hstep : m.step with
    | (.error failure, next) =>
      obtain ⟨next', hstep', hnext⟩ :=
        (hstep ▸ h.step ConsoleBus.bisimulation_alike).exists_twin
      simp only [Machine.runSteps, hstep, hstep']
      exact hnext.results _
    | (.ok cycles, next) =>
      obtain ⟨next', hstep', hnext⟩ :=
        (hstep ▸ h.step ConsoleBus.bisimulation_alike).exists_twin
      simp only [Machine.runSteps, hstep, hstep']
      split
      · exact ih hnext (total + cycles)
      · exact hnext.results _

namespace Console

variable {ahead : Int} {c d : Console}

/-- What one console comes to is met by the one alike. -/
theorem AlikeResults.exists_alike {α : Type} {value : α} {result' : α × Console}
    (h : AlikeResults ahead (value, c) result') : ∃ d, result' = (value, d) ∧ c.Alike ahead d :=
  ⟨result'.2, Prod.ext h.fst.symm rfl, h.snd⟩

namespace Alike

theorem results {α : Type} (h : c.Alike ahead d) (value : α) :
    AlikeResults ahead (value, c) (value, d) :=
  ⟨rfl, h⟩

theorem withMachine (h : c.Alike ahead d) {m m' : Machine ConsoleBus}
    (hmachine : m.Twins ConsoleBus.Alike m') :
    Alike ahead { c with machine := m } { d with machine := m' } :=
  { h with machine := hmachine }

theorem drawScanline (h : c.Alike ahead d) : c.drawScanline.Alike ahead d.drawScanline := by
  have hrow : c.machine.bus.tia.scanline = d.machine.bus.tia.scanline :=
    Tia.scanline_congr h.machine.bus.tia
  unfold Console.drawScanline
  rw [h.timing, h.scanline]
  split
  · exact h
  · simp only [Tia.draw, hrow, h.frame]
    exact ⟨h.machine, rfl, rfl, rfl, h.frameCount⟩

theorem advance (h : c.Alike ahead d) : c.advance.Alike ahead d.advance := by
  have hcount := h.frameCount
  unfold Console.advance
  rw [h.timing, h.scanline]
  split
  · exact ⟨h.machine, rfl, rfl, h.frame, hcount⟩
  · refine ⟨h.machine, rfl, rfl, h.frame, ?_⟩
    push_cast
    omega

theorem runScanline (h : c.Alike ahead d) : AlikeResults ahead c.runScanline d.runScanline := by
  have hburst := h.machine.runSteps 0 c.timing.stepsPerScanline.toNat
  match hrun : c.machine.runSteps 0 c.timing.stepsPerScanline.toNat with
  | (.error failure, m) =>
    obtain ⟨m', hrun', hmachine⟩ := (hrun ▸ hburst).exists_twin
    rw [h.timing] at hrun'
    simp only [Console.runScanline, hrun, hrun']
    exact (h.withMachine hmachine).results _
  | (.ok cycles, m) =>
    obtain ⟨m', hrun', hmachine⟩ := (hrun ▸ hburst).exists_twin
    rw [h.timing] at hrun'
    simp only [Console.runScanline, hrun, hrun']
    exact (h.withMachine hmachine).drawScanline.advance.results _

/-- The scanlines of a frame are run alike until both frames are complete. -/
theorem runFrame (h : c.Alike ahead d) : AlikeResults ahead c.runFrame d.runFrame := by
  fun_induction Console.runFrame c generalizing d with
  | case1 c failure next hscanline =>
    obtain ⟨next', hscanline', hnext⟩ := (hscanline ▸ h.runScanline).exists_alike
    rw [runFrame_of_error hscanline']
    exact hnext.results _
  | case2 c cycles next hscanline hfirst =>
    obtain ⟨next', hscanline', hnext⟩ := (hscanline ▸ h.runScanline).exists_alike
    rw [runFrame_of_ok hscanline', if_pos (hnext.scanline ▸ hfirst), hnext.frame]
    exact hnext.results _
  | case3 c cycles next hscanline hlater ih =>
    obtain ⟨next', hscanline', hnext⟩ := (hscanline ▸ h.runScanline).exists_alike
    rw [runFrame_of_ok hscanline', if_neg (hnext.scanline ▸ hlater)]
    exact ih hnext

end Alike

/-- Nothing but timing and cartridge survives a reset. -/
theorem alike_reset (htiming : c.timing = d.timing)
    (hcartridge : c.machine.bus.cartridge = d.machine.bus.cartridge) :
    Alike ((c.frameCount : Int) - d.frameCount) c.reset d.reset := by
  have hbus : ConsoleBus.Alike c.machine.bus.reset d.machine.bus.reset := ⟨rfl, rfl, hcartridge⟩
  have hvector : Bus.readWord c.machine.bus.reset Machine.resetVector =
      Bus.readWord d.machine.bus.reset Machine.resetVector := by
    rw [Bus.readWord, Bus.readWord, ConsoleBus.bisimulation_alike.read hbus,
      ConsoleBus.bisimulation_alike.read hbus]
  exact ⟨⟨congrArg Processor.initial hvector, hbus⟩, htiming, rfl, rfl, rfl⟩

/-- Where an image is loaded the cartridge does not survive either. -/
theorem alike_load (htiming : c.timing = d.timing) (image : Array Byte) :
    Alike ((c.frameCount : Int) - d.frameCount) (c.load image) (d.load image) :=
  alike_reset (c := c.insertCartridge image) (d := d.insertCartridge image) htiming rfl

/-- Every call is answered alike by alike consoles. -/
theorem Alike.perform (h : c.Alike ahead d) (call : Call) :
    AlikeResults ahead (c.perform call) (d.perform call) := by
  cases call with
  | machine call =>
    have hresults := h.machine.perform ConsoleBus.bisimulation_alike call
    exact ⟨hresults.fst, h.withMachine hresults.snd⟩
  | runScanline =>
    have hresults := h.runScanline
    exact ⟨congrArg (Except.map Answer.cycles) hresults.fst, hresults.snd⟩
  | runFrame =>
    have hresults := h.runFrame
    exact ⟨congrArg (Except.map Answer.picture) hresults.fst, hresults.snd⟩
  | clearFrame =>
    have hcleared : c.clearFrame.Alike ahead d.clearFrame :=
      ⟨h.machine, h.timing, h.scanline, rfl, h.frameCount⟩
    exact hcleared.results _
  | reset =>
    have hreset := alike_reset h.timing h.machine.bus.cartridge
    rw [h.frameCount] at hreset
    exact hreset.results _
  | load image =>
    have hload := alike_load h.timing image
    rw [h.frameCount] at hload
    exact hload.results _

/-- Alike consoles answer every session alike. -/
theorem Alike.performAll (h : c.Alike ahead d) (calls : List Call) :
    AlikeResults ahead (VideoComputer.performAll Console.perform c calls)
      (VideoComputer.performAll Console.perform d calls) := by
  induction calls generalizing c d with
  | nil => exact h.results _
  | cons call rest ih =>
    have hcall := h.perform call
    have hrest := ih hcall.snd
    exact ⟨congrArg₂ List.cons hcall.fst hrest.fst, hrest.snd⟩

/-- **A reset forgets what was before it.** Two consoles of one timing, the cartridges of which have
one window and one size, answer every session after a reset alike and are left alike by it, the
counts of frames aside, whose difference stays. So do two consoles of one timing, one of them new,
into which one image is loaded. A second reset does nothing but log itself. -/
theorem reset_forgets :
    (∀ c d : Console, c.timing = d.timing →
      c.machine.bus.cartridge.window = d.machine.bus.cartridge.window →
      c.machine.bus.cartridge.size = d.machine.bus.cartridge.size → ∀ calls,
        AlikeResults ((c.frameCount : Int) - d.frameCount)
          (VideoComputer.performAll perform c.reset calls)
          (VideoComputer.performAll perform d.reset calls)) ∧
    (∀ (c : Console) (bus : ConsoleBus) (image : Array Byte) (calls : List Call),
      AlikeResults c.frameCount (VideoComputer.performAll perform (c.load image) calls)
        (VideoComputer.performAll perform ((powerOn c.timing bus).load image) calls)) ∧
    ∀ c : Console, c.reset.reset =
      { c.reset with machine :=
          { c.reset.machine with journal := c.reset.reset.machine.journal } } := by
  refine ⟨?_, ?_, fun _ ↦ rfl⟩
  · intro c d htiming hwindow hsize calls
    apply Alike.performAll
    exact alike_reset htiming (Cartridge.eq_of_window_eq hwindow hsize)
  · intro c bus image calls
    have hload := alike_load (c := c) (d := powerOn c.timing bus) rfl image
    have hahead : (c.frameCount : Int) - (powerOn c.timing bus).frameCount = c.frameCount :=
      Int.sub_zero _
    rw [hahead] at hload
    exact hload.performAll calls

/-- A console that has drawn a frame and halted is after a reset as the one that has just been set
up, but for that frame. -/
theorem reset_forgets_colourCounter :
    let used := (VideoComputer.performAll perform colourCounter
      [.runScanline, .runScanline, .runScanline]).2
    used.machine.processor.halted = true ∧ used.timing = colourCounter.timing ∧
    used.machine.bus.cartridge.window = colourCounter.machine.bus.cartridge.window ∧
    used.machine.bus.cartridge.size = colourCounter.machine.bus.cartridge.size ∧
    AlikeResults 1 (VideoComputer.performAll perform used.reset [.machine .step, .runFrame])
      (VideoComputer.performAll perform colourCounter.reset [.machine .step, .runFrame]) := by
  intro used
  have htiming : used.timing = colourCounter.timing := colourCounter.timing_performAll _
  have hcartridge : used.machine.bus.cartridge = colourCounter.machine.bus.cartridge := rfl
  have hcount : (used.frameCount : Int) - colourCounter.frameCount = 1 := by decide +kernel
  refine ⟨by decide +kernel, htiming, by rw [hcartridge], by rw [hcartridge], ?_⟩
  rw [← hcount]
  exact reset_forgets.1 used colourCounter htiming (by rw [hcartridge]) (by rw [hcartridge]) _

end Console

end VideoComputer
