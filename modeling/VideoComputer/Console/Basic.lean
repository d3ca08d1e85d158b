import VideoComputer.Console.AddressMap
import VideoComputer.Console.Timing
import VideoComputer.Machine.Step
import VideoComputer.Picture.Scanline

/-!
# Consoles

The machine behind its address map, the picture it draws and the position in that picture.
-/

namespace VideoComputer

/-- Puts a cartridge in the slot, which does not reset anything. -/
def Machine.insertCartridge (m : Machine ConsoleBus) (image : Array Byte) : Machine ConsoleBus :=
  let cartridge := Cartridge.ofImage image
  { m with bus := { m.bus with cartridge := cartridge } }.note
    (.logged (.cartridgeInserted image.size cartridge.size))

/-- Zeroes the chips; the processor is not told. -/
def Machine.resetChips (m : Machine ConsoleBus) : Machine ConsoleBus :=
  { m with bus := m.bus.reset }

structure Console where
  machine : Machine ConsoleBus
  frame : Frame
  timing : Timing
  /-- The scanline that comes next. -/
  scanline : Nat
  /-- Frames completed since power-on. -/
  frameCount : Nat

namespace Console

def powerOn (timing : Timing) (bus : ConsoleBus) : Console where
  machine := .powerOn bus
  frame := .blank
  timing := timing
  scanline := 0
  frameCount := 0

/-- Resets chips and processor, goes back to the first scanline and blanks the picture. Cartridge
and frame count are kept. -/
def reset (c : Console) : Console :=
  { c with machine := c.machine.resetChips.reset, scanline := 0, frame := .blank }

def insertCartridge (c : Console) (image : Array Byte) : Console :=
  { c with machine := c.machine.insertCartridge image }

/-- Puts a cartridge in the slot and resets the console. -/
def load (c : Console) (image : Array Byte) : Console := (c.insertCartridge image).reset

/-- Blanks the picture and touches nothing else. -/
def clearFrame (c : Console) : Console := { c with frame := .blank }

def step (c : Console) : Except Failure Nat × Console :=
  let (result, machine) := c.machine.step
  (result, { c with machine := machine })

end Console

end VideoComputer
