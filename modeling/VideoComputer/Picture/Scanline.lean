import VideoComputer.Picture.Frame

/-!
# Scanlines

How the registers of the television chip become one row of pixels. A pattern of twenty playfield
bits, four pixels each, fills the left half of the row and is repeated or reflected in the right
half. Two eight-pixel players at fixed places cover it.
-/

namespace VideoComputer

/-- The registers that are seen on the screen. -/
inductive VideoRegister where
  | playerColour0
  | playerColour1
  | playfieldColour
  | backgroundColour
  | playfieldControl
  | playfield0
  | playfield1
  | playfield2
  | playerGraphics0
  | playerGraphics1
deriving DecidableEq

def VideoRegister.offset : VideoRegister → Fin 64
  | playerColour0 => 0x06
  | playerColour1 => 0x07
  | playfieldColour => 0x08
  | backgroundColour => 0x09
  | playfieldControl => 0x0A
  | playfield0 => 0x0D
  | playfield1 => 0x0E
  | playfield2 => 0x0F
  | playerGraphics0 => 0x1B
  | playerGraphics1 => 0x1C

namespace Tia

def get (tia : Tia) (register : VideoRegister) : Byte := tia.read register.offset

/-- Twenty bits: the high digit of the first playfield register, then the two others. -/
def playfieldPattern (tia : Tia) : Nat :=
  (tia.get .playfield0).toNat / 16 * 65536 + (tia.get .playfield1).toNat * 256 +
    (tia.get .playfield2).toNat

/-- The right half shows the left half backwards. -/
def isReflected (tia : Tia) : Bool := (tia.get .playfieldControl).bit 0

/-- The place in the left half whose bit a cell of four pixels shows. -/
def playfieldColumn (reflected : Bool) (cell : Nat) : Nat :=
  if cell < 20 then cell else if reflected then 39 - cell else cell - 20

def playfieldBit (tia : Tia) (cell : Nat) : Bool :=
  tia.playfieldPattern.testBit (19 - playfieldColumn tia.isReflected cell)

/-- Whether a player whose leftmost pixel is `left` covers a pixel; its most significant bit is
leftmost. -/
def playerBit (graphics : Byte) (left x : Nat) : Bool :=
  decide (left ≤ x ∧ x < left + 8) && graphics.bit (left + 7 - x)

def colourAt (tia : Tia) (x : Nat) : Byte :=
  if playerBit (tia.get .playerGraphics1) 16 x then tia.get .playerColour1
  else if playerBit (tia.get .playerGraphics0) 0 x then tia.get .playerColour0
  else if tia.playfieldBit (x / 4) then tia.get .playfieldColour
  else tia.get .backgroundColour

def scanline (tia : Tia) : Row := Vector.ofFn fun x ↦ tia.colourAt x

/-- Draws the registers' row into a line of the picture, if there is such a line. -/
def draw (tia : Tia) (line : Nat) (frame : Frame) : Frame := frame.setRow line tia.scanline

@[simp] theorem getElem_scanline (tia : Tia) (x : Nat) (h : x < 160) :
    tia.scanline[x] = tia.colourAt x := by
  simp [scanline]

end Tia

end VideoComputer
