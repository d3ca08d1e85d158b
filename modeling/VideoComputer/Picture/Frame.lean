import VideoComputer.Memory.RegisterBank
import VideoComputer.Picture.Palette

/-!
# Frames

A picture of 192 rows of 160 pixels, each pixel the colour code that the television chip gave it.
-/

namespace VideoComputer

abbrev Row := Vector Byte 160

@[ext]
structure Frame where
  rows : Vector Row 192
deriving DecidableEq

namespace Frame

def blank : Frame := ⟨Vector.replicate 192 (Vector.replicate 160 0)⟩

/-- The place of a pixel, column first. -/
def position (x y : Nat) : Except RangeError (Fin 160 × Fin 192) :=
  if h : x < 160 ∧ y < 192 then .ok (⟨x, h.1⟩, ⟨y, h.2⟩) else .error (.pixel x y)

def pixel (frame : Frame) (x : Fin 160) (y : Fin 192) : Byte := frame.rows[y][x]

def setPixel (frame : Frame) (x : Fin 160) (y : Fin 192) (value : Byte) : Frame :=
  ⟨frame.rows.set y (frame.rows[y].set x value)⟩

def row? (frame : Frame) (line : Nat) : Option Row := frame.rows[line]?

/-- Replaces a row; a line below the picture is ignored. -/
def setRow (frame : Frame) (line : Nat) (row : Row) : Frame :=
  ⟨frame.rows.setIfInBounds line row⟩

/-- All pixels, row by row. -/
def pixels (frame : Frame) : List Byte := frame.rows.toList.flatMap Vector.toList

/-- Four bytes for each pixel: red, green, blue and full opacity. -/
def rgba (frame : Frame) : List Byte := frame.pixels.flatMap Palette.rgba

def describe : String := "FrameBuffer \x7b width: 160, height: 192, .. \x7d"

theorem pixel_setPixel (frame : Frame) (x x' : Fin 160) (y y' : Fin 192) (value : Byte) :
    (frame.setPixel x y value).pixel x' y' =
      if x = x' ∧ y = y' then value else frame.pixel x' y' := by
  simp only [pixel, setPixel, Fin.getElem_fin, Vector.getElem_set, Fin.val_inj]
  by_cases hy : y = y'
  · subst hy
    simp only [if_true, Vector.getElem_set, Fin.val_inj, and_true]
  · simp only [hy, and_false, if_false]

@[simp] theorem length_pixels (frame : Frame) : frame.pixels.length = 192 * 160 := by
  simp only [pixels, List.length_flatMap, Vector.length_toList, List.map_const',
    List.sum_replicate_nat]

end Frame

end VideoComputer
