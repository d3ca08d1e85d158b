import Mathlib.Algebra.GroupWithZero.Nat
import VideoComputer.Instruction.AddressingMode
import VideoComputer.Picture.Scanline

/-!
# Checked drawing

Drawing once more, pixel by pixel and with every difference, every shift and every place in the
picture checked where it is used. No check ever fails, and what is drawn is the same: the checks may
be left out.
-/

namespace VideoComputer

/-- What a checked program stops at. -/
inductive Fault where
  /-- An address is asked for in a mode that has none. -/
  | noEffectiveAddress (mode : AddressingMode)
  | outOfRange (error : RangeError)
  /-- A difference is negative. -/
  | negative (first second : Nat)
  /-- A shift pushes out every bit there is. -/
  | shift (width amount : Nat)
  /-- A number needs more bits than there are. -/
  | overflow (width value : Nat)
deriving DecidableEq

namespace Checked

/-- A check that has passed hands its value on. -/
@[simp] theorem bind_ok {α β : Type} (value : α) (next : α → Except Fault β) :
    (Except.ok value >>= next) = next value := rfl

def difference (first second : Nat) : Except Fault Nat :=
  if second ≤ first then .ok (first - second) else .error (.negative first second)

/-- An amount to shift a number of so many bits by. -/
def shift (width amount : Nat) : Except Fault Nat :=
  if amount < width then .ok amount else .error (.shift width amount)

/-- A number that has to fit so many bits. -/
def unsigned (width value : Nat) : Except Fault Nat :=
  if value < 2 ^ width then .ok value else .error (.overflow width value)

theorem difference_of_le {first second : Nat} (h : second ≤ first) :
    difference first second = .ok (first - second) := if_pos h

theorem shift_of_lt {width amount : Nat} (h : amount < width) : shift width amount = .ok amount :=
  if_pos h

theorem unsigned_of_lt {width value : Nat} (h : value < 2 ^ width) :
    unsigned width value = .ok value := if_pos h

end Checked

namespace Frame

theorem ext_pixel {first second : Frame}
    (h : ∀ x y, first.pixel x y = second.pixel x y) : first = second := by
  apply Frame.ext
  apply Vector.ext
  intro y hy
  apply Vector.ext
  intro x hx
  exact h ⟨x, hx⟩ ⟨y, hy⟩

/-- Colours a pixel that has to lie in the picture. -/
def checkedSet (frame : Frame) (x y : Nat) (value : Byte) : Except Fault Frame := do
  let (x, y) ← (position x y).mapError .outOfRange
  return frame.setPixel x y value

theorem checkedSet_eq (frame : Frame) (x : Fin 160) (y : Fin 192) (value : Byte) :
    frame.checkedSet x y value = .ok (frame.setPixel x y value) := by
  simp only [checkedSet, position, dif_pos (And.intro x.isLt y.isLt)]
  rfl

end Frame

namespace Tia

/-- The place in the left half whose bit a cell shows, found by differences that must not be
negative. -/
def checkedColumn (reflected : Bool) (cell : Nat) : Except Fault Nat :=
  if cell < 20 then .ok cell
  else if reflected then do
    let distance ← Checked.difference cell 20
    Checked.difference 19 distance
  else Checked.difference cell 20

/-- A bit of the pattern, which is shifted as a number of 32 bits. -/
def checkedPlayfieldBit (tia : Tia) (cell : Nat) : Except Fault Bool := do
  let column ← checkedColumn tia.isReflected cell
  let place ← Checked.difference 19 column
  let place ← Checked.shift 32 place
  return tia.playfieldPattern.testBit place

/-- A player's graphics are shifted as a byte. -/
def checkedPlayerBit (graphics : Byte) (left x : Nat) : Except Fault Bool :=
  if left ≤ x ∧ x < left + 8 then do
    let column ← Checked.difference x left
    let column ← Checked.shift 8 column
    return graphics.bit (7 - column)
  else .ok false

def checkedColourAt (tia : Tia) (x : Nat) : Except Fault Byte := do
  let playfield ← tia.checkedPlayfieldBit (x / 4)
  let player0 ← checkedPlayerBit (tia.get .playerGraphics0) 0 x
  let player1 ← checkedPlayerBit (tia.get .playerGraphics1) 16 x
  return if player1 then tia.get .playerColour1
    else if player0 then tia.get .playerColour0
    else if playfield then tia.get .playfieldColour
    else tia.get .backgroundColour

/-- Draws the leftmost pixels of a line, one after the other. -/
def checkedPixels (tia : Tia) (line : Nat) (frame : Frame) (count : Nat) : Except Fault Frame :=
  (List.range count).foldlM (fun frame x ↦ do
    let colour ← tia.checkedColourAt x
    frame.checkedSet x line colour) frame

/-- Draws a line pixel by pixel. A line below the picture is ignored. -/
def checkedDraw (tia : Tia) (line : Nat) (frame : Frame) : Except Fault Frame :=
  if line < 192 then tia.checkedPixels line frame 160 else .ok frame

theorem checkedColumn_eq (reflected : Bool) {cell : Nat} (h : cell < 40) :
    checkedColumn reflected cell = .ok (playfieldColumn reflected cell) := by
  unfold checkedColumn playfieldColumn
  split
  · rfl
  · rename_i hright
    rw [Nat.not_lt] at hright
    split
    · have hmirrored : 19 - (cell - 20) = 39 - cell := by omega
      rw [Checked.difference_of_le hright, Checked.bind_ok, Checked.difference_of_le (by omega),
        hmirrored]
    · exact Checked.difference_of_le hright

theorem playfieldColumn_lt (reflected : Bool) {cell : Nat} (h : cell < 40) :
    playfieldColumn reflected cell < 20 := by
  unfold playfieldColumn
  split
  · assumption
  · split <;> omega

theorem checkedPlayfieldBit_eq (tia : Tia) {cell : Nat} (h : cell < 40) :
    tia.checkedPlayfieldBit cell = .ok (tia.playfieldBit cell) := by
  have hcolumn := playfieldColumn_lt tia.isReflected h
  unfold checkedPlayfieldBit
  rw [checkedColumn_eq _ h, Checked.bind_ok, Checked.difference_of_le (by omega), Checked.bind_ok,
    Checked.shift_of_lt (by omega)]
  rfl

theorem checkedPlayerBit_eq (graphics : Byte) (left x : Nat) :
    checkedPlayerBit graphics left x = .ok (playerBit graphics left x) := by
  unfold checkedPlayerBit playerBit
  split
  · rename_i hcovered
    obtain ⟨hleft, hright⟩ := hcovered
    have hplace : left + 7 - x = 7 - (x - left) := by omega
    rw [Checked.difference_of_le hleft, Checked.bind_ok, Checked.shift_of_lt (by omega),
      decide_eq_true ⟨hleft, hright⟩, hplace]
    rfl
  · rename_i hcovered
    rw [decide_eq_false hcovered]
    rfl

theorem checkedColourAt_eq (tia : Tia) {x : Nat} (h : x < 160) :
    tia.checkedColourAt x = .ok (tia.colourAt x) := by
  unfold checkedColourAt colourAt
  rw [checkedPlayfieldBit_eq tia (by omega), checkedPlayerBit_eq, checkedPlayerBit_eq]
  rfl

/-- So many pixels have their new colours, and all others have kept theirs. -/
theorem exists_checkedPixels (tia : Tia) (line : Fin 192) (frame : Frame) {count : Nat}
    (hcount : count ≤ 160) :
    ∃ drawn, tia.checkedPixels line frame count = .ok drawn ∧
      ∀ x y, drawn.pixel x y =
        if y = line ∧ x.val < count then tia.colourAt x else frame.pixel x y := by
  induction count with
  | zero =>
    refine ⟨frame, rfl, fun x y ↦ ?_⟩
    rw [if_neg (by omega)]
  | succ count ih =>
    obtain ⟨drawn, hdrawn, hpixels⟩ := ih (by omega)
    let column : Fin 160 := ⟨count, hcount⟩
    refine ⟨drawn.setPixel column line (tia.colourAt count), ?_, fun x y ↦ ?_⟩
    · unfold checkedPixels at hdrawn ⊢
      rw [List.range_succ, List.foldlM_append, hdrawn, Checked.bind_ok, List.foldlM_cons,
        checkedColourAt_eq tia hcount, Checked.bind_ok]
      change drawn.checkedSet column line _ >>= _ = _
      rw [Frame.checkedSet_eq]
      rfl
    · rw [Frame.pixel_setPixel, hpixels]
      by_cases hx : x = column
      · subst hx
        by_cases hy : y = line
        · subst hy
          rw [if_pos ⟨rfl, rfl⟩, if_pos ⟨rfl, Nat.lt_succ_self count⟩]
        · rw [if_neg (fun h ↦ hy h.2.symm), if_neg (fun h ↦ hy h.1), if_neg (fun h ↦ hy h.1)]
      · have hne : x.val ≠ count := fun h ↦ hx (Fin.ext h)
        have hsame : x.val < count + 1 ↔ x.val < count := by omega
        rw [if_neg (fun h ↦ hx h.1.symm)]
        simp only [hsame]

theorem pixel_draw (tia : Tia) (line : Fin 192) (frame : Frame) (x : Fin 160) (y : Fin 192) :
    (tia.draw line frame).pixel x y =
      if y = line then tia.colourAt x else frame.pixel x y := by
  simp only [draw, Frame.setRow, Frame.pixel, Fin.getElem_fin, Vector.getElem_setIfInBounds]
  by_cases hy : y = line
  · subst hy
    simp
  · have hne : line.val ≠ y.val := fun h ↦ hy (Fin.ext h.symm)
    simp [hy, hne]

/-- **Drawing needs no checks.** Whatever the registers hold and whatever the line is, the checked
drawing goes through and draws the same. -/
theorem checkedDraw_eq (tia : Tia) (line : Nat) (frame : Frame) :
    tia.checkedDraw line frame = .ok (tia.draw line frame) := by
  unfold checkedDraw
  split
  · rename_i hline
    obtain ⟨drawn, hdrawn, hpixels⟩ :=
      tia.exists_checkedPixels ⟨line, hline⟩ frame (Nat.le_refl 160)
    rw [hdrawn]
    refine congrArg Except.ok (Frame.ext_pixel fun x y ↦ ?_)
    rw [hpixels, tia.pixel_draw ⟨line, hline⟩ frame]
    simp only [x.isLt, and_true]
  · rename_i hbelow
    rw [draw, Frame.setRow, Vector.setIfInBounds_eq_of_size_le (Nat.le_of_not_lt hbelow)]

end Tia

end VideoComputer
