import VideoComputer.Proofs.Picture.Checks

/-!
# The picture of a line

Forty playfield bits stand behind two players. Main statement: what drawing a line makes of every
pixel of the picture, told by the bits of the registers from left to right, and what follows from
it: which bits of the registers matter, how a line without players repeats or mirrors itself, and
that the order of lines does not matter.
-/

namespace VideoComputer

/-! ## Bits from the left -/

/-- The lowest bits of a number, the most significant of them first. -/
def bitsFromTop (count n : Nat) : List Bool :=
  (List.range count).map fun place ↦ n.testBit (count - 1 - place)

/-- A number in two parts shows the bits of the upper part first. -/
theorem bitsFromTop_add {low count : Nat} (hlow : low < 2 ^ count) (width high : Nat) :
    bitsFromTop (width + count) (2 ^ count * high + low) =
      bitsFromTop width high ++ bitsFromTop count low := by
  have hupper : ∀ place ∈ List.range width,
      (2 ^ count * high + low).testBit (width + count - 1 - place) =
        high.testBit (width - 1 - place) := by
    intro place hplace
    have hplace := List.mem_range.mp hplace
    have hindex : width + count - 1 - place - count = width - 1 - place := by omega
    rw [Nat.testBit_two_pow_mul_add high hlow, if_neg (by omega), hindex]
  have hlower : ∀ place ∈ List.range count,
      (2 ^ count * high + low).testBit (width + count - 1 - (width + place)) =
        low.testBit (count - 1 - place) := by
    intro place hplace
    have hplace := List.mem_range.mp hplace
    have hindex : width + count - 1 - (width + place) = count - 1 - place := by omega
    rw [Nat.testBit_two_pow_mul_add high hlow, if_pos (by omega), hindex]
  unfold bitsFromTop
  rw [List.range_add, List.map_append, List.map_map, List.map_congr_left hupper]
  exact congrArg (_ ++ ·) (List.map_congr_left hlower)

/-- The first bits of a byte, the most significant one first. -/
def Byte.leadingBits (value : Byte) (count : Nat) : List Bool :=
  (List.range count).map fun place ↦ value.bit (7 - place)

theorem Byte.leadingBits_four (value : Byte) :
    value.leadingBits 4 = bitsFromTop 4 (value.toNat / 16) := by
  apply List.map_congr_left
  intro place hplace
  have hplace := List.mem_range.mp hplace
  have hindex : 7 - place = 4 - 1 - place + 4 := by omega
  rw [Byte.bit, hindex]
  exact (Nat.testBit_div_two_pow value.toNat (4 - 1 - place)).symm

namespace Tia

/-! ## The playfield -/

/-- The bits of the left half of a line from the left: those of half a register and of two whole
ones. -/
def leftHalf (tia : Tia) : List Bool :=
  (tia.get .playfield0).leadingBits 4 ++ (tia.get .playfield1).leadingBits 8 ++
    (tia.get .playfield2).leadingBits 8

/-- The bits of a line from the left: the right half is the left half again or backwards. -/
def playfield (tia : Tia) : List Bool :=
  tia.leftHalf ++
    if (tia.get .playfieldControl).bit 0 then tia.leftHalf.reverse else tia.leftHalf

theorem leftHalf_eq (tia : Tia) : tia.leftHalf = bitsFromTop 20 tia.playfieldPattern := by
  have hmiddle := (tia.get .playfield1).toNat_lt
  have hlast := (tia.get .playfield2).toNat_lt
  have hpattern : tia.playfieldPattern =
      2 ^ 8 * (2 ^ 8 * ((tia.get .playfield0).toNat / 16) + (tia.get .playfield1).toNat) +
        (tia.get .playfield2).toNat := by
    unfold playfieldPattern
    omega
  rw [hpattern, bitsFromTop_add hlast 12, bitsFromTop_add hmiddle 4, ← Byte.leadingBits_four]
  rfl

theorem length_leftHalf (tia : Tia) : tia.leftHalf.length = 20 := by
  rw [leftHalf_eq, bitsFromTop, List.length_map, List.length_range]

theorem getElem?_leftHalf (tia : Tia) {column : Nat} (h : column < 20) :
    tia.leftHalf[column]? = some (tia.playfieldPattern.testBit (19 - column)) := by
  rw [leftHalf_eq, bitsFromTop, List.getElem?_map, List.getElem?_range h]
  rfl

/-- Each cell of four pixels shows the bit in its place. -/
theorem getElem?_playfield (tia : Tia) {cell : Nat} (h : cell < 40) :
    tia.playfield[cell]? = some (tia.playfieldBit cell) := by
  have hlength := tia.length_leftHalf
  unfold playfield playfieldBit playfieldColumn isReflected
  by_cases hleft : cell < 20
  · rw [List.getElem?_append_left (by omega), getElem?_leftHalf tia hleft, if_pos hleft]
  · rw [List.getElem?_append_right (by omega), hlength, if_neg hleft]
    split
    · have hmirrored : tia.leftHalf.length - 1 - (cell - 20) = 39 - cell := by omega
      rw [List.getElem?_reverse (by omega), hmirrored, getElem?_leftHalf tia (by omega)]
    · exact getElem?_leftHalf tia (by omega)

/-! ## Pixels -/

/-- The colour of a pixel, from the front to the back: the second player, the first one, the
playfield and the background. -/
def shownColour (tia : Tia) (x : Nat) : Byte :=
  if 16 ≤ x ∧ x < 24 ∧ (tia.get .playerGraphics1).bit (23 - x) then tia.get .playerColour1
  else if x < 8 ∧ (tia.get .playerGraphics0).bit (7 - x) then tia.get .playerColour0
  else if tia.playfield[x / 4]? = some true then tia.get .playfieldColour
  else tia.get .backgroundColour

theorem playerBit_iff (graphics : Byte) (left x : Nat) :
    playerBit graphics left x = true ↔
      left ≤ x ∧ x < left + 8 ∧ graphics.bit (left + 7 - x) = true := by
  rw [playerBit, Bool.and_eq_true, decide_eq_true_iff, and_assoc]

theorem colourAt_eq (tia : Tia) {x : Nat} (h : x < 160) : tia.colourAt x = tia.shownColour x := by
  have hplayfield : tia.playfieldBit (x / 4) = true ↔ tia.playfield[x / 4]? = some true := by
    rw [getElem?_playfield tia (by omega), Option.some_inj]
  unfold colourAt shownColour
  simp only [playerBit_iff, hplayfield, Nat.zero_le, true_and, Nat.zero_add]

/-- What drawing makes of a picture, pixel by pixel. -/
theorem pixel_draw_eq (tia : Tia) (line : Nat) (frame : Frame) (x : Fin 160) (y : Fin 192) :
    (tia.draw line frame).pixel x y =
      if y.val = line then tia.shownColour x else frame.pixel x y := by
  by_cases hline : line < 192
  · have hdrawn := tia.pixel_draw ⟨line, hline⟩ frame x y
    rw [colourAt_eq tia x.isLt] at hdrawn
    simpa only [Fin.ext_iff] using hdrawn
  · have hy := y.isLt
    rw [draw, Frame.setRow, Vector.setIfInBounds_eq_of_size_le (by omega), if_neg (by omega)]

/-- The registers of two chips show the same: of the two registers that are not read whole only the
bits that are read need to agree. -/
structure SameOnScreen (first second : Tia) : Prop where
  whole : ∀ register, register ≠ .playfield0 → register ≠ .playfieldControl →
    first.get register = second.get register
  half : (first.get .playfield0).highDigit = (second.get .playfield0).highDigit
  control : (first.get .playfieldControl).bit 0 = (second.get .playfieldControl).bit 0

theorem SameOnScreen.shownColour_eq {first second : Tia} (h : first.SameOnScreen second) :
    first.shownColour = second.shownColour := by
  have hhalf : (first.get .playfield0).leadingBits 4 = (second.get .playfield0).leadingBits 4 := by
    rw [Byte.leadingBits_four, Byte.leadingBits_four]
    exact congrArg (bitsFromTop 4) (congrArg Fin.val h.half)
  have hplayfield : first.playfield = second.playfield := by
    simp only [playfield, leftHalf, hhalf, h.control, h.whole .playfield1 nofun nofun,
      h.whole .playfield2 nofun nofun]
  funext x
  simp only [shownColour, hplayfield, h.whole .playerGraphics0 nofun nofun,
    h.whole .playerGraphics1 nofun nofun, h.whole .playerColour0 nofun nofun,
    h.whole .playerColour1 nofun nofun, h.whole .playfieldColour nofun nofun,
    h.whole .backgroundColour nofun nofun]

theorem SameOnScreen.draw_eq {first second : Tia} (h : first.SameOnScreen second) (line : Nat)
    (frame : Frame) : first.draw line frame = second.draw line frame := by
  apply Frame.ext_pixel
  intro x y
  rw [pixel_draw_eq, pixel_draw_eq, h.shownColour_eq]

/-! ## Lines without players -/

section WithoutPlayers

variable {tia : Tia} {x x' : Nat}

/-- Without players the place in the playfield decides about a pixel. -/
theorem shownColour_congr (hplayer0 : tia.get .playerGraphics0 = 0)
    (hplayer1 : tia.get .playerGraphics1 = 0)
    (hcell : tia.playfield[x / 4]? = tia.playfield[x' / 4]?) :
    tia.shownColour x = tia.shownColour x' := by
  have hbit : ∀ index, (0 : Byte).bit index = false := Nat.zero_testBit
  simp only [shownColour, hplayer0, hplayer1, hbit, Bool.false_eq_true, and_false, if_false, hcell]

/-- A reflected playfield reads the same from both ends. -/
theorem getElem?_playfield_reflected (hreflected : (tia.get .playfieldControl).bit 0 = true)
    {cell : Nat} (h : cell < 40) : tia.playfield[39 - cell]? = tia.playfield[cell]? := by
  have hpalindrome : tia.playfield.reverse = tia.playfield := by
    rw [playfield, if_pos hreflected, List.reverse_append, List.reverse_reverse]
  have hlength : tia.playfield.length = 40 := by
    rw [playfield, if_pos hreflected, List.length_append, List.length_reverse, length_leftHalf]
  calc
    tia.playfield[39 - cell]? = tia.playfield[tia.playfield.length - 1 - cell]? := by rw [hlength]
    _ = tia.playfield.reverse[cell]? := (List.getElem?_reverse (hlength ▸ h)).symm
    _ = tia.playfield[cell]? := by rw [hpalindrome]

/-- A playfield that is not reflected starts again in the middle. -/
theorem getElem?_playfield_repeated (hrepeated : (tia.get .playfieldControl).bit 0 = false)
    {cell : Nat} (h : cell < 20) : tia.playfield[cell + 20]? = tia.playfield[cell]? := by
  have hlength := tia.length_leftHalf
  rw [playfield, hrepeated, if_neg Bool.false_ne_true, List.getElem?_append_right (by omega),
    List.getElem?_append_left (by omega), hlength, Nat.add_sub_cancel]

/-- A line without players is its own mirror image, or its halves are equal. -/
theorem shownColour_symmetry (hplayer0 : tia.get .playerGraphics0 = 0)
    (hplayer1 : tia.get .playerGraphics1 = 0) (hx : x < 160) (hx' : x' < 160) :
    if (tia.get .playfieldControl).bit 0 then
      x + x' = 159 → tia.shownColour x = tia.shownColour x'
    else x + 80 = x' → tia.shownColour x = tia.shownColour x' := by
  split
  · rename_i hreflected
    intro hsum
    have hcell : x / 4 = 39 - x' / 4 := by omega
    apply shownColour_congr hplayer0 hplayer1
    rw [hcell, getElem?_playfield_reflected hreflected (by omega)]
  · rename_i hrepeated
    intro hsum
    have hcell : x' / 4 = x / 4 + 20 := by omega
    apply shownColour_congr hplayer0 hplayer1
    rw [hcell, getElem?_playfield_repeated (Bool.not_eq_true _ ▸ hrepeated) (by omega)]

end WithoutPlayers

/-! ## Lines drawn in a row -/

theorem draw_below (tia : Tia) {line : Nat} (h : 192 ≤ line) (frame : Frame) :
    tia.draw line frame = frame := by
  apply Frame.ext_pixel
  intro x y
  have hy := y.isLt
  rw [pixel_draw_eq, if_neg (by omega)]

theorem draw_draw_self (tia : Tia) (line : Nat) (frame : Frame) :
    tia.draw line (tia.draw line frame) = tia.draw line frame := by
  apply Frame.ext_pixel
  intro x y
  rw [pixel_draw_eq, pixel_draw_eq]
  split <;> rfl

theorem draw_draw_comm (first second : Tia) {line line' : Nat} (h : line ≠ line')
    (frame : Frame) :
    first.draw line (second.draw line' frame) = second.draw line' (first.draw line frame) := by
  apply Frame.ext_pixel
  intro x y
  simp only [pixel_draw_eq]
  split
  · rename_i hy
    rw [if_neg (hy ▸ h)]
  · rfl

/-- **The rasterizer.** Drawing a line, at once or pixel by pixel with all checks, gives every pixel
of the line the colour that the registers show there and leaves all other pixels alone; a line below
the picture is ignored. Registers that show the same draw the same. Without players a reflected
playfield makes the line a mirror image of itself, and any other one makes its halves equal. A line
that is drawn again stays, and two different lines may be drawn in any order. -/
theorem draw_rasterizes (tia : Tia) (line : Nat) (frame : Frame) :
    tia.checkedDraw line frame = .ok (tia.draw line frame) ∧
    (192 ≤ line → tia.draw line frame = frame) ∧
    (∀ x y, (tia.draw line frame).pixel x y =
      if y.val = line then tia.shownColour x else frame.pixel x y) ∧
    (∀ other : Tia, tia.SameOnScreen other → tia.draw line frame = other.draw line frame) ∧
    (tia.get .playerGraphics0 = 0 → tia.get .playerGraphics1 = 0 → ∀ x x' y, y.val = line →
      if (tia.get .playfieldControl).bit 0 then
        x.val + x'.val = 159 → (tia.draw line frame).pixel x y = (tia.draw line frame).pixel x' y
      else
        x.val + 80 = x'.val → (tia.draw line frame).pixel x y = (tia.draw line frame).pixel x' y) ∧
    tia.draw line (tia.draw line frame) = tia.draw line frame ∧
    ∀ (other : Tia) (line' : Nat), line ≠ line' →
      tia.draw line (other.draw line' frame) = other.draw line' (tia.draw line frame) := by
  refine ⟨tia.checkedDraw_eq line frame, fun h ↦ tia.draw_below h frame,
    tia.pixel_draw_eq line frame, fun other h ↦ h.draw_eq line frame, ?_,
    tia.draw_draw_self line frame, fun other line' h ↦ draw_draw_comm tia other h frame⟩
  intro hplayer0 hplayer1 x x' y hy
  rw [pixel_draw_eq, pixel_draw_eq, if_pos hy, if_pos hy]
  exact shownColour_symmetry hplayer0 hplayer1 x.isLt x'.isLt

/-- A chip with one playfield colour and no players. -/
def withPlayfield (playfield0 control : Byte) : Tia where
  cells := (((Vector.replicate 64 0).set 0x08 0x1E).set 0x0D playfield0).set 0x0A control

/-- One playfield bit, reflected, and the same with other bits that nobody reads: both chips show it
in the fourth cell from the left and in the fourth from the right. -/
theorem draw_rasterizes_reflected :
    let tia := withPlayfield 0x10 0x01
    let other := withPlayfield 0x1F 0xFF
    tia.SameOnScreen other ∧ tia.draw 5 .blank = other.draw 5 .blank ∧
    (tia.draw 5 .blank).pixel 12 5 = 0x1E ∧ (tia.draw 5 .blank).pixel 16 5 = 0 ∧
    (tia.draw 5 .blank).pixel 12 5 = (tia.draw 5 .blank).pixel 147 5 := by
  intro tia other
  have hsame : tia.SameOnScreen other := by
    refine ⟨fun register hhalf hcontrol ↦ ?_, by decide +kernel, by decide +kernel⟩
    cases register with
    | playfield0 => exact absurd rfl hhalf
    | playfieldControl => exact absurd rfl hcontrol
    | _ => rfl
  obtain ⟨-, -, hpixels, hdraws, hsymmetry, -⟩ := draw_rasterizes tia 5 .blank
  have hreflected := hsymmetry (by decide +kernel) (by decide +kernel) 12 147 5 rfl
  rw [if_pos (by decide +kernel)] at hreflected
  refine ⟨hsame, hdraws other hsame, ?_, ?_, hreflected rfl⟩
  · rw [hpixels 12 5]
    decide +kernel
  · rw [hpixels 16 5]
    decide +kernel

end Tia

end VideoComputer
