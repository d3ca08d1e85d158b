import Mathlib.Data.List.Nodup
import VideoComputer.Picture.Frame

/-!
# Pictures in colours

A picture is shown as a list of bytes, four for each pixel. Main statement: which four bytes show a
pixel, and that two pictures are shown alike exactly if their pixels agree in hue and luminance. The
converse rests on the 128 colours being different.
-/

namespace VideoComputer

/-- Blocks of one width in a row: a block starts at a multiple of the width. -/
theorem take_drop_flatMap {α β : Type} {f : α → List β} {width : Nat}
    (hwidth : ∀ a, (f a).length = width) {l : List α} {index : Nat} {a : α}
    (h : l[index]? = some a) : ((l.flatMap f).drop (width * index)).take width = f a := by
  induction l generalizing index with
  | nil => cases h
  | cons head rest ih =>
    cases index with
    | zero =>
      cases h
      rw [Nat.mul_zero, List.drop_zero, List.flatMap_cons, List.take_left' (hwidth a)]
    | succ index =>
      rw [Nat.mul_succ, Nat.add_comm, ← List.drop_drop, List.flatMap_cons,
        List.drop_left' (hwidth head)]
      exact ih h

theorem getElem?_flatMap {α β : Type} {f : α → List β} {width : Nat}
    (hwidth : ∀ a, (f a).length = width) {l : List α} {index place : Nat} {a : α}
    (h : l[index]? = some a) (hplace : place < width) :
    (l.flatMap f)[width * index + place]? = (f a)[place]? := by
  rw [← take_drop_flatMap hwidth h, List.getElem?_take_of_lt hplace, List.getElem?_drop]

namespace Palette

/-- Two codes agree in bits 7 to 1: they name the same hue and the same luminance. -/
def SameShade (first second : Byte) : Prop :=
  ∀ index, 1 ≤ index → index ≤ 7 → first.bit index = second.bit index

theorem sameShade_iff {first second : Byte} :
    SameShade first second ↔ first.toNat / 2 = second.toNat / 2 := by
  constructor
  · intro h
    apply Nat.eq_of_testBit_eq
    intro index
    rw [Nat.testBit_div_two, Nat.testBit_div_two]
    by_cases hindex : index + 1 ≤ 7
    · exact h (index + 1) (Nat.succ_pos index) hindex
    · have hwidth : 2 ^ 8 ≤ 2 ^ (index + 1) := Nat.pow_le_pow_right (by decide) (by omega)
      rw [Nat.testBit_lt_two_pow (Nat.lt_of_lt_of_le first.toNat_lt hwidth),
        Nat.testBit_lt_two_pow (Nat.lt_of_lt_of_le second.toNat_lt hwidth)]
  · intro h index hpositive _
    obtain ⟨place, rfl⟩ := Nat.exists_eq_add_of_le' hpositive
    rw [Byte.bit, Byte.bit, ← Nat.testBit_div_two, ← Nat.testBit_div_two, h]

/-- The 128 colours in a row, by hue and then by luminance. -/
def colours : List UInt32 := table.toList.flatMap Vector.toList

/-- Bit 0 of a code aside, codes number the colours. -/
theorem getElem?_colours (code : Byte) : colours[code.toNat / 2]? = some (colour code) := by
  have hcode : code.toNat / 2 = 8 * code.highDigit.val + (luminance code).val := by
    change code.toNat / 2 = 8 * (code.toNat / 16) + code.toNat % 16 / 2
    omega
  have hhue : table.toList[code.highDigit.val]? = some (table.get code.highDigit) := by
    rw [Vector.getElem?_toList]
    exact Vector.getElem?_eq_getElem code.highDigit.isLt
  rw [hcode, colours, getElem?_flatMap (fun _ ↦ Vector.length_toList) hhue
    (luminance code).isLt, Vector.getElem?_toList]
  exact Vector.getElem?_eq_getElem (luminance code).isLt

/-- No colour occurs twice. -/
theorem nodup_colours : colours.Nodup := by
  -- Numbers are compared faster than words of 32 bits.
  have hnumbers : (colours.map UInt32.toNat).Nodup := by decide +kernel
  exact hnumbers.of_map

theorem colour_eq_iff {first second : Byte} :
    colour first = colour second ↔ SameShade first second := by
  have hlength : colours.length = 128 := rfl
  have hfirst := first.toNat_lt
  calc
    colour first = colour second
      ↔ colours[first.toNat / 2]? = colours[second.toNat / 2]? := by
        rw [getElem?_colours, getElem?_colours, Option.some_inj]
    _ ↔ first.toNat / 2 = second.toNat / 2 := List.getElem?_inj (by omega) nodup_colours
    _ ↔ SameShade first second := sameShade_iff.symm

/-- A colour is its four bytes, and its opacity is full. -/
theorem toNat_colour (code : Byte) :
    (colour code).toNat =
      ((255 * 256 + (red code).toNat) * 256 + (green code).toNat) * 256 + (blue code).toNat := by
  have hopaque : (colour code).toNat / 16777216 = 255 :=
    Byte.forall_of_lt (P := fun code ↦ (colour code).toNat / 16777216 = 255)
      (by decide +kernel) code
  have h65536 : UInt32.toNat 65536 = 65536 := rfl
  have h256 : UInt32.toNat 256 = 256 := rfl
  simp only [red, green, blue, UInt32.toNat_toUInt8, UInt32.toNat_div, h65536, h256]
  omega

theorem rgba_eq_iff {first second : Byte} :
    rgba first = rgba second ↔ SameShade first second := by
  rw [← colour_eq_iff]
  constructor
  · intro h
    simp only [rgba, List.cons.injEq] at h
    obtain ⟨hred, hgreen, hblue, -⟩ := h
    apply UInt32.toNat_inj.mp
    rw [toNat_colour, toNat_colour, hred, hgreen, hblue]
  · intro h
    simp only [rgba, red, green, blue, h]

theorem length_rgba (code : Byte) : (rgba code).length = 4 := rfl

end Palette

namespace Frame

/-- Pixels stand row by row. -/
theorem getElem?_pixels (frame : Frame) (x : Fin 160) (y : Fin 192) :
    frame.pixels[160 * y.val + x.val]? = some (frame.pixel x y) := by
  have hrow : frame.rows.toList[y.val]? = some frame.rows[y] := by
    rw [Vector.getElem?_toList]
    exact Vector.getElem?_eq_getElem y.isLt
  rw [pixels, getElem?_flatMap (fun _ ↦ Vector.length_toList) hrow x.isLt,
    Vector.getElem?_toList]
  exact Vector.getElem?_eq_getElem x.isLt

theorem length_rgba (frame : Frame) : frame.rgba.length = 4 * (160 * 192) := by
  simp only [rgba, List.length_flatMap, Palette.length_rgba, List.map_const',
    List.sum_replicate_nat, length_pixels]

theorem take_drop_rgba (frame : Frame) (x : Fin 160) (y : Fin 192) :
    (frame.rgba.drop (4 * (160 * y.val + x.val))).take 4 = Palette.rgba (frame.pixel x y) :=
  take_drop_flatMap Palette.length_rgba (frame.getElem?_pixels x y)

variable {first second : Frame}

/-- What is the same for all pixels of two pictures is the same for the pictures. -/
theorem map_pixels_eq {α : Type} {f : Byte → α}
    (h : ∀ x y, f (first.pixel x y) = f (second.pixel x y)) :
    first.pixels.map f = second.pixels.map f := by
  apply List.ext_getElem?
  intro place
  by_cases hplace : place < 192 * 160
  · let x : Fin 160 := ⟨place % 160, Nat.mod_lt place (by decide)⟩
    let y : Fin 192 := ⟨place / 160, Nat.div_lt_of_lt_mul (by omega)⟩
    have hpixel : place = 160 * y.val + x.val := (Nat.div_add_mod place 160).symm
    rw [List.getElem?_map, List.getElem?_map, hpixel, getElem?_pixels, getElem?_pixels]
    exact congrArg some (h x y)
  · rw [List.getElem?_eq_none (by simpa using hplace), List.getElem?_eq_none (by simpa using hplace)]

theorem rgba_eq_rgba_iff :
    first.rgba = second.rgba ↔
      ∀ x y, Palette.SameShade (first.pixel x y) (second.pixel x y) := by
  constructor
  · intro h x y
    rw [← Palette.rgba_eq_iff, ← take_drop_rgba, ← take_drop_rgba, h]
  · intro h
    have hcolours := map_pixels_eq fun x y ↦ Palette.rgba_eq_iff.mpr (h x y)
    rw [rgba, rgba, List.flatMap_def, List.flatMap_def, hcolours]

/-- **Faithful colours.** A picture is shown by four bytes for each of its pixels, and those of a
pixel, found by its place, are the red, green and blue bytes of its colour and full opacity. Two
codes have the same colour exactly if they agree in bits 7 to 1, and two pictures are shown by the
same bytes exactly if all their pixels do. -/
theorem rgba_faithful (frame : Frame) :
    frame.rgba.length = 4 * (160 * 192) ∧
    (∀ x y, (frame.rgba.drop (4 * (160 * y.val + x.val))).take 4 =
      [Palette.red (frame.pixel x y), Palette.green (frame.pixel x y),
        Palette.blue (frame.pixel x y), 0xFF]) ∧
    (∀ code, (Palette.colour code).toNat =
      ((255 * 256 + (Palette.red code).toNat) * 256 + (Palette.green code).toNat) * 256 +
        (Palette.blue code).toNat) ∧
    (∀ code other, Palette.colour code = Palette.colour other ↔ Palette.SameShade code other) ∧
    ∀ other : Frame, frame.rgba = other.rgba ↔
      ∀ x y, Palette.SameShade (frame.pixel x y) (other.pixel x y) :=
  ⟨frame.length_rgba, frame.take_drop_rgba, Palette.toNat_colour, fun _ _ ↦ Palette.colour_eq_iff,
    fun _ ↦ rgba_eq_rgba_iff⟩

end Frame

end VideoComputer
