import VideoComputer.Memory.Word

/-!
# Cartridges

A read-only image of at most 4096 bytes behind a window of that size. Past the end of the image
nothing drives the lines and every read gives 255.
-/

namespace VideoComputer

theorem size_empty_le : (#[] : Array Byte).size ≤ 4096 := by decide

structure Cartridge where
  image : Array Byte := #[]
  size_le : image.size ≤ 4096 := by exact size_empty_le

namespace Cartridge

/-- Keeps the first 4096 bytes of an image. -/
def ofImage (image : Array Byte) : Cartridge where
  image := image.take 4096
  size_le := by simp only [Array.take_eq_extract, Array.size_extract]; omega

def size (cartridge : Cartridge) : Nat := cartridge.image.size

def isEmpty (cartridge : Cartridge) : Bool := cartridge.image.isEmpty

/-- The byte at an offset of the window. -/
def read (cartridge : Cartridge) (offset : Nat) : Byte := cartridge.image.getD offset 0xFF

/-- The whole window with zeros behind the image. -/
def window (cartridge : Cartridge) : Vector Byte 4096 :=
  Vector.ofFn fun offset ↦ cartridge.image.getD offset 0

@[simp] theorem size_ofImage (image : Array Byte) : (ofImage image).size = min image.size 4096 := by
  simp only [ofImage, size, Array.take_eq_extract, Array.size_extract]
  omega

theorem read_ofImage (image : Array Byte) (offset : Nat) :
    (ofImage image).read offset = if offset < 4096 then image.getD offset 0xFF else 0xFF := by
  simp only [read, ofImage, Array.getD_eq_getD_getElem?, Array.take_eq_extract,
    Array.getElem?_extract, Nat.sub_zero, Nat.zero_add]
  split
  · rename_i h
    rw [if_pos (by omega)]
  · rename_i h
    split
    · rw [Array.getElem?_eq_none (by omega)]
    · rfl

end Cartridge

end VideoComputer
