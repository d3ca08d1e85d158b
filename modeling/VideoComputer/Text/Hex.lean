import VideoComputer.Memory.Word

/-!
# Hexadecimal text and columns

Upper case hexadecimal in a fixed number of digits, or in as many as the number needs, and text
padded with blanks on the right. Everything is a list of characters, so that columns can be
counted.
-/

namespace VideoComputer.Text

/-- The digit of a number below sixteen. -/
def hexDigit (n : Nat) : Char :=
  if n < 10 then Char.ofNat ('0'.toNat + n) else Char.ofNat ('A'.toNat + (n - 10))

/-- The last `width` hexadecimal digits of a number. -/
def hexFixed : Nat → Nat → List Char
  | 0, _ => []
  | width + 1, n => hexFixed width (n / 16) ++ [hexDigit (n % 16)]

/-- All hexadecimal digits of a number, with leading zeros up to `width`. -/
def hexAtLeast (width n : Nat) : List Char := hexFixed (max width (n.log2 / 4 + 1)) n

def hexByte (value : Byte) : List Char := hexFixed 2 value.toNat

def hexWord (value : Word) : List Char := hexFixed 4 value.toNat

def decimal (n : Nat) : List Char := Nat.toDigits 10 n

/-- Text shorter than the column is filled with blanks; longer text is not cut. -/
def padRight (width : Nat) (text : List Char) : List Char :=
  text ++ List.replicate (width - text.length) ' '

@[simp] theorem length_hexFixed (width n : Nat) : (hexFixed width n).length = width := by
  induction width generalizing n with
  | zero => rfl
  | succ width ih => simp [hexFixed, ih]

theorem exists_of_mem_hexFixed {c : Char} {width n : Nat} (h : c ∈ hexFixed width n) :
    ∃ digit < 16, c = hexDigit digit := by
  induction width generalizing n with
  | zero => cases h
  | succ width ih =>
    rw [hexFixed, List.mem_append, List.mem_singleton] at h
    obtain hupper | hlast := h
    · exact ih hupper
    · exact ⟨n % 16, Nat.mod_lt n (by decide), hlast⟩

theorem length_padRight (width : Nat) (text : List Char) :
    (padRight width text).length = max width text.length := by
  simp only [padRight, List.length_append, List.length_replicate]
  omega

end VideoComputer.Text
