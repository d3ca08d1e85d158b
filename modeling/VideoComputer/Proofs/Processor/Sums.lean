import VideoComputer.Processor.Arithmetic
import VideoComputer.Proofs.Machine.Addressing

/-!
# Sums of bytes

What one addition or subtraction of the processor comes to in numbers: in binary, in two's
complement, and of two decimal digits. A subtraction is an addition of what the byte lacks of the
largest one, and the carry is what it does not have to borrow.
-/

namespace VideoComputer

namespace Byte

/-- The high four bits of a byte. -/
theorem toNat_and_high (value : Byte) : (value &&& 0xF0).toNat = value.toNat / 16 * 16 := by
  revert value
  apply forall_of_lt
  decide +kernel

/-- Two decimal digits. -/
def IsDecimal (value : Byte) : Prop := value.toNat / 16 ≤ 9 ∧ value.toNat % 16 ≤ 9

instance (value : Byte) : Decidable value.IsDecimal :=
  inferInstanceAs (Decidable (value.toNat / 16 ≤ 9 ∧ value.toNat % 16 ≤ 9))

/-- The number that two decimal digits denote. -/
def decimalValue (value : Byte) : Nat := 10 * (value.toNat / 16) + value.toNat % 16

theorem toNat_complement (value : Byte) : (255 - value).toNat = 255 - value.toNat := by
  have hvalue := value.toNat_lt
  have h255 : UInt8.toNat 255 = 255 := rfl
  rw [UInt8.toNat_sub, h255]
  omega

theorem isNegative_iff (value : Byte) : value.isNegative = true ↔ 128 ≤ value.toNat := by
  rw [isNegative, decide_eq_true_iff]

theorem isNegative_eq_iff (value other : Byte) :
    value.isNegative = other.isNegative ↔ (128 ≤ value.toNat ↔ 128 ≤ other.toNat) := by
  rw [Bool.eq_iff_iff, isNegative_iff, isNegative_iff]

end Byte

namespace Processor

variable (p : Processor) (value : Byte)

theorem add_of_decimal (h : p.flags.decimal = true) : p.add value = p.addDecimal value := if_pos h

theorem add_of_binary (h : p.flags.decimal = false) : p.add value = p.addBinary value := by
  rw [add, h]
  rfl

/-- Subtraction is binary up to the accumulator. -/
theorem subtract_of_decimal (h : p.flags.decimal = true) :
    p.subtract value = { p.addBinary (255 - value) with a := p.decimalDifference value } :=
  if_pos h

theorem subtract_of_binary (h : p.flags.decimal = false) :
    p.subtract value = p.addBinary (255 - value) := by
  rw [subtract, h]
  rfl

/-! ## Binary sums -/

/-- The accumulator and the carry together hold the whole sum. -/
theorem toNat_addBinary :
    (p.addBinary value).a.toNat + 256 * (p.addBinary value).flags.carry.toNat =
      p.a.toNat + value.toNat + p.flags.carry.toNat := by
  have ha := p.a.toNat_lt
  have hvalue := value.toNat_lt
  have hcarry := p.flags.carry.toNat_le
  change (UInt8.ofNat (p.sum value)).toNat + 256 * (decide (256 ≤ p.sum value)).toNat = p.sum value
  rw [UInt8.toNat_ofNat', sum]
  by_cases h : 256 ≤ p.a.toNat + value.toNat + p.flags.carry.toNat
  · rw [decide_eq_true h, Bool.toNat_true]
    omega
  · rw [decide_eq_false h, Bool.toNat_false]
    omega

/-- The flags of a sum come from the accumulator, the byte and the carry alone. -/
theorem flags_addBinary_congr {p other : Processor} (ha : p.a = other.a)
    (hcarry : p.flags.carry = other.flags.carry) (value : Byte) :
    ∀ flag ∈ [Flag.negative, .overflow, .zero, .carry],
      (p.addBinary value).flags.get flag = (other.addBinary value).flags.get flag := by
  have hsum : p.sum value = other.sum value := by rw [sum, sum, ha, hcarry]
  intro flag hflag
  simp only [addBinary, hsum, ha]
  cases flag with
  | negative | overflow | zero | carry => rfl
  | breakMark | decimal | interrupt => simp at hflag

theorem signedOverflow_iff (left right result : Byte) :
    signedOverflow left right result = true ↔
      (128 ≤ left.toNat ↔ 128 ≤ right.toNat) ∧ ¬(128 ≤ result.toNat ↔ 128 ≤ left.toNat) := by
  rw [signedOverflow, Bool.and_eq_true, beq_iff_eq, bne_iff_ne, Ne, Byte.isNegative_eq_iff,
    Byte.isNegative_eq_iff]

/-- The result is the sum in two's complement up to a multiple of 256, and overflow tells that it is
not the sum itself. -/
theorem signed_sum {left right result : Byte} {carry carryOut : Bool}
    (hsum : result.toNat + 256 * carryOut.toNat = left.toNat + right.toNat + carry.toNat) :
    ∃ excess : Int, result.signed + 256 * excess = left.signed + right.signed + carry.toNat ∧
      (signedOverflow left right result = true ↔ excess ≠ 0) := by
  have hresult := result.toNat_lt
  have hleft := left.toNat_lt
  have hright := right.toNat_lt
  have hcarry := carry.toNat_le
  have hcarryOut := carryOut.toNat_le
  refine ⟨(left.signed + right.signed + carry.toNat - result.signed) / 256, ?_, ?_⟩
  · simp only [Byte.signed]
    split <;> split <;> split <;> omega
  · rw [signedOverflow_iff]
    simp only [Byte.signed]
    split <;> split <;> split <;> omega

/-! ## Decimal sums -/

/-- The sum of two decimal digits and a carry, with what goes beyond nine counted from sixteen. -/
def lowDigits (left right : Byte) (carry : Bool) : Nat :=
  let digit := left.toNat % 16 + right.toNat % 16 + carry.toNat
  if digit < 10 then digit else 16 + (digit - 10) % 16

theorem adjustedLowDigit_eq : p.adjustedLowDigit value = lowDigits p.a value p.flags.carry := by
  simp only [adjustedLowDigit, lowDigits]
  split <;> split <;> omega

/-- Two decimal digits and two more make two digits and a carry of a hundred. -/
theorem addDecimal_digits (ha : p.a.IsDecimal) (hvalue : value.IsDecimal) :
    (p.addDecimal value).a.IsDecimal ∧
      (p.addDecimal value).a.decimalValue + 100 * (p.addDecimal value).flags.carry.toNat =
        p.a.decimalValue + value.decimalValue + p.flags.carry.toNat := by
  have hcarry := p.flags.carry.toNat_le
  obtain ⟨hhigh, hlow⟩ := ha
  obtain ⟨hvalueHigh, hvalueLow⟩ := hvalue
  obtain ⟨half, hhalf⟩ : ∃ half, half = p.halfAdjustedSum value := ⟨_, rfl⟩
  have ha : (p.addDecimal value).a = UInt8.ofNat (if 160 ≤ half then half + 96 else half) := by
    rw [hhalf]
    rfl
  have hcarryOut : (p.addDecimal value).flags.carry =
      decide (256 ≤ if 160 ≤ half then half + 96 else half) := by
    rw [hhalf]
    rfl
  rw [halfAdjustedSum, adjustedLowDigit_eq, lowDigits] at hhalf
  rw [ha, hcarryOut]
  simp only [Byte.IsDecimal, Byte.decimalValue, UInt8.toNat_ofNat']
  by_cases hlarge : 160 ≤ half
  · rw [if_pos hlarge, decide_eq_true (by omega), Bool.toNat_true]
    split at hhalf <;> omega
  · rw [if_neg hlarge, decide_eq_false (by omega), Bool.toNat_false]
    split at hhalf <;> omega

/-- The digits of a decimal difference are the differences of the digits modulo ten, the high one
after the low one has borrowed. -/
theorem digits_decimalDifference {high low : Int} (ha : p.a.IsDecimal) (hvalue : value.IsDecimal)
    (hhigh : high = p.a.toNat / 16 - value.toNat / 16)
    (hlow : low = p.a.toNat % 16 - value.toNat % 16 + p.flags.carry.toNat - 1) :
    ((p.decimalDifference value).toNat : Int) / 16 = (high - if low < 0 then 1 else 0) % 10 ∧
      ((p.decimalDifference value).toNat : Int) % 16 = low % 10 := by
  have hcarry := p.flags.carry.toNat_le
  obtain ⟨haHigh, haLow⟩ := ha
  obtain ⟨hvalueHigh, hvalueLow⟩ := hvalue
  have hdigits : (p.a.toNat : Int) / 16 * 16 - value.toNat / 16 * 16 = 16 * high := by omega
  simp only [decimalDifference, UInt8.toNat_ofNat', ← hlow, hdigits]
  by_cases hborrow : low < 0
  · have hadjusted : (low - 6) % 16 - 16 = low - 6 := by omega
    rw [if_pos hborrow, if_pos hborrow, hadjusted]
    split <;> omega
  · rw [if_neg hborrow, if_neg hborrow]
    split <;> omega

/-- Of two decimal digits two others leave two, and a hundred less where the carry is lost. -/
theorem decimalDifference_digits (ha : p.a.IsDecimal) (hvalue : value.IsDecimal) :
    (p.decimalDifference value).IsDecimal ∧
      (p.decimalDifference value).decimalValue +
          100 * (p.addBinary (255 - value)).flags.carry.toNat =
        p.a.decimalValue + (99 - value.decimalValue) + p.flags.carry.toNat := by
  have hcarry := p.flags.carry.toNat_le
  have hcarryOut := (p.addBinary (255 - value)).flags.carry.toNat_le
  have hresult := (p.addBinary (255 - value)).a.toNat_lt
  have hsum := p.toNat_addBinary (255 - value)
  rw [Byte.toNat_complement] at hsum
  obtain ⟨high, hhigh⟩ : ∃ high : Int, high = p.a.toNat / 16 - value.toNat / 16 := ⟨_, rfl⟩
  obtain ⟨low, hlow⟩ : ∃ low : Int,
    low = p.a.toNat % 16 - value.toNat % 16 + p.flags.carry.toNat - 1 := ⟨_, rfl⟩
  have hdigits := p.digits_decimalDifference value ha hvalue hhigh hlow
  obtain ⟨haHigh, haLow⟩ := ha
  obtain ⟨hvalueHigh, hvalueLow⟩ := hvalue
  -- The borrow of the binary difference is that of the high digits.
  have hborrow : (p.addBinary (255 - value)).flags.carry.toNat = 1 ↔ 0 ≤ 16 * high + low := by
    omega
  simp only [Byte.IsDecimal, Byte.decimalValue]
  split at hdigits
  · omega
  · omega

/-- The flags of a decimal sum: zero is that of the binary sum, negative and overflow are those of
the sum of the high digits, in two's complement, and of what the low digits make. -/
theorem flags_addDecimal :
    let sum : Int := (p.a &&& 0xF0).signed + (value &&& 0xF0).signed +
      lowDigits p.a value p.flags.carry
    (p.addDecimal value).flags.zero = (p.addBinary value).flags.zero ∧
      ((p.addDecimal value).flags.negative = true ↔ 128 ≤ sum % 256) ∧
      ((p.addDecimal value).flags.overflow = true ↔ sum < -128 ∨ 127 < sum) := by
  have ha := p.a.toNat_lt
  have hvalue := value.toNat_lt
  obtain ⟨shown, hshown⟩ : ∃ shown : Byte, shown = UInt8.ofNat (p.halfAdjustedSum value) := ⟨_, rfl⟩
  have hnegative : (p.addDecimal value).flags.negative = shown.isNegative := by
    rw [hshown]
    rfl
  have hoverflow : (p.addDecimal value).flags.overflow = signedOverflow p.a value shown := by
    rw [hshown]
    rfl
  have hlow : lowDigits p.a value p.flags.carry < 32 := by
    have hcarry := p.flags.carry.toNat_le
    simp only [lowDigits]
    split <;> omega
  have hnumber : shown.toNat = (p.a.toNat / 16 * 16 + value.toNat / 16 * 16 +
      lowDigits p.a value p.flags.carry) % 256 := by
    rw [hshown, UInt8.toNat_ofNat', halfAdjustedSum, adjustedLowDigit_eq]
  refine ⟨rfl, ?_, ?_⟩
  · rw [hnegative, Byte.isNegative_iff]
    simp only [Byte.signed, Byte.toNat_and_high]
    split <;> split <;> omega
  · rw [hoverflow, signedOverflow_iff]
    simp only [Byte.signed, Byte.toNat_and_high]
    split <;> split <;> omega

end Processor

end VideoComputer
