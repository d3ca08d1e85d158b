import Mathlib.Data.Nat.Digits.Lemmas
import VideoComputer.Proofs.Processor.Sums

/-!
# Numbers of several bytes

Sequences of bytes as numbers, the least significant byte first: in base 256, in two's complement of
their width, and in base 100 with two decimal digits to a byte. What a sum with a carry beyond the
width says of remainders, differences and the sign.
-/

namespace VideoComputer

/-- The digits that bytes stand for, and what each lacks of the largest digit, make the largest
number together. -/
theorem ofDigits_complement {base : Nat} {value : Byte → Nat} {bytes : List Byte}
    (h : ∀ byte ∈ bytes, value byte < base) :
    Nat.ofDigits base (bytes.map (base - 1 - value ·)) + Nat.ofDigits base (bytes.map value) + 1 =
      base ^ bytes.length := by
  induction bytes with
  | nil => rfl
  | cons byte bytes ih =>
    have hbyte := h byte (List.mem_cons_self ..)
    have hrest := ih fun other hother ↦ h other (List.mem_cons_of_mem _ hother)
    rw [List.map_cons, List.map_cons, Nat.ofDigits_cons, Nat.ofDigits_cons, List.length_cons,
      Nat.pow_succ', ← hrest, Nat.mul_add, Nat.mul_add]
    omega

/-- What is left of a sum below a modulus, and the carry that tells whether there was more. -/
theorem eq_mod_of_carry {result total modulus : Nat} {carry : Bool} (hresult : result < modulus)
    (h : result + modulus * carry.toNat = total) :
    result = total % modulus ∧ (carry = true ↔ modulus ≤ total) := by
  subst h
  constructor
  · rw [Nat.add_mul_mod_self_left, Nat.mod_eq_of_lt hresult]
  · cases carry with
    | false => simpa using hresult
    | true => simp

/-- A sum with a complement is a difference, and the carry tells that nothing had to be borrowed. -/
theorem eq_mod_of_borrow {result a b modulus : Nat} {carry carryOut : Bool}
    (hresult : result < modulus) (hb : b < modulus)
    (h : result + modulus * carryOut.toNat = a + (modulus - 1 - b) + carry.toNat) :
    (result : Int) = (a - b - (1 - carry.toNat)) % modulus ∧
      (carryOut = true ↔ b + (1 - carry.toNat) ≤ a) := by
  have hcarry := carry.toNat_le
  have hdifference : (a : Int) - b - (1 - carry.toNat) =
      result + modulus * (carryOut.toNat - 1) := by
    have hcast : (result : Int) + modulus * carryOut.toNat =
        a + (modulus - 1 - b) + carry.toNat := by
      omega
    rw [Int.mul_sub]
    omega
  constructor
  · rw [hdifference, Int.add_mul_emod_self_left, Int.emod_eq_of_lt] <;> omega
  · cases carryOut with
    | false =>
      rw [Bool.toNat_false, Nat.mul_zero] at h
      simp only [Bool.false_eq_true, false_iff]
      omega
    | true =>
      rw [Bool.toNat_true, Nat.mul_one] at h
      simp only [true_iff]
      omega

/-- A sum and then a difference, with opposite carries, come back to the first summand. -/
theorem eq_of_sum_of_difference {a b sum restored modulus : Nat} {carry carryOut carryBack : Bool}
    (ha : a < modulus) (hb : b < modulus) (hrestored : restored < modulus)
    (hsum : sum + modulus * carryOut.toNat = a + b + carry.toNat)
    (hdifference : restored + modulus * carryBack.toNat =
      sum + (modulus - 1 - b) + (!carry).toNat) : restored = a := by
  have hcarries : carry.toNat + (!carry).toNat = 1 := by cases carry <;> rfl
  cases carryOut <;> cases carryBack <;> simp only [Bool.toNat_true, Bool.toNat_false] at * <;>
    omega

namespace Byte

/-- The number of a sequence of bytes. -/
def number (bytes : List Byte) : Nat := Nat.ofDigits 256 (bytes.map UInt8.toNat)

/-- The number of a sequence of bytes in two's complement of its width. -/
def signedNumber (bytes : List Byte) : Int :=
  if 256 ^ bytes.length ≤ 2 * number bytes then number bytes - 256 ^ bytes.length
  else number bytes

/-- The number that a sequence of bytes denotes by two decimal digits each. -/
def decimalNumber (bytes : List Byte) : Nat := Nat.ofDigits 100 (bytes.map decimalValue)

/-- Whether a number can be told in two's complement of so many bytes. -/
def FitsSigned (width : Nat) (value : Int) : Prop :=
  -256 ^ width ≤ 2 * value ∧ 2 * value < 256 ^ width

instance (width : Nat) (value : Int) : Decidable (FitsSigned width value) :=
  inferInstanceAs (Decidable (_ ∧ _))

variable {bytes : List Byte}

theorem number_cons (byte : Byte) (bytes : List Byte) :
    number (byte :: bytes) = byte.toNat + 256 * number bytes := by
  rw [number, List.map_cons, Nat.ofDigits_cons]
  rfl

theorem number_lt (bytes : List Byte) : number bytes < 256 ^ bytes.length := by
  have hdigits : ∀ digit ∈ bytes.map UInt8.toNat, digit < 256 :=
    List.forall_mem_map.mpr fun byte _ ↦ byte.toNat_lt
  have hlt := Nat.ofDigits_lt_base_pow_length (by decide) hdigits
  rwa [List.length_map] at hlt

theorem number_map_lt {α : Type} (byteOf : α → Byte) (items : List α) :
    number (items.map byteOf) < 256 ^ items.length := by
  have hlt := number_lt (items.map byteOf)
  rwa [List.length_map] at hlt

/-- Bytes are told by their number and their count. -/
theorem eq_of_number_eq {other : List Byte} (hlength : bytes.length = other.length)
    (h : number bytes = number other) : bytes = other := by
  induction bytes generalizing other with
  | nil => exact (List.eq_nil_of_length_eq_zero hlength.symm).symm
  | cons byte bytes ih =>
    cases other with
    | nil => cases hlength
    | cons first other =>
      have hbyte := byte.toNat_lt
      have hfirst := first.toNat_lt
      rw [number_cons, number_cons] at h
      have hrest := ih (Nat.succ.inj hlength) (by omega)
      have hhead : byte = first := UInt8.toNat_inj.mp (by omega)
      rw [hhead, hrest]

/-- Complementing every byte turns a number into what it lacks of the largest one. -/
theorem number_complement (bytes : List Byte) :
    number (bytes.map (255 - ·)) = 256 ^ bytes.length - 1 - number bytes := by
  have hsum : Nat.ofDigits 256 (bytes.map (256 - 1 - UInt8.toNat ·)) +
      Nat.ofDigits 256 (bytes.map UInt8.toNat) + 1 = 256 ^ bytes.length :=
    ofDigits_complement fun byte _ ↦ byte.toNat_lt
  have hdigits : (bytes.map (255 - ·)).map UInt8.toNat = bytes.map (256 - 1 - UInt8.toNat ·) := by
    rw [List.map_map]
    exact List.map_congr_left fun byte _ ↦ toNat_complement byte
  rw [number, number, hdigits]
  omega

theorem decimalValue_lt {byte : Byte} (h : byte.IsDecimal) : byte.decimalValue < 100 := by
  obtain ⟨hhigh, hlow⟩ := h
  rw [decimalValue]
  omega

theorem decimalNumber_lt (h : ∀ byte ∈ bytes, byte.IsDecimal) :
    decimalNumber bytes < 100 ^ bytes.length := by
  have hdigits : ∀ digit ∈ bytes.map decimalValue, digit < 100 :=
    List.forall_mem_map.mpr fun byte hbyte ↦ decimalValue_lt (h byte hbyte)
  have hlt := Nat.ofDigits_lt_base_pow_length (by decide) hdigits
  rwa [List.length_map] at hlt

/-- What each pair of digits lacks of 99 makes what the number lacks of the largest one. -/
theorem ofDigits_lacking (h : ∀ byte ∈ bytes, byte.IsDecimal) :
    Nat.ofDigits 100 (bytes.map (99 - decimalValue ·)) =
      100 ^ bytes.length - 1 - decimalNumber bytes := by
  have hsum : Nat.ofDigits 100 (bytes.map (99 - decimalValue ·)) +
      Nat.ofDigits 100 (bytes.map decimalValue) + 1 = 100 ^ bytes.length :=
    ofDigits_complement fun byte hbyte ↦ decimalValue_lt (h byte hbyte)
  rw [decimalNumber]
  omega

/-! ## The sign -/

/-- The most significant byte decides on the sign. -/
theorem sign_cons (byte : Byte) (hbytes : bytes ≠ []) :
    256 ^ (byte :: bytes).length ≤ 2 * number (byte :: bytes) ↔
      256 ^ bytes.length ≤ 2 * number bytes := by
  have hbyte := byte.toNat_lt
  obtain ⟨width, hwidth⟩ := Nat.exists_eq_add_one.mpr (List.length_pos_iff.mpr hbytes)
  rw [number_cons, List.length_cons, hwidth, Nat.pow_succ', Nat.pow_succ']
  omega

/-- The sign is the top bit. -/
theorem testBit_top (hbytes : bytes ≠ []) :
    (number bytes).testBit (8 * bytes.length - 1) =
      decide (256 ^ bytes.length ≤ 2 * number bytes) := by
  obtain ⟨width, hwidth⟩ := Nat.exists_eq_add_one.mpr (List.length_pos_iff.mpr hbytes)
  have hlt := number_lt bytes
  have htop : 8 * bytes.length - 1 = 8 * width + 7 := by omega
  have hpow : 2 ^ (8 * width + 7) = 128 * 256 ^ width := by
    rw [Nat.pow_add, Nat.pow_mul]
    exact Nat.mul_comm ..
  rw [hwidth, Nat.pow_succ'] at hlt ⊢
  by_cases h : 128 * 256 ^ width ≤ number bytes
  · rw [decide_eq_true (by omega), ← hwidth, htop]
    apply Nat.testBit_of_two_pow_le_and_two_pow_add_one_gt
    · rwa [hpow]
    · rw [Nat.pow_succ', hpow]
      omega
  · rw [decide_eq_false (by omega), ← hwidth, htop]
    apply Nat.testBit_lt_two_pow
    rw [hpow]
    omega

theorem number_singleton (byte : Byte) : number [byte] = byte.toNat := by
  rw [number_cons]
  rfl

theorem signedNumber_singleton (byte : Byte) : signedNumber [byte] = byte.signed := by
  rw [signedNumber, number_singleton, signed, List.length_singleton]
  split <;> split <;> omega

theorem signedNumber_cons (byte : Byte) (hbytes : bytes ≠ []) :
    signedNumber (byte :: bytes) = byte.toNat + 256 * signedNumber bytes := by
  have hsign := sign_cons byte hbytes
  rw [signedNumber, signedNumber]
  by_cases h : 256 ^ bytes.length ≤ 2 * number bytes
  · rw [if_pos h, if_pos (hsign.mpr h), number_cons, List.length_cons, pow_succ']
    push_cast
    ring
  · rw [if_neg h, if_neg (mt hsign.mp h), number_cons]
    push_cast
    rfl

/-- Complementing every byte makes the opposite less one, as it does for one byte. -/
theorem signedNumber_complement (hbytes : bytes ≠ []) :
    signedNumber (bytes.map (255 - ·)) = -1 - signedNumber bytes := by
  obtain ⟨width, hwidth⟩ := Nat.exists_eq_add_one.mpr (List.length_pos_iff.mpr hbytes)
  have hlt := number_lt bytes
  have hcast : ((256 ^ bytes.length : Nat) : Int) = 256 ^ bytes.length := by push_cast; rfl
  rw [signedNumber, signedNumber, number_complement, List.length_map, ← hcast]
  rw [hwidth, Nat.pow_succ'] at hlt ⊢
  split <;> split <;> omega

theorem fitsSigned_signedNumber (bytes : List Byte) :
    FitsSigned bytes.length (signedNumber bytes) := by
  have hlt := number_lt bytes
  have hcast : ((256 ^ bytes.length : Nat) : Int) = 256 ^ bytes.length := by push_cast; rfl
  rw [FitsSigned, signedNumber, ← hcast]
  split <;> omega

/-- A number that is known up to a multiple of the modulus fits the width only if nothing is to be
added. -/
theorem fitsSigned_iff {width : Nat} {value excess total : Int} (hvalue : FitsSigned width value)
    (htotal : value + 256 ^ width * excess = total) : FitsSigned width total ↔ excess = 0 := by
  obtain ⟨hlow, hhigh⟩ := hvalue
  have hmodulus : (0 : Int) < 256 ^ width := by positivity
  subst htotal
  constructor
  · intro hfits
    obtain ⟨hfitsLow, hfitsHigh⟩ := hfits
    have hbelow : excess < 1 := by
      by_contra habove
      have hproduct := mul_le_mul_of_nonneg_left (Int.not_lt.mp habove) hmodulus.le
      omega
    have habove : -1 < excess := by
      by_contra hbelow
      have hproduct := mul_le_mul_of_nonneg_left (Int.not_lt.mp hbelow) hmodulus.le
      omega
    omega
  · rintro rfl
    rw [mul_zero, add_zero]
    exact ⟨hlow, hhigh⟩

end Byte

end VideoComputer
