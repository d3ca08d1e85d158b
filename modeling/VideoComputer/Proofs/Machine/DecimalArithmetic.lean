import VideoComputer.Console.AddressMap
import VideoComputer.Proofs.Machine.CarryChains
import VideoComputer.Proofs.Machine.UnreadFlags
import VideoComputer.Proofs.Processor.Numbers

/-!
# Decimal arithmetic of several bytes

What a chain of decimal additions or subtractions comes to if every byte holds two decimal digits,
and what one of them does to the flags whatever the bytes hold. Main statement: a chain leaves the
decimal digits of the sum or the difference modulo the numbers of its width, with the carry that
tells whether it went beyond; the other flags come from the binary sum, except that negative and
overflow after an addition are those of a sum whose low digit alone has been adjusted.
-/

namespace VideoComputer.Machine

open Byte

variable {B : Type} [Bus B] {m other : Machine B} {machines : List (Machine B)} {carry : Bool}
  {flags : Flags}

/-- The next step leaves two decimal digits and a carry that make the sum of the digits of the
accumulator and a number. -/
structure AddsDigits (m : Machine B) (right : Nat) : Prop where
  digits : m.step.2.processor.a.IsDecimal
  sum : m.step.2.processor.a.decimalValue + 100 * m.step.2.processor.flags.carry.toNat =
    m.processor.a.decimalValue + right + m.processor.flags.carry.toNat

theorem Performs.addsDigits (h : m.Performs .adc true) (ha : m.processor.a.IsDecimal)
    (hoperand : m.operandByte.IsDecimal) : m.AddsDigits m.operandByte.decimalValue := by
  obtain ⟨hdigits, hsum⟩ := m.processor.addDecimal_digits m.operandByte ha hoperand
  obtain ⟨hresult, hflags⟩ :=
    h.combine rfl (m.processor.add_of_decimal m.operandByte h.mode)
  constructor
  · rwa [hresult]
  · rwa [hresult, hflags]

theorem Performs.addsDigits_lacking (h : m.Performs .sbc true) (ha : m.processor.a.IsDecimal)
    (hoperand : m.operandByte.IsDecimal) : m.AddsDigits (99 - m.operandByte.decimalValue) := by
  obtain ⟨hdigits, hsum⟩ := m.processor.decimalDifference_digits m.operandByte ha hoperand
  obtain ⟨hresult, hflags⟩ :=
    h.combine rfl (m.processor.subtract_of_decimal m.operandByte h.mode)
  constructor
  · rwa [hresult]
  · rwa [hresult, hflags]

/-- The digits that a chain leaves of a number, and a carry that tells something. -/
structure LeavesDigits (machines : List (Machine B)) (flags : Flags) (total : Int)
    (carried : Prop) : Prop where
  completes : ∀ m ∈ machines, ∃ cycles, m.step.1 = .ok cycles
  digits : ∀ byte ∈ results machines, byte.IsDecimal
  result : (decimalNumber (results machines) : Int) = total % 100 ^ machines.length
  carry : flags.carry = true ↔ carried

namespace Chain

theorem decimal_results {operation : Operation} {right : Machine B → Nat}
    (h : Chain operation true carry machines flags)
    (hadds : ∀ m ∈ machines, m.AddsDigits (right m)) :
    (∀ byte ∈ results machines, byte.IsDecimal) ∧
      decimalNumber (results machines) < 100 ^ machines.length ∧
      decimalNumber (results machines) + 100 ^ machines.length * flags.carry.toNat =
        decimalNumber (accumulators machines) + Nat.ofDigits 100 (machines.map right) +
          carry.toNat := by
  have hdigits : ∀ byte ∈ results machines, byte.IsDecimal :=
    List.forall_mem_map.mpr fun m hm ↦ (hadds m hm).digits
  have hlt := decimalNumber_lt hdigits
  rw [length_results] at hlt
  refine ⟨hdigits, hlt, ?_⟩
  simp only [decimalNumber, results, accumulators, List.map_map]
  exact h.ofDigits_add fun m hm ↦ (hadds m hm).sum

variable (hleft : ∀ byte ∈ accumulators machines, byte.IsDecimal)
  (hright : ∀ byte ∈ operands machines, byte.IsDecimal)

include hleft hright

theorem decimalAddition (h : Chain .adc true carry machines flags) :
    LeavesDigits machines flags
      (decimalNumber (accumulators machines) + decimalNumber (operands machines) + carry.toNat)
      (100 ^ machines.length ≤
        decimalNumber (accumulators machines) + decimalNumber (operands machines) +
          carry.toNat) := by
  have hadds : ∀ m ∈ machines, m.AddsDigits m.operandByte.decimalValue := fun m hm ↦
    (h.performs m hm).addsDigits (hleft _ (List.mem_map_of_mem hm))
      (hright _ (List.mem_map_of_mem hm))
  obtain ⟨hdigits, hlt, hsum⟩ := h.decimal_results hadds
  have hoperands : Nat.ofDigits 100 (machines.map (·.operandByte.decimalValue)) =
      decimalNumber (operands machines) := by
    rw [decimalNumber, operands, List.map_map]
    rfl
  rw [hoperands] at hsum
  obtain ⟨hresults, hcarry⟩ := eq_mod_of_carry hlt hsum
  exact {
    completes := fun m hm ↦ (h.performs m hm).completes ⟨_, rfl⟩
    digits := hdigits
    result := by exact_mod_cast hresults
    carry := hcarry }

theorem decimalSubtraction (h : Chain .sbc true carry machines flags) :
    LeavesDigits machines flags
      (decimalNumber (accumulators machines) - decimalNumber (operands machines) -
        (1 - carry.toNat))
      (decimalNumber (operands machines) + (1 - carry.toNat) ≤
        decimalNumber (accumulators machines)) := by
  have hadds : ∀ m ∈ machines, m.AddsDigits (99 - m.operandByte.decimalValue) := fun m hm ↦
    (h.performs m hm).addsDigits_lacking (hleft _ (List.mem_map_of_mem hm))
      (hright _ (List.mem_map_of_mem hm))
  obtain ⟨hdigits, hlt, hsum⟩ := h.decimal_results hadds
  have hoperands := decimalNumber_lt hright
  have hlacking := ofDigits_lacking hright
  rw [length_operands] at hoperands hlacking
  rw [operands, List.map_map] at hlacking
  have hsum := hsum.trans (congrArg (_ + · + _) hlacking)
  obtain ⟨hresults, hcarry⟩ := eq_mod_of_borrow hlt hoperands hsum
  exact {
    completes := fun m hm ↦ (h.performs m hm).completes ⟨_, rfl⟩
    digits := hdigits
    result := by exact_mod_cast hresults
    carry := hcarry }

end Chain

/-! ## Flags -/

/-- Two machines that have the same two bytes and the same carry to add or subtract. -/
structure SameSummands (m other : Machine B) : Prop where
  accumulator : m.processor.a = other.processor.a
  operand : m.operandByte = other.operandByte
  carry : m.processor.flags.carry = other.processor.flags.carry

/-- A decimal subtraction sets the flags of the binary one. -/
theorem SameSummands.subtraction (h : m.SameSummands other) (hdecimal : m.Performs .sbc true)
    (hbinary : other.Performs .sbc false) :
    ∀ flag ∈ [Flag.negative, .overflow, .zero, .carry],
      m.step.2.processor.flags.get flag = other.step.2.processor.flags.get flag := by
  have hm := (hdecimal.combine rfl (m.processor.subtract_of_decimal m.operandByte hdecimal.mode)).2
  have hother :=
    (hbinary.combine rfl (other.processor.subtract_of_binary other.operandByte hbinary.mode)).2
  rw [hm, hother, h.operand]
  exact Processor.flags_addBinary_congr h.accumulator h.carry _

/-- A decimal addition sets the zero flag of the binary one. -/
theorem SameSummands.addition (h : m.SameSummands other) (hdecimal : m.Performs .adc true)
    (hbinary : other.Performs .adc false) :
    m.step.2.processor.flags.zero = other.step.2.processor.flags.zero := by
  have hm := (hdecimal.combine rfl (m.processor.add_of_decimal m.operandByte hdecimal.mode)).2
  have hother :=
    (hbinary.combine rfl (other.processor.add_of_binary other.operandByte hbinary.mode)).2
  have hzero : Flag.zero ∈ [Flag.negative, .overflow, .zero, .carry] := by decide
  rw [hm, hother, ← h.operand]
  exact (m.processor.flags_addDecimal m.operandByte).1.trans
    (Processor.flags_addBinary_congr h.accumulator h.carry _ .zero hzero)

/-- The sum that a decimal addition shows in its negative and overflow flags: of the high digits, in
two's complement, and of what the low ones make. -/
def shownSum (m : Machine B) : Int :=
  (m.processor.a &&& 0xF0).signed + (m.operandByte &&& 0xF0).signed +
    Processor.lowDigits m.processor.a m.operandByte m.processor.flags.carry

theorem Performs.flags_shownSum (h : m.Performs .adc true) :
    (m.step.2.processor.flags.negative = true ↔ 128 ≤ m.shownSum % 256) ∧
      (m.step.2.processor.flags.overflow = true ↔ m.shownSum < -128 ∨ 127 < m.shownSum) := by
  rw [(h.combine rfl (m.processor.add_of_decimal m.operandByte h.mode)).2]
  exact (m.processor.flags_addDecimal m.operandByte).2

/-- Additions of pairs of bytes of two decimal digits each, from the least significant on, make the
digits of the sum of the numbers, and subtractions make those of the difference, modulo the numbers
of their width, and the carry tells whether the sum went beyond or that nothing had to be borrowed.
Whatever the bytes hold, a subtraction sets the flags of the binary one, and an addition sets zero
as the binary one does, and negative and overflow by the sum of the high digits and the adjusted low
one. -/
theorem decimal_chains :
    (∀ {carry : Bool} {machines : List (Machine B)} {flags : Flags},
      (∀ byte ∈ accumulators machines, byte.IsDecimal) →
      (∀ byte ∈ operands machines, byte.IsDecimal) →
      (Chain .adc true carry machines flags → LeavesDigits machines flags
        (decimalNumber (accumulators machines) + decimalNumber (operands machines) + carry.toNat)
        (100 ^ machines.length ≤
          decimalNumber (accumulators machines) + decimalNumber (operands machines) +
            carry.toNat)) ∧
      (Chain .sbc true carry machines flags → LeavesDigits machines flags
        (decimalNumber (accumulators machines) - decimalNumber (operands machines) -
          (1 - carry.toNat))
        (decimalNumber (operands machines) + (1 - carry.toNat) ≤
          decimalNumber (accumulators machines)))) ∧
    (∀ {m other : Machine B}, m.SameSummands other →
      (m.Performs .sbc true → other.Performs .sbc false →
        ∀ flag ∈ [Flag.negative, .overflow, .zero, .carry],
          m.step.2.processor.flags.get flag = other.step.2.processor.flags.get flag) ∧
      (m.Performs .adc true → other.Performs .adc false →
        m.step.2.processor.flags.zero = other.step.2.processor.flags.zero)) ∧
    ∀ {m : Machine B},
      (m.Performs .adc true ∨ m.Performs .sbc true → ∃ cycles, m.step.1 = .ok cycles) ∧
      (m.Performs .adc true →
        (m.step.2.processor.flags.negative = true ↔ 128 ≤ m.shownSum % 256) ∧
          (m.step.2.processor.flags.overflow = true ↔ m.shownSum < -128 ∨ 127 < m.shownSum)) := by
  refine ⟨fun hleft hright ↦ ⟨?_, ?_⟩, fun h ↦ ⟨h.subtraction, h.addition⟩,
    ?_, Performs.flags_shownSum⟩
  · exact Chain.decimalAddition hleft hright
  · exact Chain.decimalSubtraction hleft hright
  · rintro (h | h)
    · exact h.completes ⟨_, rfl⟩
    · exact h.completes ⟨_, rfl⟩

/-- A machine that adds 1250 to 1975 in decimal mode, and then subtracts it from the sum. -/
def atDigits : Machine ConsoleBus where
  processor := .initial 0xF000
  bus := { cartridge := .ofImage #[0xF8, 0x18, 0xA9, 0x75, 0x69, 0x50, 0xA9, 0x19, 0x69, 0x12,
    0x38, 0xA9, 0x25, 0xE9, 0x50, 0xA9, 0x32, 0xE9, 0x12] }

theorem decimal_chains_atDigits :
    decimalNumber (results [atDigits.after 3, atDigits.after 5]) = 3225 ∧
      decimalNumber (results [atDigits.after 8, atDigits.after 10]) = 1975 ∧
      (atDigits.after 10).step.2.processor.flags.carry = true ∧
      (atDigits.after 3).step.2.processor.flags.negative = true ∧
      (atDigits.after 3).step.2.processor.flags.overflow = true ∧
      (atDigits.after 3).step.2.processor.flags.zero = false ∧
      (atDigits.after 8).step.2.processor.flags.negative = true := by
  have hlow : (atDigits.after 3).Performs .adc true := ⟨by decide, by decide⟩
  have hhigh : (atDigits.after 5).Performs .adc true := ⟨by decide, by decide⟩
  have hlowBack : (atDigits.after 8).Performs .sbc true :=
    ⟨by decide +kernel, by decide +kernel⟩
  have hhighBack : (atDigits.after 10).Performs .sbc true :=
    ⟨by decide +kernel, by decide +kernel⟩
  have hsum := Chain.cons hlow (by decide) (.last hhigh)
  have hdifference := Chain.cons hlowBack (by decide +kernel) (.last hhighBack)
  have hdigits {first second : Byte} (hfirst : first.IsDecimal) (hsecond : second.IsDecimal) :
      ∀ byte ∈ [first, second], byte.IsDecimal :=
    List.forall_mem_cons.mpr ⟨hfirst, List.forall_mem_singleton.mpr hsecond⟩
  have hleft : ∀ byte ∈ accumulators [atDigits.after 3, atDigits.after 5], byte.IsDecimal :=
    hdigits (by decide) (by decide)
  have hright : ∀ byte ∈ operands [atDigits.after 3, atDigits.after 5], byte.IsDecimal :=
    hdigits (by decide) (by decide)
  have hleftBack : ∀ byte ∈ accumulators [atDigits.after 8, atDigits.after 10], byte.IsDecimal :=
    hdigits (by decide +kernel) (by decide +kernel)
  have hrightBack : ∀ byte ∈ operands [atDigits.after 8, atDigits.after 10], byte.IsDecimal :=
    hdigits (by decide +kernel) (by decide +kernel)
  have haddition := (decimal_chains.1 hleft hright).1 hsum
  have hsubtraction := (decimal_chains.1 hleftBack hrightBack).2 hdifference
  have hbinary : ((atDigits.after 3).withFlag .decimal false).Performs .adc false :=
    ⟨by decide, by decide⟩
  have hbinaryBack : ((atDigits.after 8).withFlag .decimal false).Performs .sbc false :=
    ⟨by decide +kernel, by decide +kernel⟩
  have hsame : (atDigits.after 3).SameSummands ((atDigits.after 3).withFlag .decimal false) :=
    ⟨by decide, by decide, by decide⟩
  have hsameBack : (atDigits.after 8).SameSummands ((atDigits.after 8).withFlag .decimal false) :=
    ⟨by decide +kernel, by decide +kernel, by decide +kernel⟩
  refine ⟨?_, ?_, ?_, ?_, ?_, ?_, ?_⟩
  · exact Int.ofNat_inj.mp (haddition.result.trans (by decide))
  · exact Int.ofNat_inj.mp (hsubtraction.result.trans (by decide +kernel))
  · exact hsubtraction.carry.mpr (by decide +kernel)
  · exact (decimal_chains.2.2.2 hlow).1.mpr (by decide)
  · exact (decimal_chains.2.2.2 hlow).2.mpr (by decide)
  · exact ((decimal_chains.2.1 hsame).2 hlow hbinary).trans (by decide)
  · exact ((decimal_chains.2.1 hsameBack).1 hlowBack hbinaryBack .negative (by decide)).trans
      (by decide +kernel)

end VideoComputer.Machine
