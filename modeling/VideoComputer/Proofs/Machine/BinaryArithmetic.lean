import Mathlib.Tactic.LinearCombination
import VideoComputer.Console.AddressMap
import VideoComputer.Proofs.Machine.CarryChains
import VideoComputer.Proofs.Processor.Numbers

/-!
# Binary arithmetic of several bytes

What a chain of binary additions or subtractions comes to. A subtraction adds the complement of its
operand, so that one account of additions serves both. Main statement: a chain leaves the sum or
the difference modulo the numbers of its width, the carry tells whether it went beyond, the overflow
flag whether it went beyond in two's complement, the negative flag is the top bit, and a chain of
subtractions takes back what a chain of additions has done.
-/

namespace VideoComputer.Machine

open Byte

variable {B : Type} [Bus B] {m : Machine B} {machines : List (Machine B)}
  {operation : Operation} {carry : Bool} {flags : Flags}

/-- The next step leaves the sum of the accumulator and a byte, and its flags. -/
structure Adds (m : Machine B) (right : Byte) : Prop where
  sum : m.step.2.processor.a.toNat + 256 * m.step.2.processor.flags.carry.toNat =
    m.processor.a.toNat + right.toNat + m.processor.flags.carry.toNat
  overflow : m.step.2.processor.flags.overflow =
    Processor.signedOverflow m.processor.a right m.step.2.processor.a
  negative : m.step.2.processor.flags.negative = m.step.2.processor.a.isNegative

theorem Adds.of_addBinary {right : Byte}
    (h : m.step.2.processor.a = (m.processor.addBinary right).a ∧
      m.step.2.processor.flags = (m.processor.addBinary right).flags) : m.Adds right where
  sum := by
    rw [h.1, h.2]
    exact m.processor.toNat_addBinary right
  overflow := by
    rw [h.1, h.2]
    rfl
  negative := by
    rw [h.1, h.2]
    rfl

theorem Performs.adds (h : m.Performs .adc false) : m.Adds m.operandByte :=
  .of_addBinary (h.combine rfl (m.processor.add_of_binary m.operandByte h.mode))

theorem Performs.adds_complement (h : m.Performs .sbc false) : m.Adds (255 - m.operandByte) :=
  .of_addBinary (h.combine rfl (m.processor.subtract_of_binary m.operandByte h.mode))

namespace Chain

variable {right : Machine B → Byte}

/-- The results and the last carry together hold the whole sum. -/
theorem number_results (h : Chain operation false carry machines flags)
    (hadds : ∀ m ∈ machines, m.Adds (right m)) :
    number (results machines) + 256 ^ machines.length * flags.carry.toNat =
      number (accumulators machines) + number (machines.map right) + carry.toNat := by
  simp only [number, results, accumulators, List.map_map]
  exact h.ofDigits_add fun m hm ↦ (hadds m hm).sum

/-- The results are the sum in two's complement up to what goes beyond the width, and overflow after
the last instruction tells that something does. -/
theorem signedNumber_results (h : Chain operation false carry machines flags)
    (hadds : ∀ m ∈ machines, m.Adds (right m)) :
    ∃ excess : Int, signedNumber (results machines) + 256 ^ machines.length * excess =
        signedNumber (accumulators machines) + signedNumber (machines.map right) +
          carry.toNat ∧
      (flags.overflow = true ↔ excess ≠ 0) := by
  induction h with
  | @last m _ =>
    have hlast := hadds m (List.mem_singleton_self m)
    obtain ⟨excess, hexcess, hoverflow⟩ := Processor.signed_sum hlast.sum
    refine ⟨excess, ?_, ?_⟩
    · simpa [results, accumulators, signedNumber_singleton] using hexcess
    · rw [hlast.overflow, hoverflow]
  | @more m machines flags _ rest ih =>
    obtain ⟨excess, hexcess, hoverflow⟩ :=
      ih fun other hother ↦ hadds other (List.mem_cons_of_mem _ hother)
    have hsum := (hadds m (List.mem_cons_self ..)).sum
    have hne {f : Machine B → Byte} : machines.map f ≠ [] := mt List.map_eq_nil_iff.mp rest.ne_nil
    refine ⟨excess, ?_, hoverflow⟩
    simp only [results, accumulators] at hexcess ⊢
    rw [List.map_cons, List.map_cons, List.map_cons, signedNumber_cons _ hne,
      signedNumber_cons _ hne, signedNumber_cons _ hne, List.length_cons, pow_succ']
    zify at hsum
    linear_combination hsum + 256 * hexcess

/-- The negative flag after the last instruction is the top bit of all the results. -/
theorem negative_eq_testBit (h : Chain operation false carry machines flags)
    (hadds : ∀ m ∈ machines, m.Adds (right m)) :
    flags.negative = (number (results machines)).testBit (8 * machines.length - 1) := by
  have hne {list : List (Machine B)} (hlist : list ≠ []) : results list ≠ [] :=
    mt List.map_eq_nil_iff.mp hlist
  have hsign : flags.negative =
      decide (256 ^ machines.length ≤ 2 * number (results machines)) := by
    induction h with
    | @last m _ =>
      rw [(hadds m (List.mem_singleton_self m)).negative, results, List.map_singleton,
        number_singleton, List.length_singleton, isNegative]
      exact decide_eq_decide.mpr (by omega)
    | @more m machines flags _ rest ih =>
      have hcons := sign_cons m.step.2.processor.a (hne rest.ne_nil)
      rw [List.length_cons, length_results] at hcons
      rw [ih fun other hother ↦ hadds other (List.mem_cons_of_mem _ hother)]
      exact decide_eq_decide.mpr hcons.symm
  rw [hsign, ← length_results machines, testBit_top (hne h.ne_nil)]

end Chain

/-- What a chain leaves of a number: the bytes of its width, a carry that tells something, overflow
if the number in two's complement does not fit, and the top bit as the sign. -/
structure Leaves (machines : List (Machine B)) (flags : Flags) (total signedTotal : Int)
    (carried : Prop) : Prop where
  completes : ∀ m ∈ machines, ∃ cycles, m.step.1 = .ok cycles
  result : (number (results machines) : Int) = total % 256 ^ machines.length
  carry : flags.carry = true ↔ carried
  overflow : flags.overflow = true ↔ ¬FitsSigned machines.length signedTotal
  negative : flags.negative = (number (results machines)).testBit (8 * machines.length - 1)

namespace Chain

theorem adds (h : Chain .adc false carry machines flags) :
    ∀ m ∈ machines, m.Adds m.operandByte :=
  fun m hm ↦ (h.performs m hm).adds

theorem adds_complement (h : Chain .sbc false carry machines flags) :
    ∀ m ∈ machines, m.Adds (255 - m.operandByte) :=
  fun m hm ↦ (h.performs m hm).adds_complement

theorem overflow_iff {right : Machine B → Byte} {signedTotal : Int}
    (h : Chain operation false carry machines flags) (hadds : ∀ m ∈ machines, m.Adds (right m))
    (htotal : signedNumber (accumulators machines) + signedNumber (machines.map right) +
      carry.toNat = signedTotal) :
    flags.overflow = true ↔ ¬FitsSigned machines.length signedTotal := by
  obtain ⟨excess, hexcess, hoverflow⟩ := h.signedNumber_results hadds
  have hfits := fitsSigned_signedNumber (results machines)
  rw [length_results] at hfits
  rw [hoverflow, fitsSigned_iff hfits (hexcess.trans htotal)]

theorem addition (h : Chain .adc false carry machines flags) :
    Leaves machines flags
      (number (accumulators machines) + number (operands machines) + carry.toNat)
      (signedNumber (accumulators machines) + signedNumber (operands machines) + carry.toNat)
      (256 ^ machines.length ≤
        number (accumulators machines) + number (operands machines) + carry.toNat) := by
  have hlt : number (results machines) < 256 ^ machines.length := number_map_lt ..
  obtain ⟨hresults, hcarry⟩ := eq_mod_of_carry hlt (h.number_results h.adds)
  exact {
    completes := fun m hm ↦ (h.performs m hm).completes ⟨_, rfl⟩
    result := by exact_mod_cast hresults
    carry := hcarry
    overflow := h.overflow_iff h.adds rfl
    negative := h.negative_eq_testBit h.adds }

/-- The complements of the operands make the complement of their number. -/
theorem number_complements (machines : List (Machine B)) :
    number (machines.map (255 - ·.operandByte)) =
      256 ^ machines.length - 1 - number (operands machines) := by
  have hcomplement := number_complement (operands machines)
  rwa [length_operands, operands, List.map_map] at hcomplement

theorem signedNumber_complements (hmachines : machines ≠ []) :
    signedNumber (machines.map (255 - ·.operandByte)) = -1 - signedNumber (operands machines) := by
  have hoperands : operands machines ≠ [] := mt List.map_eq_nil_iff.mp hmachines
  have hcomplement := signedNumber_complement hoperands
  rwa [operands, List.map_map] at hcomplement

theorem subtraction (h : Chain .sbc false carry machines flags) :
    Leaves machines flags
      (number (accumulators machines) - number (operands machines) - (1 - carry.toNat))
      (signedNumber (accumulators machines) - signedNumber (operands machines) -
        (1 - carry.toNat))
      (number (operands machines) + (1 - carry.toNat) ≤ number (accumulators machines)) := by
  have hlt : number (results machines) < 256 ^ machines.length := number_map_lt ..
  have hoperands : number (operands machines) < 256 ^ machines.length := number_map_lt ..
  have hsum := h.number_results h.adds_complement
  rw [number_complements] at hsum
  obtain ⟨hresults, hcarry⟩ := eq_mod_of_borrow hlt hoperands hsum
  exact {
    completes := fun m hm ↦ (h.performs m hm).completes ⟨_, rfl⟩
    result := by exact_mod_cast hresults
    carry := hcarry
    overflow := h.overflow_iff h.adds_complement (by
      rw [signedNumber_complements h.ne_nil]
      ring)
    negative := h.negative_eq_testBit h.adds_complement }

/-- A subtraction with the opposite carry takes an addition back. -/
theorem restores {subtractions : List (Machine B)} {flagsAfter : Flags}
    (h : Chain .adc false carry machines flags)
    (hback : Chain .sbc false (!carry) subtractions flagsAfter)
    (haccumulators : accumulators subtractions = results machines)
    (hoperands : operands subtractions = operands machines) :
    results subtractions = accumulators machines := by
  have hlength : subtractions.length = machines.length := by
    rw [← length_operands, hoperands, length_operands]
  have hsum := h.number_results h.adds
  have hdifference := hback.number_results hback.adds_complement
  rw [number_complements, haccumulators, hoperands, hlength] at hdifference
  apply eq_of_number_eq
  · rw [length_results, length_accumulators, hlength]
  · have hresults : number (results subtractions) < 256 ^ subtractions.length :=
      number_map_lt ..
    rw [hlength] at hresults
    have hleft : number (accumulators machines) < 256 ^ machines.length := number_map_lt ..
    have hright : number (operands machines) < 256 ^ machines.length := number_map_lt ..
    exact eq_of_sum_of_difference hleft hright hresults hsum hdifference

end Chain

/-- Additions of the pairs of bytes, from the least significant on, make the sum of the numbers, and
subtractions make the difference, modulo the numbers of their width: the carry tells whether the sum
went beyond, or that nothing had to be borrowed, the overflow flag whether the result in two's
complement went beyond, and the negative flag is the top bit. Subtractions from a sum, with the
opposite carry, restore what the sum was made of. -/
theorem binary_chains {carry : Bool} {machines : List (Machine B)} {flags : Flags} :
    (Chain .adc false carry machines flags → Leaves machines flags
      (number (accumulators machines) + number (operands machines) + carry.toNat)
      (signedNumber (accumulators machines) + signedNumber (operands machines) + carry.toNat)
      (256 ^ machines.length ≤
        number (accumulators machines) + number (operands machines) + carry.toNat)) ∧
    (Chain .sbc false carry machines flags → Leaves machines flags
      (number (accumulators machines) - number (operands machines) - (1 - carry.toNat))
      (signedNumber (accumulators machines) - signedNumber (operands machines) -
        (1 - carry.toNat))
      (number (operands machines) + (1 - carry.toNat) ≤ number (accumulators machines))) ∧
    ∀ {subtractions : List (Machine B)} {flagsAfter : Flags},
      Chain .adc false carry machines flags → Chain .sbc false (!carry) subtractions flagsAfter →
      accumulators subtractions = results machines → operands subtractions = operands machines →
      results subtractions = accumulators machines :=
  ⟨Chain.addition, Chain.subtraction, Chain.restores⟩

/-- A machine that adds 1 to 0x7FFF, and then takes 1 away from the sum. -/
def atSum : Machine ConsoleBus where
  processor := .initial 0xF000
  bus := { cartridge := .ofImage #[0x18, 0xA9, 0xFF, 0x69, 0x01, 0xA9, 0x7F, 0x69, 0x00,
    0x38, 0xA9, 0x00, 0xE9, 0x01, 0xA9, 0x80, 0xE9, 0x00] }

theorem binary_chains_atSum :
    number (results [atSum.after 2, atSum.after 4]) = 0x8000 ∧
      (atSum.after 4).step.2.processor.flags.overflow = true ∧
      (atSum.after 4).step.2.processor.flags.carry = false ∧
      (atSum.after 9).step.2.processor.flags.carry = true ∧
      results [atSum.after 7, atSum.after 9] = [0xFF, 0x7F] := by
  have hlow : (atSum.after 2).Performs .adc false := ⟨by decide, by decide⟩
  have hhigh : (atSum.after 4).Performs .adc false := ⟨by decide, by decide⟩
  have hlowBack : (atSum.after 7).Performs .sbc false :=
    ⟨by decide +kernel, by decide +kernel⟩
  have hhighBack : (atSum.after 9).Performs .sbc false :=
    ⟨by decide +kernel, by decide +kernel⟩
  have hcarried : (atSum.after 4).processor.flags.carry =
      (atSum.after 2).step.2.processor.flags.carry := by decide
  have hborrowed : (atSum.after 9).processor.flags.carry =
      (atSum.after 7).step.2.processor.flags.carry := by decide +kernel
  have hopposite : (atSum.after 7).processor.flags.carry =
      !(atSum.after 2).processor.flags.carry := by decide +kernel
  have hsum := Chain.cons hlow hcarried (.last hhigh)
  have hdifference := Chain.cons hlowBack hborrowed (.last hhighBack)
  rw [hopposite] at hdifference
  have haddition := binary_chains.1 hsum
  have hsubtraction := binary_chains.2.1 hdifference
  refine ⟨?_, ?_, ?_, ?_, ?_⟩
  · exact Int.ofNat_inj.mp (haddition.result.trans (by decide))
  · exact haddition.overflow.mpr (by decide)
  · exact eq_false_of_ne_true (mt haddition.carry.mp (by decide))
  · exact hsubtraction.carry.mpr (by decide +kernel)
  · have hrestored :=
      binary_chains.2.2 hsum hdifference (by decide +kernel) (by decide +kernel)
    exact hrestored.trans (by decide)

end VideoComputer.Machine
