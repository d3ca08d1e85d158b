import Mathlib.Logic.Function.Iterate
import VideoComputer.Proofs.Processor.Numbers

/-!
# Shifts of numbers of several bytes

What shifts and rotations of one byte after the other make of a number, if each hands its carry to
the next: from the least significant byte upwards the number and the carry in are doubled, from the
most significant byte downwards they are halved. With the carry on top a number has one bit more,
and to double it is to rotate those bits.
-/

namespace VideoComputer

/-! ## Rotations of bits -/

namespace BitRotation

variable {width : Nat}

/-- Each bit goes one place up, and the top one to the bottom. -/
theorem getLsbD_rotateLeft_one (x : BitVec width) (hwidth : 1 < width) {i : Nat} (h : i < width) :
    (x.rotateLeft 1).getLsbD ((i + 1) % width) = x.getLsbD i := by
  rw [BitVec.getLsbD_rotateLeft_of_le hwidth]
  by_cases htop : i + 1 < width
  · simp [Nat.mod_eq_of_lt htop, htop]
  · obtain rfl : i + 1 = width := by omega
    simp

theorem getLsbD_iterate (x : BitVec width) (hwidth : 1 < width) {i : Nat} (h : i < width)
    (count : Nat) :
    ((·.rotateLeft 1)^[count] x).getLsbD ((i + count) % width) = x.getLsbD i := by
  induction count with
  | zero => rw [Nat.add_zero, Nat.mod_eq_of_lt h, Function.iterate_zero_apply]
  | succ count ih =>
    have hplace : (i + (count + 1)) % width = ((i + count) % width + 1) % width := by
      rw [Nat.mod_add_mod, Nat.add_assoc]
    rw [hplace, Function.iterate_succ_apply',
      getLsbD_rotateLeft_one _ hwidth (Nat.mod_lt _ (Nat.zero_lt_of_lt h)), ih]

/-- As many rotations as there are bits bring every bit back. -/
theorem iterate_width (x : BitVec width) (hwidth : 1 < width) :
    (·.rotateLeft 1)^[width] x = x := by
  apply BitVec.eq_of_getLsbD_eq
  intro i h
  have hback := getLsbD_iterate x hwidth h width
  rwa [Nat.add_mod_right, Nat.mod_eq_of_lt h] at hback

/-- A rotation doubles a number, and its top bit comes in at the bottom. -/
theorem toNat_rotateLeft_one (x : BitVec (width + 1)) (hwidth : 0 < width) :
    (x.rotateLeft 1).toNat = 2 * (x.toNat % 2 ^ width) + x.toNat / 2 ^ width := by
  have hone : 1 % (width + 1) = 1 := Nat.mod_eq_of_lt (by omega)
  have htop : x.toNat / 2 ^ width < 2 ^ 1 := by
    apply Nat.div_lt_of_lt_mul
    exact x.isLt
  have hdoubled : x.toNat * 2 ^ 1 % 2 ^ (width + 1) = 2 ^ 1 * (x.toNat % 2 ^ width) := by
    rw [Nat.mul_comm, Nat.pow_one, Nat.pow_succ', Nat.mul_mod_mul_left]
  rw [BitVec.toNat_rotateLeft, hone, Nat.shiftLeft_eq, hdoubled, Nat.add_sub_cancel,
    Nat.shiftRight_eq_div_pow, ← Nat.two_pow_add_eq_or_of_lt htop, Nat.pow_one]

end BitRotation

/-- A byte on top of the others counts as many times as they have numbers. -/
theorem Byte.number_concat (bytes : List Byte) (top : Byte) :
    number (bytes ++ [top]) = number bytes + 256 ^ bytes.length * top.toNat := by
  rw [number, List.map_append, Nat.ofDigits_append, List.length_map, List.map_singleton,
    Nat.ofDigits_singleton]
  rfl

/-- A number of so many bytes with the carry on top of it. -/
def Byte.carried (width : Nat) (carry : Bool) (value : Nat) : BitVec (8 * width + 1) :=
  .ofNat _ (256 ^ width * carry.toNat + value)

section

variable {width value other : Nat} {carry carryOut : Bool}

theorem Byte.toNat_carried (h : value < 256 ^ width) :
    (carried width carry value).toNat = 256 ^ width * carry.toNat + value := by
  have hcarry := Nat.mul_le_mul_left (256 ^ width) carry.toNat_le
  have hmodulus : 2 ^ (8 * width + 1) = 256 ^ width * 2 := by
    rw [Nat.pow_succ, Nat.pow_mul]
  rw [carried, BitVec.toNat_ofNat, hmodulus, Nat.mod_eq_of_lt (by omega)]

/-- The carry and the number are read off again. -/
theorem Byte.eq_of_carried_eq (hvalue : value < 256 ^ width) (hother : other < 256 ^ width)
    (h : carried width carry value = carried width carryOut other) :
    carry = carryOut ∧ value = other := by
  have hnumbers := congrArg BitVec.toNat h
  rw [toNat_carried hvalue, toNat_carried hother] at hnumbers
  cases carry <;> cases carryOut <;>
    simp only [Bool.toNat_true, Bool.toNat_false, reduceCtorEq, true_and, false_and] at * <;> omega

/-- To double a number and the carry below it is to rotate the bits of both. -/
theorem Byte.carried_double (hwidth : 0 < width) (hvalue : value < 256 ^ width)
    (hother : other < 256 ^ width)
    (h : other + 256 ^ width * carryOut.toNat = 2 * value + carry.toNat) :
    carried width carryOut other = (carried width carry value).rotateLeft 1 := by
  have hpow : 2 ^ (8 * width) = 256 ^ width := Nat.pow_mul ..
  have hpos : 0 < 256 ^ width := Nat.pow_pos (by decide)
  apply BitVec.eq_of_toNat_eq
  rw [BitRotation.toNat_rotateLeft_one _ (by omega), toNat_carried hvalue, toNat_carried hother,
    hpow, Nat.mul_add_mod, Nat.mod_eq_of_lt hvalue, Nat.mul_add_div hpos, Nat.div_eq_of_lt hvalue,
    Nat.add_zero, Nat.add_comm, h]

end

namespace Modification

/-! ## One byte -/

/-- The byte and the carry out hold twice the byte and the carry in. -/
theorem rotateLeft_doubles (value : Byte) (carry : Bool) :
    (rotateLeft.result value carry).toNat + 256 * (rotateLeft.carryOut value carry).toNat =
      2 * value.toNat + carry.toNat := by
  revert carry value
  apply Byte.forall_of_lt
  decide +kernel

/-- The carry in and the byte hold twice the result and the carry out. -/
theorem rotateRight_halves (value : Byte) (carry : Bool) :
    256 * carry.toNat + value.toNat =
      2 * (rotateRight.result value carry).toNat + (rotateRight.carryOut value carry).toNat := by
  revert carry value
  apply Byte.forall_of_lt
  decide +kernel

/-! ## One byte after the other -/

/-- What modifications make of bytes one after the other, and the carry after the last: each takes
the carry of the one before. -/
def passOn (carry : Bool) : List (Modification × Byte) → Bool × List Byte
  | [] => (carry, [])
  | (change, value) :: rest =>
    let (last, values) := passOn (change.carryOut value carry) rest
    (last, change.result value carry :: values)

theorem length_passOn (carry : Bool) (work : List (Modification × Byte)) :
    (passOn carry work).2.length = work.length := by
  induction work generalizing carry with
  | nil => rfl
  | cons entry rest ih => exact congrArg (· + 1) (ih _)

/-- One modification for the first item and another one for those that follow. -/
def chain {α : Type} (first other : Modification) : List α → List (Modification × α)
  | [] => []
  | item :: items => (first, item) :: items.map (other, ·)

theorem map_chain {α β : Type} (first other : Modification) (f : α → β) (items : List α) :
    (chain first other items).map (fun entry ↦ (entry.1, f entry.2)) =
      chain first other (items.map f) := by
  cases items with
  | nil => rfl
  | cons item items => simp [chain]

theorem map_snd_chain {α : Type} (first other : Modification) (items : List α) :
    (chain first other items).map Prod.snd = items := by
  cases items with
  | nil => rfl
  | cons item items => simp [chain]

theorem length_chain {α : Type} (first other : Modification) (items : List α) :
    (chain first other items).length = items.length := by
  rw [← List.length_map Prod.snd, map_snd_chain]

theorem chain_self {α : Type} (change : Modification) (items : List α) :
    chain change change items = items.map (change, ·) := by
  cases items <;> rfl

/-- A chain that starts with a shift to the left is one of rotations with no carry in. -/
theorem passOn_shiftLeft (carry : Bool) {bytes : List Byte} (h : bytes ≠ []) :
    passOn carry (chain shiftLeft rotateLeft bytes) =
      passOn false (chain rotateLeft rotateLeft bytes) := by
  cases bytes with
  | nil => exact absurd rfl h
  | cons byte bytes => rfl

theorem passOn_shiftRight (carry : Bool) {bytes : List Byte} (h : bytes ≠ []) :
    passOn carry (chain shiftRight rotateRight bytes) =
      passOn false (chain rotateRight rotateRight bytes) := by
  cases bytes with
  | nil => exact absurd rfl h
  | cons byte bytes =>
    simp [chain, passOn, result, carryOut]

variable {carry last : Bool} {bytes results : List Byte}

/-- Rotations from the least significant byte upwards double the number. -/
theorem passOn_rotateLeft
    (h : passOn carry (chain rotateLeft rotateLeft bytes) = (last, results)) :
    Byte.number results + 256 ^ bytes.length * last.toNat =
      2 * Byte.number bytes + carry.toNat := by
  rw [chain_self] at h
  induction bytes generalizing carry results with
  | nil =>
    cases h
    simp [Byte.number]
  | cons byte bytes ih =>
    obtain ⟨hlast, hresults⟩ := Prod.mk.inj h
    subst hresults
    have hrest := ih (Prod.ext hlast rfl)
    have hbyte := rotateLeft_doubles byte carry
    rw [Byte.number_cons, Byte.number_cons, List.length_cons, Nat.pow_succ']
    calc
      _ = (rotateLeft.result byte carry).toNat + 256 * (2 * Byte.number bytes +
          (rotateLeft.carryOut byte carry).toNat) := by
        rw [← hrest]
        ring
      _ = 2 * byte.toNat + carry.toNat + 2 * (256 * Byte.number bytes) := by
        rw [← hbyte]
        ring
      _ = _ := by ring

/-- Rotations from the most significant byte downwards halve the number. -/
theorem passOn_rotateRight
    (h : passOn carry (chain rotateRight rotateRight bytes) = (last, results)) :
    256 ^ bytes.length * carry.toNat + Byte.number bytes.reverse =
      2 * Byte.number results.reverse + last.toNat := by
  rw [chain_self] at h
  induction bytes generalizing carry results with
  | nil =>
    cases h
    simp [Byte.number]
  | cons byte bytes ih =>
    obtain ⟨hlast, hresults⟩ := Prod.mk.inj h
    subst hresults
    have hrest := ih (Prod.ext hlast rfl)
    have hbyte := rotateRight_halves byte carry
    rw [List.reverse_cons, List.reverse_cons, Byte.number_concat, Byte.number_concat,
      List.length_reverse, List.length_reverse, length_passOn, List.length_map, List.length_cons,
      Nat.pow_succ]
    calc
      _ = 256 ^ bytes.length * (256 * carry.toNat + byte.toNat) + Byte.number bytes.reverse := by
        ring
      _ = 2 * (256 ^ bytes.length * (rotateRight.result byte carry).toNat) +
          (256 ^ bytes.length * (rotateRight.carryOut byte carry).toNat +
            Byte.number bytes.reverse) := by
        rw [hbyte]
        ring
      _ = _ := by
        rw [hrest]
        ring

/-! ## Numbers shifted and rotated -/

theorem shiftLeft_doubles (hbytes : bytes ≠ [])
    (h : passOn carry (chain shiftLeft rotateLeft bytes) = (last, results)) :
    Byte.number results = 2 * Byte.number bytes % 256 ^ bytes.length ∧
      (last = true ↔ 256 ^ bytes.length ≤ 2 * Byte.number bytes) := by
  have hlength := congrArg (·.2.length) h
  rw [passOn_shiftLeft carry hbytes] at h
  have hdoubled := passOn_rotateLeft h
  have hlt := Byte.number_lt results
  simp only [length_passOn, length_chain] at hlength
  rw [← hlength] at hlt
  exact eq_mod_of_carry hlt hdoubled

theorem shiftRight_halves (hbytes : bytes ≠ [])
    (h : passOn carry (chain shiftRight rotateRight bytes.reverse) = (last, results)) :
    Byte.number results.reverse = Byte.number bytes / 2 ∧
      last.toNat = Byte.number bytes % 2 := by
  rw [passOn_shiftRight carry (mt List.reverse_eq_nil_iff.mp hbytes)] at h
  have hhalved := passOn_rotateRight h
  have hlast := last.toNat_le
  rw [List.reverse_reverse, Bool.toNat_false, Nat.mul_zero, Nat.zero_add] at hhalved
  constructor <;> omega

/-- Rotations downwards undo those upwards. -/
theorem rotateRight_restores {between : List Byte} {carryBetween : Bool}
    (hup : passOn carry (chain rotateLeft rotateLeft bytes) = (carryBetween, between))
    (hdown : passOn carryBetween (chain rotateRight rotateRight between.reverse) =
      (last, results)) :
    last = carry ∧ results.reverse = bytes := by
  have hbetween : between.length = bytes.length := by
    have hlength := congrArg (·.2.length) hup
    simpa only [length_passOn, length_chain] using hlength.symm
  have hresults : results.reverse.length = bytes.length := by
    have hlength := congrArg (·.2.length) hdown
    simpa only [length_passOn, length_chain, List.length_reverse, hbetween] using hlength.symm
  have hdoubled := passOn_rotateLeft hup
  have hhalved := passOn_rotateRight hdown
  rw [List.reverse_reverse, List.length_reverse, hbetween] at hhalved
  have hcarry := carry.toNat_le
  have hlast := last.toNat_le
  refine ⟨?_, Byte.eq_of_number_eq hresults (by omega)⟩
  rw [Bool.eq_iff_iff, ← Bool.toNat_eq_one, ← Bool.toNat_eq_one]
  omega

end Modification

end VideoComputer
