import VideoComputer.Console.AddressMap
import VideoComputer.Proofs.Machine.Addressing

/-!
# Operand addresses as numbers

Where the operand of each mode lies, told by sums of bytes and by three moduli: 256 for what never
leaves page zero, 256 again for the low byte of a pointer that never leaves its page, and 65536 for
what goes round the memory. Main statement: the machine finds these addresses, moves past the
operand bytes and changes nothing else.
-/

namespace VideoComputer.Machine

variable {B : Type} [Bus B]

/-- The byte at an address as a number. -/
def byteNumber (m : Machine B) (address : Nat) : Nat := (m.read (UInt16.ofNat address)).toNat

/-- The number that two bytes of the bus make, the low one first. -/
def pairNumber (m : Machine B) (low high : Nat) : Nat := m.byteNumber low + 256 * m.byteNumber high

/-- The word at an address; the last address is followed by the first. -/
def wordNumber (m : Machine B) (address : Nat) : Nat :=
  m.pairNumber address ((address + 1) % 65536)

/-- The word at an offset of page zero, whose last address is followed by its first. -/
def pageZeroNumber (m : Machine B) (offset : Nat) : Nat :=
  m.pairNumber offset ((offset + 1) % 256)

/-- The base and the index of the modes that index from a word. -/
def indexing? (m : Machine B) : AddressingMode → Option (Nat × Nat)
  | .absoluteX => some (m.wordNumber m.processor.pc.toNat, m.processor.x.toNat)
  | .absoluteY => some (m.wordNumber m.processor.pc.toNat, m.processor.y.toNat)
  | .indirectY =>
    some (m.pageZeroNumber (m.byteNumber m.processor.pc.toNat), m.processor.y.toNat)
  | _ => none

/-- The address that the operand bytes at the program counter name, in the modes that name one. -/
def addressNumber? (m : Machine B) : AddressingMode → Option Nat
  | .immediate => some m.processor.pc.toNat
  | .zeroPage => some (m.byteNumber m.processor.pc.toNat)
  | .zeroPageX => some ((m.byteNumber m.processor.pc.toNat + m.processor.x.toNat) % 256)
  | .zeroPageY => some ((m.byteNumber m.processor.pc.toNat + m.processor.y.toNat) % 256)
  | .absolute => some (m.wordNumber m.processor.pc.toNat)
  | .absoluteX => some ((m.wordNumber m.processor.pc.toNat + m.processor.x.toNat) % 65536)
  | .absoluteY => some ((m.wordNumber m.processor.pc.toNat + m.processor.y.toNat) % 65536)
  | .indirect =>
    let pointer := m.wordNumber m.processor.pc.toNat
    some (m.pairNumber pointer (pointer / 256 * 256 + (pointer % 256 + 1) % 256))
  | .indirectX =>
    some (m.pageZeroNumber ((m.byteNumber m.processor.pc.toNat + m.processor.x.toNat) % 256))
  | .indirectY =>
    let base := m.pageZeroNumber (m.byteNumber m.processor.pc.toNat)
    some ((base + m.processor.y.toNat) % 65536)
  | .implicit | .accumulator | .relative => none

variable (m : Machine B)

theorem byteNumber_toNat (address : Word) :
    m.byteNumber address.toNat = (m.read address).toNat := by
  rw [byteNumber, UInt16.ofNat_toNat]

theorem toNat_join_read (low high : Word) :
    (Word.join (m.read low) (m.read high)).toNat = m.pairNumber low.toNat high.toNat := by
  rw [Word.toNat_join, pairNumber, byteNumber_toNat, byteNumber_toNat]
  omega

theorem toNat_wordAt (address : Word) : (m.wordAt address).toNat = m.wordNumber address.toNat := by
  have hnext : (address + 1).toNat = (address.toNat + 1) % 65536 := UInt16.toNat_add address 1
  rw [wordAt, toNat_join_read, hnext]
  rfl

theorem toNat_pageZeroWord (offset : Byte) :
    (m.pageZeroWord offset).toNat = m.pageZeroNumber offset.toNat := by
  have hnext : (offset + 1).toNat = (offset.toNat + 1) % 256 := UInt8.toNat_add offset 1
  rw [pageZeroWord, toNat_join_read, UInt8.toNat_toUInt16, UInt8.toNat_toUInt16, hnext]
  rfl

/-- The high byte of a pointer is fetched from the page of the low one. -/
theorem toNat_pointer (pointer : Word) :
    (Word.join (m.read pointer) (m.read (.join (pointer.low + 1) pointer.high))).toNat =
      m.pairNumber pointer.toNat (pointer.toNat / 256 * 256 + (pointer.toNat % 256 + 1) % 256) := by
  have hnext : (pointer.low + 1).toNat = (pointer.low.toNat + 1) % 256 :=
    UInt8.toNat_add pointer.low 1
  rw [toNat_join_read, Word.toNat_join, Word.toNat_high, hnext, Word.toNat_low]

theorem toNat_add_index (base : Word) (index : Byte) :
    (base + index.toUInt16).toNat = (base.toNat + index.toNat) % 65536 := by
  rw [UInt16.toNat_add, UInt8.toNat_toUInt16]

theorem toNat_read_add (index : Byte) (address : Word) :
    (m.read address + index).toUInt16.toNat = (m.byteNumber address.toNat + index.toNat) % 256 := by
  rw [UInt8.toNat_toUInt16, UInt8.toNat_add, byteNumber_toNat]

variable {m : Machine B} {mode : AddressingMode}

/-- The address of an operand has the number that arithmetic tells. -/
theorem addressNumber?_eq (h : mode.NamesAddress) :
    m.addressNumber? mode = some (m.effectiveAddress m.processor.pc mode).toNat := by
  cases mode with
  | implicit | accumulator | relative => exact absurd h id
  | immediate => rfl
  | zeroPage =>
    rw [addressNumber?, effectiveAddress, UInt8.toNat_toUInt16, byteNumber_toNat]
  | zeroPageX | zeroPageY => rw [addressNumber?, effectiveAddress, toNat_read_add]
  | absolute => rw [addressNumber?, effectiveAddress, toNat_wordAt]
  | absoluteX | absoluteY =>
    rw [addressNumber?, effectiveAddress, toNat_add_index, toNat_wordAt]
  | indirect =>
    simp only [addressNumber?, effectiveAddress]
    rw [toNat_pointer, toNat_wordAt]
  | indirectX =>
    rw [addressNumber?, effectiveAddress, toNat_pageZeroWord, ← toNat_read_add,
      UInt8.toNat_toUInt16]
  | indirectY =>
    simp only [addressNumber?, effectiveAddress]
    rw [toNat_add_index, toNat_pageZeroWord, byteNumber_toNat]

/-- A page is crossed where the low byte of the base and the index do not fit a byte. -/
theorem crossesPage_eq :
    m.crossesPage m.processor.pc mode =
      (m.indexing? mode).any fun (base, index) ↦ decide (256 ≤ base % 256 + index) := by
  cases mode with
  | absoluteX | absoluteY => rw [crossesPage, Word.toNat_low, toNat_wordAt]; rfl
  | indirectY =>
    rw [crossesPage, Word.toNat_low, toNat_pageZeroWord, ← byteNumber_toNat]
    rfl
  | implicit | accumulator | immediate | zeroPage | zeroPageX | zeroPageY | relative | absolute
  | indirect | indirectX => rfl

/-- In every mode that names an address the machine finds the one that arithmetic tells, notes a
crossed page exactly when the index carries the low byte of the base over, and moves past the
operand bytes, round the end of the memory if need be. Nothing else of it changes. -/
theorem operand_numbers (h : mode.NamesAddress) :
    ∃ operand, m.operand mode = (.ok operand, { m with processor := { m.processor with
        pc := UInt16.ofNat ((m.processor.pc.toNat + mode.operandBytes) % 65536) } }) ∧
      m.addressNumber? mode = some operand.address.toNat ∧
      operand.pageCrossed =
        (m.indexing? mode).any fun (base, index) ↦ decide (256 ≤ base % 256 + index) := by
  have hpc : UInt16.ofNat ((m.processor.pc.toNat + mode.operandBytes) % 65536) =
      m.processor.pc + UInt16.ofNat mode.operandBytes := by
    apply UInt16.toNat_inj.mp
    rw [UInt16.toNat_add, UInt16.toNat_ofNat', UInt16.toNat_ofNat']
    omega
  rw [hpc]
  exact ⟨_, operand_eq m h, addressNumber?_eq h, crossesPage_eq⟩

/-- A machine at an operand that makes the base 0xFFF0, with 0x20 in its first index register. -/
def atLastPage : Machine ConsoleBus where
  processor := { Processor.initial 0xF000 with x := 0x20 }
  bus := { cartridge := .ofImage #[0xF0, 0xFF] }

theorem operand_numbers_atLastPage :
    ∃ operand, atLastPage.operand .absoluteX = (.ok operand, { atLastPage with
        processor := { atLastPage.processor with pc := 0xF002 } }) ∧
      operand.address.toNat = 0x10 ∧ operand.pageCrossed = true := by
  have hmode : AddressingMode.absoluteX.NamesAddress := trivial
  obtain ⟨operand, hoperand, haddress, hcrossed⟩ := operand_numbers (m := atLastPage) hmode
  refine ⟨operand, hoperand, ?_, ?_⟩
  · exact Option.some.inj (haddress.symm.trans rfl)
  · exact hcrossed.trans rfl

end VideoComputer.Machine
