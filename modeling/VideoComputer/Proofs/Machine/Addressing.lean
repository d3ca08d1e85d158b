import VideoComputer.Machine.Operand

/-!
# Arithmetic of addresses

Where an operand lies, said by arithmetic on the bytes behind the opcode and the index registers,
without the machine's own way of fetching them. Main statement: in every mode that names an address
the machine finds this one, notes a crossed page exactly when the low byte and the index overflow,
and has moved past the operand bytes and changed nothing else.
-/

namespace VideoComputer

/-- A byte as a number in two's complement. -/
def Byte.signed (value : Byte) : Int :=
  if 128 ≤ value.toNat then (value.toNat : Int) - 256 else value.toNat

namespace Word

theorem join_zero (low : Byte) : join low 0 = low.toUInt16 := by
  apply UInt16.toNat_inj.mp
  rw [toNat_join, UInt8.toNat_toUInt16]
  exact Nat.zero_add _

theorem add_one_add_ofNat (w : Word) (count : Nat) :
    w + 1 + UInt16.ofNat count = w + UInt16.ofNat (count + 1) := by
  rw [UInt16.ofNat_add, UInt16.add_assoc, UInt16.add_comm 1]
  rfl

/-- Indexing leaves a page if the low byte and the index do not fit a byte together. -/
theorem page_add_ne_iff (base : Word) (index : Byte) :
    base.page ≠ (base + index.toUInt16).page ↔ 256 ≤ base.low.toNat + index.toNat := by
  have hbase := base.toNat_lt
  have hindex := index.toNat_lt
  rw [Ne, ← UInt8.toNat_inj, toNat_high, toNat_high, toNat_low, UInt16.toNat_add,
    UInt8.toNat_toUInt16]
  omega

/-- A displaced address is that many bytes away, the last one being followed by the first. -/
theorem toNat_displace (w : Word) (offset : Byte) :
    ((w.displace offset).toNat : Int) = (w.toNat + offset.signed) % 65536 := by
  have hw := w.toNat_lt
  have hoffset := offset.toNat_lt
  simp only [displace, Byte.isNegative, Byte.signed, decide_eq_true_eq]
  split
  · have h256 : UInt16.toNat 256 = 256 := rfl
    rw [UInt16.toNat_sub, UInt16.toNat_add, UInt8.toNat_toUInt16, h256]
    omega
  · rw [UInt16.toNat_add, UInt8.toNat_toUInt16]
    omega

/-- Whether the target of a branch lies on another page than the instruction behind it. -/
def leavesPage (next : Word) (offset : Byte) : Bool :=
  decide ((next.toNat + offset.signed) % 65536 / 256 ≠ next.toNat / 256)

theorem leavesPage_iff (next : Word) (offset : Byte) :
    next.leavesPage offset = true ↔ next.page ≠ (next.displace offset).page := by
  have htarget := toNat_displace next offset
  rw [leavesPage, decide_eq_true_iff, Ne, Ne, ← UInt8.toNat_inj, toNat_high, toNat_high]
  omega

end Word

/-- The modes whose operand lies somewhere. -/
def AddressingMode.NamesAddress : AddressingMode → Prop
  | implicit | accumulator | relative => False
  | immediate | zeroPage | zeroPageX | zeroPageY | absolute | absoluteX | absoluteY | indirect
  | indirectX | indirectY => True

instance : DecidablePred AddressingMode.NamesAddress
  | .implicit | .accumulator | .relative => isFalse id
  | .immediate | .zeroPage | .zeroPageX | .zeroPageY | .absolute | .absoluteX | .absoluteY
  | .indirect | .indirectX | .indirectY => isTrue trivial

namespace Machine

variable {B : Type} [Bus B]

/-- The word that starts at an address. -/
def wordAt (m : Machine B) (address : Word) : Word :=
  .join (m.read address) (m.read (address + 1))

/-- The word that starts at an offset of page zero and does not leave it. -/
def pageZeroWord (m : Machine B) (offset : Byte) : Word :=
  .join (m.read offset.toUInt16) (m.read (offset + 1).toUInt16)

/-- The address of an operand whose bytes begin at `start`; without a meaning in the modes that name
none. -/
def effectiveAddress (m : Machine B) (start : Word) : AddressingMode → Word
  | .zeroPage => (m.read start).toUInt16
  | .zeroPageX => (m.read start + m.processor.x).toUInt16
  | .zeroPageY => (m.read start + m.processor.y).toUInt16
  | .absolute => m.wordAt start
  | .absoluteX => m.wordAt start + m.processor.x.toUInt16
  | .absoluteY => m.wordAt start + m.processor.y.toUInt16
  | .indirect =>
    let pointer := m.wordAt start
    .join (m.read pointer) (m.read (.join (pointer.low + 1) pointer.high))
  | .indirectX => m.pageZeroWord (m.read start + m.processor.x)
  | .indirectY => m.pageZeroWord (m.read start) + m.processor.y.toUInt16
  | .immediate | .implicit | .accumulator | .relative => start

/-- Whether the index carries an operand over the end of its page. -/
def crossesPage (m : Machine B) (start : Word) : AddressingMode → Bool
  | .absoluteX => decide (256 ≤ (m.wordAt start).low.toNat + m.processor.x.toNat)
  | .absoluteY => decide (256 ≤ (m.wordAt start).low.toNat + m.processor.y.toNat)
  | .indirectY =>
    decide (256 ≤ (m.pageZeroWord (m.read start)).low.toNat + m.processor.y.toNat)
  | _ => false

theorem indexed_eq (base : Word) (index : Byte) :
    Operand.indexed base index =
      ⟨base + index.toUInt16, decide (256 ≤ base.low.toNat + index.toNat)⟩ := by
  have hcrossed : (base.page != (base + index.toUInt16).page) =
      decide (256 ≤ base.low.toNat + index.toNat) := by
    rw [Bool.eq_iff_iff, bne_iff_ne, decide_eq_true_iff]
    exact Word.page_add_ne_iff base index
  exact congrArg (Operand.mk _) hcrossed

omit [Bus B] in
theorem skip_skip (m : Machine B) (first second : Word) :
    (m.skip first).skip second = m.skip (first + second) := by
  simp only [skip, mapProcessor, UInt16.add_assoc]

@[simp] theorem read_skip (m : Machine B) (count address : Word) :
    (m.skip count).read address = m.read address := rfl

theorem fetchWord_eq (m : Machine B) :
    m.fetchWord = (m.wordAt m.processor.pc, m.skip 2) := by
  simp only [fetchWord, fetchByte, read_skip, skip_skip]
  rfl

theorem readWordInPage_join_zero (m : Machine B) (offset : Byte) :
    m.readWordInPage (.join offset 0) = m.pageZeroWord offset := by
  rw [readWordInPage, pageZeroWord, Word.low_join, Word.high_join, Word.join_zero, Word.join_zero]

/-- The machine finds the address that arithmetic tells, and consumes the operand's bytes. -/
theorem operand_eq (m : Machine B) {mode : AddressingMode} (h : mode.NamesAddress) :
    m.operand mode = (.ok ⟨m.effectiveAddress m.processor.pc mode,
      m.crossesPage m.processor.pc mode⟩, m.skip (UInt16.ofNat mode.operandBytes)) := by
  cases mode with
  | implicit | accumulator | relative => exact absurd h id
  | immediate => rfl
  | zeroPage => simp only [operand, fetchByte, Operand.onPageZero, Word.join_zero]; rfl
  | zeroPageX => simp only [operand, fetchByte, Operand.onPageZero, Word.join_zero]; rfl
  | zeroPageY => simp only [operand, fetchByte, Operand.onPageZero, Word.join_zero]; rfl
  | absolute => simp only [operand, fetchWord_eq]; rfl
  | absoluteX => simp only [operand, fetchWord_eq, indexed_eq]; rfl
  | absoluteY => simp only [operand, fetchWord_eq, indexed_eq]; rfl
  | indirect => simp only [operand, fetchWord_eq]; rfl
  | indirectX => simp only [operand, fetchByte, readWordInPage_join_zero]; rfl
  | indirectY => simp only [operand, fetchByte, readWordInPage_join_zero, indexed_eq]; rfl

end Machine

end VideoComputer
