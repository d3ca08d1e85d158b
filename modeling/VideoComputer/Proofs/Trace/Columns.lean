import Mathlib.Algebra.Ring.Nat
import VideoComputer.Machine.Basic

/-!
# Columns of a trace line

A trace line can be read again. Every field stands in columns of its own, except that the cycle
count takes as many as it has digits, and the record is told from what stands in them: numbers by
their hexadecimal digits, the mnemonic up to a blank, the operands by the columns that are not
blank. Main statement: reading the line of a record that a machine makes gives that record back, so
that different records have different lines.
-/

namespace VideoComputer

namespace Text

/-- The value of an upper case hexadecimal digit. -/
def digit? (c : Char) : Option Nat :=
  if '0' ≤ c ∧ c ≤ '9' then some (c.toNat - '0'.toNat)
  else if 'A' ≤ c ∧ c ≤ 'F' then some (c.toNat - 'A'.toNat + 10)
  else none

/-- The number that hexadecimal digits denote, the highest digit first. -/
def hex? (chars : List Char) : Option Nat :=
  chars.foldlM (fun value c ↦ (digit? c).map (16 * value + ·)) 0

/-- The number that decimal digits denote, of which there has to be one. -/
def decimal? (chars : List Char) : Option Nat :=
  if !chars.isEmpty && chars.all Char.isDigit then some (Nat.ofDigitChars 10 chars 0) else none

theorem digit?_hexDigit {n : Nat} (h : n < 16) : digit? (hexDigit n) = some n := by
  revert n
  decide

theorem hex?_hexFixed (width n : Nat) : hex? (hexFixed width n) = some (n % 16 ^ width) := by
  induction width generalizing n with
  | zero =>
    rw [Nat.pow_zero, Nat.mod_one]
    rfl
  | succ width ih =>
    have hlow := digit?_hexDigit (Nat.mod_lt n (show 16 > 0 by decide))
    have hupper := ih (n / 16)
    rw [hex?] at hupper
    rw [hex?, hexFixed, List.foldlM_append, hupper, Nat.pow_succ', Nat.mod_mul, Nat.add_comm]
    simp [hlow]

theorem hex?_hexByte (value : Byte) : hex? (hexByte value) = some value.toNat := by
  have hvalue : value.toNat < 16 ^ 2 := value.toNat_lt
  rw [hexByte, hex?_hexFixed, Nat.mod_eq_of_lt hvalue]

theorem hex?_hexWord (value : Word) : hex? (hexWord value) = some value.toNat := by
  have hvalue : value.toNat < 16 ^ 4 := value.toNat_lt
  rw [hexWord, hex?_hexFixed, Nat.mod_eq_of_lt hvalue]

theorem decimal?_decimal (n : Nat) : decimal? (decimal n) = some n := by
  have hnonempty : (decimal n).isEmpty = false := List.isEmpty_eq_false_iff.mpr Nat.toDigits_ne_nil
  have hdigits : (decimal n).all Char.isDigit = true :=
    List.all_eq_true.mpr fun _ hc ↦ Nat.isDigit_of_mem_toDigits (by decide) (by decide) hc
  rw [decimal?, hnonempty, hdigits, decimal, Nat.ofDigitChars_ten_toDigits]
  rfl

end Text

theorem Operation.letters_mnemonic (operation : Operation) :
    operation.mnemonic.toList.length = 3 ∧ ' ' ∉ operation.mnemonic.toList := by
  cases operation <;> decide

theorem Operation.isPlain_mnemonic (operation : Operation) :
    operation.mnemonic.toList.all Text.isPlain := by
  cases operation <;> decide

theorem AddressingMode.operandBytes_le (mode : AddressingMode) : mode.operandBytes ≤ 2 := by
  cases mode <;> decide

/-- A mnemonic has three letters, and an instruction has two operand bytes at most. -/
theorem Instruction.widths_of_opcode (opcode : Byte) :
    (mnemonicOf opcode).toList.length = 3 ∧ ' ' ∉ (mnemonicOf opcode).toList ∧
      operandBytesOf opcode ≤ 2 := by
  rw [mnemonicOf, operandBytesOf]
  cases ofOpcode? opcode with
  | none => decide
  | some i =>
    obtain ⟨hlength, hblank⟩ := i.operation.letters_mnemonic
    exact ⟨hlength, hblank, i.mode.operandBytes_le⟩

/-- No mnemonic has a character that a quoted text escapes. -/
theorem Instruction.isPlain_mnemonicOf (opcode : Byte) :
    (mnemonicOf opcode).toList.all Text.isPlain := by
  rw [mnemonicOf]
  cases ofOpcode? opcode with
  | none => decide
  | some i => exact i.operation.isPlain_mnemonic

namespace TraceRecord

open Text

/-- A record that can be taken of a machine: the opcode decides on the mnemonic and on the number of
operand bytes. -/
structure Captured (record : TraceRecord) : Prop where
  mnemonic : record.mnemonic = Instruction.mnemonicOf record.opcode
  operands : record.operands.length = Instruction.operandBytesOf record.opcode

/-- What stands in fixed columns. -/
inductive Field where
  | pc
  | opcode
  | operand (index : Fin 2)
  | mnemonic
  | a
  | x
  | y
  | status
  | sp
deriving DecidableEq

/-- The first column of a field. -/
def Field.start : Field → Nat
  | pc => 0
  | opcode => 6
  | operand index => 9 + 3 * index
  | mnemonic => 16
  | a => 24
  | x => 29
  | y => 34
  | status => 39
  | sp => 45

/-- The number of its columns. -/
def Field.width : Field → Nat
  | pc | mnemonic => 4
  | opcode | operand _ | a | x | y | status | sp => 2

/-- The first column of the cycle count. -/
def cyclesStart : Nat := 52

/-- What stands in the columns of a field; those of an operand that there is not are blank. -/
def chars (record : TraceRecord) : Field → List Char
  | .pc => hexWord record.pc
  | .opcode => hexByte record.opcode
  | .operand index => record.operands[index.val]?.elim [' ', ' '] hexByte
  | .mnemonic => padRight 4 record.mnemonic.toList
  | .a => hexByte record.a
  | .x => hexByte record.x
  | .y => hexByte record.y
  | .status => hexByte record.status
  | .sp => hexByte record.sp

/-- The fields from left to right, and what is written in front of each. -/
def layout : List (String × Field) :=
  [("", .pc), ("  ", .opcode), (" ", .operand 0), (" ", .operand 1), ("  ", .mnemonic),
    ("  A:", .a), (" X:", .x), (" Y:", .y), (" P:", .status), (" SP:", .sp)]

/-- The record that a line was made of. -/
def parse? (text : String) : Option TraceRecord := do
  let line := text.toList
  let column (field : Field) : List Char := (line.drop field.start).take field.width
  let byte? (field : Field) : Option Byte := (hex? (column field)).map UInt8.ofNat
  let pc ← hex? (column .pc)
  let opcode ← byte? .opcode
  let a ← byte? .a
  let x ← byte? .x
  let y ← byte? .y
  let status ← byte? .status
  let sp ← byte? .sp
  let cycles ← decimal? (line.drop cyclesStart)
  return {
    pc := UInt16.ofNat pc
    opcode := opcode
    mnemonic := String.ofList ((column .mnemonic).takeWhile (· ≠ ' '))
    operands := [.operand 0, .operand 1].filterMap byte?
    a := a
    x := x
    y := y
    sp := sp
    status := status
    cycles := cycles }

variable {record other : TraceRecord}

/-! ## Columns -/

/-- Columns that some entries of the layout take. -/
def span : List (String × Field) → Nat
  | [] => 0
  | (label, field) :: entries => label.toList.length + field.width + span entries

/-- What is written in the columns of some entries. -/
def written (record : TraceRecord) (entries : List (String × Field)) : List Char :=
  entries.flatMap fun entry ↦ entry.1.toList ++ record.chars entry.2

theorem Captured.length_chars (h : record.Captured) (field : Field) :
    (record.chars field).length = field.width := by
  obtain ⟨hmnemonic, -, -⟩ := Instruction.widths_of_opcode record.opcode
  cases field with
  | pc | opcode | a | x | y | status | sp => exact length_hexFixed ..
  | operand index =>
    rw [chars]
    cases record.operands[index.val]? with
    | none => rfl
    | some operand => exact length_hexFixed ..
  | mnemonic =>
    rw [chars, length_padRight, h.mnemonic, hmnemonic]
    rfl

theorem Captured.length_written (h : record.Captured) (entries : List (String × Field)) :
    (record.written entries).length = span entries := by
  induction entries with
  | nil => rfl
  | cons entry entries ih =>
    rw [written, List.flatMap_cons, List.length_append, List.length_append, h.length_chars,
      ← written, ih, span]

/-- Opcode and operands fill their eight columns one by one. -/
theorem Captured.padRight_code (h : record.Captured) :
    padRight 8 record.code = record.chars .opcode ++ ' ' :: record.chars (.operand 0) ++
      ' ' :: record.chars (.operand 1) := by
  obtain ⟨-, -, hcount⟩ := Instruction.widths_of_opcode record.opcode
  rw [← h.operands] at hcount
  rw [code, chars, chars, chars]
  match record.operands, hcount with
  | [], _ | [_], _ | [_, _], _ => rfl

theorem Captured.line_eq (h : record.Captured) :
    record.line = record.written layout ++ " CYC:".toList ++ decimal record.cycles := by
  rw [line, h.padRight_code]
  simp [written, layout, chars]

/-- Each field has its place in the layout, and what is in front of it fills the columns before. -/
theorem Field.exists_place (field : Field) : ∃ before label after,
    layout = before ++ (label, field) :: after ∧
      span before + label.toList.length = field.start := by
  cases field with
  | pc => exact ⟨[], "", layout.drop 1, rfl, rfl⟩
  | opcode => exact ⟨layout.take 1, "  ", layout.drop 2, rfl, rfl⟩
  | operand index =>
    match index with
    | 0 => exact ⟨layout.take 2, " ", layout.drop 3, rfl, rfl⟩
    | 1 => exact ⟨layout.take 3, " ", layout.drop 4, rfl, rfl⟩
  | mnemonic => exact ⟨layout.take 4, "  ", layout.drop 5, rfl, rfl⟩
  | a => exact ⟨layout.take 5, "  A:", layout.drop 6, rfl, rfl⟩
  | x => exact ⟨layout.take 6, " X:", layout.drop 7, rfl, rfl⟩
  | y => exact ⟨layout.take 7, " Y:", layout.drop 8, rfl, rfl⟩
  | status => exact ⟨layout.take 8, " P:", layout.drop 9, rfl, rfl⟩
  | sp => exact ⟨layout.take 9, " SP:", layout.drop 10, rfl, rfl⟩

/-- A field stands in its columns. -/
theorem Captured.column_eq (h : record.Captured) (field : Field) :
    (record.line.drop field.start).take field.width = record.chars field := by
  obtain ⟨before, label, after, hlayout, hstart⟩ := field.exists_place
  have hline : record.line = (record.written before ++ label.toList) ++ (record.chars field ++
      (record.written after ++ " CYC:".toList ++ decimal record.cycles)) := by
    rw [h.line_eq, hlayout]
    simp only [written, List.flatMap_append, List.flatMap_cons, List.append_assoc]
  rw [hline, List.drop_left' (by rw [List.length_append, h.length_written, hstart]),
    List.take_left' (h.length_chars field)]

/-- The cycle count follows in the columns that are left. -/
theorem Captured.drop_cyclesStart (h : record.Captured) :
    record.line.drop cyclesStart = decimal record.cycles := by
  rw [h.line_eq]
  apply List.drop_left'
  rw [List.length_append, h.length_written]
  rfl

theorem Captured.length_line (h : record.Captured) :
    record.line.length = cyclesStart + (decimal record.cycles).length := by
  rw [h.line_eq, List.length_append, List.length_append, h.length_written]
  rfl

/-! ## Reading -/

/-- The operands are those in the columns that are not blank. -/
theorem Captured.filterMap_operands (h : record.Captured) :
    [Field.operand 0, .operand 1].filterMap
        (fun field ↦ (hex? (record.chars field)).map UInt8.ofNat) =
      record.operands := by
  have hblank : hex? [' ', ' '] = none := rfl
  obtain ⟨-, -, hcount⟩ := Instruction.widths_of_opcode record.opcode
  rw [← h.operands] at hcount
  simp only [chars]
  match record.operands, hcount with
  | [], _ => simp [hblank]
  | [first], _ => simp [hblank, hex?_hexByte]
  | [first, second], _ => simp [hex?_hexByte]

theorem Captured.takeWhile_mnemonic (h : record.Captured) :
    (record.chars .mnemonic).takeWhile (· ≠ ' ') = record.mnemonic.toList := by
  obtain ⟨hlength, hblank, -⟩ := Instruction.widths_of_opcode record.opcode
  rw [← h.mnemonic] at hlength hblank
  have hletters : ∀ c ∈ record.mnemonic.toList, decide (c ≠ ' ') = true :=
    fun c hc ↦ decide_eq_true (ne_of_mem_of_not_mem hc hblank)
  rw [chars, padRight, hlength, List.takeWhile_append_of_pos hletters]
  exact List.append_nil _

/-- A described record shows its mnemonic letter by letter between quotes. -/
theorem Captured.toList_quote_mnemonic (h : record.Captured) :
    (quote record.mnemonic).toList = '"' :: record.mnemonic.toList ++ ['"'] := by
  rw [h.mnemonic]
  exact toList_quote_of_isPlain (Instruction.isPlain_mnemonicOf record.opcode)

/-- What is written can be read again. -/
theorem Captured.parse?_text (h : record.Captured) : parse? record.text = some record := by
  rw [parse?, text, String.toList_ofList]
  simp only [h.column_eq, h.drop_cyclesStart, h.takeWhile_mnemonic, h.filterMap_operands]
  simp [chars, hex?_hexWord, hex?_hexByte, decimal?_decimal]

end TraceRecord

theorem Machine.captured_traceRecord {B : Type} [Bus B] (m : Machine B) :
    m.traceRecord.Captured where
  mnemonic := rfl
  operands := Bus.length_readMany ..

/-- **A trace line tells its record.** Every record that a machine makes has its fields in the same
columns, with as many more as its cycle count has digits, and is read again from them; records of
which the lines agree are equal. -/
theorem TraceRecord.lines_decodable :
    (∀ (B : Type) [Bus B] (m : Machine B), m.traceRecord.Captured) ∧
    (∀ record : TraceRecord, record.Captured →
      parse? record.text = some record ∧
      (∀ field : Field, (record.line.drop field.start).take field.width = record.chars field) ∧
      record.line.drop cyclesStart = Text.decimal record.cycles ∧
      record.line.length = cyclesStart + (Text.decimal record.cycles).length) ∧
    ∀ record other : TraceRecord, record.Captured → other.Captured → record.text = other.text →
      record = other := by
  refine ⟨fun B _ m ↦ m.captured_traceRecord, fun record h ↦ ?_,
    fun record other h hother htext ↦ ?_⟩
  · exact ⟨h.parse?_text, h.column_eq, h.drop_cyclesStart, h.length_line⟩
  · have hrecord := h.parse?_text
    rw [htext, hother.parse?_text] at hrecord
    exact (Option.some.inj hrecord).symm

/-- What is traced before a load. -/
def TraceRecord.beforeLoad : TraceRecord where
  pc := 0xF000
  opcode := 0xA9
  mnemonic := "LDA"
  operands := [0x01]
  a := 0x00
  x := 0x00
  y := 0x00
  sp := 0xFF
  status := 0x24
  cycles := 0

/-- The line of a load is read again, and its record is told from one with another operand. -/
theorem TraceRecord.lines_decodable_beforeLoad :
    parse? "F000  A9 01     LDA   A:00 X:00 Y:00 P:24 SP:FF CYC:0" = some beforeLoad ∧
      beforeLoad.line.length = 53 ∧
      beforeLoad.text ≠ { beforeLoad with operands := [0x10] }.text := by
  obtain ⟨-, hlines, hinjective⟩ := lines_decodable
  have hcaptured : beforeLoad.Captured := ⟨rfl, rfl⟩
  have hother : { beforeLoad with operands := [0x10] }.Captured := ⟨rfl, rfl⟩
  have htext : beforeLoad.text = "F000  A9 01     LDA   A:00 X:00 Y:00 P:24 SP:FF CYC:0" := rfl
  obtain ⟨hparse, -, -, hlength⟩ := hlines beforeLoad hcaptured
  rw [htext] at hparse
  refine ⟨hparse, hlength, fun heq ↦ ?_⟩
  cases congrArg operands (hinjective _ _ hcaptured hother heq)

end VideoComputer
