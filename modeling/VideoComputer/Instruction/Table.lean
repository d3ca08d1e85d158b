import VideoComputer.Instruction.AddressingMode
import VideoComputer.Instruction.Operation

/-!
# Instruction table

The documented instructions, sixteen opcodes to a row. A gap in the table is an opcode that the
instruction set does not document.
-/

namespace VideoComputer

structure Instruction where
  operation : Operation
  mode : AddressingMode
  /-- Cycles without those for a crossed page or a taken branch. -/
  baseCycles : Nat
deriving DecidableEq

namespace Instruction

abbrev op (operation : Operation) (mode : AddressingMode) (baseCycles : Nat) :
    Option Instruction := some ⟨operation, mode, baseCycles⟩

def table : Vector (Vector (Option Instruction) 16) 16 := #v[
  -- 00 to 0F
  #v[op .brk .implicit 7,    op .ora .indirectX 6,   none,                   none,
     none,                   op .ora .zeroPage 3,    op .asl .zeroPage 5,    none,
     op .php .implicit 3,    op .ora .immediate 2,   op .asl .accumulator 2, none,
     none,                   op .ora .absolute 4,    op .asl .absolute 6,    none],
  -- 10 to 1F
  #v[op .bpl .relative 2,    op .ora .indirectY 5,   none,                   none,
     none,                   op .ora .zeroPageX 4,   op .asl .zeroPageX 6,   none,
     op .clc .implicit 2,    op .ora .absoluteY 4,   none,                   none,
     none,                   op .ora .absoluteX 4,   op .asl .absoluteX 7,   none],
  -- 20 to 2F
  #v[op .jsr .absolute 6,    op .and .indirectX 6,   none,                   none,
     op .bit .zeroPage 3,    op .and .zeroPage 3,    op .rol .zeroPage 5,    none,
     op .plp .implicit 4,    op .and .immediate 2,   op .rol .accumulator 2, none,
     op .bit .absolute 4,    op .and .absolute 4,    op .rol .absolute 6,    none],
  -- 30 to 3F
  #v[op .bmi .relative 2,    op .and .indirectY 5,   none,                   none,
     none,                   op .and .zeroPageX 4,   op .rol .zeroPageX 6,   none,
     op .sec .implicit 2,    op .and .absoluteY 4,   none,                   none,
     none,                   op .and .absoluteX 4,   op .rol .absoluteX 7,   none],
  -- 40 to 4F
  #v[op .rti .implicit 6,    op .eor .indirectX 6,   none,                   none,
     none,                   op .eor .zeroPage 3,    op .lsr .zeroPage 5,    none,
     op .pha .implicit 3,    op .eor .immediate 2,   op .lsr .accumulator 2, none,
     op .jmp .absolute 3,    op .eor .absolute 4,    op .lsr .absolute 6,    none],
  -- 50 to 5F
  #v[op .bvc .relative 2,    op .eor .indirectY 5,   none,                   none,
     none,                   op .eor .zeroPageX 4,   op .lsr .zeroPageX 6,   none,
     op .cli .implicit 2,    op .eor .absoluteY 4,   none,                   none,
     none,                   op .eor .absoluteX 4,   op .lsr .absoluteX 7,   none],
  -- 60 to 6F
  #v[op .rts .implicit 6,    op .adc .indirectX 6,   none,                   none,
     none,                   op .adc .zeroPage 3,    op .ror .zeroPage 5,    none,
     op .pla .implicit 4,    op .adc .immediate 2,   op .ror .accumulator 2, none,
     op .jmp .indirect 5,    op .adc .absolute 4,    op .ror .absolute 6,    none],
  -- 70 to 7F
  #v[op .bvs .relative 2,    op .adc .indirectY 5,   none,                   none,
     none,                   op .adc .zeroPageX 4,   op .ror .zeroPageX 6,   none,
     op .sei .implicit 2,    op .adc .absoluteY 4,   none,                   none,
     none,                   op .adc .absoluteX 4,   op .ror .absoluteX 7,   none],
  -- 80 to 8F
  #v[none,                   op .sta .indirectX 6,   none,                   none,
     op .sty .zeroPage 3,    op .sta .zeroPage 3,    op .stx .zeroPage 3,    none,
     op .dey .implicit 2,    none,                   op .txa .implicit 2,    none,
     op .sty .absolute 4,    op .sta .absolute 4,    op .stx .absolute 4,    none],
  -- 90 to 9F
  #v[op .bcc .relative 2,    op .sta .indirectY 6,   none,                   none,
     op .sty .zeroPageX 4,   op .sta .zeroPageX 4,   op .stx .zeroPageY 4,   none,
     op .tya .implicit 2,    op .sta .absoluteY 5,   op .txs .implicit 2,    none,
     none,                   op .sta .absoluteX 5,   none,                   none],
  -- A0 to AF
  #v[op .ldy .immediate 2,   op .lda .indirectX 6,   op .ldx .immediate 2,   none,
     op .ldy .zeroPage 3,    op .lda .zeroPage 3,    op .ldx .zeroPage 3,    none,
     op .tay .implicit 2,    op .lda .immediate 2,   op .tax .implicit 2,    none,
     op .ldy .absolute 4,    op .lda .absolute 4,    op .ldx .absolute 4,    none],
  -- B0 to BF
  #v[op .bcs .relative 2,    op .lda .indirectY 5,   none,                   none,
     op .ldy .zeroPageX 4,   op .lda .zeroPageX 4,   op .ldx .zeroPageY 4,   none,
     op .clv .implicit 2,    op .lda .absoluteY 4,   op .tsx .implicit 2,    none,
     op .ldy .absoluteX 4,   op .lda .absoluteX 4,   op .ldx .absoluteY 4,   none],
  -- C0 to CF
  #v[op .cpy .immediate 2,   op .cmp .indirectX 6,   none,                   none,
     op .cpy .zeroPage 3,    op .cmp .zeroPage 3,    op .dec .zeroPage 5,    none,
     op .iny .implicit 2,    op .cmp .immediate 2,   op .dex .implicit 2,    none,
     op .cpy .absolute 4,    op .cmp .absolute 4,    op .dec .absolute 6,    none],
  -- D0 to DF
  #v[op .bne .relative 2,    op .cmp .indirectY 5,   none,                   none,
     none,                   op .cmp .zeroPageX 4,   op .dec .zeroPageX 6,   none,
     op .cld .implicit 2,    op .cmp .absoluteY 4,   none,                   none,
     none,                   op .cmp .absoluteX 4,   op .dec .absoluteX 7,   none],
  -- E0 to EF
  #v[op .cpx .immediate 2,   op .sbc .indirectX 6,   none,                   none,
     op .cpx .zeroPage 3,    op .sbc .zeroPage 3,    op .inc .zeroPage 5,    none,
     op .inx .implicit 2,    op .sbc .immediate 2,   op .nop .implicit 2,    none,
     op .cpx .absolute 4,    op .sbc .absolute 4,    op .inc .absolute 6,    none],
  -- F0 to FF
  #v[op .beq .relative 2,    op .sbc .indirectY 5,   none,                   none,
     none,                   op .sbc .zeroPageX 4,   op .inc .zeroPageX 6,   none,
     op .sed .implicit 2,    op .sbc .absoluteY 4,   none,                   none,
     none,                   op .sbc .absoluteX 4,   op .inc .absoluteX 7,   none]
]

/-- The instruction that an opcode stands for, if it is documented. -/
def ofOpcode? (opcode : Byte) : Option Instruction :=
  (table.get opcode.highDigit).get opcode.lowDigit

def mnemonic (instruction : Instruction) : String := instruction.operation.mnemonic

/-- Bytes from the opcode to the end of the operand. -/
def size (instruction : Instruction) : Nat := 1 + instruction.mode.operandBytes

/-- The mnemonic of an opcode, question marks for an undocumented one. -/
def mnemonicOf (opcode : Byte) : String := (ofOpcode? opcode).elim "???" mnemonic

/-- Bytes that follow an opcode, none for an undocumented one. -/
def operandBytesOf (opcode : Byte) : Nat :=
  (ofOpcode? opcode).elim 0 fun instruction ↦ instruction.mode.operandBytes

/-- What holds of the table's entries one by one holds of every documented instruction. -/
theorem forall_documented {P : Instruction → Prop}
    (h : ∀ n < 256, ∀ i ∈ ofOpcode? (UInt8.ofNat n), P i) {opcode : Byte} {i : Instruction}
    (hdecode : ofOpcode? opcode = some i) : P i := by
  have hall : ∀ opcode, ∀ i ∈ ofOpcode? opcode, P i := Byte.forall_of_lt h
  exact hall opcode i hdecode

/-- No instruction is free. -/
theorem two_le_baseCycles {opcode : Byte} {i : Instruction} (h : ofOpcode? opcode = some i) :
    2 ≤ i.baseCycles := by
  have htable : ∀ n < 256, ∀ i ∈ ofOpcode? (UInt8.ofNat n), 2 ≤ i.baseCycles := by
    decide +kernel
  exact forall_documented htable h

end Instruction

end VideoComputer
