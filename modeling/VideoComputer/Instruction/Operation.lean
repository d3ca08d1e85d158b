import VideoComputer.Processor.Arithmetic

/-!
# Operations

The fifty-six operations of the instruction set by mnemonic, and the action that each of them is.
Few kinds of action exist: most operations differ only in the register, the flag or the
arithmetic.
-/

namespace VideoComputer

/-- Two-operand arithmetic and logic into the accumulator. -/
inductive Combination where
  | add
  | subtract
  | conjunction
  | disjunction
  | difference
deriving DecidableEq

def Processor.combine (p : Processor) (combination : Combination) (value : Byte) : Processor :=
  match combination with
  | .add => p.add value
  | .subtract => p.subtract value
  | .conjunction => p.load .a (p.a &&& value)
  | .disjunction => p.load .a (p.a ||| value)
  | .difference => p.load .a (p.a ^^^ value)

inductive Action where
  | load (target : Register)
  | store (source : Register)
  | combine (combination : Combination)
  | compare (register : Register)
  | testBits
  /-- Change a byte in place, in memory or in the accumulator. -/
  | modifyOperand (change : Modification)
  | modifyRegister (target : Register) (change : Modification)
  | transfer (source target : Register)
  | setFlag (flag : Flag) (value : Bool)
  /-- Move by a signed offset when the flag has the value. -/
  | branch (flag : Flag) (value : Bool)
  | jump
  /-- Jump, leaving the address of the last operand byte on the stack. -/
  | call
  /-- Go on after the address on the stack. -/
  | returnFromCall
  /-- Save address and status on the stack and go where the interrupt vector points. -/
  | interrupt
  /-- Restore status and address from the stack. -/
  | returnFromInterrupt
  | pushAccumulator
  | pullAccumulator
  | pushStatus
  | pullStatus
  | idle
deriving DecidableEq

inductive Operation where
  | adc | and | asl | bcc | bcs | beq | bit | bmi | bne | bpl | brk | bvc | bvs | clc | cld | cli
  | clv | cmp | cpx | cpy | dec | dex | dey | eor | inc | inx | iny | jmp | jsr | lda | ldx | ldy
  | lsr | nop | ora | pha | php | pla | plp | rol | ror | rti | rts | sbc | sec | sed | sei | sta
  | stx | sty | tax | tay | tsx | txa | txs | tya
deriving DecidableEq

namespace Operation

def mnemonic : Operation → String
  | adc => "ADC"
  | and => "AND"
  | asl => "ASL"
  | bcc => "BCC"
  | bcs => "BCS"
  | beq => "BEQ"
  | bit => "BIT"
  | bmi => "BMI"
  | bne => "BNE"
  | bpl => "BPL"
  | brk => "BRK"
  | bvc => "BVC"
  | bvs => "BVS"
  | clc => "CLC"
  | cld => "CLD"
  | cli => "CLI"
  | clv => "CLV"
  | cmp => "CMP"
  | cpx => "CPX"
  | cpy => "CPY"
  | dec => "DEC"
  | dex => "DEX"
  | dey => "DEY"
  | eor => "EOR"
  | inc => "INC"
  | inx => "INX"
  | iny => "INY"
  | jmp => "JMP"
  | jsr => "JSR"
  | lda => "LDA"
  | ldx => "LDX"
  | ldy => "LDY"
  | lsr => "LSR"
  | nop => "NOP"
  | ora => "ORA"
  | pha => "PHA"
  | php => "PHP"
  | pla => "PLA"
  | plp => "PLP"
  | rol => "ROL"
  | ror => "ROR"
  | rti => "RTI"
  | rts => "RTS"
  | sbc => "SBC"
  | sec => "SEC"
  | sed => "SED"
  | sei => "SEI"
  | sta => "STA"
  | stx => "STX"
  | sty => "STY"
  | tax => "TAX"
  | tay => "TAY"
  | tsx => "TSX"
  | txa => "TXA"
  | txs => "TXS"
  | tya => "TYA"

def action : Operation → Action
  | adc => .combine .add
  | and => .combine .conjunction
  | asl => .modifyOperand .shiftLeft
  | bcc => .branch .carry false
  | bcs => .branch .carry true
  | beq => .branch .zero true
  | bit => .testBits
  | bmi => .branch .negative true
  | bne => .branch .zero false
  | bpl => .branch .negative false
  | brk => .interrupt
  | bvc => .branch .overflow false
  | bvs => .branch .overflow true
  | clc => .setFlag .carry false
  | cld => .setFlag .decimal false
  | cli => .setFlag .interrupt false
  | clv => .setFlag .overflow false
  | cmp => .compare .a
  | cpx => .compare .x
  | cpy => .compare .y
  | dec => .modifyOperand .decrement
  | dex => .modifyRegister .x .decrement
  | dey => .modifyRegister .y .decrement
  | eor => .combine .difference
  | inc => .modifyOperand .increment
  | inx => .modifyRegister .x .increment
  | iny => .modifyRegister .y .increment
  | jmp => .jump
  | jsr => .call
  | lda => .load .a
  | ldx => .load .x
  | ldy => .load .y
  | lsr => .modifyOperand .shiftRight
  | nop => .idle
  | ora => .combine .disjunction
  | pha => .pushAccumulator
  | php => .pushStatus
  | pla => .pullAccumulator
  | plp => .pullStatus
  | rol => .modifyOperand .rotateLeft
  | ror => .modifyOperand .rotateRight
  | rti => .returnFromInterrupt
  | rts => .returnFromCall
  | sbc => .combine .subtract
  | sec => .setFlag .carry true
  | sed => .setFlag .decimal true
  | sei => .setFlag .interrupt true
  | sta => .store .a
  | stx => .store .x
  | sty => .store .y
  | tax => .transfer .a .x
  | tay => .transfer .a .y
  | tsx => .transfer .sp .x
  | txa => .transfer .x .a
  | txs => .transfer .x .sp
  | tya => .transfer .y .a

end Operation

end VideoComputer
