import VideoComputer.Machine.Execute
import VideoComputer.Proofs.Processor.Changes

/-!
# Footprints

Which registers and flags a change of the machine may touch and which writes it makes. The relation
`Within` composes, so that an action is within what its parts are within.
-/

namespace VideoComputer

/-- Registers and flags that may change, and all the writes to the bus. -/
structure Footprint where
  registers : List Register := []
  flags : List Flag := []
  writes : List (Word × Byte) := []

instance : Append Footprint where
  append first second :=
    ⟨first.registers ++ second.registers, first.flags ++ second.flags,
      first.writes ++ second.writes⟩

namespace Footprint

@[simp] theorem registers_append (first second : Footprint) :
    (first ++ second).registers = first.registers ++ second.registers := rfl

@[simp] theorem flags_append (first second : Footprint) :
    (first ++ second).flags = first.flags ++ second.flags := rfl

@[simp] theorem writes_append (first second : Footprint) :
    (first ++ second).writes = first.writes ++ second.writes := rfl

end Footprint

/-- The cell of page one that a stack pointer selects. -/
def stackCell (sp : Byte) : Word := 0x0100 + sp.toUInt16

theorem Processor.stackAddress_eq (p : Processor) : p.stackAddress = stackCell p.sp := by
  have hsp := p.sp.toNat_lt
  have h256 : UInt16.toNat 0x0100 = 256 := rfl
  apply UInt16.toNat_inj.mp
  rw [stackAddress, stackCell, Word.toNat_join, UInt16.toNat_add, UInt8.toNat_toUInt16, h256]
  change 1 * 256 + p.sp.toNat = _
  omega

/-- A pushed status is the status with bits 4 and 5 set. -/
theorem Flags.pushed_eq (flags : Flags) : flags.pushed = flags.pack ||| 0x30 := by
  obtain ⟨n, v, b, d, i, z, c⟩ := flags
  cases n <;> cases v <;> cases b <;> cases d <;> cases i <;> cases z <;> cases c <;> rfl

/-- The two writes that leave a word on the stack, the high byte first. -/
def wordWrites (sp : Byte) (value : Word) : List (Word × Byte) :=
  [(stackCell sp, value.high), (stackCell (sp - 1), value.low)]

namespace Machine

variable {B : Type} [Bus B]

/-- Makes writes in order. -/
def writeEach (m : Machine B) : List (Word × Byte) → Machine B
  | [] => m
  | (address, value) :: rest => (m.write address value).writeEach rest

/-- The second machine comes from the first one by the writes of the footprint, and by changes to
its registers and flags, the program counter and the count of cycles. -/
structure Within (m : Machine B) (footprint : Footprint) (m' : Machine B) : Prop where
  processor : m.processor.ChangesOnly footprint.registers footprint.flags m'.processor
  outside : { m' with processor := m.processor } = m.writeEach footprint.writes

variable {m m₁ m₂ : Machine B} {first second : Footprint}

theorem writeEach_append (m : Machine B) (first second : List (Word × Byte)) :
    m.writeEach (first ++ second) = (m.writeEach first).writeEach second := by
  induction first generalizing m with
  | nil => rfl
  | cons entry first ih =>
    obtain ⟨address, value⟩ := entry
    exact ih (m.write address value)

/-- Writes do not look at the processor. -/
theorem writeEach_with_processor (m : Machine B) (p : Processor) (writes : List (Word × Byte)) :
    { m with processor := p }.writeEach writes = { m.writeEach writes with processor := p } := by
  induction writes generalizing m with
  | nil => rfl
  | cons entry writes ih =>
    obtain ⟨address, value⟩ := entry
    exact ih (m.write address value)

namespace Within

theorem trans (hfirst : m.Within first m₁) (hsecond : m₁.Within second m₂) :
    m.Within (first ++ second) m₂ where
  processor := hfirst.processor.trans hsecond.processor
  outside := by
    rw [Footprint.writes_append, writeEach_append, ← hfirst.outside, writeEach_with_processor,
      ← hsecond.outside]

/-- More registers and flags may always be allowed to change, but the writes are what they are. -/
theorem mono (h : m.Within first m₁) (hregisters : first.registers ⊆ second.registers)
    (hflags : first.flags ⊆ second.flags) (hwrites : first.writes = second.writes) :
    m.Within second m₁ where
  processor := h.processor.mono hregisters hflags
  outside := hwrites ▸ h.outside

/-- A change to the processor alone. -/
theorem mapProcessor {f : Processor → Processor} {registers : List Register} {flags : List Flag}
    (h : m.processor.ChangesOnly registers flags (f m.processor)) :
    m.Within { registers := registers, flags := flags } (m.mapProcessor f) :=
  ⟨h, rfl⟩

theorem jump (target : Word) : m.Within {} (m.mapProcessor (·.jump target)) :=
  mapProcessor (m.processor.changesOnly_jump target)

theorem skip (count : Word) : m.Within {} (m.skip count) := jump (m.processor.pc + count)

theorem write (address : Word) (value : Byte) :
    m.Within { writes := [(address, value)] } (m.write address value) :=
  ⟨⟨fun _ _ ↦ rfl, fun _ _ ↦ rfl, rfl⟩, rfl⟩

theorem push (value : Byte) :
    m.Within { registers := [.sp], writes := [(stackCell m.processor.sp, value)] }
      (m.push value) := by
  have hmove : (m.write m.processor.stackAddress value).Within { registers := [.sp] }
      (m.push value) :=
    mapProcessor (m.processor.changesOnly_set .sp (m.processor.sp - 1))
  rw [← Processor.stackAddress_eq]
  exact (write _ value).trans hmove

theorem pull : m.Within { registers := [.sp] } m.pull.2 := by
  have hmove : m.Within { registers := [.sp] }
      (m.mapProcessor fun p ↦ p.set .sp (p.sp + 1)) :=
    mapProcessor (m.processor.changesOnly_set .sp (m.processor.sp + 1))
  exact hmove

theorem pushWord (value : Word) :
    m.Within { registers := [.sp], writes := wordWrites m.processor.sp value }
      (m.pushWord value) :=
  ((push value.high).trans (push value.low)).mono (by simp) (by simp) rfl

theorem pullWord : m.Within { registers := [.sp] } m.pullWord.2 :=
  (pull.trans pull).mono (by simp) (by simp) rfl

/-- A jump at the end adds nothing. -/
theorem thenJump (h : m.Within first m₁) (target : Word) :
    m.Within first (m₁.mapProcessor (·.jump target)) :=
  (h.trans (jump target)).mono (by simp) (by simp) (List.append_nil _)

end Within

end Machine

end VideoComputer
