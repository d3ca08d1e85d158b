import VideoComputer.Proofs.Machine.Calls
import VideoComputer.Proofs.Machine.Instructions
import VideoComputer.Proofs.Machine.Journal

/-!
# The break mark

The break mark lives in the copies of the status on the stack and never in the processor. Main
statement: whatever a processor has been through since power-on, with whatever was on its buses, its
break mark is clear unless its owner has set it by hand, and every status that it pushes has the mark
and the unused bit set beside the flags of that moment.
-/

namespace VideoComputer

namespace Flags

/-- What becomes of flags on the stack: bits 5 and 4 are set, the other six are the flags. -/
structure PushedAs (flags : Flags) (value : Byte) : Prop where
  negative : value.bit 7 = flags.negative
  overflow : value.bit 6 = flags.overflow
  unused : value.bit 5 = true
  breakMark : value.bit 4 = true
  decimal : value.bit 3 = flags.decimal
  interrupt : value.bit 2 = flags.interrupt
  zero : value.bit 1 = flags.zero
  carry : value.bit 0 = flags.carry

/-- Every packed byte has bit 5 set. -/
theorem bit_five_pack (flags : Flags) : flags.pack.bit 5 = true := by
  obtain ⟨n, v, b, d, i, z, c⟩ := flags
  cases n <;> cases v <;> cases b <;> cases d <;> cases i <;> cases z <;> cases c <;> rfl

theorem pushedAs (flags : Flags) : flags.PushedAs (flags.pack ||| 0x30) := by
  have hunpacked : unpack (flags.pack ||| 0x30) = flags.set .breakMark true := by
    rw [← pushed_eq, pushed, unpack_pack]
  have hunused : (flags.pack ||| 0x30).bit 5 = true := by
    rw [← pushed_eq, pushed, bit_five_pack]
  exact {
    negative := congrArg Flags.negative hunpacked
    overflow := congrArg Flags.overflow hunpacked
    unused := hunused
    breakMark := congrArg Flags.breakMark hunpacked
    decimal := congrArg Flags.decimal hunpacked
    interrupt := congrArg Flags.interrupt hunpacked
    zero := congrArg Flags.zero hunpacked
    carry := congrArg Flags.carry hunpacked }

theorem pack_and_marks (flags : Flags) :
    flags.pack &&& 0x30 = if flags.breakMark then 0x30 else 0x20 := by
  obtain ⟨n, v, b, d, i, z, c⟩ := flags
  cases n <;> cases v <;> cases b <;> cases d <;> cases i <;> cases z <;> cases c <;> rfl

end Flags

/-- Setters that have no say in the break mark. -/
def Setter.SparesBreakMark : Setter → Prop
  | register .. | programCounter _ => True
  | status _ => False
  | flag changed _ => changed ≠ .breakMark

/-- The processors that can be met after power-on. Each call may come with a bus of its own, in any
state, and with any tracer. -/
inductive Processor.Reached : Processor → Prop where
  | powerOn : Reached (.initial 0)
  | step {B : Type} [Bus B] (m : Machine B) (h : Reached m.processor) : Reached m.step.2.processor
  | run {B : Type} [Bus B] (m : Machine B) (budget : Nat) (h : Reached m.processor) :
    Reached (m.runForCycles budget).2.processor
  | reset {B : Type} [Bus B] (m : Machine B) (h : Reached m.processor) : Reached m.reset.processor
  | set (p : Processor) (setter : Setter) (h : Reached p) (hspares : setter.SparesBreakMark) :
    Reached (p.apply setter)

variable {B : Type} [Bus B] {m : Machine B} {p : Processor}

@[simp] theorem Footprint.flags_inPlace (m : Machine B) (start : Word) (mode : AddressingMode)
    (flags : List Flag) (change : Modification) :
    (inPlace m start mode flags change).flags = flags := by
  unfold inPlace
  split <;> rfl

/-- Only the instructions that pull a status touch the break mark. -/
theorem Operation.breakMark_notMem_footprint {start : Word} {mode : AddressingMode}
    {operation : Operation} (h : ¬(operation = .plp ∨ operation = .rti)) :
    Flag.breakMark ∉ (operation.footprint m start mode).flags := by
  cases operation with
  | plp => exact absurd (.inl rfl) h
  | rti => exact absurd (.inr rfl) h
  | _ => simp [footprint]

namespace Machine

/-- A pulled status comes without its mark, and no other instruction sets the mark. -/
theorem breakMark_step (h : m.processor.flags.breakMark = false) :
    m.step.2.processor.flags.breakMark = false := by
  obtain ⟨-, hstep⟩ | ⟨-, -, hstep⟩ | ⟨hrunning, i, hdecode, -⟩ := m.step_cases
  · rw [hstep]
    exact h
  · rw [hstep]
    change m.fetched.processor.flags.breakMark = false
    rw [processor_fetched]
    exact h
  · -- The flags come from the stack, or the mark is outside of what the instruction may change.
    by_cases hpulls : i.operation = .plp ∨ i.operation = .rti
    · rw [flags_step_pulled hrunning hdecode hpulls]
    · obtain ⟨cycles, next, hstep, hwithin⟩ := step_within hrunning hdecode
      have hkept := hwithin.processor.flag .breakMark (Operation.breakMark_notMem_footprint hpulls)
      rw [processor_trace] at hkept
      rw [hstep]
      exact hkept.trans h

theorem breakMark_after (h : m.processor.flags.breakMark = false) (count : Nat) :
    (m.after count).processor.flags.breakMark = false := by
  induction count with
  | zero => exact h
  | succ count ih =>
    rw [after_succ]
    exact breakMark_step ih

/-- What the coming step writes is told by its operation. -/
theorem exists_bus_step_eq {operation : Operation} (h : m.nextOperation? = some operation) :
    ∃ mode, m.step.2.bus =
      (m.writeEach (operation.footprint m (m.processor.pc + 1) mode).writes).bus := by
  obtain ⟨hrunning, i, hdecode, rfl⟩ := exists_of_nextOperation? h
  refine ⟨i.mode, ?_⟩
  rw [bus_step, stepWrites, hrunning, hdecode]

end Machine

namespace Processor

theorem breakMark_apply {setter : Setter} (hspares : setter.SparesBreakMark) :
    (p.apply setter).flags.breakMark = p.flags.breakMark := by
  cases setter with
  | register register value => cases register <;> rfl
  | programCounter address => rfl
  | status value => exact absurd hspares id
  | flag changed value =>
    cases changed with
    | breakMark => exact absurd rfl hspares
    | _ => rfl

theorem Reached.after (h : m.processor.Reached) (count : Nat) :
    (m.after count).processor.Reached := by
  induction count with
  | zero => exact h
  | succ count ih =>
    rw [Machine.after_succ]
    exact .step (m.after count) ih

theorem Reached.breakMark (h : p.Reached) : p.flags.breakMark = false := by
  induction h with
  | powerOn => rfl
  | step m _ ih => exact Machine.breakMark_step ih
  | run m budget _ ih =>
    rw [(m.runForCycles_course budget).eq_after]
    exact Machine.breakMark_after ih _
  | reset m => rfl
  | set p setter _ hspares ih => rw [breakMark_apply hspares, ih]

end Processor

/-- **The break mark is never live.** A processor that has been driven, reset and set by hand from
power-on on, except in its whole status or its break mark, has no break mark whatever its buses held,
so that its status shows bit 5 and not bit 4. A status that any processor pushes has both bits set
and otherwise shows the flags that it had before the step. -/
theorem breakMark_never_live :
    (∀ p : Processor, p.Reached → p.flags.breakMark = false ∧ p.status &&& 0x30 = 0x20) ∧
    ∀ (B : Type) [Bus B] (m : Machine B),
      (m.nextOperation? = some .php → ∃ value, m.processor.flags.PushedAs value ∧
        m.step.2.bus = (m.writeEach [(stackCell m.processor.sp, value)]).bus) ∧
      (m.nextOperation? = some .brk → ∃ value, m.processor.flags.PushedAs value ∧
        m.step.2.bus = (m.writeEach (wordWrites m.processor.sp (m.processor.pc + 2) ++
          [(stackCell (m.processor.sp - 2), value)])).bus) := by
  refine ⟨fun p hp ↦ ⟨hp.breakMark, ?_⟩, fun B _ m ↦ ⟨fun h ↦ ?_, fun h ↦ ?_⟩⟩
  · rw [Processor.status, Flags.pack_and_marks, hp.breakMark]
    rfl
  · obtain ⟨mode, hbus⟩ := Machine.exists_bus_step_eq h
    exact ⟨_, m.processor.flags.pushedAs, hbus⟩
  · obtain ⟨mode, hbus⟩ := Machine.exists_bus_step_eq h
    rw [Word.add_two]
    exact ⟨_, m.processor.flags.pushedAs, hbus⟩

/-- A machine that pulls a status with all bits set, pushes its own and is interrupted. -/
def atPulledStatus : Machine ConsoleBus where
  processor := .initial 0xF000
  bus := { cartridge := .ofImage #[0xA9, 0xFF, 0x48, 0x28, 0x08, 0x00] }

/-- The pulled status sets all flags but the break mark, and that is what both pushes start from. -/
theorem breakMark_never_live_pulled :
    (atPulledStatus.after 3).processor.Reached ∧
    (atPulledStatus.after 3).processor.status = 0xEF ∧
    (atPulledStatus.after 3).processor.flags.breakMark = false ∧
    (∃ value, (atPulledStatus.after 3).processor.flags.PushedAs value ∧
      (atPulledStatus.after 4).bus =
        ((atPulledStatus.after 3).writeEach [(0x01FF, value)]).bus) ∧
    ∃ value, (atPulledStatus.after 4).processor.flags.PushedAs value ∧
      (atPulledStatus.after 5).bus =
        ((atPulledStatus.after 4).writeEach
          [(0x01FE, 0xF0), (0x01FD, 0x07), (0x01FC, value)]).bus := by
  have hstart : atPulledStatus.processor.Reached :=
    .set (.initial 0) (.programCounter 0xF000) .powerOn trivial
  have hreached := hstart.after 3
  have hphp : (atPulledStatus.after 3).nextOperation? = some .php := by decide +kernel
  have hbrk : (atPulledStatus.after 4).nextOperation? = some .brk := by decide +kernel
  have hmark := (breakMark_never_live.1 _ hreached).1
  have hpush := (breakMark_never_live.2 _ (atPulledStatus.after 3)).1 hphp
  have hinterrupt := (breakMark_never_live.2 _ (atPulledStatus.after 4)).2 hbrk
  exact ⟨hreached, by decide +kernel, hmark, hpush, hinterrupt⟩

end VideoComputer
