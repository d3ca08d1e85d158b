import VideoComputer.Proofs.Machine.NextInstruction

/-!
# Saving and restoring

Four instructions save something on the stack, and for each of them there is one that takes it back.
Main statement: where the second follows the first, the processor has gone on and is otherwise as
before, up to the flags that a pulled status loses or a pulled accumulator sets, and the memory
differs in the stack cells of the save at most. The stack pointer may go round its page meanwhile.
-/

namespace VideoComputer

open StackOperation

/-- An instruction that saves, and the one that restores. -/
inductive SavePair where
  | call
  | interrupt
  | status
  | accumulator
deriving DecidableEq

namespace SavePair

def save : SavePair → Operation
  | call => .jsr
  | interrupt => .brk
  | status => .php
  | accumulator => .pha

def restore : SavePair → Operation
  | call => .rts
  | interrupt => .rti
  | status => .plp
  | accumulator => .pla

/-- How far behind the save the processor goes on in the end. -/
def distance : SavePair → Word
  | call => 3
  | interrupt | status | accumulator => 2

/-- The stack cells that the save writes to. -/
def cells (sp : Byte) : SavePair → List Word
  | call => [stackCell sp, stackCell (sp - 1)]
  | interrupt => [stackCell sp, stackCell (sp - 1), stackCell (sp - 2)]
  | status | accumulator => [stackCell sp]

/-- The flags in the end. -/
def flags (p : Processor) : SavePair → Flags
  | call => p.flags
  | interrupt | status => { p.flags with breakMark := false }
  | accumulator => { p.flags with
      negative := decide (128 ≤ p.a.toNat)
      zero := decide (p.a = 0) }

end SavePair

theorem Bus.stacked_eq_map {B : Type} [Bus B] (bus : B) (sp : Byte) (count : Nat) :
    stacked bus sp count =
      (List.range count).map fun k ↦ read bus (stackCell (sp + UInt8.ofNat (k + 1))) := by
  induction count generalizing sp with
  | zero => rfl
  | succ count ih =>
    have hnext (k : Nat) : sp + 1 + UInt8.ofNat (k + 1) = sp + UInt8.ofNat (k + 1 + 1) := by
      rw [UInt8.ofNat_add (k + 1) 1, UInt8.add_assoc, UInt8.add_comm 1]
      rfl
    rw [stacked, ih, List.range_succ_eq_map, List.map_cons, List.map_map]
    simp only [Function.comp_def, hnext, Nat.succ_eq_add_one]
    rfl

namespace Machine

variable {B : Type} [Bus B] {m : Machine B} {Same : Word → Word → Prop} {limit : Nat}
  {i : Instruction}

/-- A save and its restore lead from the first machine to the second one. -/
structure Restored (Same : Word → Word → Prop) (pair : SavePair) (m last : Machine B) : Prop where
  processor : last.processor = { m.processor with
    pc := m.processor.pc + pair.distance
    flags := pair.flags m.processor
    cycles := last.processor.cycles }
  bus : ∃ writes, writes.map Prod.fst = pair.cells m.processor.sp ∧
    last.bus = (m.writeEach writes).bus
  elsewhere : ∀ address, (∀ cell ∈ pair.cells m.processor.sp, ¬Same cell address) →
    last.read address = m.read address

theorem sp_pushes (m : Machine B) (values : List Byte) :
    (m.performStack (values.map .push)).2.processor.sp =
      m.processor.sp - UInt8.ofNat values.length := by
  induction values generalizing m with
  | nil => exact (UInt8.sub_zero _).symm
  | cons value values ih =>
    have hsp : (m.push value).processor.sp = m.processor.sp - 1 := rfl
    rw [List.map_cons, performStack, ih, hsp, List.length_cons, UInt8.ofNat_add]
    grind

theorem stacked_pushes (hpage : Bus.StackPage B Same limit) (m : Machine B) (values : List Byte)
    (hlength : values.length ≤ limit) :
    Bus.stacked (m.writeEach (writes m.processor.sp (values.map .push))).bus
      (m.processor.sp - UInt8.ofNat values.length) values.length = values.reverse := by
  have hwithin : StaysWithin limit 0 (values.map .push) :=
    staysWithin_pushes values (by omega)
  have hlist : onList [] (values.map .push) = ([], values.reverse) := by
    have hpushes := onList_pushes [] values []
    rwa [List.append_nil, List.append_nil] at hpushes
  have hheld := (performStack_eq_onList hpage m [] rfl hwithin).2
  rwa [hlist, List.length_reverse, sp_pushes, bus_performStack] at hheld

/-- A step that saves and a step that only reads make a pair, if they leave the right processor. -/
theorem restored_of_stepsTo (hpage : Bus.StackPage B Same limit) {pair : SavePair}
    {entries : List (Word × Byte)} {p q : Processor} (hsave : m.StepsTo entries p)
    (hcells : entries.map Prod.fst = pair.cells m.processor.sp)
    (hrestore : (m.after 1).StepsTo [] q)
    (hprocessor : ∀ cycles, { q with cycles := cycles } = { m.processor with
      pc := m.processor.pc + pair.distance
      flags := pair.flags m.processor
      cycles := cycles }) :
    m.Completes 2 ∧ Restored Same pair m (m.after 2) := by
  obtain ⟨cost, next, hstep, hbus, -⟩ := hsave
  have hafter : m.after 1 = next := by rw [after_succ, after_zero, hstep]
  rw [hafter] at hrestore
  obtain ⟨otherCost, last, hotherStep, hotherBus, hlast⟩ := hrestore
  have hend : m.after 2 = last := by rw [after_succ, hafter, hotherStep]
  have hwritten : last.bus = (m.writeEach entries).bus := hotherBus.trans hbus
  refine ⟨.cons hstep (.cons hotherStep (completes_zero last)), ?_⟩
  rw [hend]
  refine ⟨?_, ⟨entries, hcells, hwritten⟩, fun address haddress ↦ ?_⟩
  · rw [hlast]
    exact hprocessor _
  · rw [read, hwritten, read]
    apply read_writeEach hpage m
    intro entry hentry
    apply haddress
    rw [← hcells]
    exact List.mem_map_of_mem hentry

/-- Where a step leads, told by what comes next. -/
theorem StepsTo.after_one {entries : List (Word × Byte)} {p : Processor} (h : m.StepsTo entries p) :
    (m.after 1).bus = (m.writeEach entries).bus ∧
      ∃ cycles, (m.after 1).processor = { p with cycles := cycles } := by
  obtain ⟨cost, next, hstep, hbus, hprocessor⟩ := h
  have hafter : m.after 1 = next := by rw [after_succ, after_zero, hstep]
  rw [hafter]
  exact ⟨hbus, _, hprocessor⟩

/-- What a step has pushed is what the next pulls return, in reverse. -/
theorem read_after_one (hpage : Bus.StackPage B Same limit) {p : Processor} (values : List Byte)
    (h : m.StepsTo (writes m.processor.sp (values.map .push)) p)
    (hsp : p.sp = m.processor.sp - UInt8.ofNat values.length) (hlength : values.length ≤ limit) :
    (List.range values.length).map (fun k ↦
      (m.after 1).read (stackCell ((m.after 1).processor.sp + UInt8.ofNat (k + 1)))) =
        values.reverse := by
  obtain ⟨hbus, cycles, hprocessor⟩ := h.after_one
  have hstacked := stacked_pushes hpage m values hlength
  rw [Bus.stacked_eq_map, ← hbus, ← hsp] at hstacked
  rw [hprocessor]
  exact hstacked

section Pairs

variable (hpage : Bus.StackPage B Same limit) (hlimit : 3 ≤ limit)
include hpage hlimit

theorem restored_call (hsave : m.nextOperation? = some .jsr)
    (hrestore : (m.after 1).nextOperation? = some .rts) :
    m.Completes 2 ∧ Restored Same .call m (m.after 2) := by
  obtain ⟨hrunning, i, hdecode, hoperation⟩ := exists_of_nextOperation? hsave
  obtain ⟨hrunning', i', hdecode', hoperation'⟩ := exists_of_nextOperation? hrestore
  have hroute : i.route = .call := by rw [Instruction.route, hoperation]; rfl
  have hmode : i.mode = .absolute := Instruction.mode_of_route hdecode _ (by rw [hroute]; rfl)
  have hcall := stepsTo_call hrunning hdecode (congrArg Operation.action hoperation) hmode
  have hreturn := stepsTo_returnFromCall hrunning' hdecode' (congrArg Operation.action hoperation')
  have hread : [(m.after 1).read (stackCell ((m.after 1).processor.sp + 1)),
      (m.after 1).read (stackCell ((m.after 1).processor.sp + 2))] =
        [(m.processor.pc + 2).low, (m.processor.pc + 2).high] :=
    read_after_one hpage [(m.processor.pc + 2).high, (m.processor.pc + 2).low] hcall rfl
      (Nat.le_of_succ_le hlimit)
  obtain ⟨hlow, hrest⟩ := List.cons.inj hread
  obtain ⟨hhigh, -⟩ := List.cons.inj hrest
  obtain ⟨-, cost, hnext⟩ := hcall.after_one
  have hpc : m.processor.pc + 2 + 1 = m.processor.pc + 3 := by grind
  have hsp : m.processor.sp - 2 + 2 = m.processor.sp := by grind
  refine restored_of_stepsTo hpage hcall rfl hreturn fun cycles ↦ ?_
  rw [hlow, hhigh, Word.join_low_high, hpc]
  simp only [hnext, hsp]
  rfl

theorem restored_interrupt (hsave : m.nextOperation? = some .brk)
    (hrestore : (m.after 1).nextOperation? = some .rti) :
    m.Completes 2 ∧ Restored Same .interrupt m (m.after 2) := by
  obtain ⟨hrunning, i, hdecode, hoperation⟩ := exists_of_nextOperation? hsave
  obtain ⟨hrunning', i', hdecode', hoperation'⟩ := exists_of_nextOperation? hrestore
  have hinterrupt := stepsTo_interrupt hrunning hdecode (congrArg Operation.action hoperation)
  have hreturn := stepsTo_returnFromInterrupt hrunning' hdecode'
    (congrArg Operation.action hoperation')
  have hcells : wordWrites m.processor.sp (m.processor.pc + 2) ++
      [(stackCell (m.processor.sp - 2), m.processor.status ||| 0x30)] =
        writes m.processor.sp ([(m.processor.pc + 2).high, (m.processor.pc + 2).low,
          m.processor.status ||| 0x30].map .push) := by
    have hsp : m.processor.sp - 2 = m.processor.sp - 1 - 1 := by grind
    rw [hsp]
    rfl
  have hread : [(m.after 1).read (stackCell ((m.after 1).processor.sp + 1)),
      (m.after 1).read (stackCell ((m.after 1).processor.sp + 2)),
      (m.after 1).read (stackCell ((m.after 1).processor.sp + 3))] =
        [m.processor.status ||| 0x30, (m.processor.pc + 2).low, (m.processor.pc + 2).high] :=
    read_after_one hpage [(m.processor.pc + 2).high, (m.processor.pc + 2).low,
      m.processor.status ||| 0x30] (hcells ▸ hinterrupt) rfl hlimit
  obtain ⟨hstatus, hword⟩ := List.cons.inj hread
  obtain ⟨hlow, hrest⟩ := List.cons.inj hword
  obtain ⟨hhigh, -⟩ := List.cons.inj hrest
  obtain ⟨-, cost, hnext⟩ := hinterrupt.after_one
  have hsp : m.processor.sp - 3 + 3 = m.processor.sp := by grind
  refine restored_of_stepsTo hpage hinterrupt rfl hreturn fun cycles ↦ ?_
  rw [hstatus, hlow, hhigh, Word.join_low_high, Processor.status, ← Flags.pushed_eq,
    Flags.pulled_pushed]
  simp only [hnext, hsp]
  rfl

theorem restored_status (hsave : m.nextOperation? = some .php)
    (hrestore : (m.after 1).nextOperation? = some .plp) :
    m.Completes 2 ∧ Restored Same .status m (m.after 2) := by
  obtain ⟨hrunning, i, hdecode, hoperation⟩ := exists_of_nextOperation? hsave
  obtain ⟨hrunning', i', hdecode', hoperation'⟩ := exists_of_nextOperation? hrestore
  have hpush := stepsTo_pushStatus hrunning hdecode (congrArg Operation.action hoperation)
  have hpull := stepsTo_pullStatus hrunning' hdecode' (congrArg Operation.action hoperation')
  have hone : 1 ≤ limit := by omega
  have hread : [(m.after 1).read (stackCell ((m.after 1).processor.sp + 1))] =
      [m.processor.status ||| 0x30] :=
    read_after_one hpage [m.processor.status ||| 0x30] hpush rfl hone
  obtain ⟨hstatus, -⟩ := List.cons.inj hread
  obtain ⟨-, cost, hnext⟩ := hpush.after_one
  have hpc : m.processor.pc + 1 + 1 = m.processor.pc + 2 := (Word.add_two _).symm
  have hsp : m.processor.sp - 1 + 1 = m.processor.sp := UInt8.sub_add_cancel _ _
  refine restored_of_stepsTo hpage hpush rfl hpull fun cycles ↦ ?_
  rw [hstatus, Processor.status, ← Flags.pushed_eq, Flags.pulled_pushed]
  simp only [hnext, hpc, hsp]
  rfl

theorem restored_accumulator (hsave : m.nextOperation? = some .pha)
    (hrestore : (m.after 1).nextOperation? = some .pla) :
    m.Completes 2 ∧ Restored Same .accumulator m (m.after 2) := by
  obtain ⟨hrunning, i, hdecode, hoperation⟩ := exists_of_nextOperation? hsave
  obtain ⟨hrunning', i', hdecode', hoperation'⟩ := exists_of_nextOperation? hrestore
  have hpush := stepsTo_pushAccumulator hrunning hdecode (congrArg Operation.action hoperation)
  have hpull := stepsTo_pullAccumulator hrunning' hdecode' (congrArg Operation.action hoperation')
  have hone : 1 ≤ limit := by omega
  have hread : [(m.after 1).read (stackCell ((m.after 1).processor.sp + 1))] = [m.processor.a] :=
    read_after_one hpage [m.processor.a] hpush rfl hone
  obtain ⟨hvalue, -⟩ := List.cons.inj hread
  obtain ⟨-, cost, hnext⟩ := hpush.after_one
  have hpc : m.processor.pc + 1 + 1 = m.processor.pc + 2 := (Word.add_two _).symm
  have hsp : m.processor.sp - 1 + 1 = m.processor.sp := UInt8.sub_add_cancel _ _
  refine restored_of_stepsTo hpage hpush rfl hpull fun cycles ↦ ?_
  rw [hvalue]
  simp only [hnext, hpc, hsp]
  rfl

theorem restored {pair : SavePair} (hsave : m.nextOperation? = some pair.save)
    (hrestore : (m.after 1).nextOperation? = some pair.restore) :
    m.Completes 2 ∧ Restored Same pair m (m.after 2) := by
  cases pair with
  | call => exact restored_call hpage hlimit hsave hrestore
  | interrupt => exact restored_interrupt hpage hlimit hsave hrestore
  | status => exact restored_status hpage hlimit hsave hrestore
  | accumulator => exact restored_accumulator hpage hlimit hsave hrestore

end Pairs

/-- **What is saved is restored.** On both memories, wherever the stack pointer and the program
counter are: if the instruction that restores is what comes next after the one that saves, both
succeed, the processor is as before apart from its place and the flags of the pair, and nothing but
the stack cells of the save may have changed. -/
theorem save_restore (pair : SavePair) :
    (∀ m : Machine ConsoleBus, m.nextOperation? = some pair.save →
      (m.after 1).nextOperation? = some pair.restore →
      m.Completes 2 ∧ Restored Aliases pair m (m.after 2)) ∧
    ∀ m : Machine FlatMemory, m.nextOperation? = some pair.save →
      (m.after 1).nextOperation? = some pair.restore →
      m.Completes 2 ∧ Restored Eq pair m (m.after 2) :=
  ⟨fun _ ↦ restored ConsoleBus.stackPage (by decide),
    fun _ ↦ restored FlatMemory.stackPage (by decide)⟩

/-- A machine at a call whose return address goes round the stack page, and that returns at once. -/
def atCall : Machine ConsoleBus where
  processor := { Processor.initial 0xF000 with sp := 0 }
  bus := { cartridge := .ofImage #[0x20, 0x03, 0xF0, 0x60] }

theorem save_restore_atCall :
    (atCall.after 2).processor.pc = 0xF003 ∧ (atCall.after 2).processor.sp = 0 ∧
      (atCall.after 2).read 0x0080 = 0xF0 ∧ (atCall.after 2).read 0x0081 = 0 := by
  have hsave : atCall.nextOperation? = some SavePair.call.save := by decide +kernel
  have hrestore : (atCall.after 1).nextOperation? = some SavePair.call.restore := by
    decide +kernel
  have hother : ∀ cell ∈ SavePair.call.cells 0, ¬Aliases cell 0x0081 :=
    List.forall_mem_cons.mpr ⟨by decide, List.forall_mem_singleton.mpr (by decide)⟩
  obtain ⟨-, hprocessor, -, helsewhere⟩ := (save_restore .call).1 atCall hsave hrestore
  refine ⟨?_, ?_, by decide +kernel, ?_⟩
  · rw [hprocessor]
    rfl
  · rw [hprocessor]
    rfl
  · rw [helsewhere 0x0081 hother]
    rfl

end Machine

end VideoComputer
