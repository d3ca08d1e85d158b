import VideoComputer.Proofs.Machine.Effects

/-!
# The journal of a step

What the outside can notice of a machine is in its journal, and often only one kind of event is of
interest. A step that is not refused adds its trace and then the reports of its writes, which are
those of the instruction's footprint.
-/

namespace VideoComputer.Machine

variable {B α : Type}

/-- What a view shows of the journal, in the order in which it was noticed. -/
def noticed (m : Machine B) (view : Event → Option α) : List α :=
  m.journal.toList.filterMap view

theorem noticed_note (m : Machine B) (event : Event) (view : Event → Option α) :
    (m.note event).noticed view = m.noticed view ++ (view event).toList := by
  simp only [noticed, note, Array.toList_push, List.filterMap_append]
  cases hview : view event <;> simp [hview]

variable [Bus B] {m m' : Machine B}

theorem noticed_write (m : Machine B) (address : Word) (value : Byte) (view : Event → Option α) :
    (m.write address value).noticed view =
      m.noticed view ++ (Bus.report m.bus address value).filterMap view := by
  rw [noticed, toList_journal_write, List.filterMap_append, noticed]

theorem noticed_trace (m : Machine B) (view : Event → Option α) :
    m.trace.noticed view = m.noticed view ++
      m.tracer.toList.filterMap fun tracer ↦ view (tracer.event m.traceRecord) := by
  rw [noticed, toList_journal_trace, List.filterMap_append, List.filterMap_map, noticed]
  rfl

theorem tracer_writeEach (m : Machine B) (writes : List (Word × Byte)) :
    (m.writeEach writes).tracer = m.tracer := by
  induction writes generalizing m with
  | nil => rfl
  | cons entry writes ih => exact ih (m.write entry.1 entry.2)

/-- The bus after some writes depends on the bus before them alone. -/
theorem bus_writeEach_congr (h : m.bus = m'.bus) (writes : List (Word × Byte)) :
    (m.writeEach writes).bus = (m'.writeEach writes).bus := by
  induction writes generalizing m m' with
  | nil => exact h
  | cons entry writes ih =>
    apply ih
    rw [bus_write, bus_write, h]

/-- The writes that a step makes: those of its instruction's footprint, and none where it fails. -/
def stepWrites (m : Machine B) : List (Word × Byte) :=
  match m.processor.halted, Instruction.ofOpcode? (m.read m.processor.pc) with
  | false, some i => (i.operation.footprint m (m.processor.pc + 1) i.mode).writes
  | _, _ => []

/-- A step that is not refused makes its trace and then its writes; a failure is logged. -/
theorem step_outside (hrunning : m.processor.halted = false) :
    { m.step.2 with processor := m.processor } = m.trace.writeEach m.stepWrites ∨
      ∃ opcode address, { m.step.2 with processor := m.processor } =
        (m.trace.writeEach m.stepWrites).note (.logged (.undocumentedOpcode opcode address)) := by
  cases hdecode : Instruction.ofOpcode? (m.read m.processor.pc) with
  | none =>
    right
    refine ⟨m.read m.processor.pc, m.processor.pc, ?_⟩
    have hwrites : m.stepWrites = [] := by rw [stepWrites, hrunning, hdecode]
    rw [step_of_undocumented hrunning hdecode, hwrites, ← processor_trace]
    rfl
  | some i =>
    left
    obtain ⟨cycles, last, hstep, hwithin⟩ := step_within hrunning hdecode
    have hwrites : m.stepWrites =
        (i.operation.footprint m (m.processor.pc + 1) i.mode).writes := by
      rw [stepWrites, hrunning, hdecode]
    have houtside := hwithin.outside
    rw [processor_trace] at houtside
    rw [hstep, hwrites]
    exact houtside

theorem stepWrites_of_halted (hhalted : m.processor.halted = true) : m.stepWrites = [] := by
  rw [stepWrites, hhalted]

theorem bus_step (m : Machine B) : m.step.2.bus = (m.writeEach m.stepWrites).bus := by
  cases hrunning : m.processor.halted with
  | true =>
    rw [step_of_halted hrunning, stepWrites_of_halted hrunning]
    rfl
  | false =>
    have htrace : (m.trace.writeEach m.stepWrites).bus = (m.writeEach m.stepWrites).bus :=
      bus_writeEach_congr m.bus_trace m.stepWrites
    obtain houtside | ⟨opcode, address, houtside⟩ := step_outside hrunning
    · exact (congrArg Machine.bus houtside).trans htrace
    · exact (congrArg Machine.bus houtside).trans htrace

theorem tracer_step (m : Machine B) : m.step.2.tracer = m.tracer := by
  cases hrunning : m.processor.halted with
  | true => rw [step_of_halted hrunning]
  | false =>
    have htrace : (m.trace.writeEach m.stepWrites).tracer = m.tracer := by
      rw [tracer_writeEach, tracer_trace]
    obtain houtside | ⟨opcode, address, houtside⟩ := step_outside hrunning
    · exact (congrArg Machine.tracer houtside).trans htrace
    · exact (congrArg Machine.tracer houtside).trans htrace

/-- The journal of a step that is not refused, through a view that leaves out the log of a halt. -/
theorem noticed_step (hrunning : m.processor.halted = false) {view : Event → Option α}
    (hview : ∀ opcode address, view (.logged (.undocumentedOpcode opcode address)) = none) :
    m.step.2.noticed view = (m.trace.writeEach m.stepWrites).noticed view := by
  obtain houtside | ⟨opcode, address, houtside⟩ := step_outside hrunning
  · have hnoticed := congrArg (noticed · view) houtside
    exact hnoticed
  · have hnoticed := congrArg (noticed · view) houtside
    simp only [noticed_note, hview, Option.toList_none, List.append_nil] at hnoticed
    exact hnoticed

end VideoComputer.Machine
