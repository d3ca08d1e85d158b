import VideoComputer.Proofs.Machine.Journal
import VideoComputer.Proofs.Machine.Twins

/-!
# The past in the journal

What the outside has noticed already has no influence on what comes. Main statement: a machine with
a longer past does what it would do without, and notes the same events behind that past.
-/

namespace VideoComputer

namespace Machine

section

variable {B : Type}

/-- The machine as if these events had been noticed before those of its journal. -/
def withPast (m : Machine B) (past : List Event) : Machine B :=
  { m with journal := (past ++ m.journal.toList).toArray }

variable {m m' : Machine B} {past : List Event}

theorem toList_journal_withPast (m : Machine B) (past : List Event) :
    (m.withPast past).journal.toList = past ++ m.journal.toList := rfl

/-- A machine is told by its parts, the journal as a list of events. -/
theorem eq_of_toList_journal_eq (hprocessor : m.processor = m'.processor) (hbus : m.bus = m'.bus)
    (htracer : m.tracer = m'.tracer) (hjournal : m.journal.toList = m'.journal.toList) :
    m = m' := by
  cases m
  cases m'
  cases hprocessor
  cases hbus
  cases htracer
  cases Array.ext' hjournal
  rfl

/-- Every machine is one that has noticed nothing yet, with its own past. -/
theorem withPast_journal (m : Machine B) :
    { m with journal := #[] }.withPast m.journal.toList = m :=
  eq_of_toList_journal_eq rfl rfl rfl (List.append_nil _)

theorem note_withPast (m : Machine B) (event : Event) (past : List Event) :
    (m.withPast past).note event = (m.note event).withPast past := by
  refine eq_of_toList_journal_eq rfl rfl rfl ?_
  simp [note, toList_journal_withPast]

theorem halt_withPast (m : Machine B) (past : List Event) (opcode : Byte) (address : Word) :
    (m.withPast past).halt opcode address = (m.halt opcode address).withPast past :=
  note_withPast (m.mapProcessor fun p ↦ { p with halted := true }) _ past

end

variable {B : Type} [Bus B] {m : Machine B}

theorem write_withPast (m : Machine B) (address : Word) (value : Byte) (past : List Event) :
    (m.withPast past).write address value = (m.write address value).withPast past := by
  refine eq_of_toList_journal_eq rfl rfl rfl ?_
  simp only [toList_journal_write, toList_journal_withPast, List.append_assoc]
  rfl

theorem writeEach_withPast (m : Machine B) (writes : List (Word × Byte)) (past : List Event) :
    (m.withPast past).writeEach writes = (m.writeEach writes).withPast past := by
  induction writes generalizing m with
  | nil => rfl
  | cons entry writes ih =>
    rw [writeEach, write_withPast, ih, writeEach]

theorem trace_withPast (m : Machine B) (past : List Event) :
    (m.withPast past).trace = m.trace.withPast past := by
  have htracer : (m.withPast past).tracer = m.tracer := rfl
  rw [trace, trace, htracer]
  cases m.tracer with
  | none => rfl
  | some tracer => exact m.note_withPast _ past

theorem footprint_withPast (m : Machine B) (past : List Event) (start : Word)
    (mode : AddressingMode) (operation : Operation) :
    operation.footprint (m.withPast past) start mode = operation.footprint m start mode := by
  cases operation <;> rfl

theorem reset_withPast (m : Machine B) (past : List Event) :
    (m.withPast past).reset = m.reset.withPast past :=
  note_withPast { m with processor := .initial (Bus.readWord m.bus resetVector) } _ past

/-- A step does not look at the journal. -/
theorem step_withPast (m : Machine B) (past : List Event) :
    (m.withPast past).step = (m.step.1, m.step.2.withPast past) := by
  have htwins : m.Twins Eq (m.withPast past) := ⟨rfl, rfl⟩
  have hresults := htwins.step Bus.bisimulation_eq
  obtain ⟨hhalted, hstep⟩ | ⟨hrunning, hdecode, hstep⟩ | ⟨hrunning, i, hdecode, -⟩ := m.step_cases
  · rw [hstep]
    exact step_of_halted hhalted
  · have hfetched : (m.withPast past).fetched = m.fetched.withPast past :=
      congrArg (·.skip 1) (m.trace_withPast past)
    rw [hstep]
    refine (step_of_undocumented (m := m.withPast past) hrunning hdecode).trans ?_
    rw [hfetched]
    exact congrArg (Prod.mk _) (halt_withPast ..)
  · obtain ⟨cycles, next, hstep, hwithin⟩ := step_within hrunning hdecode
    obtain ⟨cycles', next', hstep', hwithin'⟩ :=
      step_within (m := m.withPast past) hrunning hdecode
    rw [hstep, hstep'] at hresults
    have hjournal := congrArg (·.journal.toList) hwithin.outside
    have hjournal' := congrArg (·.journal.toList) hwithin'.outside
    have htracer := m.tracer_step
    have htracer' := (m.withPast past).tracer_step
    rw [hstep] at htracer ⊢
    rw [hstep'] at htracer' ⊢
    refine Prod.ext hresults.fst.symm (eq_of_toList_journal_eq hresults.snd.processor.symm
      hresults.snd.bus.symm (htracer'.trans htracer.symm) ?_)
    have hwrites := footprint_withPast m past (m.processor.pc + 1) i.mode i.operation
    calc
      next'.journal.toList
          = ((m.withPast past).trace.writeEach
              (i.operation.footprint m (m.processor.pc + 1) i.mode).writes).journal.toList := by
        rw [← hwrites]
        exact hjournal'
      _ = past ++ (m.trace.writeEach
            (i.operation.footprint m (m.processor.pc + 1) i.mode).writes).journal.toList := by
        rw [trace_withPast, writeEach_withPast, toList_journal_withPast]
      _ = past ++ next.journal.toList := congrArg (past ++ ·) hjournal.symm

theorem runUntil_withPast (m : Machine B) (past : List Event) (target : Nat) :
    (m.withPast past).runUntil target =
      ((m.runUntil target).1, (m.runUntil target).2.withPast past) := by
  fun_induction runUntil m target with
  | case1 m hbelow failure next hstep =>
    exact runUntil_of_error hbelow (by rw [step_withPast, hstep])
  | case2 m hbelow cycles next hstep ih =>
    rw [← ih]
    exact runUntil_of_ok hbelow (by rw [step_withPast, hstep])
  | case3 m hreached =>
    rw [runUntil]
    exact if_neg hreached

theorem runForCycles_withPast (m : Machine B) (past : List Event) (budget : Nat) :
    (m.withPast past).runForCycles budget =
      ((m.runForCycles budget).1, (m.runForCycles budget).2.withPast past) := by
  have hcycles : (m.withPast past).processor.cycles = m.processor.cycles := rfl
  rw [runForCycles, runForCycles, hcycles, runUntil_withPast]
  obtain ⟨failure | -, last⟩ := m.runUntil (m.processor.cycles + budget)
  · rfl
  · rfl

theorem perform_withPast (m : Machine B) (past : List Event) (call : Call) :
    (m.withPast past).perform call = ((m.perform call).1, (m.perform call).2.withPast past) := by
  cases call with
  | step => rw [perform, perform, step_withPast]
  | run budget => rw [perform, perform, runForCycles_withPast]
  | set setter => rfl
  | read address => rfl
  | write address value => exact congrArg (Prod.mk _) (m.write_withPast address value past)

end Machine

end VideoComputer
