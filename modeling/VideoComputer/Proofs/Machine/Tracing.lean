import Mathlib.Data.List.Basic
import VideoComputer.Memory.Flat
import VideoComputer.Proofs.Machine.Journal
import VideoComputer.Proofs.Machine.Twins

/-!
# Tracing

A recording tracer receives one record for each step that the processor takes, the one that halts it
included, and the record describes the machine just before that step. Main statement: over any
number of calls the records are these and no others, and the run is the one that would have been
without the tracer.
-/

namespace VideoComputer

theorem Bus.readMany_eq_map {B : Type} [Bus B] (bus : B) (address : Word) (count : Nat) :
    readMany bus address count =
      (List.range count).map fun k ↦ read bus (address + UInt16.ofNat k) := by
  induction count generalizing address with
  | zero => rfl
  | succ count ih =>
    rw [readMany, ih, List.range_succ_eq_map, List.map_cons, List.map_map]
    simp only [Function.comp_def, Word.add_one_add_ofNat, Nat.succ_eq_add_one]
    congr 2
    exact (UInt16.add_zero address).symm

/-- A bus whose reports are not trace records. -/
def Bus.TracesNothing (B : Type) [Bus B] : Prop :=
  ∀ (bus : B) address value record, .traced record ∉ Bus.report bus address value

theorem FlatMemory.tracesNothing : Bus.TracesNothing FlatMemory := by
  intro bus address value record hrecord
  cases hrecord with
  | tail _ htail => cases htail

theorem ConsoleBus.tracesNothing : Bus.TracesNothing ConsoleBus := by
  intro bus address value record hrecord
  change Event.traced record ∈ bus.report address value at hrecord
  unfold report at hrecord
  split at hrecord
  · simp [RegisterBank.report] at hrecord
  · simp [RegisterBank.report] at hrecord
  · simp at hrecord
  · simp at hrecord

namespace Instruction

/-- Bytes of the instruction that an opcode begins; an undocumented one stands for itself. -/
def sizeOf (opcode : Byte) : Nat := (ofOpcode? opcode).elim 1 size

theorem operandBytesOf_eq (opcode : Byte) : operandBytesOf opcode = sizeOf opcode - 1 := by
  rw [operandBytesOf, sizeOf]
  cases ofOpcode? opcode with
  | none => rfl
  | some i => exact (Nat.add_sub_cancel_left 1 i.mode.operandBytes).symm

end Instruction

/-- The record shown by a trace event. -/
def Event.record? : Event → Option TraceRecord
  | traced record => some record
  | memoryWrite .. | chipWrite .. | logged _ => none

variable {B : Type} [Bus B]

/-- What a record tells of a machine that is about to run an instruction. -/
structure TraceRecord.Describes (record : TraceRecord) (m : Machine B) : Prop where
  pc : record.pc = m.processor.pc
  opcode : record.opcode = m.read m.processor.pc
  mnemonic : record.mnemonic =
    (Instruction.ofOpcode? (m.read m.processor.pc)).elim "???" Instruction.mnemonic
  operands : record.operands =
    (List.range (Instruction.sizeOf (m.read m.processor.pc) - 1)).map fun k ↦
      m.read (m.processor.pc + 1 + UInt16.ofNat k)
  a : record.a = m.processor.a
  x : record.x = m.processor.x
  y : record.y = m.processor.y
  sp : record.sp = m.processor.sp
  status : record.status = m.processor.status
  cycles : record.cycles = m.processor.cycles

namespace Machine

variable {m : Machine B}

/-- The trace records that the outside has received. -/
def records (m : Machine B) : List TraceRecord := m.noticed Event.record?

theorem describes_traceRecord (m : Machine B) : m.traceRecord.Describes m where
  pc := rfl
  opcode := rfl
  mnemonic := rfl
  operands := by
    rw [← Instruction.operandBytesOf_eq]
    exact Bus.readMany_eq_map m.bus (m.processor.pc + 1) _
  a := rfl
  x := rfl
  y := rfl
  sp := rfl
  status := rfl
  cycles := rfl

theorem records_writeEach (hbus : Bus.TracesNothing B) (m : Machine B)
    (writes : List (Word × Byte)) : (m.writeEach writes).records = m.records := by
  induction writes generalizing m with
  | nil => rfl
  | cons entry writes ih =>
    have hreport : (Bus.report m.bus entry.1 entry.2).filterMap Event.record? = [] := by
      rw [List.filterMap_eq_nil_iff]
      intro event hevent
      cases event with
      | traced record => exact absurd hevent (hbus _ _ _ record)
      | memoryWrite | chipWrite | logged => rfl
    refine (ih (m.write entry.1 entry.2)).trans ?_
    rw [records, noticed_write, hreport, List.append_nil, records]

/-- A step that is not refused is recorded once. -/
theorem records_step (hbus : Bus.TracesNothing B) (htracer : m.tracer = some .recording)
    (hrunning : m.processor.halted = false) :
    m.step.2.records = m.records ++ [m.traceRecord] := by
  have htrace : m.trace.records = m.records ++ [m.traceRecord] := by
    rw [records, noticed_trace, htracer]
    rfl
  rw [← htrace, ← records_writeEach hbus m.trace m.stepWrites]
  exact noticed_step hrunning fun _ _ ↦ rfl

theorem tracer_after (m : Machine B) (count : Nat) : (m.after count).tracer = m.tracer := by
  induction count with
  | zero => rfl
  | succ count ih => rw [after_succ, tracer_step, ih]

/-- A processor that still runs has been running all the time. -/
theorem running_of_running_after {first count : Nat} (hle : first ≤ count)
    (h : (m.after count).processor.halted = false) : (m.after first).processor.halted = false := by
  obtain ⟨rest, rfl⟩ := Nat.exists_eq_add_of_le hle
  rw [after_add] at h
  cases hhalted : (m.after first).processor.halted with
  | false => rfl
  | true =>
    rw [after_of_halted hhalted, hhalted] at h
    cases h

/-- The steps that find the processor running come first, and they are what is recorded. -/
theorem records_after (hbus : Bus.TracesNothing B) (htracer : m.tracer = some .recording)
    (count : Nat) :
    ∃ live ≤ count, (∀ k < count, (m.after k).processor.halted = false ↔ k < live) ∧
      (m.after count).records =
        m.records ++ (List.range live).map fun k ↦ (m.after k).traceRecord := by
  induction count with
  | zero => exact ⟨0, Nat.le_refl 0, fun _ hk ↦ absurd hk (Nat.not_lt_zero _), by simp⟩
  | succ count ih =>
    obtain ⟨live, hle, hlive, hrecords⟩ := ih
    cases hrunning : (m.after count).processor.halted with
    | true =>
      refine ⟨live, Nat.le_succ_of_le hle, ?_, ?_⟩
      · intro k hk
        obtain hearlier | rfl := Nat.lt_succ_iff_lt_or_eq.mp hk
        · exact hlive k hearlier
        · simp [hrunning, Nat.not_lt.mpr hle]
      · rw [after_succ, step_of_halted hrunning, hrecords]
    | false =>
      have hall : ∀ k < count, (m.after k).processor.halted = false :=
        fun k hk ↦ running_of_running_after (Nat.le_of_lt hk) hrunning
      have hcount : live = count := by
        refine Nat.le_antisymm hle (Nat.le_of_not_lt fun hlt ↦ ?_)
        exact Nat.lt_irrefl live ((hlive live hlt).mp (hall live hlt))
      subst hcount
      refine ⟨live + 1, Nat.le_refl _, ?_, ?_⟩
      · intro k hk
        obtain hearlier | rfl := Nat.lt_succ_iff_lt_or_eq.mp hk
        · exact ⟨fun _ ↦ hk, fun _ ↦ hall k hearlier⟩
        · exact ⟨fun _ ↦ hk, fun _ ↦ hrunning⟩
      · rw [after_succ, records_step hbus (by rw [tracer_after, htracer]) hrunning, hrecords,
          List.range_succ, List.map_append, List.append_assoc]
        rfl

/-- A step after which the processor runs has succeeded. -/
theorem exists_ok_of_running (h : m.step.2.processor.halted = false) :
    ∃ cycles, m.step.1 = .ok cycles := by
  obtain ⟨hhalted, hstep⟩ | ⟨-, -, hstep⟩ | ⟨-, i, -, extra, last, -, -, hstep⟩ := m.step_cases
  · rw [hstep, hhalted] at h
    cases h
  · rw [hstep] at h
    cases h
  · exact ⟨_, congrArg Prod.fst hstep⟩

/-- **Tracing is complete, faithful and transparent.** With a recording tracer any number of step
calls adds one record for each call that finds the processor running. These calls come first, and
each record describes the machine just before its step and is as many cycles before the next one as
the step returned. Without the tracer the calls return the same and leave the same processor and
bus. -/
theorem records_complete :
    (Bus.TracesNothing FlatMemory ∧ Bus.TracesNothing ConsoleBus) ∧
    ∀ (B : Type) [Bus B], Bus.TracesNothing B →
      ∀ m : Machine B, m.tracer = some .recording → ∀ count,
        (∃ records, (m.after count).records = m.records ++ records ∧
          records.length ≤ count ∧
          (∀ k < count, (m.after k).processor.halted = false ↔ k < records.length) ∧
          (∀ k, (h : k < records.length) → records[k].Describes (m.after k)) ∧
          ∀ k, (h : k + 1 < records.length) → ∃ cycles, (m.after k).step.1 = .ok cycles ∧
            records[k + 1].cycles = records[k].cycles + cycles) ∧
        (∀ k < count, (m.detach.2.after k).step.1 = (m.after k).step.1) ∧
        (m.detach.2.after count).processor = (m.after count).processor ∧
        (m.detach.2.after count).bus = (m.after count).bus := by
  refine ⟨⟨FlatMemory.tracesNothing, ConsoleBus.tracesNothing⟩, ?_⟩
  intro B _ hbus m htracer count
  have htwins : m.detach.2.Twins Eq m := ⟨rfl, rfl⟩
  have hafter := htwins.after Bus.bisimulation_eq
  refine ⟨?_, fun k _ ↦ ((hafter k).step Bus.bisimulation_eq).fst, (hafter count).processor,
    (hafter count).bus⟩
  obtain ⟨live, hle, hlive, hrecords⟩ := m.records_after hbus htracer count
  refine ⟨_, hrecords, by simpa using hle, by simpa using hlive, ?_, ?_⟩
  · intro k hk
    simp only [List.getElem_map, List.getElem_range]
    exact (m.after k).describes_traceRecord
  · intro k hk
    simp only [List.length_map, List.length_range] at hk
    have hnext := (hlive (k + 1) (Nat.lt_of_lt_of_le hk hle)).mpr hk
    rw [after_succ] at hnext
    obtain ⟨cycles, hcycles⟩ := exists_ok_of_running hnext
    refine ⟨cycles, hcycles, ?_⟩
    simp only [List.getElem_map, List.getElem_range, (describes_traceRecord _).cycles, after_succ]
    exact (cycles_step (Prod.ext hcycles rfl)).2

/-- Of three calls the first runs an instruction, the second halts and is recorded all the same, and
the third is refused. -/
theorem records_complete_halting :
    let m : Machine ConsoleBus :=
      { processor := .initial 0xF000, bus := { cartridge := .ofImage #[0xE8, 0x02] },
        tracer := some .recording }
    Bus.TracesNothing ConsoleBus ∧ m.tracer = some .recording ∧
    ∃ first second, (m.after 3).records = [first, second] ∧ first.Describes m ∧
      first.mnemonic = "INX" ∧ second.Describes (m.after 1) ∧ second.mnemonic = "???" ∧
      second.cycles = first.cycles + 2 ∧ (m.detach.2.after 3).processor.x = 1 := by
  intro m
  obtain ⟨-, hcomplete⟩ := records_complete
  obtain ⟨⟨records, hrecords, -, hlive, hdescribes, -⟩, -, hprocessor, -⟩ :=
    hcomplete ConsoleBus ConsoleBus.tracesNothing m rfl 3
  have hlength : records.length = 2 := by
    have hsecond := (hlive 1 (by decide)).mp (by decide +kernel)
    have hthird := mt (hlive 2 (by decide)).mpr (by decide +kernel)
    omega
  obtain ⟨first, second, rfl⟩ := List.length_eq_two.mp hlength
  have hfirst : first.Describes m := hdescribes 0 Nat.two_pos
  have hsecond : second.Describes (m.after 1) := hdescribes 1 Nat.one_lt_two
  have hdocumented : Instruction.ofOpcode? (m.read m.processor.pc) = some ⟨.inx, .implicit, 2⟩ := by
    decide +kernel
  have hundocumented :
      Instruction.ofOpcode? ((m.after 1).read (m.after 1).processor.pc) = none := by
    decide +kernel
  refine ⟨ConsoleBus.tracesNothing, rfl, first, second, hrecords, hfirst, ?_, hsecond, ?_, ?_, ?_⟩
  · rw [hfirst.mnemonic, hdocumented]
    rfl
  · rw [hsecond.mnemonic, hundocumented]
    rfl
  · rw [hfirst.cycles, hsecond.cycles]
    decide +kernel
  · rw [hprocessor]
    decide +kernel

end Machine

end VideoComputer
