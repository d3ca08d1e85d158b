import VideoComputer.Picture.Frame
import VideoComputer.Proofs.Machine.Course

/-!
# Calls to a machine

What the owner of a machine can do with it, as data: let it work, set its registers and use its bus.
Statements about every sequence of calls are statements about lists of them.
-/

namespace VideoComputer

/-- What a call gives back. -/
inductive Answer where
  | done
  | byte (value : Byte)
  | cycles (count : Nat)
  | picture (frame : Frame)

@[simp] theorem failureOf_map {α β : Type} (f : α → β) (result : Except Failure α) :
    failureOf (result.map f) = failureOf result := by
  cases result <;> rfl

section Sessions

variable {σ κ α : Type}

/-- Makes calls in order; tells their answers and what they leave. -/
def performAll (perform : σ → κ → α × σ) (s : σ) : List κ → List α × σ
  | [] => ([], s)
  | call :: rest =>
    let (answer, next) := perform s call
    let (answers, last) := performAll perform next rest
    (answer :: answers, last)

variable {perform : σ → κ → α × σ} {s : σ} {calls : List κ}

/-- What each call keeps as long as the answers are good, a session with good answers keeps. -/
theorem performAll_invariant (P : σ → Prop) (Good : α → Prop)
    (hcall : ∀ s, P s → ∀ call ∈ calls, Good (perform s call).1 → P (perform s call).2)
    (hs : P s) (hanswers : ∀ answer ∈ (performAll perform s calls).1, Good answer) :
    P (performAll perform s calls).2 := by
  induction calls generalizing s with
  | nil => exact hs
  | cons call rest ih =>
    have hfirst : Good (perform s call).1 := hanswers _ List.mem_cons_self
    have hnext : P (perform s call).2 := hcall s hs call List.mem_cons_self hfirst
    apply ih
    · intro next hP other hother
      exact hcall next hP other (List.mem_cons_of_mem call hother)
    · exact hnext
    · intro answer hanswer
      exact hanswers answer (List.mem_cons_of_mem _ hanswer)

end Sessions

/-- What can be set from outside. The count of cycles and the halt latch are not among it. -/
inductive Setter where
  | register (register : Register) (value : Byte)
  | programCounter (address : Word)
  | status (value : Byte)
  | flag (flag : Flag) (value : Bool)
deriving DecidableEq

namespace Processor

def apply (p : Processor) : Setter → Processor
  | .register register value => p.set register value
  | .programCounter address => p.jump address
  | .status value => { p with flags := .unpack value }
  | .flag flag value => p.setFlag flag value

end Processor

namespace Machine

inductive Call where
  | step
  /-- Take steps until a budget of cycles is used up. -/
  | run (budget : Nat)
  | set (setter : Setter)
  | read (address : Word)
  | write (address : Word) (value : Byte)
deriving DecidableEq

variable {B : Type} [Bus B] {m : Machine B}

def perform (m : Machine B) : Call → Except Failure Answer × Machine B
  | .step =>
    let (result, next) := m.step
    (result.map .cycles, next)
  | .run budget =>
    let (result, next) := m.runForCycles budget
    (result.map .cycles, next)
  | .set setter => (.ok .done, m.mapProcessor (·.apply setter))
  | .read address => (.ok (.byte (m.read address)), m)
  | .write address value => (.ok .done, m.write address value)

/-- Calls by which the owner changes what the program works on. -/
def Call.Interferes : Call → Prop
  | set _ | write .. => True
  | step | run _ | read _ => False

/-- How many steps a call attempts. -/
def Call.attempts (m : Machine B) : Call → Nat
  | step => 1
  | run budget => m.attemptsUntil (m.processor.cycles + budget)
  | set _ | read _ | write .. => 0

theorem step_course (m : Machine B) : m.Course 1 (failureOf m.step.1) m.step.2 := by
  match hstep : m.step with
  | (.error failure, next) => exact .of_error hstep
  | (.ok cycles, next) => exact .cons hstep (.zero next)

theorem runForCycles_course (m : Machine B) (budget : Nat) :
    m.Course (m.attemptsUntil (m.processor.cycles + budget))
      (failureOf (m.runForCycles budget).1) (m.runForCycles budget).2 := by
  have hcourse := m.runUntil_course (m.processor.cycles + budget)
  match hrun : m.runUntil (m.processor.cycles + budget) with
  | (.error failure, last) =>
    rw [hrun] at hcourse
    simp only [runForCycles, hrun]
    exact hcourse
  | (.ok (), last) =>
    rw [hrun] at hcourse
    simp only [runForCycles, hrun]
    exact hcourse

/-- A call that does not interfere is a course of steps. -/
theorem perform_course (m : Machine B) {call : Call} (h : ¬call.Interferes) :
    m.Course (call.attempts m) (failureOf (m.perform call).1) (m.perform call).2 := by
  cases call with
  | step =>
    simp only [perform, failureOf_map]
    exact m.step_course
  | run budget =>
    simp only [perform, failureOf_map]
    exact m.runForCycles_course budget
  | read address => exact .zero m
  | set | write => exact absurd trivial h

/-- A call fails at a halted processor or at an undocumented opcode, and never otherwise. -/
theorem perform_failure_cases {call : Call} {failure : Failure} {next : Machine B}
    (h : m.perform call = (.error failure, next)) :
    failure = .halted ∨ ∃ opcode address, failure = .unimplementedOpcode opcode address := by
  by_cases hcall : call.Interferes
  · cases call with
    | set | write => cases h
    | step | run | read => exact absurd hcall id
  · have hcourse := m.perform_course hcall
    rw [h] at hcourse
    exact hcourse.failure_cases

end Machine

end VideoComputer
