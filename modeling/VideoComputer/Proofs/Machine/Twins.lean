import VideoComputer.Proofs.Machine.Calls

/-!
# Twin machines

Two machines whose processors are in one state, on buses that answer every read alike and are kept
alike by every write. Main statement: whatever they are made to do gives the same results and leaves
twins, so that a program cannot tell who watches it. Tracers, journals and observers may differ.
-/

namespace VideoComputer

variable {B B' : Type}

section

variable [Bus B] [Bus B']

/-- A relation of buses that no read can tell apart and that every write keeps. -/
structure Bus.Bisimulation (R : B → B' → Prop) : Prop where
  read {bus : B} {bus' : B'} (h : R bus bus') (address : Word) :
    Bus.read bus address = Bus.read bus' address
  write {bus : B} {bus' : B'} (h : R bus bus') (address : Word) (value : Byte) :
    R (Bus.write bus address value) (Bus.write bus' address value)

theorem Bus.bisimulation_eq : Bus.Bisimulation (Eq : B → B → Prop) where
  read h _ := h ▸ rfl
  write h _ _ := h ▸ rfl

end

namespace Machine

/-- One state of the processor, on related buses. -/
structure Twins (R : B → B' → Prop) (m : Machine B) (m' : Machine B') : Prop where
  processor : m.processor = m'.processor
  bus : R m.bus m'.bus

/-- Equal results that leave twins. -/
structure TwinResults {α : Type} (R : B → B' → Prop) (result : α × Machine B)
    (result' : α × Machine B') : Prop where
  fst : result.1 = result'.1
  snd : result.2.Twins R result'.2

section

variable {R : B → B' → Prop} {m : Machine B} {m' : Machine B'}

/-- Twins that come with the same value. -/
theorem Twins.results {α : Type} (h : m.Twins R m') (value : α) :
    TwinResults R (value, m) (value, m') :=
  ⟨rfl, h⟩

/-- What one twin comes to is met by the other. -/
theorem TwinResults.exists_twin {α : Type} {value : α} {result' : α × Machine B'}
    (h : TwinResults R (value, m) result') : ∃ m', result' = (value, m') ∧ m.Twins R m' :=
  ⟨result'.2, Prod.ext h.fst.symm rfl, h.snd⟩

namespace Twins

theorem mapProcessor (h : m.Twins R m') (f : Processor → Processor) :
    (m.mapProcessor f).Twins R (m'.mapProcessor f) :=
  ⟨congrArg f h.processor, h.bus⟩

theorem skip (h : m.Twins R m') (count : Word) : (m.skip count).Twins R (m'.skip count) :=
  h.mapProcessor fun p ↦ { p with pc := p.pc + count }

theorem pastOperand (h : m.Twins R m') (mode : AddressingMode) :
    (m.pastOperand mode).Twins R (m'.pastOperand mode) :=
  h.skip _

theorem halt (h : m.Twins R m') (opcode : Byte) (address : Word) :
    (m.halt opcode address).Twins R (m'.halt opcode address) :=
  ⟨congrArg (fun p ↦ { p with halted := true }) h.processor, h.bus⟩

end Twins

end

variable [Bus B] [Bus B']

/-- A branch that is taken goes as far from the next instruction as the offset tells. -/
theorem branch_taken (m : Machine B) :
    m.branch true =
      let next := m.processor.pc + 1
      let target := next.displace (m.read m.processor.pc)
      (if next.page = target.page then 1 else 2, (m.skip 1).mapProcessor (·.jump target)) := rfl

namespace Twins

variable {R : B → B' → Prop} {m : Machine B} {m' : Machine B'} {mode : AddressingMode}

theorem trace (h : m.Twins R m') : m.trace.Twins R m'.trace := by
  constructor
  · rw [processor_trace, processor_trace, h.processor]
  · rw [bus_trace, bus_trace]
    exact h.bus

theorem fetched (h : m.Twins R m') : m.fetched.Twins R m'.fetched := h.trace.skip 1

variable (hR : Bus.Bisimulation R)
include hR

theorem read (h : m.Twins R m') (address : Word) : m.read address = m'.read address :=
  hR.read h.bus address

theorem write (h : m.Twins R m') (address : Word) (value : Byte) :
    (m.write address value).Twins R (m'.write address value) :=
  ⟨h.processor, hR.write h.bus address value⟩

theorem readWord (h : m.Twins R m') (address : Word) :
    Bus.readWord m.bus address = Bus.readWord m'.bus address := by
  rw [Bus.readWord, Bus.readWord, hR.read h.bus, hR.read h.bus]

theorem push (h : m.Twins R m') (value : Byte) : (m.push value).Twins R (m'.push value) := by
  rw [Machine.push, Machine.push, h.processor]
  exact (h.write hR _ value).mapProcessor _

theorem pull (h : m.Twins R m') : TwinResults R m.pull m'.pull := by
  have hmoved := h.mapProcessor fun p ↦ { p with sp := p.sp + 1 }
  constructor
  · simp only [Machine.pull]
    rw [hmoved.read hR, hmoved.processor]
  · exact hmoved

theorem pushWord (h : m.Twins R m') (value : Word) :
    (m.pushWord value).Twins R (m'.pushWord value) :=
  (h.push hR value.high).push hR value.low

theorem pullWord (h : m.Twins R m') : TwinResults R m.pullWord m'.pullWord := by
  have hlow := h.pull hR
  have hhigh := hlow.snd.pull hR
  constructor
  · simp only [Machine.pullWord]
    rw [hlow.fst, hhigh.fst]
  · exact hhigh.snd

theorem wordAt (h : m.Twins R m') (address : Word) : m.wordAt address = m'.wordAt address := by
  rw [Machine.wordAt, Machine.wordAt, h.read hR, h.read hR]

theorem pageZeroWord (h : m.Twins R m') (offset : Byte) :
    m.pageZeroWord offset = m'.pageZeroWord offset := by
  rw [Machine.pageZeroWord, Machine.pageZeroWord, h.read hR, h.read hR]

theorem effectiveAddress (h : m.Twins R m') (start : Word) (mode : AddressingMode) :
    m.effectiveAddress start mode = m'.effectiveAddress start mode := by
  cases mode <;>
    simp only [Machine.effectiveAddress, h.read hR, h.wordAt hR, h.pageZeroWord hR, h.processor]

theorem crossesPage (h : m.Twins R m') (start : Word) (mode : AddressingMode) :
    m.crossesPage start mode = m'.crossesPage start mode := by
  cases mode <;>
    simp only [Machine.crossesPage, h.read hR, h.wordAt hR, h.pageZeroWord hR, h.processor]

theorem target (h : m.Twins R m') (mode : AddressingMode) : m.target mode = m'.target mode := by
  rw [Machine.target, Machine.target, h.effectiveAddress hR, h.processor]

theorem takeOperand (h : m.Twins R m') (hmode : mode.NamesAddress)
    (take : Processor → Byte → Processor) :
    TwinResults R (m.takeOperand mode take) (m'.takeOperand mode take) := by
  rw [takeOperand_eq hmode, takeOperand_eq hmode, h.crossesPage hR, h.read hR, h.target hR,
    h.processor]
  exact ((h.pastOperand mode).mapProcessor (take · _)).results _

theorem modifyMemory (h : m.Twins R m') (address : Word) (change : Modification) :
    (m.modifyMemory address change).Twins R (m'.modifyMemory address change) := by
  simp only [Machine.modifyMemory]
  rw [h.read hR, h.processor]
  exact (h.write hR _ _).mapProcessor _

theorem modifyOperand (h : m.Twins R m') (hmode : mode ≠ .accumulator → mode.NamesAddress)
    (change : Modification) :
    TwinResults R (m.modifyOperand mode change) (m'.modifyOperand mode change) := by
  by_cases haccumulator : mode = .accumulator
  · rw [Machine.modifyOperand, Machine.modifyOperand, if_pos haccumulator, if_pos haccumulator]
    exact (h.mapProcessor _).results _
  · rw [modifyOperand_eq (hmode haccumulator), modifyOperand_eq (hmode haccumulator), h.target hR]
    exact ((h.pastOperand mode).modifyMemory hR _ change).results _

theorem branch (h : m.Twins R m') (taken : Bool) :
    TwinResults R (m.branch taken) (m'.branch taken) := by
  cases taken with
  | false => exact (h.skip 1).results 0
  | true =>
    rw [branch_taken, branch_taken, h.read hR, h.processor]
    exact ((h.skip 1).mapProcessor _).results _

theorem call (h : m.Twins R m') (hmode : mode.NamesAddress) :
    TwinResults R (m.call mode) (m'.call mode) := by
  have hpast := h.pastOperand mode
  rw [call_eq hmode, call_eq hmode, h.target hR, hpast.processor]
  exact ((hpast.pushWord hR _).mapProcessor _).results _

theorem returnFromCall (h : m.Twins R m') : m.returnFromCall.Twins R m'.returnFromCall := by
  have hpulled := h.pullWord hR
  simp only [Machine.returnFromCall]
  rw [hpulled.fst]
  exact hpulled.snd.mapProcessor _

theorem interrupt (h : m.Twins R m') : m.interrupt.Twins R m'.interrupt := by
  have hword := h.pushWord hR (m'.processor.pc + 1)
  have hstatus := hword.push hR (m'.pushWord (m'.processor.pc + 1)).processor.flags.pushed
  simp only [Machine.interrupt]
  rw [h.processor, hword.processor, hstatus.readWord hR]
  exact hstatus.mapProcessor _

theorem pullStatus (h : m.Twins R m') : m.pullStatus.Twins R m'.pullStatus := by
  have hpulled := h.pull hR
  simp only [Machine.pullStatus]
  rw [hpulled.fst]
  exact hpulled.snd.mapProcessor _

theorem returnFromInterrupt (h : m.Twins R m') :
    m.returnFromInterrupt.Twins R m'.returnFromInterrupt := by
  have hpulled := (h.pullStatus hR).pullWord hR
  simp only [Machine.returnFromInterrupt]
  rw [hpulled.fst]
  exact hpulled.snd.mapProcessor _

theorem pullAccumulator (h : m.Twins R m') : m.pullAccumulator.Twins R m'.pullAccumulator := by
  have hpulled := h.pull hR
  simp only [Machine.pullAccumulator]
  rw [hpulled.fst]
  exact hpulled.snd.mapProcessor _

/-- Twins perform every action alike. -/
theorem execute (h : m.Twins R m') (action : Action)
    (hmode : action.NeedsAddress mode → mode.NamesAddress) :
    TwinResults R (m.execute mode action) (m'.execute mode action) := by
  have hpast := h.pastOperand mode
  cases action with
  | load | combine | compare | testBits => exact h.takeOperand hR (hmode trivial) _
  | store source =>
    simp only [Machine.execute]
    rw [store_eq (hmode trivial), store_eq (hmode trivial), h.target hR, h.processor]
    exact (hpast.write hR _ _).results _
  | modifyOperand change => exact h.modifyOperand hR hmode change
  | modifyRegister | transfer | setFlag => exact (h.mapProcessor _).results _
  | branch flag value =>
    have hbranch := h.branch hR (m'.processor.flags.get flag == value)
    simp only [Machine.execute]
    rw [h.processor]
    exact ⟨congrArg Except.ok hbranch.fst, hbranch.snd⟩
  | jump =>
    simp only [Machine.execute]
    rw [jump_eq (hmode trivial), jump_eq (hmode trivial), h.target hR]
    exact (hpast.mapProcessor _).results _
  | call => exact h.call hR (hmode trivial)
  | returnFromCall => exact (h.returnFromCall hR).results _
  | interrupt => exact (h.interrupt hR).results _
  | returnFromInterrupt => exact (h.returnFromInterrupt hR).results _
  | pushAccumulator | pushStatus =>
    simp only [Machine.execute]
    rw [h.processor]
    exact (h.push hR _).results _
  | pullAccumulator => exact (h.pullAccumulator hR).results _
  | pullStatus => exact (h.pullStatus hR).results _
  | idle => exact h.results _

/-- A step of twins has one result and leaves twins. -/
theorem step (h : m.Twins R m') : TwinResults R m.step m'.step := by
  have hopcode : m.read m.processor.pc = m'.read m'.processor.pc := by
    rw [h.read hR, h.processor]
  obtain ⟨hhalted, hstep⟩ | ⟨hrunning, hdecode, hstep⟩ |
      ⟨hrunning, i, hdecode, extra, last, hexecute, -, hstep⟩ := m.step_cases
  · rw [hstep, step_of_halted (h.processor ▸ hhalted)]
    exact h.results _
  · rw [hstep, step_of_undocumented (h.processor ▸ hrunning) (hopcode ▸ hdecode), hopcode,
      h.processor]
    exact (h.fetched.halt _ _).results _
  · have hresults := h.fetched.execute hR i.operation.action (Instruction.namesAddress hdecode)
    obtain ⟨last', hexecute', hlast⟩ := (hexecute ▸ hresults).exists_twin
    rw [hstep, step_of_execute (h.processor ▸ hrunning) (hopcode ▸ hdecode) hexecute', h.processor]
    exact (hlast.mapProcessor _).results _

/-- Twins stay twins over any number of steps. -/
theorem after (h : m.Twins R m') (count : Nat) : (m.after count).Twins R (m'.after count) := by
  induction count generalizing m m' with
  | zero => exact h
  | succ count ih => exact ih (h.step hR).snd

theorem runUntil (h : m.Twins R m') (target : Nat) :
    TwinResults R (m.runUntil target) (m'.runUntil target) := by
  fun_induction Machine.runUntil m target generalizing m' with
  | case1 m hbelow failure next hstep =>
    obtain ⟨next', hstep', hnext⟩ := (hstep ▸ h.step hR).exists_twin
    rw [runUntil_of_error (h.processor ▸ hbelow) hstep']
    exact hnext.results _
  | case2 m hbelow cycles next hstep ih =>
    obtain ⟨next', hstep', hnext⟩ := (hstep ▸ h.step hR).exists_twin
    rw [runUntil_of_ok (h.processor ▸ hbelow) hstep']
    exact ih hnext
  | case3 m hreached =>
    rw [Machine.runUntil, if_neg (h.processor ▸ hreached)]
    exact h.results _

theorem runForCycles (h : m.Twins R m') (budget : Nat) :
    TwinResults R (m.runForCycles budget) (m'.runForCycles budget) := by
  have hresults := h.runUntil hR (m'.processor.cycles + budget)
  rw [Machine.runForCycles, Machine.runForCycles, h.processor]
  cases hrun : m.runUntil (m'.processor.cycles + budget) with
  | mk result last =>
    obtain ⟨last', hrun', hlast⟩ := (hrun ▸ hresults).exists_twin
    rw [hrun']
    cases result with
    | error failure => exact hlast.results _
    | ok =>
      simp only [hlast.processor]
      exact hlast.results _

/-- Every call is answered alike by twins. -/
theorem perform (h : m.Twins R m') (call : Call) :
    TwinResults R (m.perform call) (m'.perform call) := by
  cases call with
  | step =>
    have hresults := h.step hR
    exact ⟨congrArg (Except.map Answer.cycles) hresults.fst, hresults.snd⟩
  | run budget =>
    have hresults := h.runForCycles hR budget
    exact ⟨congrArg (Except.map Answer.cycles) hresults.fst, hresults.snd⟩
  | set setter => exact (h.mapProcessor _).results _
  | read address =>
    simp only [Machine.perform]
    rw [h.read hR]
    exact h.results _
  | write address value => exact (h.write hR address value).results _

end Twins

end Machine

end VideoComputer
