import Mathlib.Data.List.DropRight
import VideoComputer.Console.Basic
import VideoComputer.Proofs.Machine.Calls
import VideoComputer.Proofs.Machine.Journal
import VideoComputer.Proofs.Memory.Mirrors

/-!
# Hooks

The observers of the two chips hear of the writes to their chip, of each one once, and of nothing
else. Main statement: over any session the journal shows exactly these writes, in their order, and
at every moment each chip holds what its observer would find by making the writes since the last
reset again.
-/

namespace VideoComputer

namespace Region

variable {address : Word}

theorem decode_of_tia (h : AddressClass.tia.Contains address) :
    decode address = .tia ⟨(address &&& 0x3F).toNat, address.toNat_and_lt 0x3F (by decide)⟩ :=
  (decode_eq_named address).trans (if_pos h)

theorem decode_of_riot (htia : ¬AddressClass.tia.Contains address)
    (h : AddressClass.riot.Contains address) :
    decode address = .riot ⟨(address &&& 0x7F).toNat, address.toNat_and_lt 0x7F (by decide)⟩ :=
  (decode_eq_named address).trans ((if_neg htia).trans (if_pos h))

theorem decode_of_neither (htia : ¬AddressClass.tia.Contains address)
    (hriot : ¬AddressClass.riot.Contains address) :
    (∃ offset, decode address = .rom offset) ∨ decode address = .openBus := by
  rw [decode_eq_named, named, if_neg htia, if_neg hriot]
  split
  · exact .inl ⟨_, rfl⟩
  · exact .inr rfl

end Region

/-- An observer is told of a write to its chip. -/
structure HookCall where
  observer : String
  offset : Nat
  value : Byte
deriving DecidableEq

def Event.hookCall? : Event → Option HookCall
  | chipWrite observer offset value => some ⟨observer, offset, value⟩
  | memoryWrite .. | traced _ | logged _ => none

/-- Whatever can change the bus of a console. -/
inductive BusAction where
  | write (address : Word) (value : Byte)
  | insertCartridge (image : Array Byte)
  | reset
deriving DecidableEq

def ConsoleBus.act (bus : ConsoleBus) : BusAction → ConsoleBus
  | .write address value => bus.write address value
  | .insertCartridge image => { bus with cartridge := .ofImage image }
  | .reset => bus.reset

namespace BusAction

/-- The calls that an action is due to make, by masks. -/
def hookCalls (tiaObserver riotObserver : String) : BusAction → List HookCall
  | write address value =>
    if address &&& 0x1F80 = 0 then [⟨tiaObserver, (address &&& 0x3F).toNat, value⟩]
    else if 0x80 ≤ address &&& 0x1FFF ∧ address &&& 0x1FFF ≤ 0x1FF then
      [⟨riotObserver, (address &&& 0x7F).toNat, value⟩]
    else []
  | insertCartridge _ | reset => []

/-- What comes after the last reset, and everything if there is none. -/
def sinceReset (actions : List BusAction) : List BusAction := actions.rtakeWhile (· ≠ .reset)

theorem riotLines_iff (address : Word) :
    0x80 ≤ address &&& 0x1FFF ∧ address &&& 0x1FFF ≤ 0x1FF ↔
      AddressClass.riot.Contains address := by
  have hlines := address.toNat_and_mask 0x1FFF 0 13 (by decide)
  have hlow : UInt16.toNat 0x80 = 128 := rfl
  have hhigh : UInt16.toNat 0x1FF = 511 := rfl
  rw [AddressClass.contains_riot, UInt16.le_iff_toNat_le, UInt16.le_iff_toNat_le, hlines, hlow,
    hhigh]
  omega

variable (tiaObserver riotObserver : String) {address : Word}

theorem hookCalls_tia (h : AddressClass.tia.Contains address) (value : Byte) :
    (write address value).hookCalls tiaObserver riotObserver =
      [⟨tiaObserver, (address &&& 0x3F).toNat, value⟩] :=
  if_pos h

theorem hookCalls_riot (htia : ¬AddressClass.tia.Contains address)
    (h : AddressClass.riot.Contains address) (value : Byte) :
    (write address value).hookCalls tiaObserver riotObserver =
      [⟨riotObserver, (address &&& 0x7F).toNat, value⟩] :=
  (if_neg htia).trans (if_pos ((riotLines_iff address).mpr h))

theorem hookCalls_lost (htia : ¬AddressClass.tia.Contains address)
    (hriot : ¬AddressClass.riot.Contains address) (value : Byte) :
    (write address value).hookCalls tiaObserver riotObserver = [] :=
  (if_neg htia).trans (if_neg fun h ↦ hriot ((riotLines_iff address).mp h))

end BusAction

/-! ## Banks from calls -/

/-- Cells after the calls of one observer. -/
def replayFrom {size : Nat} (cells : Vector Byte size) (observer : String)
    (calls : List HookCall) : Vector Byte size :=
  (calls.filter (·.observer = observer)).foldl
    (fun cells call ↦ cells.setIfInBounds call.offset call.value) cells

/-- The calls of one observer made again on a zeroed bank. -/
def replay (size : Nat) (observer : String) (calls : List HookCall) : Vector Byte size :=
  replayFrom (Vector.replicate size 0) observer calls

theorem replayFrom_append {size : Nat} (cells : Vector Byte size) (observer : String)
    (first second : List HookCall) :
    replayFrom cells observer (first ++ second) =
      replayFrom (replayFrom cells observer first) observer second := by
  rw [replayFrom, List.filter_append, List.foldl_append]
  rfl

theorem replayFrom_other {size : Nat} (cells : Vector Byte size) {observer other : String}
    (offset : Nat) (value : Byte) (h : other ≠ observer) :
    replayFrom cells observer [⟨other, offset, value⟩] = cells := by
  simp [replayFrom, h]

theorem RegisterBank.cells_write {size : Nat} (bank : RegisterBank size) (observer : String)
    (offset : Fin size) (value : Byte) :
    (bank.write offset value).cells =
      replayFrom bank.cells observer [⟨observer, offset, value⟩] := by
  simp [replayFrom, write, Vector.setIfInBounds, Vector.set, Array.setIfInBounds]

namespace ConsoleBus

/-- A chip changes as its observer is told. -/
theorem cells_write {tiaObserver riotObserver : String} (hobservers : tiaObserver ≠ riotObserver)
    (bus : ConsoleBus) (address : Word) (value : Byte) :
    (bus.write address value).tia.cells = replayFrom bus.tia.cells tiaObserver
        ((BusAction.write address value).hookCalls tiaObserver riotObserver) ∧
      (bus.write address value).riot.cells = replayFrom bus.riot.cells riotObserver
        ((BusAction.write address value).hookCalls tiaObserver riotObserver) := by
  by_cases htia : AddressClass.tia.Contains address
  · rw [BusAction.hookCalls_tia _ _ htia, write, Region.decode_of_tia htia,
      replayFrom_other _ _ _ hobservers]
    exact ⟨bus.tia.cells_write tiaObserver _ value, rfl⟩
  by_cases hriot : AddressClass.riot.Contains address
  · rw [BusAction.hookCalls_riot _ _ htia hriot, write, Region.decode_of_riot htia hriot,
      replayFrom_other _ _ _ hobservers.symm]
    exact ⟨rfl, bus.riot.cells_write riotObserver _ value⟩
  · rw [BusAction.hookCalls_lost _ _ htia hriot, write]
    obtain ⟨offset, hcell⟩ | hcell := Region.decode_of_neither htia hriot
    · rw [hcell]
      exact ⟨rfl, rfl⟩
    · rw [hcell]
      exact ⟨rfl, rfl⟩

/-- At every moment a chip is the replay of its observer's calls since the last reset. -/
theorem cells_foldl_act {tiaObserver riotObserver : String}
    (hobservers : tiaObserver ≠ riotObserver) (actions : List BusAction) :
    (actions.foldl act (observed tiaObserver riotObserver)).tia.cells =
        replay 64 tiaObserver
          ((BusAction.sinceReset actions).flatMap (·.hookCalls tiaObserver riotObserver)) ∧
      (actions.foldl act (observed tiaObserver riotObserver)).riot.cells =
        replay 128 riotObserver
          ((BusAction.sinceReset actions).flatMap (·.hookCalls tiaObserver riotObserver)) := by
  induction actions using List.reverseRecOn with
  | nil => exact ⟨rfl, rfl⟩
  | append_singleton actions action ih =>
    rw [List.foldl_concat, BusAction.sinceReset, List.rtakeWhile_concat]
    cases action with
    | write address value =>
      obtain ⟨htia, hriot⟩ := cells_write hobservers
        (actions.foldl act (observed tiaObserver riotObserver)) address value
      rw [if_pos (by simp), List.flatMap_append, List.flatMap_singleton, replay, replay,
        replayFrom_append, replayFrom_append]
      rw [ih.1] at htia
      rw [ih.2] at hriot
      exact ⟨htia, hriot⟩
    | insertCartridge image =>
      rw [if_pos (by simp), List.flatMap_append, List.flatMap_singleton, BusAction.hookCalls,
        List.append_nil]
      exact ih
    | reset =>
      rw [if_neg (by simp)]
      exact ⟨rfl, rfl⟩

theorem observers_foldl_act (tiaObserver riotObserver : String) (actions : List BusAction) :
    (actions.foldl act (observed tiaObserver riotObserver)).tia.observer = some tiaObserver ∧
      (actions.foldl act (observed tiaObserver riotObserver)).riot.observer =
        some riotObserver := by
  have hact : ∀ (bus : ConsoleBus) action, (bus.act action).tia.observer = bus.tia.observer ∧
      (bus.act action).riot.observer = bus.riot.observer := by
    intro bus action
    cases action with
    | write address value =>
      rw [act, write]
      split <;> exact ⟨rfl, rfl⟩
    | insertCartridge | reset => exact ⟨rfl, rfl⟩
  induction actions using List.reverseRecOn with
  | nil => exact ⟨rfl, rfl⟩
  | append_singleton actions action ih =>
    rw [List.foldl_concat]
    obtain ⟨htia, hriot⟩ := hact (actions.foldl act (observed tiaObserver riotObserver)) action
    exact ⟨htia.trans ih.1, hriot.trans ih.2⟩

/-- A bus whose chips are observed makes the calls that are due. -/
theorem hookCalls_report {tiaObserver riotObserver : String} {bus : ConsoleBus}
    (htiaObserver : bus.tia.observer = some tiaObserver)
    (hriotObserver : bus.riot.observer = some riotObserver) (address : Word) (value : Byte) :
    (bus.report address value).filterMap Event.hookCall? =
      (BusAction.write address value).hookCalls tiaObserver riotObserver := by
  by_cases htia : AddressClass.tia.Contains address
  · rw [BusAction.hookCalls_tia _ _ htia, report, Region.decode_of_tia htia]
    simp only [RegisterBank.report, htiaObserver]
    rfl
  by_cases hriot : AddressClass.riot.Contains address
  · rw [BusAction.hookCalls_riot _ _ htia hriot, report, Region.decode_of_riot htia hriot]
    simp only [RegisterBank.report, hriotObserver]
    rfl
  · rw [BusAction.hookCalls_lost _ _ htia hriot, report]
    obtain ⟨offset, hcell⟩ | hcell := Region.decode_of_neither htia hriot
    · rw [hcell]
      rfl
    · rw [hcell]
      rfl

end ConsoleBus

/-! ## The journal of a session -/

/-- What can be done with a machine on the bus of a console. -/
inductive BoardCall where
  | machine (call : Machine.Call)
  | resetProcessor
  | insertCartridge (image : Array Byte)
  | resetChips

namespace Machine

variable {m m' : Machine ConsoleBus}

def operate (m : Machine ConsoleBus) : BoardCall → Except Failure Answer × Machine ConsoleBus
  | .machine call => m.perform call
  | .resetProcessor => (.ok .done, m.reset)
  | .insertCartridge image => (.ok .done, m.insertCartridge image)
  | .resetChips => (.ok .done, m.resetChips)

/-- The writes of the first steps. -/
def runActions (m : Machine ConsoleBus) : Nat → List BusAction
  | 0 => []
  | count + 1 =>
    (m.stepWrites.map fun entry ↦ .write entry.1 entry.2) ++ m.step.2.runActions count

/-- What a call does to the bus. -/
def callActions (m : Machine ConsoleBus) : BoardCall → List BusAction
  | .machine (.write address value) => [.write address value]
  | .machine call => m.runActions (call.attempts m)
  | .resetProcessor => []
  | .insertCartridge image => [.insertCartridge image]
  | .resetChips => [.reset]

/-- What a session does to the bus. -/
def sessionActions (m : Machine ConsoleBus) : List BoardCall → List BusAction
  | [] => []
  | call :: rest => m.callActions call ++ (m.operate call).2.sessionActions rest

/-- The bus has come from the actions, and the journal shows the calls that are due for them. -/
structure Hooked (tiaObserver riotObserver : String) (actions : List BusAction)
    (m : Machine ConsoleBus) : Prop where
  hookCalls : m.noticed Event.hookCall? = actions.flatMap (·.hookCalls tiaObserver riotObserver)
  bus : m.bus = actions.foldl ConsoleBus.act (.observed tiaObserver riotObserver)

namespace Hooked

variable {tiaObserver riotObserver : String} {actions : List BusAction}

theorem congr (h : Hooked tiaObserver riotObserver actions m)
    (hnoticed : m'.noticed Event.hookCall? = m.noticed Event.hookCall?) (hbus : m'.bus = m.bus) :
    Hooked tiaObserver riotObserver actions m' :=
  ⟨hnoticed.trans h.hookCalls, hbus.trans h.bus⟩

theorem act (h : Hooked tiaObserver riotObserver actions m) {action : BusAction}
    (hnoticed : m'.noticed Event.hookCall? =
      m.noticed Event.hookCall? ++ action.hookCalls tiaObserver riotObserver)
    (hbus : m'.bus = m.bus.act action) :
    Hooked tiaObserver riotObserver (actions ++ [action]) m' where
  hookCalls := by rw [hnoticed, h.hookCalls, List.flatMap_append, List.flatMap_singleton]
  bus := by rw [hbus, h.bus, List.foldl_concat]

theorem write (h : Hooked tiaObserver riotObserver actions m) (address : Word) (value : Byte) :
    Hooked tiaObserver riotObserver (actions ++ [.write address value])
      (m.write address value) := by
  obtain ⟨htia, hriot⟩ := ConsoleBus.observers_foldl_act tiaObserver riotObserver actions
  rw [← h.bus] at htia hriot
  apply h.act
  · rw [noticed_write]
    exact congrArg (_ ++ ·) (ConsoleBus.hookCalls_report htia hriot address value)
  · rfl

theorem writeEach (h : Hooked tiaObserver riotObserver actions m) (writes : List (Word × Byte)) :
    Hooked tiaObserver riotObserver (actions ++ writes.map fun entry ↦ .write entry.1 entry.2)
      (m.writeEach writes) := by
  induction writes generalizing m actions with
  | nil =>
    rw [List.map_nil, List.append_nil]
    exact h
  | cons entry writes ih =>
    have hrest := ih (h.write entry.1 entry.2)
    rw [List.append_assoc] at hrest
    exact hrest

theorem step (h : Hooked tiaObserver riotObserver actions m) :
    Hooked tiaObserver riotObserver
      (actions ++ m.stepWrites.map fun entry ↦ .write entry.1 entry.2) m.step.2 := by
  cases hrunning : m.processor.halted with
  | true =>
    rw [step_of_halted hrunning, stepWrites_of_halted hrunning, List.map_nil, List.append_nil]
    exact h
  | false =>
    have htrace : m.trace.noticed Event.hookCall? = m.noticed Event.hookCall? := by
      rw [noticed_trace]
      match m.tracer with
      | none | some .recording | some .logging => exact List.append_nil _
    have hwrites := (h.congr htrace m.bus_trace).writeEach m.stepWrites
    have hbus : m.step.2.bus = (m.trace.writeEach m.stepWrites).bus :=
      m.bus_step.trans (bus_writeEach_congr m.bus_trace.symm m.stepWrites)
    exact hwrites.congr (noticed_step hrunning fun _ _ ↦ rfl) hbus

theorem after (h : Hooked tiaObserver riotObserver actions m) (count : Nat) :
    Hooked tiaObserver riotObserver (actions ++ m.runActions count) (m.after count) := by
  induction count generalizing m actions with
  | zero =>
    rw [runActions, List.append_nil]
    exact h
  | succ count ih =>
    have hrest := ih h.step
    rw [List.append_assoc] at hrest
    exact hrest

theorem operate (h : Hooked tiaObserver riotObserver actions m) (call : BoardCall) :
    Hooked tiaObserver riotObserver (actions ++ m.callActions call) (m.operate call).2 := by
  have hsteps : ∀ call : Call, ¬call.Interferes →
      Hooked tiaObserver riotObserver (actions ++ m.runActions (call.attempts m))
        (m.perform call).2 := by
    intro call hcall
    rw [(m.perform_course hcall).eq_after]
    exact h.after _
  have hnoted : ∀ entry, (m.note (.logged entry)).noticed Event.hookCall? =
      m.noticed Event.hookCall? := by
    intro entry
    rw [noticed_note]
    exact List.append_nil _
  cases call with
  | machine call =>
    cases call with
    | step => exact hsteps .step id
    | run budget => exact hsteps (.run budget) id
    | read address => exact hsteps (.read address) id
    | set setter => exact (h.after 0).congr rfl rfl
    | write address value => exact h.write address value
  | resetProcessor =>
    rw [callActions, List.append_nil]
    exact h.congr (hnoted _) rfl
  | insertCartridge image =>
    apply h.act
    · exact (hnoted _).trans (List.append_nil _).symm
    · rfl
  | resetChips =>
    apply h.act
    · exact (List.append_nil _).symm
    · rfl

theorem session (h : Hooked tiaObserver riotObserver actions m) (calls : List BoardCall) :
    Hooked tiaObserver riotObserver (actions ++ m.sessionActions calls)
      (performAll Machine.operate m calls).2 := by
  induction calls generalizing m actions with
  | nil =>
    rw [sessionActions, List.append_nil]
    exact h
  | cons call calls ih =>
    have hrest := ih (h.operate call)
    rw [List.append_assoc] at hrest
    exact hrest

end Hooked

/-- **The observers miss nothing.** However a machine with observed chips is used, its journal shows
one call for each write to a chip, with the offset and the value, in the order of the writes, and
none for other writes, for cartridges or for resets. After any number of the actions on the bus each
chip holds what the calls of its observer since the last reset make of a zeroed bank. -/
theorem hooks_complete {tiaObserver riotObserver : String}
    (hobservers : tiaObserver ≠ riotObserver) (p : Processor) (tracer : Option Tracer)
    (calls : List BoardCall) :
    let m : Machine ConsoleBus :=
      { processor := p, bus := .observed tiaObserver riotObserver, tracer := tracer }
    let actions := m.sessionActions calls
    let last := (performAll operate m calls).2
    last.noticed Event.hookCall? = actions.flatMap (·.hookCalls tiaObserver riotObserver) ∧
    last.bus = actions.foldl ConsoleBus.act m.bus ∧
    ∀ count,
      let bus := (actions.take count).foldl ConsoleBus.act m.bus
      let hookCalls := (BusAction.sinceReset (actions.take count)).flatMap
        (·.hookCalls tiaObserver riotObserver)
      bus.tia.cells = replay 64 tiaObserver hookCalls ∧
        bus.riot.cells = replay 128 riotObserver hookCalls := by
  intro m actions last
  have hstart : Hooked tiaObserver riotObserver [] m := ⟨rfl, rfl⟩
  have hsession := hstart.session calls
  refine ⟨hsession.hookCalls, hsession.bus, fun count ↦ ?_⟩
  exact ConsoleBus.cells_foldl_act hobservers (actions.take count)

/-- A write before a reset, one through a mirror, one that is lost, and an interrupt. -/
def interruptSession : List BoardCall :=
  [.machine (.write 0x0006 0x84), .resetChips, .machine (.write 0x2009 0x86),
    .machine (.write 0xF000 0x03), .machine .step]

/-- The observers hear of all the writes but the lost one, and the first write counts no more behind
the reset. -/
theorem hooks_complete_interruptSession :
    let m : Machine ConsoleBus :=
      { processor := .initial 0, bus := .observed "TIA" "RIOT", tracer := some .recording }
    "TIA" ≠ "RIOT" ∧
    (performAll operate m interruptSession).2.noticed Event.hookCall? =
      [⟨"TIA", 0x06, 0x84⟩, ⟨"TIA", 0x09, 0x86⟩, ⟨"RIOT", 0x7F, 0x00⟩, ⟨"RIOT", 0x7E, 0x02⟩,
        ⟨"RIOT", 0x7D, 0x34⟩] ∧
    (performAll operate m interruptSession).2.bus.tia.cells =
      (Vector.replicate 64 0).set 0x09 0x86 := by
  have hobservers : "TIA" ≠ "RIOT" := by decide
  have hactions : Machine.sessionActions
      { processor := .initial 0, bus := .observed "TIA" "RIOT", tracer := some .recording }
      interruptSession = [.write 0x0006 0x84, .reset, .write 0x2009 0x86, .write 0xF000 0x03,
        .write 0x01FF 0x00, .write 0x01FE 0x02, .write 0x01FD 0x34] := rfl
  obtain ⟨hcalls, hbus, hbanks⟩ :=
    hooks_complete hobservers (.initial 0) (some .recording) interruptSession
  have htia := (hbanks 7).1
  rw [hactions] at hcalls hbus htia
  refine ⟨hobservers, hcalls.trans (by decide +kernel), ?_⟩
  rw [hbus]
  exact htia.trans (by decide +kernel)

end Machine

end VideoComputer
