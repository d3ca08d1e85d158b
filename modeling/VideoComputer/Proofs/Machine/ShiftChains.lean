import VideoComputer.Memory.Flat
import VideoComputer.Proofs.Machine.Instructions
import VideoComputer.Proofs.Processor.Shifts

/-!
# Shifts in memory

A number of several bytes is shifted in memory by one instruction for each byte, and the carry flag
takes the bit that leaves one byte to the next. The instructions may stand anywhere and something
else may be done between them, as long as it keeps the carry and the bytes of the number. Main
statement: shifts upwards double the number, shifts downwards halve it, rotations upwards rotate the
bits of the number and the carry, and what stands in a row behind the program counter, apart from
the bytes of the number, is such a sequence of instructions.
-/

namespace VideoComputer

open Modification

/-- An operation that changes a byte of memory finds it by its own operand and the X register. -/
theorem Instruction.mode_of_modifyOperand {opcode : Byte} {i : Instruction} {change : Modification}
    (h : ofOpcode? opcode = some i) (haction : i.operation.action = .modifyOperand change)
    (hmode : i.mode ≠ .accumulator) :
    i.mode ∈ [.zeroPage, .zeroPageX, .absolute, .absoluteX] := by
  have htable : ∀ n < 256, ∀ i ∈ ofOpcode? (UInt8.ofNat n),
      i.operation ∈ [.asl, .lsr, .rol, .ror, .inc, .dec] → i.mode ≠ .accumulator →
        i.mode ∈ [.zeroPage, .zeroPageX, .absolute, .absoluteX] := by
    decide +kernel
  refine forall_documented htable h ?_ hmode
  cases hoperation : i.operation <;> rw [hoperation] at haction <;> first | decide | cases haction

namespace FlatMemory

/-- Loading leaves every other byte alone. -/
theorem read_load (memory : FlatMemory) {address other : Word} {values : List Byte}
    (h : ∀ k < values.length, other ≠ address + UInt16.ofNat k) :
    (memory.load address values).read other = memory.read other := by
  induction values generalizing memory address with
  | nil => rfl
  | cons value values ih =>
    have hfirst : other ≠ address := by
      simpa using h 0 (Nat.succ_pos _)
    rw [load, ih, read_write, if_neg hfirst]
    intro k hk
    rw [Word.add_one_add_ofNat]
    exact h (k + 1) (Nat.succ_lt_succ hk)

/-- What is loaded can be read again, if it does not go round the whole memory. -/
theorem readMany_load (memory : FlatMemory) (address : Word) {values : List Byte}
    (h : values.length ≤ 65536) :
    Bus.readMany (memory.load address values) address values.length = values := by
  induction values generalizing memory address with
  | nil => rfl
  | cons value values ih =>
    rw [List.length_cons] at h
    have hbehind : ∀ k < values.length, address ≠ address + 1 + UInt16.ofNat k := by
      intro k hk heq
      have hnumbers := congrArg UInt16.toNat heq
      have haddress := address.toNat_lt
      have hone : UInt16.toNat 1 = 1 := rfl
      rw [UInt16.toNat_add, UInt16.toNat_add, UInt16.toNat_ofNat', hone] at hnumbers
      omega
    have hfirst : Bus.read ((memory.write address value).load (address + 1) values) address =
        value :=
      (read_load _ hbehind).trans ((read_write ..).trans (if_pos rfl))
    rw [load, List.length_cons, Bus.readMany, hfirst, ih _ _ (by omega)]

end FlatMemory

namespace Machine

section

variable {B : Type} [Bus B]

/-- An instruction at an address that changes a byte of memory in place. -/
structure HoldsModification (m : Machine B) (pc : Word) (i : Instruction) (change : Modification)
    (address : Word) : Prop where
  decode : Instruction.ofOpcode? (m.read pc) = some i
  action : i.operation.action = .modifyOperand change
  mode : i.mode ≠ .accumulator
  target : m.effectiveAddress (pc + 1) i.mode = address

variable {m : Machine B} {i : Instruction} {change : Modification} {address : Word}

/-- The byte is changed, the carry takes what leaves it, and the processor goes on behind the
instruction. -/
theorem HoldsModification.step (h : m.HoldsModification m.processor.pc i change address)
    (hrunning : m.processor.halted = false) :
    ∃ cycles next, m.step = (.ok cycles, next) ∧
      next.bus =
        Bus.write m.bus address (change.result (m.read address) m.processor.flags.carry) ∧
      next.processor = { m.processor with
        pc := m.processor.pc + 1 + UInt16.ofNat i.mode.operandBytes
        flags := change.flags (m.read address) m.processor.flags
        cycles := m.processor.cycles + cycles } := by
  have hnames : i.mode.NamesAddress :=
    Instruction.namesAddress h.decode (by rw [h.action]; exact h.mode)
  have hexecute := modifyOperand_eq (m := m.fetched) hnames change
  have hstep := step_of_execute hrunning h.decode (by rw [h.action]; exact hexecute)
  obtain ⟨journal, hfetched⟩ := m.fetched_eq
  have htarget : m.fetched.target i.mode = address := by
    rw [← h.target, hfetched]
    cases i.mode <;> rfl
  rw [htarget, hfetched] at hstep
  exact ⟨_, _, hstep, rfl, rfl⟩

end

/-! ## Bytes modified one after the other -/

/-- The carry and the bytes of some cells are as before, whatever else has been done. -/
structure Keeps (cells : List Word) (m m' : Machine FlatMemory) : Prop where
  carry : m'.processor.flags.carry = m.processor.flags.carry
  cells : ∀ cell ∈ cells, m'.read cell = m.read cell

/-- The machine is about to change a byte of memory in place. -/
structure Modifies (m : Machine FlatMemory) (change : Modification) (address : Word) : Prop where
  running : m.processor.halted = false
  instruction : ∃ i, m.HoldsModification m.processor.pc i change address

/-- From one machine to another by instructions that change bytes in place, in the order of the
work. What is done before, between and after them keeps the carry and the cells. -/
inductive ModifiesEach (cells : List Word) :
    List (Modification × Word) → Machine FlatMemory → Machine FlatMemory → Prop
  | done {m m' : Machine FlatMemory} (hkeeps : Keeps cells m m') : ModifiesEach cells [] m m'
  | more {m start m' : Machine FlatMemory} {change : Modification} {address : Word}
    {work : List (Modification × Word)} (hkeeps : Keeps cells m start)
    (hmodifies : start.Modifies change address)
    (hrest : ModifiesEach cells work start.step.2 m') :
    ModifiesEach cells ((change, address) :: work) m m'

variable {cells order : List Word} {m m' : Machine FlatMemory} {change first other : Modification}
  {address pc : Word} {work rest : List (Modification × Word)}

theorem Keeps.refl (m : Machine FlatMemory) : Keeps cells m m := ⟨rfl, fun _ _ ↦ rfl⟩

theorem Modifies.step (h : m.Modifies change address) :
    ∃ cycles next, m.step = (.ok cycles, next) ∧
      next.processor.flags.carry = change.carryOut (m.read address) m.processor.flags.carry ∧
      next.read address = change.result (m.read address) m.processor.flags.carry ∧
      ∀ other ≠ address, next.read other = m.read other := by
  obtain ⟨hrunning, i, hinstruction⟩ := h
  obtain ⟨cycles, next, hstep, hbus, hprocessor⟩ := hinstruction.step hrunning
  have hread (other : Word) : next.read other = if other = address
      then change.result (m.read address) m.processor.flags.carry else m.read other := by
    rw [read, hbus]
    exact FlatMemory.read_write ..
  refine ⟨cycles, next, hstep, ?_, ?_, fun other hother ↦ ?_⟩
  · rw [hprocessor]
    rfl
  · rw [hread, if_pos rfl]
  · rw [hread, if_neg hother]

namespace ModifiesEach

theorem split (h : ModifiesEach cells (work ++ rest) m m') :
    ∃ between, ModifiesEach cells work m between ∧ ModifiesEach cells rest between m' := by
  induction work generalizing m with
  | nil => exact ⟨m, .done (.refl m), h⟩
  | cons entry work ih =>
    cases h with
    | more hkeeps hmodifies hrest =>
      obtain ⟨between, hwork, hafter⟩ := ih hrest
      exact ⟨between, .more hkeeps hmodifies hwork, hafter⟩

/-- The bytes of distinct cells are changed as if nothing else happened, and those that are not
among the work are kept. -/
theorem passOn (h : ModifiesEach cells work m m') (hdistinct : (work.map Prod.snd).Nodup)
    (hcells : ∀ entry ∈ work, entry.2 ∈ cells) :
    Modification.passOn m.processor.flags.carry
        (work.map fun entry ↦ (entry.1, m.read entry.2)) =
      (m'.processor.flags.carry, (work.map Prod.snd).map m'.read) ∧
    ∀ cell ∈ cells, cell ∉ work.map Prod.snd → m'.read cell = m.read cell := by
  induction h with
  | done hkeeps =>
    exact ⟨congrArg (·, []) hkeeps.carry.symm, fun cell hcell _ ↦ hkeeps.cells cell hcell⟩
  | @more m start m' change address work hkeeps hmodifies hrest ih =>
    obtain ⟨hfresh, hdistinct⟩ := List.nodup_cons.mp hdistinct
    obtain ⟨haddress, hcells⟩ := List.forall_mem_cons.mp hcells
    obtain ⟨hpassed, hothers⟩ := ih hdistinct hcells
    obtain ⟨cycles, next, hstep, hcarry, hresult, hkept⟩ := hmodifies.step
    rw [hstep] at hpassed hothers
    have hbyte : start.read address = m.read address := hkeeps.cells address haddress
    -- The cells of the other entries are as they were, so that the rest starts from the same bytes.
    have hunchanged : work.map (fun entry ↦ (entry.1, next.read entry.2)) =
        work.map fun entry ↦ (entry.1, m.read entry.2) := by
      refine List.map_congr_left fun entry hentry ↦ congrArg (entry.1, ·) ?_
      have hother : entry.2 ≠ address := fun heq ↦
        hfresh (List.mem_map.mpr ⟨entry, hentry, heq⟩)
      rw [hkept _ hother, hkeeps.cells _ (hcells entry hentry)]
    constructor
    · have hfirst : m'.read address = change.result (m.read address) m.processor.flags.carry := by
        rw [hothers address haddress hfresh, hresult, hbyte, hkeeps.carry]
      rw [hcarry, hunchanged, hbyte, hkeeps.carry] at hpassed
      rw [List.map_cons, Modification.passOn, hpassed, List.map_cons, List.map_cons, hfirst]
    · intro cell hcell habsent
      obtain ⟨hother, habsent⟩ := not_or.mp (mt List.mem_cons.mpr habsent)
      rw [hothers cell hcell habsent, hkept cell hother, hkeeps.cells cell hcell]

/-- What a chain leaves in its cells and in the carry. -/
theorem passOn_chain (h : ModifiesEach cells (chain first other order) m m')
    (hdistinct : order.Nodup) (hcells : ∀ cell ∈ order, cell ∈ cells) :
    Modification.passOn m.processor.flags.carry
        (Modification.chain first other (order.map m.read)) =
      (m'.processor.flags.carry, order.map m'.read) := by
  have haddresses := map_snd_chain first other order
  have hpassed := (h.passOn (by rwa [haddresses]) fun entry hentry ↦ hcells _ (by
    rw [← haddresses]
    exact List.mem_map_of_mem hentry)).1
  rwa [map_chain, haddresses] at hpassed

end ModifiesEach

/-! ## Instructions in a row -/

/-- From an address on stand instructions that change bytes in place, one for each entry of the work
and one behind the other. The bytes that they change are among the cells, their own bytes are not.
-/
def HoldsCode (m : Machine FlatMemory) (cells : List Word) :
    Word → List (Modification × Word) → Prop
  | _, [] => True
  | pc, (change, address) :: work =>
    ∃ i, m.HoldsModification pc i change address ∧ address ∈ cells ∧
      (∀ offset ≤ i.mode.operandBytes, pc + UInt16.ofNat offset ∉ cells) ∧
      m.HoldsCode cells (pc + 1 + UInt16.ofNat i.mode.operandBytes) work

/-- An instruction is the same where its bytes and the X register are. -/
theorem HoldsModification.congr {i : Instruction} (h : m.HoldsModification pc i change address)
    (hx : m'.processor.x = m.processor.x)
    (hread : ∀ offset ≤ i.mode.operandBytes,
      m'.read (pc + UInt16.ofNat offset) = m.read (pc + UInt16.ofNat offset)) :
    m'.HoldsModification pc i change address := by
  have hopcode : m'.read pc = m.read pc := by
    simpa using hread 0 (Nat.zero_le _)
  refine ⟨by rw [hopcode]; exact h.decode, h.action, h.mode, ?_⟩
  rw [← h.target]
  have hmode := Instruction.mode_of_modifyOperand h.decode h.action h.mode
  generalize i.mode = mode at hmode hread
  have hlow (hbytes : 1 ≤ mode.operandBytes) : m'.read (pc + 1) = m.read (pc + 1) :=
    hread 1 hbytes
  have hhigh (hbytes : 2 ≤ mode.operandBytes) : m'.read (pc + 1 + 1) = m.read (pc + 1 + 1) := by
    rw [← Word.add_two]
    exact hread 2 hbytes
  simp only [List.mem_cons, List.not_mem_nil, or_false] at hmode
  obtain rfl | rfl | rfl | rfl := hmode
  · simp only [effectiveAddress, hlow (by decide)]
  · simp only [effectiveAddress, hlow (by decide), hx]
  · simp only [effectiveAddress, wordAt, hlow (by decide), hhigh (by decide)]
  · simp only [effectiveAddress, wordAt, hlow (by decide), hhigh (by decide), hx]

theorem HoldsCode.congr (h : m.HoldsCode cells pc work) (hx : m'.processor.x = m.processor.x)
    (hread : ∀ address ∉ cells, m'.read address = m.read address) :
    m'.HoldsCode cells pc work := by
  induction work generalizing pc with
  | nil => trivial
  | cons entry work ih =>
    obtain ⟨i, hinstruction, haddress, happart, hrest⟩ := h
    exact ⟨i, hinstruction.congr hx fun offset hoffset ↦ hread _ (happart offset hoffset), haddress,
      happart, ih hrest⟩

/-- Instructions in a row are run one after the other, and none of them fails. -/
theorem HoldsCode.run (h : m.HoldsCode cells m.processor.pc work)
    (hrunning : m.processor.halted = false) :
    m.Completes work.length ∧ ModifiesEach cells work m (m.after work.length) := by
  induction work generalizing m with
  | nil => exact ⟨m.completes_zero, .done (.refl m)⟩
  | cons entry work ih =>
    obtain ⟨i, hinstruction, haddress, happart, hrest⟩ := h
    obtain ⟨cycles, next, hstep, hbus, hprocessor⟩ := hinstruction.step hrunning
    have hread : ∀ other ∉ cells, next.read other = m.read other := by
      intro other hother
      have hapart : other ≠ entry.2 := by
        rintro rfl
        exact hother haddress
      rw [read, hbus]
      exact (FlatMemory.read_write ..).trans (if_neg hapart)
    -- The code is apart from the cells, and the first instruction has written to one of them.
    have hnext : next.HoldsCode cells next.processor.pc work := by
      rw [hprocessor]
      exact hrest.congr (by rw [hprocessor]) hread
    obtain ⟨hcompletes, hwork⟩ := ih hnext (by rw [hprocessor]; exact hrunning)
    have hafter : m.after (work.length + 1) = next.after work.length := by
      rw [after, hstep]
    rw [List.length_cons, hafter]
    refine ⟨hcompletes.cons hstep, .more (.refl m) ⟨hrunning, i, hinstruction⟩ ?_⟩
    rwa [hstep]

/-- The operation that makes a modification of memory, and its opcode for any address. -/
def modifier : Modification → Operation × Byte
  | .shiftLeft => (.asl, 0x0E)
  | .shiftRight => (.lsr, 0x4E)
  | .rotateLeft => (.rol, 0x2E)
  | .rotateRight => (.ror, 0x6E)
  | .increment => (.inc, 0xEE)
  | .decrement => (.dec, 0xCE)

/-- The code that modifies bytes one after the other. -/
def modifyingCode : List (Modification × Word) → List Byte
  | [] => []
  | (change, address) :: work =>
    (modifier change).2 :: address.low :: address.high :: modifyingCode work

/-- Every work on cells has a code, and it can stand wherever the cells are not. -/
theorem holdsCode_modifyingCode
    (hcode : Bus.readMany m.bus pc (modifyingCode work).length = modifyingCode work)
    (hcells : ∀ entry ∈ work, entry.2 ∈ cells)
    (happart : ∀ offset < (modifyingCode work).length, pc + UInt16.ofNat offset ∉ cells) :
    m.HoldsCode cells pc work := by
  induction work generalizing pc with
  | nil => trivial
  | cons entry work ih =>
    obtain ⟨change, address⟩ := entry
    obtain ⟨haddress, hcells⟩ := List.forall_mem_cons.mp hcells
    obtain ⟨hopcode, hcode⟩ := List.cons_eq_cons.mp hcode
    obtain ⟨hlow, hcode⟩ := List.cons_eq_cons.mp hcode
    obtain ⟨hhigh, hcode⟩ := List.cons_eq_cons.mp hcode
    have hdecode : Instruction.ofOpcode? (m.read pc) =
        some ⟨(modifier change).1, .absolute, 6⟩ := by
      rw [read, hopcode]
      cases change <;> rfl
    have htarget : m.effectiveAddress (pc + 1) .absolute = address := by
      rw [effectiveAddress, wordAt, read, read, hlow, hhigh, Word.join_low_high]
    have hnext : pc + 1 + UInt16.ofNat AddressingMode.absolute.operandBytes = pc + 1 + 1 + 1 :=
      Word.add_two (pc + 1)
    have hmode : AddressingMode.absolute ≠ .accumulator := by decide
    refine ⟨⟨(modifier change).1, .absolute, 6⟩, ⟨hdecode, ?_, hmode, htarget⟩, haddress, ?_, ?_⟩
    · cases change <;> rfl
    · intro offset hoffset
      have hlast : offset ≤ 2 := hoffset
      apply happart offset
      simp only [modifyingCode, List.length_cons]
      omega
    · change m.HoldsCode cells (pc + 1 + UInt16.ofNat AddressingMode.absolute.operandBytes) work
      rw [hnext]
      refine ih hcode hcells fun offset hoffset ↦ ?_
      rw [Word.add_one_add_ofNat, Word.add_one_add_ofNat, Word.add_one_add_ofNat]
      exact happart (offset + 3) (Nat.add_lt_add_right hoffset 3)

/-! ## Numbers in memory -/

/-- The number at some addresses, the least significant byte first. -/
def numberAt (m : Machine FlatMemory) (cells : List Word) : Nat := Byte.number (cells.map m.read)

/-- The number at some addresses with the carry on top. -/
def carriedAt (m : Machine FlatMemory) (cells : List Word) : BitVec (8 * cells.length + 1) :=
  Byte.carried cells.length m.processor.flags.carry (m.numberAt cells)

theorem numberAt_lt (m : Machine FlatMemory) (cells : List Word) :
    m.numberAt cells < 256 ^ cells.length :=
  Byte.number_map_lt m.read cells

/-- The number and the carry are all that is kept. -/
theorem keeps_of_carriedAt_eq (h : m'.carriedAt cells = m.carriedAt cells) :
    Keeps cells m m' := by
  obtain ⟨hcarry, hnumber⟩ := Byte.eq_of_carried_eq (m'.numberAt_lt cells) (m.numberAt_lt cells) h
  have hlengths : (cells.map m'.read).length = (cells.map m.read).length := by
    rw [List.length_map, List.length_map]
  exact ⟨hcarry, List.map_inj_left.mp (Byte.eq_of_number_eq hlengths hnumber)⟩

theorem carriedAt_congr (h : Keeps cells m m') : m'.carriedAt cells = m.carriedAt cells := by
  rw [carriedAt, carriedAt, numberAt, numberAt, h.carry, List.map_congr_left h.cells]

namespace ModifiesEach

section

variable (hdistinct : cells.Nodup)

include hdistinct

/-- A chain from the least significant byte upwards. -/
theorem passOn_upwards (h : ModifiesEach cells (Modification.chain first other cells) m m') :
    Modification.passOn m.processor.flags.carry
        (Modification.chain first other (cells.map m.read)) =
      (m'.processor.flags.carry, cells.map m'.read) :=
  h.passOn_chain hdistinct fun _ hcell ↦ hcell

/-- A chain from the most significant byte downwards. -/
theorem passOn_downwards
    (h : ModifiesEach cells (Modification.chain first other cells.reverse) m m') :
    Modification.passOn m.processor.flags.carry
        (Modification.chain first other (cells.map m.read).reverse) =
      (m'.processor.flags.carry, (cells.map m'.read).reverse) := by
  have hpassed := h.passOn_chain (List.nodup_reverse.mpr hdistinct) fun _ ↦ List.mem_reverse.mp
  rwa [List.map_reverse, List.map_reverse] at hpassed

/-- Rotations downwards undo those upwards. -/
theorem restores
    (h : ModifiesEach cells (Modification.chain .rotateLeft .rotateLeft cells ++
      Modification.chain .rotateRight .rotateRight cells.reverse) m m') : Keeps cells m m' := by
  obtain ⟨between, hup, hdown⟩ := h.split
  obtain ⟨hcarry, hrestored⟩ :=
    rotateRight_restores (hup.passOn_upwards hdistinct) (hdown.passOn_downwards hdistinct)
  rw [List.reverse_reverse] at hrestored
  exact ⟨hcarry, List.map_inj_left.mp hrestored⟩

variable (hcells : cells ≠ [])

include hcells

theorem shiftsLeft (h : ModifiesEach cells (Modification.chain .shiftLeft .rotateLeft cells) m m') :
    m'.numberAt cells = 2 * m.numberAt cells % 256 ^ cells.length ∧
      (m'.processor.flags.carry = true ↔ 256 ^ cells.length ≤ 2 * m.numberAt cells) := by
  have hdoubled :=
    shiftLeft_doubles (mt List.map_eq_nil_iff.mp hcells) (h.passOn_upwards hdistinct)
  rwa [List.length_map] at hdoubled

theorem shiftsRight
    (h : ModifiesEach cells (Modification.chain .shiftRight .rotateRight cells.reverse) m m') :
    m'.numberAt cells = m.numberAt cells / 2 ∧
      m'.processor.flags.carry.toNat = m.numberAt cells % 2 := by
  have hhalved :=
    shiftRight_halves (mt List.map_eq_nil_iff.mp hcells) (h.passOn_downwards hdistinct)
  rwa [List.reverse_reverse] at hhalved

/-- One rotation of every byte, from the least significant one on, rotates the number and the carry.
-/
theorem rotatesLeft
    (h : ModifiesEach cells (Modification.chain .rotateLeft .rotateLeft cells) m m') :
    m'.carriedAt cells = (m.carriedAt cells).rotateLeft 1 := by
  have hdoubled := passOn_rotateLeft (h.passOn_upwards hdistinct)
  rw [List.length_map] at hdoubled
  exact Byte.carried_double (List.length_pos_iff.mpr hcells) (m.numberAt_lt cells)
    (m'.numberAt_lt cells) hdoubled

theorem rotatesLeft_replicate {count : Nat}
    (h : ModifiesEach cells
      (List.replicate count (Modification.chain .rotateLeft .rotateLeft cells)).flatten m m') :
    m'.carriedAt cells = (·.rotateLeft 1)^[count] (m.carriedAt cells) := by
  induction count generalizing m with
  | zero =>
    cases h with
    | done hkeeps => exact carriedAt_congr hkeeps
  | succ count ih =>
    rw [List.replicate_succ, List.flatten_cons] at h
    obtain ⟨between, hfirst, hothers⟩ := h.split
    rw [ih hothers, hfirst.rotatesLeft hdistinct hcells, Function.iterate_succ_apply]

/-- As many rotations as the number and the carry have bits. -/
theorem rotatesLeft_around
    (h : ModifiesEach cells (List.replicate (8 * cells.length + 1)
      (Modification.chain .rotateLeft .rotateLeft cells)).flatten m m') : Keeps cells m m' := by
  have hwidth : 1 < 8 * cells.length + 1 := by
    have hlength := List.length_pos_iff.mpr hcells
    omega
  apply keeps_of_carriedAt_eq
  rw [h.rotatesLeft_replicate hdistinct hcells, BitRotation.iterate_width _ hwidth]

end

end ModifiesEach

/-- **A number of several bytes in memory is shifted and rotated as a whole.** Its bytes lie at
distinct addresses, the least significant one first. A shift of the first byte to the left and
rotations of the others double it up to its width, and the carry tells what does not fit; a shift of
the last byte to the right and rotations of the others downwards halve it, and the carry is the
remainder. Rotations to the left and then to the right give back the bytes and the carry. Rotations
to the left rotate the number with the carry on top, and as many of them as that has bits change
nothing. Such instructions in a row, whose own bytes are apart from those of the number, are run
without failure and one after the other. -/
theorem shifts_in_memory (hdistinct : cells.Nodup) (hcells : cells ≠ []) :
    (∀ m m' : Machine FlatMemory,
      (ModifiesEach cells (chain .shiftLeft .rotateLeft cells) m m' →
        m'.numberAt cells = 2 * m.numberAt cells % 256 ^ cells.length ∧
        (m'.processor.flags.carry = true ↔ 256 ^ cells.length ≤ 2 * m.numberAt cells)) ∧
      (ModifiesEach cells (chain .shiftRight .rotateRight cells.reverse) m m' →
        m'.numberAt cells = m.numberAt cells / 2 ∧
        m'.processor.flags.carry.toNat = m.numberAt cells % 2) ∧
      (ModifiesEach cells (chain .rotateLeft .rotateLeft cells ++
          chain .rotateRight .rotateRight cells.reverse) m m' →
        Keeps cells m m') ∧
      (ModifiesEach cells (chain .rotateLeft .rotateLeft cells) m m' →
        m'.carriedAt cells = (m.carriedAt cells).rotateLeft 1) ∧
      (ModifiesEach cells (List.replicate (8 * cells.length + 1)
          (chain .rotateLeft .rotateLeft cells)).flatten m m' →
        Keeps cells m m')) ∧
    ∀ (m : Machine FlatMemory) (work : List (Modification × Word)),
      m.processor.halted = false → m.HoldsCode cells m.processor.pc work →
      m.Completes work.length ∧ ModifiesEach cells work m (m.after work.length) := by
  refine ⟨fun m m' ↦ ⟨?_, ?_, ?_, ?_, ?_⟩, fun m work hrunning hcode ↦ hcode.run hrunning⟩
  · exact fun h ↦ h.shiftsLeft hdistinct hcells
  · exact fun h ↦ h.shiftsRight hdistinct hcells
  · exact fun h ↦ h.restores hdistinct
  · exact fun h ↦ h.rotatesLeft hdistinct hcells
  · exact fun h ↦ h.rotatesLeft_around hdistinct hcells

/-- The number 0xC081 on page zero, and a code at 0x0200. -/
def shifting (work : List (Modification × Word)) : Machine FlatMemory where
  processor := .initial 0x0200
  bus := (FlatMemory.zeroed.load 0x0010 [0x81, 0xC0]).load 0x0200 (modifyingCode work)

theorem shifting_holdsCode {work : List (Modification × Word)}
    (hcells : ∀ entry ∈ work, entry.2 ∈ [0x0010, 0x0011])
    (hlength : (modifyingCode work).length ≤ 0x1000) :
    (shifting work).HoldsCode [0x0010, 0x0011] 0x0200 work ∧
      (shifting work).numberAt [0x0010, 0x0011] = 0xC081 := by
  have happart : ∀ cell ∈ [(0x0010 : Word), 0x0011], ∀ offset < (modifyingCode work).length,
      cell ≠ 0x0200 + UInt16.ofNat offset := by
    intro cell hcell offset hoffset heq
    have hlow : cell.toNat < 0x0200 := by
      simp only [List.mem_cons, List.not_mem_nil, or_false] at hcell
      obtain rfl | rfl := hcell <;> decide
    have hstart : UInt16.toNat 0x0200 = 0x0200 := rfl
    rw [heq, UInt16.toNat_add, UInt16.toNat_ofNat', hstart] at hlow
    omega
  constructor
  · refine holdsCode_modifyingCode (FlatMemory.readMany_load _ _ (by omega)) hcells ?_
    exact fun offset hoffset hcell ↦ happart _ hcell offset hoffset rfl
  · have hread : [(0x0010 : Word), 0x0011].map (shifting work).read = [0x81, 0xC0] := by
      have hkept : ∀ cell ∈ [(0x0010 : Word), 0x0011], (shifting work).read cell =
          (FlatMemory.zeroed.load 0x0010 [0x81, 0xC0]).read cell :=
        fun cell hcell ↦ FlatMemory.read_load _ (happart cell hcell)
      rw [List.map_congr_left hkept]
      exact FlatMemory.readMany_load FlatMemory.zeroed 0x0010
        (show [(0x81 : Byte), 0xC0].length ≤ 65536 by decide)
    rw [numberAt, hread]
    rfl

/-- The number 0xC081 is doubled to 0x8102 and halved to 0x6040, each time with a carry; rotations
come back to it. -/
theorem shifts_in_memory_shifting :
    let cells : List Word := [0x0010, 0x0011]
    let up := chain .rotateLeft .rotateLeft cells
    let down := chain .rotateRight .rotateRight cells.reverse
    let doubled := (shifting (chain .shiftLeft .rotateLeft cells)).after 2
    let halved := (shifting (chain .shiftRight .rotateRight cells.reverse)).after 2
    let around := (List.replicate 17 up).flatten
    (doubled.numberAt cells = 0x8102 ∧ doubled.processor.flags.carry = true) ∧
      (halved.numberAt cells = 0x6040 ∧ halved.processor.flags.carry.toNat = 1) ∧
      Keeps cells (shifting (up ++ down)) ((shifting (up ++ down)).after 4) ∧
      ((shifting up).after 2).carriedAt cells = ((shifting up).carriedAt cells).rotateLeft 1 ∧
      (shifting around).Completes 34 ∧
      Keeps cells (shifting around) ((shifting around).after 34) := by
  intro cells up down doubled halved around
  obtain ⟨hshifts, hcode⟩ := shifts_in_memory (show cells.Nodup by decide) (by decide)
  have hruns (work : List (Modification × Word)) (hcells : ∀ entry ∈ work, entry.2 ∈ cells)
      (hlength : (modifyingCode work).length ≤ 0x1000) :=
    hcode (shifting work) work rfl (shifting_holdsCode hcells hlength).1
  have hnumber (work : List (Modification × Word)) (hcells : ∀ entry ∈ work, entry.2 ∈ cells)
      (hlength : (modifyingCode work).length ≤ 0x1000) :=
    (shifting_holdsCode hcells hlength).2
  refine ⟨?_, ?_, ?_, ?_, ?_⟩
  · let work := chain .shiftLeft .rotateLeft cells
    obtain ⟨hdoubled, hcarry⟩ := (hshifts _ _).1 (hruns work (by decide) (by decide)).2
    rw [hnumber work (by decide) (by decide)] at hdoubled hcarry
    exact ⟨hdoubled.trans (by decide), hcarry.mpr (by decide)⟩
  · let work := chain .shiftRight .rotateRight cells.reverse
    obtain ⟨hhalved, hcarry⟩ := (hshifts _ _).2.1 (hruns work (by decide) (by decide)).2
    rw [hnumber work (by decide) (by decide)] at hhalved hcarry
    exact ⟨hhalved, hcarry⟩
  · exact (hshifts _ _).2.2.1 (hruns (up ++ down) (by decide) (by decide)).2
  · exact (hshifts _ _).2.2.2.1 (hruns up (by decide) (by decide)).2
  · obtain ⟨hcompletes, haround⟩ := hruns around (by decide) (by decide)
    exact ⟨hcompletes, (hshifts _ _).2.2.2.2 haround⟩

end Machine

end VideoComputer
