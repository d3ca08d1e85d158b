import VideoComputer.Proofs.Console.StoreProgram
import VideoComputer.Proofs.Machine.Budget
import VideoComputer.Proofs.Machine.StackInstructions

/-!
# The sum of the cycles of a scanline

A scanline adds up the cycles of its steps in 32 bits, beside the counter of the processor, which
has 64. It gives up at the step with which the sum does not fit, although no step has failed. No
step takes more than seven cycles, so that 613566756 of them always fit. Main statement: up to that
number of steps both sums go through and agree. With one step more they need not: a cartridge of
zeros makes the console take interrupts for ever, of seven cycles each, and the last of them does
not fit.

The loop of interrupts is kept up by what its pushes do not reach, the television chip, in which the
processor finds its instructions, and the cartridge, in which it finds the vector.
-/

namespace VideoComputer

namespace Machine

section Bursts

variable {m next : Machine ConsoleBus} {total sum count : Nat}

theorem cost_of_ok {cycles : Nat} (h : m.step = (.ok cycles, next)) : m.cost = cycles := by
  rw [cost, h]

/-- The first of some steps costs its part, and the machine behind it the others. -/
theorem spent_succ_of_ok {cycles : Nat} (h : m.step = (.ok cycles, next)) (count : Nat) :
    m.spent (count + 1) = cycles + next.spent count := by
  have hsum : m.spent (count + 1) = m.step.2.spent count + m.cost := Finset.sum_range_succ' _ count
  rw [hsum, cost_of_ok h, h, Nat.add_comm]

theorem spent_one_of_ok {cycles : Nat} (h : m.step = (.ok cycles, next)) : m.spent 1 = cycles :=
  spent_succ_of_ok h 0

theorem runSteps_of_ok {cycles : Nat} (hstep : m.step = (.ok cycles, next)) :
    m.runSteps total (count + 1) =
      if total + cycles < 2 ^ 32 then next.runSteps (total + cycles) count
      else (.error .cycleSumOverflow, next) := by
  rw [runSteps, hstep]
  rfl

/-- A burst that succeeds returns what its steps have cost. -/
theorem sum_of_runSteps_ok (h : m.runSteps total count = (.ok sum, next)) :
    sum = total + m.spent count := by
  induction count generalizing m total with
  | zero =>
    cases h
    rfl
  | succ count ih =>
    match hstep : m.step with
    | (.error failure, last) =>
      rw [runSteps, hstep] at h
      cases h
    | (.ok cycles, last) =>
      rw [runSteps_of_ok hstep] at h
      split at h
      · rw [ih h, spent_succ_of_ok hstep, Nat.add_assoc]
      · cases h

/-- A sum that stands at `total` takes the cycles of `done` successful steps and not those of the
next, which succeeds as well. -/
structure Outgrows (m : Machine ConsoleBus) (total done : Nat) (last : Machine ConsoleBus) :
    Prop where
  completes : m.Completes (done + 1)
  fits : total + m.spent done < 2 ^ 32
  outgrown : 2 ^ 32 ≤ total + m.spent (done + 1)
  eq_after : last = m.after (done + 1)

/-- A sum that takes the first step is outgrown one step later than the steps behind it tell. -/
theorem Outgrows.cons {last : Machine ConsoleBus} {cycles done : Nat}
    (hstep : m.step = (.ok cycles, next)) (h : next.Outgrows (total + cycles) done last) :
    m.Outgrows total (done + 1) last where
  completes := h.completes.cons hstep
  fits := by
    rw [spent_succ_of_ok hstep, ← Nat.add_assoc]
    exact h.fits
  outgrown := by
    rw [spent_succ_of_ok hstep, ← Nat.add_assoc]
    exact h.outgrown
  eq_after := by
    rw [after, hstep]
    exact h.eq_after

/-- Where a burst reports that its sum does not fit, no step of it has failed. -/
theorem outgrows_of_runSteps (htotal : total < 2 ^ 32)
    (h : m.runSteps total count = (.error .cycleSumOverflow, next)) :
    ∃ done < count, m.Outgrows total done next := by
  induction count generalizing m total with
  | zero => cases h
  | succ count ih =>
    match hstep : m.step with
    | (.error failure, last) =>
      -- A step that fails reports another failure.
      rw [runSteps, hstep] at h
      obtain ⟨-, rfl, -⟩ | ⟨-, -, rfl, -⟩ := step_error_cases hstep
      · cases h
      · cases h
    | (.ok cycles, last) =>
      rw [runSteps_of_ok hstep] at h
      split at h
      · rename_i hfits
        obtain ⟨done, hdone, houtgrows⟩ := ih hfits h
        exact ⟨done + 1, Nat.succ_lt_succ hdone, houtgrows.cons hstep⟩
      · rename_i hbeyond
        cases h
        refine ⟨0, Nat.succ_pos count, .cons hstep (completes_zero _), htotal, ?_, ?_⟩
        · rw [spent_one_of_ok hstep]
          exact Nat.le_of_not_lt hbeyond
        · rw [after, hstep, after]

/-- A burst in which the sum has to fit 32 bits and the counter of the processor 64. -/
def countedRunSteps (m : Machine ConsoleBus) (total : Nat) :
    Nat → Except Fault (Except Failure Nat × Machine ConsoleBus)
  | 0 => .ok (.ok total, m)
  | count + 1 => do
    match ← m.countedStep with
    | (.error failure, m) => return (.error failure, m)
    | (.ok cycles, m) =>
      let total ← Checked.unsigned 32 (total + cycles)
      m.countedRunSteps total count

theorem countedRunSteps_of_ok {cycles : Nat} (hstep : m.step = (.ok cycles, next))
    (hcounter : m.processor.cycles + cycles < 2 ^ 64) :
    m.countedRunSteps total (count + 1) = (do
      let total ← Checked.unsigned 32 (total + cycles)
      next.countedRunSteps total count) := by
  rw [countedRunSteps, countedStep_of_ok hstep, Checked.unsigned_of_lt hcounter]
  rfl

/-- Seven cycles for every step are room enough for both. -/
theorem countedRunSteps_eq (hsum : total + 7 * count < 2 ^ 32)
    (hcounter : m.processor.cycles + 7 * count < 2 ^ 64) :
    m.countedRunSteps total count = .ok (m.runSteps total count) := by
  induction count generalizing m total with
  | zero => rfl
  | succ count ih =>
    match hstep : m.step with
    | (.error failure, next) =>
      rw [countedRunSteps, countedStep_of_error hstep, runSteps, hstep]
      rfl
    | (.ok cycles, next) =>
      have hcycles : cycles ≤ 7 := cycles_le_seven (congrArg Prod.fst hstep)
      have hgrowth := (cycles_step hstep).2
      have hfits : total + cycles < 2 ^ 32 := by omega
      rw [countedRunSteps_of_ok hstep (by omega), Checked.unsigned_of_lt hfits, Checked.bind_ok,
        ih (by omega) (by omega), runSteps_of_ok hstep, if_pos hfits]

/-- Where successful steps fit the sum but for the last one, the burst stops at that one. -/
theorem runSteps_overflow (h : m.Completes (count + 1)) (hfits : total + m.spent count < 2 ^ 32)
    (hover : 2 ^ 32 ≤ total + m.spent (count + 1))
    (hcounter : m.processor.cycles + m.spent (count + 1) < 2 ^ 64) :
    m.countedRunSteps total (count + 1) =
        .error (.overflow 32 (total + m.spent (count + 1))) ∧
      m.runSteps total (count + 1) = (.error .cycleSumOverflow, m.after (count + 1)) := by
  induction count generalizing m total with
  | zero =>
    obtain ⟨cycles, next, hstep, -⟩ := h.uncons
    have hspent := spent_one_of_ok hstep
    rw [hspent] at hover hcounter
    have hbeyond : ¬total + cycles < 2 ^ 32 := Nat.not_lt_of_le hover
    constructor
    · rw [countedRunSteps_of_ok hstep hcounter, Checked.unsigned, if_neg hbeyond, hspent]
      rfl
    · rw [runSteps_of_ok hstep, if_neg hbeyond, after, hstep, after]
  | succ count ih =>
    obtain ⟨cycles, next, hstep, hrest⟩ := h.uncons
    have hspent := spent_succ_of_ok hstep
    have hgrowth := (cycles_step hstep).2
    rw [hspent] at hfits hover hcounter
    have hcontinues : total + cycles + next.spent count < 2 ^ 32 := by omega
    obtain ⟨hcounted, hburst⟩ := ih hrest hcontinues (by omega) (by omega)
    constructor
    · rw [countedRunSteps_of_ok hstep (by omega), Checked.unsigned_of_lt (by omega),
        Checked.bind_ok, hcounted, hspent, Nat.add_assoc]
    · have hafter : m.after (count + 2) = next.after (count + 1) := by rw [after, hstep]
      rw [runSteps_of_ok hstep, if_pos (by omega), hburst, hafter]

end Bursts

/-! ## A loop of interrupts -/

/-- Writes to the stack page reach neither the television chip nor the cartridge. -/
theorem chips_writeEach_stackCell (m : Machine ConsoleBus) {writes : List (Word × Byte)}
    (hwrites : ∀ entry ∈ writes, ∃ sp, entry.1 = stackCell sp) :
    (m.writeEach writes).bus.tia = m.bus.tia ∧
      (m.writeEach writes).bus.cartridge = m.bus.cartridge := by
  induction writes generalizing m with
  | nil => exact ⟨rfl, rfl⟩
  | cons entry writes ih =>
    obtain ⟨sp, hsp⟩ := hwrites entry List.mem_cons_self
    obtain ⟨htia, hcartridge⟩ := m.bus.chips_write_stackCell sp entry.2
    rw [← hsp] at htia hcartridge
    obtain ⟨htiaRest, hcartridgeRest⟩ := ih (m.write entry.1 entry.2) fun other hother ↦
      hwrites other (List.mem_cons_of_mem entry hother)
    exact ⟨htiaRest.trans htia, hcartridgeRest.trans hcartridge⟩

/-- About to take an interrupt that leads back to address 0, where the television chip shows the
interrupt's opcode. -/
structure Interrupts (m : Machine ConsoleBus) : Prop where
  running : m.processor.halted = false
  pc : m.processor.pc = 0
  opcode : m.bus.tia.read 0 = 0
  vector : m.bus.cartridge.read 0xFFE = 0 ∧ m.bus.cartridge.read 0xFFF = 0

variable {m : Machine ConsoleBus}

/-- The interrupt vector lies at the end of the cartridge. -/
theorem readWord_interruptVector (bus : ConsoleBus) :
    Bus.readWord bus interruptVector =
      .join (bus.cartridge.read 0xFFE) (bus.cartridge.read 0xFFF) := by
  have hlow : interruptVector = romAddress 0xFFE := by decide
  have hhigh : interruptVector + 1 = romAddress 0xFFF := by decide
  rw [Bus.readWord, hhigh, hlow, bus.read_romAddress (by decide), bus.read_romAddress (by decide)]

/-- An interrupt pushes its address and the status, comes back and has taken seven cycles. -/
theorem Interrupts.step (h : m.Interrupts) : m.step.1 = .ok 7 ∧ m.step.2.Interrupts := by
  have hopcode : m.read m.processor.pc = 0 := by
    rw [h.pc]
    exact h.opcode
  have hdecode : Instruction.ofOpcode? (m.read m.processor.pc) = some ⟨.brk, .implicit, 7⟩ := by
    rw [hopcode]
    rfl
  refine ⟨step_fst h.running hdecode, ?_⟩
  obtain ⟨cycles, next, hstep, hbus, hprocessor⟩ := stepsTo_interrupt h.running hdecode rfl
  have hwrites : ∀ entry ∈ wordWrites m.processor.sp (m.processor.pc + 2) ++
      [(stackCell (m.processor.sp - 2), m.processor.status ||| 0x30)],
      ∃ sp, entry.1 = stackCell sp := by
    simp only [wordWrites, List.cons_append, List.nil_append, List.forall_mem_cons,
      List.not_mem_nil, false_imp_iff, implies_true, and_true]
    exact ⟨⟨_, rfl⟩, ⟨_, rfl⟩, ⟨_, rfl⟩⟩
  obtain ⟨htia, hcartridge⟩ := m.chips_writeEach_stackCell hwrites
  rw [← hbus] at htia hcartridge
  rw [hstep]
  refine ⟨by rw [hprocessor]; exact h.running, ?_, by rw [htia]; exact h.opcode,
    by rw [hcartridge]; exact h.vector⟩
  rw [hprocessor, ← hbus]
  simp only [readWord_interruptVector, hcartridge, h.vector.1, h.vector.2]
  rfl

theorem Interrupts.after (h : m.Interrupts) (count : Nat) : (m.after count).Interrupts := by
  induction count with
  | zero => exact h
  | succ count ih =>
    rw [after_succ]
    exact ih.step.2

/-- Interrupts never fail and take seven cycles each. -/
theorem Interrupts.completes (h : m.Interrupts) (count : Nat) :
    m.Completes count ∧ m.spent count = 7 * count := by
  have hstep (done : Nat) : (m.after done).step.1 = .ok 7 := (h.after done).step.1
  refine ⟨fun done _ ↦ ⟨7, hstep done⟩, ?_⟩
  induction count with
  | zero => rfl
  | succ count ih =>
    have hcost : (m.after count).cost = 7 := cost_of_ok (Prod.ext (hstep count) rfl)
    rw [spent_succ, ih, hcost, Nat.mul_succ]

end Machine

namespace Console

variable {c c' : Console}

/-- A scanline in which the sum of the cycles has to fit 32 bits and the counter of the processor
64. -/
def countedRunScanline (c : Console) : Except Fault (Except Failure Nat × Console) := do
  match ← c.machine.countedRunSteps 0 c.timing.stepsPerScanline.toNat with
  | (.error failure, machine) => return (.error failure, { c with machine := machine })
  | (.ok cycles, machine) => return (.ok cycles, { c with machine := machine }.drawScanline.advance)

theorem countedRunScanline_eq
    (hburst : c.machine.countedRunSteps 0 c.timing.stepsPerScanline.toNat =
      .ok (c.machine.runSteps 0 c.timing.stepsPerScanline.toNat)) :
    c.countedRunScanline = .ok c.runScanline := by
  rw [countedRunScanline, hburst, Checked.bind_ok]
  match hrun : c.machine.runSteps 0 c.timing.stepsPerScanline.toNat with
  | (.error failure, machine) =>
    simp only [runScanline, hrun]
    rfl
  | (.ok cycles, machine) =>
    simp only [runScanline, hrun]
    rfl

/-- A scanline whose sum does not fit has taken successful steps only. -/
theorem outgrows_of_runScanline (h : c.runScanline = (.error .cycleSumOverflow, c')) :
    ∃ done < c.timing.stepsPerScanline.toNat, c.machine.Outgrows 0 done c'.machine := by
  match hburst : c.machine.runSteps 0 c.timing.stepsPerScanline.toNat with
  | (.error failure, machine) =>
    simp only [runScanline, hburst] at h
    cases h
    exact Machine.outgrows_of_runSteps (by decide) hburst
  | (.ok sum, machine) =>
    simp only [runScanline, hburst] at h
    cases h

/-- What a scanline returns is how far the counter of the processor has gone. -/
theorem cycles_of_runScanline {cycles : Nat} (h : c.runScanline = (.ok cycles, c')) :
    c'.machine.processor.cycles = c.machine.processor.cycles + cycles := by
  match hburst : c.machine.runSteps 0 c.timing.stepsPerScanline.toNat with
  | (.error failure, machine) =>
    simp only [runScanline, hburst] at h
    cases h
  | (.ok sum, machine) =>
    simp only [runScanline, hburst] at h
    cases h
    have hsum := Machine.sum_of_runSteps_ok hburst
    rw [machine_advance, machine_drawScanline, (Machine.runSteps_ok hburst).2,
      Machine.cycles_after, hsum, Nat.zero_add]

/-- A cartridge of zeros starts at address 0 and is interrupted there. -/
theorem interrupts_load (c : Console) {image : Array Byte}
    (hzeros : ∀ offset < 4096, (Cartridge.ofImage image).read offset = 0) :
    (c.load image).machine.Interrupts where
  running := rfl
  pc := by
    have hlow := (c.load image).machine.bus.read_romAddress (show 0xFFC < 4096 by decide)
    have hhigh := (c.load image).machine.bus.read_romAddress (show 0xFFD < 4096 by decide)
    have hvector : (c.load image).machine.processor.pc = Word.join 0 0 :=
      congrArg₂ Word.join (hlow.trans (hzeros 0xFFC (by decide)))
        (hhigh.trans (hzeros 0xFFD (by decide)))
    exact hvector
  opcode := RegisterBank.read_reset _ _
  vector := ⟨hzeros 0xFFE (by decide), hzeros 0xFFF (by decide)⟩

theorem read_zeros {offset : Nat} (h : offset < 4096) :
    (Cartridge.ofImage (Array.replicate 4096 0)).read offset = 0 := by
  rw [Cartridge.read_ofImage, if_pos h]
  simp [h]

/-- Where interrupts fit the sum but for the last one, the scanline stops at that one. -/
theorem runScanline_interrupts (h : c.machine.Interrupts) (hstart : c.machine.processor.cycles = 0)
    {steps : Nat} (hsteps : c.timing.stepsPerScanline.toNat = steps + 1)
    (hfits : 7 * steps < 2 ^ 32) (hover : 2 ^ 32 ≤ 7 * (steps + 1)) :
    c.countedRunScanline = .error (.overflow 32 (7 * (steps + 1))) ∧
      c.runScanline =
        (.error .cycleSumOverflow, { c with machine := c.machine.after (steps + 1) }) := by
  obtain ⟨hcompletes, hspent⟩ := h.completes (steps + 1)
  obtain ⟨-, hbefore⟩ := h.completes steps
  have hbelow : 0 + c.machine.spent steps < 2 ^ 32 := by omega
  obtain ⟨hcounted, hburst⟩ := Machine.runSteps_overflow hcompletes hbelow (by omega) (by omega)
  rw [Nat.zero_add, hspent] at hcounted
  constructor
  · rw [countedRunScanline, hsteps, hcounted]
    rfl
  · simp only [runScanline, hsteps, hburst]

/-- **The cycles of a scanline are counted exactly, up to a bound that is tight.** A scanline of at
most 613566756 steps goes through with its sum in 32 bits and the counter in 64, if that leaves room
for seven cycles a step, and where it succeeds it returns by how much the counter has grown. With
one step more a cartridge of zeros makes every step succeed with seven cycles, and the sum,
4294967299, is more than 32 bits hold. -/
theorem runScanline_counts :
    (∀ c : Console, c.timing.stepsPerScanline.toNat ≤ 613566756 →
      c.machine.processor.cycles + 7 * c.timing.stepsPerScanline.toNat < 2 ^ 64 →
      c.countedRunScanline = .ok c.runScanline ∧
      failureOf c.runScanline.1 ≠ some .cycleSumOverflow ∧
      ∀ cycles c', c.runScanline = (.ok cycles, c') →
        c'.machine.processor.cycles = c.machine.processor.cycles + cycles) ∧
    ∀ c : Console, c.timing.stepsPerScanline.toNat = 613566757 →
      let loaded := c.load (Array.replicate 4096 0)
      (∀ k < 613566757, (loaded.machine.after k).step.1 = .ok 7) ∧
      loaded.machine.spent 613566757 = 4294967299 ∧
      loaded.countedRunScanline = .error (.overflow 32 4294967299) ∧
      loaded.runScanline =
        (.error .cycleSumOverflow, { loaded with machine := loaded.machine.after 613566757 }) := by
  constructor
  · intro c hsteps hcounter
    refine ⟨countedRunScanline_eq (Machine.countedRunSteps_eq (by omega) hcounter),
      c.runScanline_ne_overflow (by omega), fun cycles c' hrun ↦ cycles_of_runScanline hrun⟩
  · intro c hsteps loaded
    have hloaded : loaded.machine.Interrupts := c.interrupts_load fun _ h ↦ read_zeros h
    have htiming : loaded.timing = c.timing := c.timing_perform (.load _)
    rw [← htiming] at hsteps
    have hoverflow := runScanline_interrupts hloaded rfl hsteps (by decide) (by decide)
    have hspent := (hloaded.completes 613566757).2
    exact ⟨fun k _ ↦ (hloaded.after k).step.1, hspent, hoverflow⟩

/-- A console of one scanline to a frame with as many steps as do not fit. -/
def tooLongScanline : Console := powerOn ⟨613566757, 1, 0⟩ {}

/-- Five cycles are counted as five, and 613566757 interrupts are too many. -/
theorem runScanline_counts_tooLongScanline :
    colourCounter.countedRunScanline = .ok colourCounter.runScanline ∧
      colourCounter.runScanline.1 = .ok 5 ∧
      colourCounter.runScanline.2.machine.processor.cycles = 5 ∧
      (tooLongScanline.load (Array.replicate 4096 0)).countedRunScanline =
        .error (.overflow 32 4294967299) := by
  obtain ⟨hfits, hover⟩ := runScanline_counts
  have hrun : colourCounter.runScanline = (.ok 5, colourCounter.runScanline.2) := rfl
  obtain ⟨hcounted, -, hcycles⟩ := hfits colourCounter (by decide) (by decide)
  obtain ⟨-, -, hfault, -⟩ := hover tooLongScanline (by decide)
  exact ⟨hcounted, rfl, hcycles 5 _ hrun, hfault⟩

end Console

end VideoComputer
