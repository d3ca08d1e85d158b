import VideoComputer.Proofs.Console.Calls
import VideoComputer.Proofs.Machine.Duration
import VideoComputer.Proofs.Memory.Mirrors
import VideoComputer.Proofs.Picture.Checks

/-!
# A console that checks what it does

The console once more, with a check wherever something could go wrong: a chip may be handed an
offset it does not have, an instruction may ask for an address in a mode that has none, the cycles of
an instruction may not fit a byte or the position not 32 bits, and drawing may leave its ranges. Main
statement: over every session from power-on the checked console goes through and does the same.

All checks but one pass in every state. Only the position needs an invariant: it stays within the
frame, so that even the longest frame leaves room for the next scanline.
-/

namespace VideoComputer

/-- Decodes an address by masks and differences, and lets each chip check the offset it is handed. -/
def Region.checkedDecode (address : Word) : Except Fault Region := do
  let lines := address &&& 0x1FFF
  if lines.toNat ≤ 0x7F then
    let offset ← (Tia.slot (lines &&& 0x3F)).mapError .outOfRange
    return .tia offset
  else if lines.toNat ≤ 0x1FF then
    let distance ← Checked.difference lines.toNat 0x80
    let offset ← (Riot.slot (UInt16.ofNat (distance % 128))).mapError .outOfRange
    return .riot offset
  else if 0x1000 ≤ lines.toNat then
    let distance ← Checked.difference lines.toNat 0x1000
    if h : distance < 4096 then return .rom ⟨distance, h⟩
    else throw (.overflow 12 distance)
  else return .openBus

theorem Region.checkedDecode_eq (address : Word) :
    checkedDecode address = .ok (decode address) := by
  have hlines : (address &&& 0x1FFF).toNat = address.toNat % 8192 := by
    rw [Word.toNat_and_mask address 0x1FFF 0 13 (by decide)]
    omega
  have hlow : (address &&& 0x1FFF &&& 0x3F).toNat = address.toNat % 8192 % 64 := by
    rw [Word.toNat_and_mask _ 0x3F 0 6 (by decide), hlines]
    omega
  have hbound : address.toNat % 8192 < 8192 := Nat.mod_lt _ (by decide)
  unfold checkedDecode decode
  simp only [hlines]
  by_cases htia : address.toNat % 8192 < 128
  · rw [if_pos (by omega), if_pos htia, Tia.slot, dif_pos (by omega)]
    simp only [hlow]
    rfl
  rw [if_neg (by omega), if_neg htia]
  by_cases hriot : address.toNat % 8192 < 512
  · have hoffset : (UInt16.ofNat ((address.toNat % 8192 - 128) % 128)).toNat =
        (address.toNat % 8192 - 128) % 128 := by
      rw [UInt16.toNat_ofNat']
      omega
    rw [if_pos (by omega), if_pos hriot, Checked.difference_of_le (by omega), Checked.bind_ok,
      Riot.slot, dif_pos (by omega)]
    simp only [hoffset]
    rfl
  rw [if_neg (by omega), if_neg hriot]
  by_cases hrom : 4096 ≤ address.toNat % 8192
  · rw [if_pos hrom, dif_pos hrom, Checked.difference_of_le hrom, Checked.bind_ok,
      dif_pos (by omega)]
    rfl
  · rw [if_neg hrom, dif_neg hrom]
    rfl

namespace Machine

/-- A step whose operand needs an address has to find one, and whose cycles have to fit a byte. -/
def checkedStep {B : Type} [Bus B] (m : Machine B) :
    Except Fault (Except Failure Nat × Machine B) :=
  match m.step with
  | (.error (.noEffectiveAddress mode), _) => .error (.noEffectiveAddress mode)
  | (.error failure, next) => .ok (.error failure, next)
  | (.ok cycles, next) => do
    let cycles ← Checked.unsigned 8 cycles
    return (.ok cycles, next)

theorem checkedStep_eq {B : Type} [Bus B] (m : Machine B) : m.checkedStep = .ok m.step := by
  unfold checkedStep
  match hstep : m.step with
  | (.error failure, next) =>
    obtain ⟨-, rfl, -⟩ | ⟨-, -, rfl, -⟩ := step_error_cases hstep
    · rfl
    · rfl
  | (.ok cycles, next) =>
    have hcycles : cycles ≤ 7 := cycles_le_seven (congrArg Prod.fst hstep)
    have hbyte : cycles < 2 ^ 8 := by omega
    simp only [Checked.unsigned_of_lt hbyte]
    rfl

def checkedRunSteps (m : Machine ConsoleBus) (total : Nat) :
    Nat → Except Fault (Except Failure Nat × Machine ConsoleBus)
  | 0 => .ok (.ok total, m)
  | count + 1 => do
    match ← m.checkedStep with
    | (.error failure, m) => return (.error failure, m)
    | (.ok cycles, m) =>
      if total + cycles < 4294967296 then m.checkedRunSteps (total + cycles) count
      else return (.error .cycleSumOverflow, m)

theorem checkedRunSteps_eq (m : Machine ConsoleBus) (total count : Nat) :
    m.checkedRunSteps total count = .ok (m.runSteps total count) := by
  induction count generalizing m total with
  | zero => rfl
  | succ count ih =>
    rw [checkedRunSteps, runSteps, checkedStep_eq, Checked.bind_ok]
    cases m.step with
    | mk result next =>
      cases result with
      | error failure => rfl
      | ok cycles =>
        by_cases hfits : total + cycles < 4294967296
        · simp only [if_pos hfits]
          exact ih next (total + cycles)
        · simp only [if_neg hfits]
          rfl

/-- A run that succeeds has reached its target. -/
theorem le_cycles_of_runUntil {B : Type} [Bus B] {m last : Machine B} {target : Nat}
    (h : m.runUntil target = (.ok (), last)) : target ≤ last.processor.cycles := by
  fun_induction runUntil m target with
  | case1 => cases h
  | case2 m hbelow cycles next hstep ih => exact ih h
  | case3 m hreached =>
    cases h
    exact Nat.le_of_not_lt hreached

def checkedRunUntil {B : Type} [Bus B] (m : Machine B) (target : Nat) :
    Except Fault (Except Failure Unit × Machine B) :=
  if m.processor.cycles < target then
    match _h : m.checkedStep with
    | .error fault => .error fault
    | .ok (.error failure, next) => .ok (.error failure, next)
    | .ok (.ok _, next) => next.checkedRunUntil target
  else .ok (.ok (), m)
termination_by target - m.processor.cycles
decreasing_by
  have hstep := Except.ok.inj (_h.symm.trans m.checkedStep_eq)
  have hcycles := cycles_step hstep.symm
  omega

theorem checkedRunUntil_of_step {B : Type} [Bus B] {m : Machine B} {target : Nat}
    (hbelow : m.processor.cycles < target) :
    m.checkedRunUntil target = match m.step with
      | (.error failure, next) => .ok (.error failure, next)
      | (.ok _, next) => next.checkedRunUntil target := by
  rw [checkedRunUntil, if_pos hbelow]
  split
  · rename_i hfault
    rw [checkedStep_eq] at hfault
    cases hfault
  · rename_i hfailed
    rw [Except.ok.inj (m.checkedStep_eq.symm.trans hfailed)]
  · rename_i hok
    rw [Except.ok.inj (m.checkedStep_eq.symm.trans hok)]

theorem checkedRunUntil_eq {B : Type} [Bus B] (m : Machine B) (target : Nat) :
    m.checkedRunUntil target = .ok (m.runUntil target) := by
  fun_induction runUntil m target with
  | case1 m hbelow failure next hstep => rw [checkedRunUntil_of_step hbelow, hstep]
  | case2 m hbelow cycles next hstep ih =>
    rw [checkedRunUntil_of_step hbelow, hstep]
    exact ih
  | case3 m hreached => rw [checkedRunUntil, if_neg hreached]

/-- The cycles used are a difference that must not be negative. -/
def checkedRunForCycles {B : Type} [Bus B] (m : Machine B) (budget : Nat) :
    Except Fault (Except Failure Nat × Machine B) := do
  let start := m.processor.cycles
  match ← m.checkedRunUntil (start + budget) with
  | (.error failure, m) => return (.error failure, m)
  | (.ok (), m) =>
    let used ← Checked.difference m.processor.cycles start
    return (.ok used, m)

theorem checkedRunForCycles_eq {B : Type} [Bus B] (m : Machine B) (budget : Nat) :
    m.checkedRunForCycles budget = .ok (m.runForCycles budget) := by
  simp only [checkedRunForCycles, runForCycles, checkedRunUntil_eq, Checked.bind_ok]
  match hrun : m.runUntil (m.processor.cycles + budget) with
  | (.error failure, last) => rfl
  | (.ok (), last) =>
    have hreached := le_cycles_of_runUntil hrun
    simp only [Checked.difference_of_le (Nat.le_of_add_right_le hreached)]
    rfl

/-- A bus access is checked by the decoding of its address. -/
def checkedPerform (m : Machine ConsoleBus) :
    Call → Except Fault (Except Failure Answer × Machine ConsoleBus)
  | .step => do
    let (result, next) ← m.checkedStep
    return (result.map .cycles, next)
  | .run budget => do
    let (result, next) ← m.checkedRunForCycles budget
    return (result.map .cycles, next)
  | .set setter => .ok (m.perform (.set setter))
  | .read address => do
    let _ ← Region.checkedDecode address
    return m.perform (.read address)
  | .write address value => do
    let _ ← Region.checkedDecode address
    return m.perform (.write address value)

theorem checkedPerform_eq (m : Machine ConsoleBus) (call : Call) :
    m.checkedPerform call = .ok (m.perform call) := by
  cases call with
  | step =>
    rw [checkedPerform, checkedStep_eq]
    rfl
  | run budget =>
    rw [checkedPerform, checkedRunForCycles_eq]
    rfl
  | set setter => rfl
  | read address | write address =>
    rw [checkedPerform, Region.checkedDecode_eq]
    rfl

end Machine

namespace Console

variable {c next : Console}

def checkedDrawScanline (c : Console) : Except Fault Console :=
  match c.timing.visibleRow? c.scanline with
  | none => .ok c
  | some row => do
    let frame ← c.machine.bus.tia.checkedDraw row c.frame
    return { c with frame := frame }

/-- The position has to fit 32 bits before it is compared with the length of a frame. -/
def checkedAdvance (c : Console) : Except Fault Console := do
  let scanline ← Checked.unsigned 32 (c.scanline + 1)
  return if scanline < c.timing.scanlinesPerFrame.toNat then { c with scanline := scanline }
    else { c with scanline := 0, frameCount := c.frameCount + 1 }

def checkedRunScanline (c : Console) : Except Fault (Except Failure Nat × Console) := do
  match ← c.machine.checkedRunSteps 0 c.timing.stepsPerScanline.toNat with
  | (.error failure, machine) => return (.error failure, { c with machine := machine })
  | (.ok cycles, machine) =>
    let drawn ← { c with machine := machine }.checkedDrawScanline
    let next ← drawn.checkedAdvance
    return (.ok cycles, next)

theorem checkedDrawScanline_eq (c : Console) : c.checkedDrawScanline = .ok c.drawScanline := by
  unfold checkedDrawScanline drawScanline
  cases c.timing.visibleRow? c.scanline with
  | none => rfl
  | some row =>
    simp only [Tia.checkedDraw_eq]
    rfl

/-- A position within the frame leaves room for the next one. -/
theorem checkedAdvance_eq (hinside : c.scanline < c.timing.frameLength) :
    c.checkedAdvance = .ok c.advance := by
  have hlength : c.timing.frameLength < 2 ^ 32 :=
    Nat.max_lt.mpr ⟨by decide, c.timing.scanlinesPerFrame.toNat_lt⟩
  unfold checkedAdvance advance
  rw [Checked.unsigned_of_lt (Nat.lt_of_le_of_lt hinside hlength)]
  rfl

/-- Outside every frame there may be no room. -/
example : ({ colourCounter with scanline := 4294967295 } : Console).checkedAdvance.toOption.isNone :=
  rfl

/-- The position is the only thing that a checked scanline could stop at. -/
theorem checkedRunScanline_eq_bind (c : Console) :
    c.checkedRunScanline = match c.machine.runSteps 0 c.timing.stepsPerScanline.toNat with
      | (.error failure, machine) => .ok (.error failure, { c with machine := machine })
      | (.ok cycles, machine) => do
        let next ← { c with machine := machine }.drawScanline.checkedAdvance
        return (.ok cycles, next) := by
  unfold checkedRunScanline
  rw [Machine.checkedRunSteps_eq, Checked.bind_ok]
  split
  · rfl
  · rw [checkedDrawScanline_eq]
    rfl

theorem checkedRunScanline_eq (hinside : c.scanline < c.timing.frameLength) :
    c.checkedRunScanline = .ok c.runScanline := by
  rw [checkedRunScanline_eq_bind]
  match hburst : c.machine.runSteps 0 c.timing.stepsPerScanline.toNat with
  | (.error failure, machine) => simp only [runScanline, hburst]
  | (.ok cycles, machine) =>
    have hdrawn : { c with machine := machine }.drawScanline.scanline <
        { c with machine := machine }.drawScanline.timing.frameLength := by
      rw [scanline_drawScanline, timing_drawScanline]
      exact hinside
    simp only [runScanline, hburst, checkedAdvance_eq hdrawn]
    rfl

/-- Even without the invariant, a checked scanline that goes through does what the scanline does. -/
theorem runScanline_of_checked {result : Except Failure Nat × Console}
    (h : c.checkedRunScanline = .ok result) : c.runScanline = result := by
  rw [checkedRunScanline_eq_bind] at h
  match hburst : c.machine.runSteps 0 c.timing.stepsPerScanline.toNat with
  | (.error failure, machine) =>
    simp only [hburst] at h
    cases h
    simp only [runScanline, hburst]
  | (.ok cycles, machine) =>
    simp only [hburst, checkedAdvance, Checked.unsigned] at h
    split at h
    · cases h
      simp only [runScanline, hburst]
      rfl
    · cases h

def checkedRunFrame (c : Console) : Except Fault (Except Failure Frame × Console) :=
  match _h : c.checkedRunScanline with
  | .error fault => .error fault
  | .ok (.error failure, next) => .ok (.error failure, next)
  | .ok (.ok _, next) =>
    if next.scanline = 0 then .ok (.ok next.frame, next) else next.checkedRunFrame
termination_by c.timing.scanlinesPerFrame.toNat - c.scanline
decreasing_by
  rename_i hlater
  obtain ⟨htiming, hnext⟩ := runScanline_ok (runScanline_of_checked _h)
  have hinside := hnext hlater
  rw [htiming]
  omega

theorem checkedRunFrame_of_inside (hinside : c.scanline < c.timing.frameLength) :
    c.checkedRunFrame = match c.runScanline with
      | (.error failure, next) => .ok (.error failure, next)
      | (.ok _, next) =>
        if next.scanline = 0 then .ok (.ok next.frame, next) else next.checkedRunFrame := by
  have hscanline := checkedRunScanline_eq hinside
  rw [checkedRunFrame]
  split
  · rename_i hfault
    rw [hscanline] at hfault
    cases hfault
  · rename_i hfailed
    rw [runScanline_of_checked hfailed]
  · rename_i hok
    rw [runScanline_of_checked hok]

theorem checkedRunFrame_eq (hinside : c.scanline < c.timing.frameLength) :
    c.checkedRunFrame = .ok c.runFrame := by
  have hnext := inside_runScanline hinside
  rw [checkedRunFrame_of_inside hinside]
  fun_induction runFrame c with
  | case1 c failure next hscanline => rw [hscanline]
  | case2 c cycles next hscanline hfirst =>
    rw [hscanline]
    exact if_pos hfirst
  | case3 c cycles next hscanline hlater ih =>
    rw [hscanline] at hnext ⊢
    have hrest := ih hnext (inside_runScanline hnext)
    rw [← checkedRunFrame_of_inside hnext] at hrest
    exact (if_neg hlater).trans hrest

def checkedPerform (c : Console) : Call → Except Fault (Except Failure Answer × Console)
  | .machine call => do
    let (answer, machine) ← c.machine.checkedPerform call
    return (answer, { c with machine := machine })
  | .runScanline => do
    let (result, next) ← c.checkedRunScanline
    return (result.map .cycles, next)
  | .runFrame => do
    let (result, next) ← c.checkedRunFrame
    return (result.map .picture, next)
  | .clearFrame => .ok (c.perform .clearFrame)
  | .reset => .ok (c.perform .reset)
  | .load image => .ok (c.perform (.load image))

/-- Checked calls in order, up to the first that stops. -/
def checkedPerformAll (c : Console) :
    List Call → Except Fault (List (Except Failure Answer) × Console)
  | [] => .ok ([], c)
  | call :: rest => do
    let (answer, next) ← c.checkedPerform call
    let (answers, last) ← next.checkedPerformAll rest
    return (answer :: answers, last)

theorem checkedPerform_eq (hinside : c.scanline < c.timing.frameLength) (call : Call) :
    c.checkedPerform call = .ok (c.perform call) := by
  cases call with
  | machine call =>
    rw [checkedPerform, Machine.checkedPerform_eq]
    rfl
  | runScanline =>
    rw [checkedPerform, checkedRunScanline_eq hinside]
    rfl
  | runFrame =>
    rw [checkedPerform, checkedRunFrame_eq hinside]
    rfl
  | clearFrame | reset | load => rfl

theorem checkedPerformAll_eq (hinside : c.scanline < c.timing.frameLength) (calls : List Call) :
    c.checkedPerformAll calls = .ok (performAll perform c calls) := by
  induction calls generalizing c with
  | nil => rfl
  | cons call rest ih =>
    rw [checkedPerformAll, checkedPerform_eq hinside, Checked.bind_ok]
    simp only [ih (inside_perform hinside call)]
    rfl

/-- **No check ever fails.** Whatever the timing, the bus with its cartridge, and the calls: from
power-on the checked console goes through all of them, with the answers and the end of the console
that checks nothing. No address at all makes a chip see an offset that it does not have. -/
theorem checked_session (timing : Timing) (bus : ConsoleBus) (calls : List Call) :
    (∀ address, Region.checkedDecode address = .ok (Region.decode address)) ∧
      (powerOn timing bus).checkedPerformAll calls =
        .ok (performAll perform (powerOn timing bus) calls) :=
  ⟨Region.checkedDecode_eq, checkedPerformAll_eq timing.frameLength_pos calls⟩

end Console

end VideoComputer
