import VideoComputer.Instruction.Operation

/-!
# Changes to the processor

Which registers and flags the operations of the processor may change. The program counter and the
count of cycles are left out of this, and the halt latch is never touched.
-/

namespace VideoComputer

/-- The flags that a combination into the accumulator may change. -/
def Combination.changedFlags : Combination → List Flag
  | add | subtract => [.negative, .overflow, .zero, .carry]
  | conjunction | disjunction | difference => [.negative, .zero]

/-- The flags that a modification may change: carry only where a bit leaves the byte. -/
def Modification.changedFlags : Modification → List Flag
  | shiftLeft | shiftRight | rotateLeft | rotateRight => [.negative, .zero, .carry]
  | increment | decrement => [.negative, .zero]

namespace Flags

variable {flags : Flags} {flag : Flag}

theorem get_describing (result : Byte) (hflag : flag ∉ [Flag.negative, Flag.zero]) :
    (flags.describing result).get flag = flags.get flag := by
  cases flag with
  | negative | zero => simp at hflag
  | overflow | breakMark | decimal | interrupt | carry => rfl

theorem get_modified (change : Modification) (value : Byte) (hflag : flag ∉ change.changedFlags) :
    (change.flags value flags).get flag = flags.get flag := by
  cases change with
  | increment | decrement =>
    cases flag with
    | negative | zero => simp [Modification.changedFlags] at hflag
    | overflow | breakMark | decimal | interrupt | carry => rfl
  | shiftLeft | shiftRight | rotateLeft | rotateRight =>
    cases flag with
    | negative | zero | carry => simp [Modification.changedFlags] at hflag
    | overflow | breakMark | decimal | interrupt => rfl

end Flags

namespace Processor

/-- Only these registers and flags may differ, besides the program counter and the count of cycles.
-/
structure ChangesOnly (p : Processor) (registers : List Register) (flags : List Flag)
    (p' : Processor) : Prop where
  register : ∀ register ∉ registers, p'.get register = p.get register
  flag : ∀ flag ∉ flags, p'.flags.get flag = p.flags.get flag
  halted : p'.halted = p.halted

variable {p p₁ p₂ : Processor} {registers registers' : List Register} {flags flags' : List Flag}

theorem ChangesOnly.trans (hfirst : p.ChangesOnly registers flags p₁)
    (hsecond : p₁.ChangesOnly registers' flags' p₂) :
    p.ChangesOnly (registers ++ registers') (flags ++ flags') p₂ where
  register register h := by
    obtain ⟨h₁, h₂⟩ := not_or.mp (mt List.mem_append.mpr h)
    rw [hsecond.register register h₂, hfirst.register register h₁]
  flag flag h := by
    obtain ⟨h₁, h₂⟩ := not_or.mp (mt List.mem_append.mpr h)
    rw [hsecond.flag flag h₂, hfirst.flag flag h₁]
  halted := hsecond.halted.trans hfirst.halted

/-- More registers and flags may always be allowed to change. -/
theorem ChangesOnly.mono (h : p.ChangesOnly registers flags p₁)
    (hregisters : registers ⊆ registers') (hflags : flags ⊆ flags') :
    p.ChangesOnly registers' flags' p₁ where
  register register hregister := h.register register fun hmem ↦ hregister (hregisters hmem)
  flag flag hflag := h.flag flag fun hmem ↦ hflag (hflags hmem)
  halted := h.halted

theorem changesOnly_set (p : Processor) (target : Register) (value : Byte) :
    p.ChangesOnly [target] [] (p.set target value) where
  register register h := by rw [get_set, if_neg (by simpa using h)]
  flag flag _ := by rw [flags_set]
  halted := by cases target <;> rfl

/-- Flags that agree with the old ones outside a list may replace them. -/
theorem changesOnly_withFlags (p : Processor) {new : Flags}
    (h : ∀ flag ∉ flags, new.get flag = p.flags.get flag) :
    p.ChangesOnly [] flags { p with flags := new } where
  register register _ := by cases register <;> rfl
  flag := h
  halted := rfl

theorem changesOnly_load (p : Processor) (target : Register) (value : Byte) :
    p.ChangesOnly [target] [.negative, .zero] (p.load target value) := by
  have hflags : ∀ flag ∉ [Flag.negative, Flag.zero],
      (p.flags.describing value).get flag = (p.set target value).flags.get flag := by
    intro flag hflag
    rw [flags_set]
    exact Flags.get_describing value hflag
  exact (p.changesOnly_set target value).trans (changesOnly_withFlags _ hflags)

theorem changesOnly_modified (p : Processor) (target : Register) (change : Modification)
    (value : Byte) :
    p.ChangesOnly [target] change.changedFlags
      { p.set target (change.result value p.flags.carry) with
        flags := change.flags value p.flags } := by
  have hflags : ∀ flag ∉ change.changedFlags, (change.flags value p.flags).get flag =
      (p.set target (change.result value p.flags.carry)).flags.get flag := by
    intro flag hflag
    rw [flags_set]
    exact Flags.get_modified change value hflag
  exact (p.changesOnly_set target _).trans (changesOnly_withFlags _ hflags)

theorem changesOnly_setFlag (p : Processor) (flag : Flag) (value : Bool) :
    p.ChangesOnly [] [flag] (p.setFlag flag value) := by
  apply changesOnly_withFlags
  intro other hother
  rw [Flags.get_set, if_neg (by simpa using hother)]

theorem changesOnly_jump (p : Processor) (target : Word) : p.ChangesOnly [] [] (p.jump target) where
  register register _ := by cases register <;> rfl
  flag _ _ := rfl
  halted := rfl

theorem changesOnly_compare (p : Processor) (register value : Byte) :
    p.ChangesOnly [] [.negative, .zero, .carry] (p.compare register value) := by
  apply changesOnly_withFlags
  intro flag hflag
  cases flag with
  | negative | zero | carry => simp at hflag
  | overflow | breakMark | decimal | interrupt => rfl

theorem changesOnly_testBits (p : Processor) (value : Byte) :
    p.ChangesOnly [] [.negative, .overflow, .zero] (p.testBits value) := by
  apply changesOnly_withFlags
  intro flag hflag
  cases flag with
  | negative | overflow | zero => simp at hflag
  | breakMark | decimal | interrupt | carry => rfl

/-- A new accumulator comes with any of the four flags of arithmetic. -/
theorem changesOnly_arithmetic (p : Processor) (a : Byte) (n v z c : Bool) :
    p.ChangesOnly [.a] [.negative, .overflow, .zero, .carry]
      { p with a := a, flags := { p.flags with
        negative := n, overflow := v, zero := z, carry := c } } where
  register register h := by
    cases register with
    | a => simp at h
    | x | y | sp => rfl
  flag flag h := by
    cases flag with
    | negative | overflow | zero | carry => simp at h
    | breakMark | decimal | interrupt => rfl
  halted := rfl

theorem changesOnly_add (p : Processor) (value : Byte) :
    p.ChangesOnly [.a] [.negative, .overflow, .zero, .carry] (p.add value) := by
  unfold add
  split
  · exact changesOnly_arithmetic ..
  · exact changesOnly_arithmetic ..

theorem changesOnly_subtract (p : Processor) (value : Byte) :
    p.ChangesOnly [.a] [.negative, .overflow, .zero, .carry] (p.subtract value) := by
  unfold subtract
  split
  · exact changesOnly_arithmetic ..
  · exact changesOnly_arithmetic ..

theorem changesOnly_combine (p : Processor) (combination : Combination) (value : Byte) :
    p.ChangesOnly [.a] combination.changedFlags (p.combine combination value) := by
  cases combination with
  | add => exact p.changesOnly_add value
  | subtract => exact p.changesOnly_subtract value
  | conjunction | disjunction | difference => exact p.changesOnly_load .a _

end Processor

end VideoComputer
