import VideoComputer.Proofs.Console.CycleSums
import VideoComputer.Proofs.Console.Failures

/-!
# The position in the frame

A frame is run by a loop that nothing bounds: it ends where a scanline brings the position back to
the first one. Main statement: whatever its owner has done to a console, its position lies within
the frame, so that the loop ends, after the scanlines that are left of the frame, at a step that
fails, or where the cycles of a scanline outgrow the 32 bits in which they are added up; and the
frames it has counted are the scanlines that have brought the position back.
-/

namespace VideoComputer

namespace Console

variable {c c' next : Console} {failure : Failure} {frame : Frame} {cycles : Nat}

/-! ## The loop of a frame -/

/-- The loop as it is written: the positions to which its successful scanlines lead, and how it ends.
A loop that does not end is related to nothing. -/
inductive FrameLoop : Console → List Nat → Except Failure Frame × Console → Prop where
  | failed {c c' : Console} {failure : Failure} (h : c.runScanline = (.error failure, c')) :
      FrameLoop c [] (.error failure, c')
  | completed {c c' : Console} {cycles : Nat} (h : c.runScanline = (.ok cycles, c'))
      (hfirst : c'.scanline = 0) : FrameLoop c [c'.scanline] (.ok c'.frame, c')
  | again {c next : Console} {cycles : Nat} {positions : List Nat}
      {result : Except Failure Frame × Console} (h : c.runScanline = (.ok cycles, next))
      (hlater : next.scanline ≠ 0) (hrest : FrameLoop next positions result) :
      FrameLoop c (next.scanline :: positions) result

/-- The positions to which the successful scanlines of a frame lead. -/
def framePositions (c : Console) : List Nat :=
  match _h : c.runScanline with
  | (.error _, _) => []
  | (.ok _, next) => next.scanline :: if next.scanline = 0 then [] else next.framePositions
termination_by c.linesLeft
decreasing_by
  rename_i hlater
  have hlines := (linesLeft_runScanline _h).2 hlater
  omega

theorem framePositions_of_error (h : c.runScanline = (.error failure, next)) :
    c.framePositions = [] := by
  rw [framePositions]
  split
  · rfl
  · rename_i hok
    rw [h] at hok
    cases hok

theorem framePositions_of_ok (h : c.runScanline = (.ok cycles, next)) :
    c.framePositions = next.scanline :: if next.scanline = 0 then [] else next.framePositions := by
  rw [framePositions]
  split
  · rename_i herror
    rw [h] at herror
    cases herror
  · rename_i hok
    rw [h] at hok
    cases hok
    rfl

/-- The loop of every frame ends, and in one way only. -/
theorem frameLoop_iff {positions : List Nat} {result : Except Failure Frame × Console} :
    c.FrameLoop positions result ↔ positions = c.framePositions ∧ result = c.runFrame := by
  constructor
  · intro hloop
    induction hloop with
    | failed h => exact ⟨(framePositions_of_error h).symm, (runFrame_of_error h).symm⟩
    | completed h hfirst =>
      rw [framePositions_of_ok h, runFrame_of_ok h, if_pos hfirst, if_pos hfirst]
      exact ⟨rfl, rfl⟩
    | again h hlater _ ih =>
      rw [framePositions_of_ok h, runFrame_of_ok h, if_neg hlater, if_neg hlater, ih.1, ih.2]
      exact ⟨rfl, rfl⟩
  · rintro ⟨rfl, rfl⟩
    -- Each case of the recursion is one rule of the loop.
    fun_induction runFrame c with
    | case1 c failure c' h =>
      rw [framePositions_of_error h]
      exact .failed h
    | case2 c cycles next h hfirst =>
      rw [framePositions_of_ok h, if_pos hfirst]
      exact .completed h hfirst
    | case3 c cycles next h hlater ih =>
      rw [framePositions_of_ok h, if_neg hlater]
      exact .again h hlater ih

/-- A completed frame ends at the first position, after all scanlines that were left. -/
theorem framePositions_of_runFrame_ok (hrun : c.runFrame = (.ok frame, c')) :
    c'.scanline = 0 ∧ c.framePositions.length = c.linesLeft := by
  fun_induction runFrame c with
  | case1 => cases hrun
  | case2 c cycles next h hfirst =>
    cases hrun
    rw [framePositions_of_ok h, if_pos hfirst, (linesLeft_runScanline h).1 hfirst]
    exact ⟨hfirst, rfl⟩
  | case3 c cycles next h hlater ih =>
    obtain ⟨hposition, hlength⟩ := ih hrun
    refine ⟨hposition, ?_⟩
    rw [framePositions_of_ok h, if_neg hlater, (linesLeft_runScanline h).2 hlater,
      List.length_cons, hlength, Nat.add_comm]

/-- A frame that fails does so before its last scanline ends, as many positions further on as
scanlines have succeeded. -/
theorem framePositions_of_runFrame_error (hrun : c.runFrame = (.error failure, c')) :
    c'.scanline = c.scanline + c.framePositions.length ∧ c.framePositions.length < c.linesLeft := by
  fun_induction runFrame c with
  | case1 c other last h =>
    cases hrun
    obtain ⟨machine, rfl⟩ := exists_of_runScanline_error h
    rw [framePositions_of_error h]
    exact ⟨rfl, c.linesLeft_pos⟩
  | case2 => cases hrun
  | case3 c cycles next h hlater ih =>
    obtain ⟨hposition, hlength⟩ := ih hrun
    rw [framePositions_of_ok h, if_neg hlater, (linesLeft_runScanline h).2 hlater,
      List.length_cons]
    refine ⟨?_, by omega⟩
    rw [hposition, ((runScanline_ok h).2 hlater).1]
    omega

/-- A frame that fails does so in the scanline behind those that have succeeded. -/
theorem exists_underway_of_runFrame (hinside : c.scanline < c.timing.frameLength)
    (hrun : c.runFrame = (.error failure, c')) :
    ∃ last, c.Underway c.framePositions.length last ∧ last.runScanline = (.error failure, c') := by
  obtain ⟨lines, last, hunderway, hscanline⟩ := (underway_zero hinside).exists_of_runFrame hrun
  obtain ⟨machine, rfl⟩ := exists_of_runScanline_error hscanline
  -- Both numbers of scanlines are the distance to the position at which the frame has failed.
  have hreached : last.scanline = c.scanline + c.framePositions.length :=
    (framePositions_of_runFrame_error hrun).1
  have hlines : lines = c.framePositions.length := by
    have hposition := hunderway.position
    omega
  exact ⟨last, hlines ▸ hunderway, hscanline⟩

/-- What fails a frame is a step of the scanline that it has come to; or no step fails, and the
cycles of that scanline, which has to have very many steps for it, do not fit 32 bits. -/
theorem failure_of_runFrame (hinside : c.scanline < c.timing.frameLength)
    (hrun : c.runFrame = (.error failure, c')) :
    let begun := c.framePositions.length * c.timing.stepsPerScanline.toNat
    (∃ done, begun ≤ done ∧
      done < (c.framePositions.length + 1) * c.timing.stepsPerScanline.toNat ∧
      c.machine.Course (done + 1) (some failure) c'.machine) ∨
    failure = .cycleSumOverflow ∧ 4294967296 ≤ 7 * c.timing.stepsPerScanline.toNat ∧
      c.machine.Completes begun ∧ ∃ done < c.timing.stepsPerScanline.toNat,
        (c.machine.after begun).Outgrows 0 done c'.machine := by
  intro begun
  obtain ⟨last, hunderway, hscanline⟩ := exists_underway_of_runFrame hinside hrun
  by_cases hcounters : failure = .cycleSumOverflow
  · subst hcounters
    have hmany : 4294967296 ≤ 7 * c.timing.stepsPerScanline.toNat := by
      refine Nat.le_of_not_lt fun hfew ↦ ?_
      have hfits := c.runFrame_ne_overflow hfew
      rw [hrun] at hfits
      exact hfits rfl
    have houtgrows := outgrows_of_runScanline hscanline
    rw [hunderway.swept.timing, hunderway.swept.machine] at houtgrows
    exact .inr ⟨rfl, hmany, hunderway.swept.completes, houtgrows⟩
  · obtain ⟨done, hlower, hupper, hcourse, -⟩ := hunderway.exists_course hcounters hscanline
    exact .inl ⟨done, hlower, hupper, hcourse⟩

/-! ## Sessions -/

/-- What an owner can do: make a call, or work on the processor and the bus directly. -/
inductive Interaction where
  | call (call : Call)
  | alter (change : Machine ConsoleBus → Machine ConsoleBus)

def interact (c : Console) : Interaction → Except Failure Answer × Console
  | .call call => c.perform call
  | .alter change => (.ok .done, { c with machine := change c.machine })

/-- The positions to which the successful scanlines of a call lead. -/
def Call.positions (c : Console) : Call → List Nat
  | runScanline =>
    match c.runScanline with
    | (.error _, _) => []
    | (.ok _, next) => [next.scanline]
  | runFrame => c.framePositions
  | machine _ | clearFrame | reset | load _ => []

/-- The positions to which the successful scanlines of a session lead. -/
def positions (c : Console) : List Interaction → List Nat
  | [] => []
  | .call call :: rest => call.positions c ++ (c.perform call).2.positions rest
  | .alter change :: rest => { c with machine := change c.machine }.positions rest

theorem timing_interact (c : Console) (interaction : Interaction) :
    (c.interact interaction).2.timing = c.timing := by
  cases interaction with
  | call call => exact c.timing_perform call
  | alter change => rfl

theorem inside_interact (hinside : c.scanline < c.timing.frameLength) (interaction : Interaction) :
    (c.interact interaction).2.scanline < (c.interact interaction).2.timing.frameLength := by
  cases interaction with
  | call call => exact inside_perform hinside call
  | alter change => exact hinside

/-- No session changes the timing or takes the position out of the frame. -/
theorem inside_session (timing : Timing) (bus : ConsoleBus) (session : List Interaction) :
    (performAll interact (powerOn timing bus) session).2.timing = timing ∧
      (performAll interact (powerOn timing bus) session).2.scanline < timing.frameLength := by
  refine performAll_invariant
    (fun s : Console ↦ s.timing = timing ∧ s.scanline < timing.frameLength) (fun _ ↦ True)
    (fun s hs interaction _ _ ↦ ?_) ⟨rfl, timing.frameLength_pos⟩ fun _ _ ↦ trivial
  obtain ⟨rfl, hinside⟩ := hs
  have hnext := inside_interact hinside interaction
  rw [timing_interact] at hnext
  exact ⟨s.timing_interact interaction, hnext⟩

/-- A scanline counts a frame if it brings the position back to the first one. -/
theorem frameCount_runScanline (h : c.runScanline = (.ok cycles, next)) :
    next.frameCount = c.frameCount + if next.scanline = 0 then 1 else 0 := by
  have hposition := position_runScanline h
  split at hposition
  · rw [hposition.1, hposition.2]
    rfl
  · rw [hposition.1, hposition.2]
    rfl

theorem frameCount_runFrame (c : Console) :
    c.runFrame.2.frameCount = c.frameCount + c.framePositions.count 0 := by
  fun_induction runFrame c with
  | case1 c failure c' h =>
    obtain ⟨machine, rfl⟩ := exists_of_runScanline_error h
    rw [framePositions_of_error h]
    rfl
  | case2 c cycles next h hfirst =>
    rw [framePositions_of_ok h, frameCount_runScanline h, if_pos hfirst, if_pos hfirst, hfirst]
    rfl
  | case3 c cycles next h hlater ih =>
    rw [framePositions_of_ok h, ih, frameCount_runScanline h, if_neg hlater, if_neg hlater,
      List.count_cons_of_ne hlater]
    rfl

theorem frameCount_perform (c : Console) (call : Call) :
    (c.perform call).2.frameCount = c.frameCount + (call.positions c).count 0 := by
  cases call with
  | runScanline =>
    match hscanline : c.runScanline with
    | (.error failure, next) =>
      obtain ⟨machine, rfl⟩ := exists_of_runScanline_error hscanline
      simp only [perform, Call.positions, hscanline, List.count_nil, Nat.add_zero]
    | (.ok cycles, next) =>
      simp only [perform, Call.positions, hscanline, frameCount_runScanline hscanline,
        List.count_singleton, beq_iff_eq]
  | runFrame => exact c.frameCount_runFrame
  | machine | clearFrame | reset | load => rfl

/-- A session counts a frame for every scanline that brings the position back, and no other. -/
theorem frameCount_session (c : Console) (session : List Interaction) :
    (performAll interact c session).2.frameCount =
      c.frameCount + (c.positions session).count 0 := by
  induction session generalizing c with
  | nil => rfl
  | cons interaction rest ih =>
    cases interaction with
    | call call =>
      calc
        (performAll interact c (.call call :: rest)).2.frameCount
            = (c.perform call).2.frameCount +
              ((c.perform call).2.positions rest).count 0 := ih _
        _ = c.frameCount + (c.positions (.call call :: rest)).count 0 := by
          rw [frameCount_perform, positions, List.count_append, Nat.add_assoc]
    | alter change => exact ih _

/-- **Frames end, and are counted.** Whatever the owner of a new console does with it, its position
lies within the frame. From there the loop of a frame ends, in one way: after exactly the scanlines
that are left, or before that. Then a step has failed, or all steps have succeeded and those of the
scanline in progress have taken more cycles than 32 bits hold, for which there have to be hundreds
of millions of them. The frames that are counted are the scanlines that have brought the position
back to the first one, and nothing takes any of them back. -/
theorem frames_end (timing : Timing) (bus : ConsoleBus) (session : List Interaction) :
    let c := (performAll interact (powerOn timing bus) session).2
    c.timing = timing ∧ c.scanline < timing.frameLength ∧
    (∀ positions result, c.FrameLoop positions result ↔
      positions = c.framePositions ∧ result = c.runFrame) ∧
    (∀ frame c', c.runFrame = (.ok frame, c') →
      c'.scanline = 0 ∧ c.framePositions.length = timing.frameLength - c.scanline) ∧
    (∀ failure c', c.runFrame = (.error failure, c') →
      let begun := c.framePositions.length * timing.stepsPerScanline.toNat
      c.framePositions.length < timing.frameLength - c.scanline ∧
      ((∃ done, begun ≤ done ∧
          done < (c.framePositions.length + 1) * timing.stepsPerScanline.toNat ∧
          c.machine.Course (done + 1) (some failure) c'.machine) ∨
        failure = .cycleSumOverflow ∧ 4294967296 ≤ 7 * timing.stepsPerScanline.toNat ∧
          c.machine.Completes begun ∧ ∃ done < timing.stepsPerScanline.toNat,
            (c.machine.after begun).Outgrows 0 done c'.machine)) ∧
    c.frameCount = ((powerOn timing bus).positions session).count 0 ∧
    ∀ later, c.frameCount ≤ (performAll interact c later).2.frameCount := by
  intro c
  obtain ⟨htiming, hposition⟩ := inside_session timing bus session
  have hinside : c.scanline < c.timing.frameLength := by rwa [htiming]
  have hlines := linesLeft_eq hinside
  rw [htiming] at hlines
  refine ⟨htiming, hposition, fun _ _ ↦ frameLoop_iff, ?_, ?_, ?_, ?_⟩
  · intro frame c' hrun
    rw [← hlines]
    exact framePositions_of_runFrame_ok hrun
  · intro failure c' hrun
    have hcause := failure_of_runFrame hinside hrun
    rw [htiming] at hcause
    rw [← hlines]
    exact ⟨(framePositions_of_runFrame_error hrun).2, hcause⟩
  · calc
      c.frameCount = (powerOn timing bus).frameCount +
          ((powerOn timing bus).positions session).count 0 := frameCount_session _ _
      _ = ((powerOn timing bus).positions session).count 0 := Nat.zero_add _
  · intro later
    have hlater := frameCount_session c later
    rw [hlater]
    exact Nat.le_add_right _ _

/-- One scanline is left of the frame of a console that a cartridge of zeros keeps interrupting. No
step ever fails, and still the loop of the frame ends before that scanline does, at the step with
which its cycles no longer fit 32 bits. -/
theorem frame_unfinished_without_failure :
    let c := (performAll interact tooLongScanline [.call (.load (Array.replicate 4096 0))]).2
    c.timing.frameLength - c.scanline = 1 ∧ (∀ count, c.machine.Completes count) ∧
      c.FrameLoop [] c.runFrame ∧
      c.runFrame = (.error .cycleSumOverflow, { c with machine := c.machine.after 613566757 }) := by
  intro c
  have hinterrupts : c.machine.Interrupts := tooLongScanline.interrupts_load fun _ h ↦ read_zeros h
  have hsteps : c.timing.stepsPerScanline.toNat = 613566756 + 1 := by
    have htiming : c.timing = tooLongScanline.timing := tooLongScanline.timing_perform (.load _)
    rw [htiming]
    decide
  have hscanline : c.runScanline =
      (.error .cycleSumOverflow, { c with machine := c.machine.after 613566757 }) :=
    (runScanline_interrupts hinterrupts rfl hsteps (by decide) (by decide)).2
  have hloop : c.FrameLoop [] c.runFrame :=
    frameLoop_iff.mpr ⟨(framePositions_of_error hscanline).symm, rfl⟩
  exact ⟨rfl, fun count ↦ (hinterrupts.completes count).1, hloop, runFrame_of_error hscanline⟩

end Console

end VideoComputer
