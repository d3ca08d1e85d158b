import Mathlib.Data.List.Basic
import VideoComputer.Proofs.Console.Failures
import VideoComputer.Proofs.Console.Hooks
import VideoComputer.Proofs.Machine.Past

/-!
# The image in the cartridge window

What the cartridge shows depends on the image that was loaded last and on nothing else. Main
statement: whatever has been done with a console, reads of the window give the bytes of that image
and 255 where it has none, the view of the whole window has zeros there, and loading an image starts
the processor where the reads of its vector lead. Of an image only the first 4096 bytes matter: two
images with the same give consoles that differ in the log of the loading and never again.
-/

namespace VideoComputer

/-! ## Images and what is seen of them -/

namespace Cartridge

/-- A cartridge is what its own image makes. -/
theorem ofImage_image (cartridge : Cartridge) : ofImage cartridge.image = cartridge := by
  obtain ⟨image, hsize⟩ := cartridge
  have hwhole : image.take 4096 = image := by
    rw [Array.take_eq_extract, Array.extract_eq_self_of_le hsize]
  unfold ofImage
  simp only [hwhole]

/-- Where the image has a byte it is read, and elsewhere there are only ones. -/
theorem read_ofImage_cases (image : Array Byte) (offset : Nat) :
    (offset < min image.size 4096 → image[offset]? = some ((ofImage image).read offset)) ∧
      (min image.size 4096 ≤ offset → (ofImage image).read offset = 0xFF) := by
  rw [read_ofImage]
  constructor
  · intro hinside
    rw [if_pos (by omega), Array.getElem?_eq_getElem (by omega), Array.getD, dif_pos (by omega)]
    rfl
  · intro houtside
    split
    · rw [Array.getD, dif_neg (by omega)]
    · rfl

/-- A list cut or padded to a length has its own bytes and then the padding. -/
theorem getElem?_take_append_replicate (bytes : List Byte) {size offset : Nat}
    (h : offset < size) :
    (bytes.take size ++ List.replicate (size - bytes.length) 0)[offset]? =
      some (bytes.getD offset 0) := by
  rw [List.getD_eq_getElem?_getD]
  by_cases hlength : offset < bytes.length
  · rw [List.getElem?_append_left (by rw [List.length_take]; omega),
      List.getElem?_take_of_lt h, List.getElem?_eq_getElem hlength, Option.getD_some]
  · rw [List.getElem?_append_right (by rw [List.length_take]; omega),
      List.getElem?_replicate_of_lt (by rw [List.length_take]; omega),
      List.getElem?_eq_none (by omega), Option.getD_none]

theorem getElem?_window (cartridge : Cartridge) {offset : Nat} (h : offset < 4096) :
    cartridge.window.toList[offset]? = some (cartridge.image.getD offset 0) := by
  rw [Vector.getElem?_toList, Vector.getElem?_eq_getElem h]
  exact congrArg some (Vector.getElem_ofFn h)

/-- The window shows the image, cut to its size or with zeros behind it. -/
theorem toList_window_ofImage (image : Array Byte) :
    (ofImage image).window.toList =
      image.toList.take 4096 ++ List.replicate (4096 - image.size) 0 := by
  rw [← Array.length_toList]
  refine List.ext_getElem ?_ fun offset hwindow hpadded ↦ Option.some.inj ?_
  · simp only [Vector.length_toList, List.length_take, List.length_append, List.length_replicate]
    omega
  · have hinside : offset < 4096 := by simpa only [Vector.length_toList] using hwindow
    have hbyte : (ofImage image).image.getD offset 0 = image.toList.getD offset 0 := by
      simp only [ofImage, Array.getD_eq_getD_getElem?, Array.take_eq_extract,
        Array.getElem?_extract, Nat.sub_zero, Nat.zero_add, List.getD_eq_getElem?_getD,
        Array.getElem?_toList]
      split
      · rfl
      · rw [Array.getElem?_eq_none (by omega)]
    rw [← List.getElem?_eq_getElem hwindow, ← List.getElem?_eq_getElem hpadded,
      getElem?_window _ hinside, hbyte, getElem?_take_append_replicate image.toList hinside]

/-- Images with the same first 4096 bytes make one cartridge. -/
theorem ofImage_congr {first second : Array Byte} (h : first.take 4096 = second.take 4096) :
    ofImage first = ofImage second := by
  unfold ofImage
  simp only [h]

end Cartridge

/-- The bytes of the window are seen wherever line 12 is set. -/
theorem ConsoleBus.read_of_rom (bus : ConsoleBus) {address : Word}
    (h : AddressClass.rom.Contains address) :
    Bus.read bus address = bus.cartridge.read (address &&& 0xFFF).toNat := by
  have hrom := (AddressClass.contains_rom address).mp h
  have htia : ¬AddressClass.tia.Contains address := by
    rw [AddressClass.contains_tia]
    omega
  have hriot : ¬AddressClass.riot.Contains address := by
    rw [AddressClass.contains_riot]
    omega
  change bus.read address = _
  rw [read, Region.decode_eq_named, Region.named, if_neg htia, if_neg hriot, if_pos h]

namespace Machine

/-- However a burst ends, it has taken some number of steps. -/
theorem exists_after_runSteps (m : Machine ConsoleBus) (total count : Nat) :
    ∃ done, (m.runSteps total count).2 = m.after done := by
  induction count generalizing m total with
  | zero => exact ⟨0, rfl⟩
  | succ count ih =>
    have hstep : m.after 1 = m.step.2 := m.after_succ 0
    match hresult : m.step with
    | (.error failure, next) =>
      rw [hresult] at hstep
      refine ⟨1, ?_⟩
      rw [runSteps, hresult, hstep]
    | (.ok cycles, next) =>
      rw [hresult] at hstep
      rw [runSteps, hresult]
      by_cases hfits : total + cycles < 4294967296
      · obtain ⟨done, hrest⟩ := ih next (total + cycles)
        refine ⟨1 + done, ?_⟩
        simp only [if_pos hfits]
        rw [hrest, after_add, hstep]
      · refine ⟨1, ?_⟩
        simp only [if_neg hfits]
        rw [hstep]

theorem runSteps_withPast (m : Machine ConsoleBus) (past : List Event) (total count : Nat) :
    (m.withPast past).runSteps total count =
      ((m.runSteps total count).1, (m.runSteps total count).2.withPast past) := by
  induction count generalizing m total with
  | zero => rfl
  | succ count ih =>
    rw [runSteps, runSteps, step_withPast]
    obtain ⟨failure | cycles, next⟩ := m.step
    · rfl
    · simp only
      split
      · exact ih next (total + cycles)
      · rfl

theorem insertCartridge_withPast (m : Machine ConsoleBus) (past : List Event)
    (image : Array Byte) :
    (m.withPast past).insertCartridge image = (m.insertCartridge image).withPast past := by
  let inserted : Machine ConsoleBus :=
    { m with bus := { m.bus with cartridge := .ofImage image } }
  exact inserted.note_withPast _ past

theorem operate_withPast (m : Machine ConsoleBus) (past : List Event) (call : BoardCall) :
    (m.withPast past).operate call = ((m.operate call).1, (m.operate call).2.withPast past) := by
  cases call with
  | machine call => exact m.perform_withPast past call
  | resetProcessor => exact congrArg (Prod.mk _) (m.reset_withPast past)
  | insertCartridge image => exact congrArg (Prod.mk _) (m.insertCartridge_withPast past image)
  | resetChips => rfl

theorem cartridge_perform (m : Machine ConsoleBus) (call : Call) :
    (m.perform call).2.bus.cartridge = m.bus.cartridge := by
  by_cases hcall : call.Interferes
  · cases call with
    | set setter => rfl
    | write address value => exact m.bus.cartridge_write address value
    | step | run | read => exact absurd hcall id
  · rw [(m.perform_course hcall).eq_after, cartridge_after]

end Machine

namespace Console

variable {c next : Console}

/-! ## What an owner does -/

/-- A call to the console, or one to its processor and its bus behind its back. -/
inductive Handling where
  | call (call : Call)
  | board (call : BoardCall)

def handle (c : Console) : Handling → Except Failure Answer × Console
  | .call call => c.perform call
  | .board call =>
    let (answer, machine) := c.machine.operate call
    (answer, { c with machine := machine })

/-- The image that is loaded, with a reset or without. -/
def Handling.image? : Handling → Option (Array Byte)
  | call (.load image) | board (.insertCartridge image) => some image
  | _ => none

/-- The image that was loaded last, or the one from the beginning if none was. -/
def lastImage (first : Array Byte) (handlings : List Handling) : Array Byte :=
  (handlings.filterMap Handling.image?).getLastD first

theorem lastImage_cons (first : Array Byte) (handling : Handling) (rest : List Handling) :
    lastImage first (handling :: rest) = lastImage (handling.image?.getD first) rest := by
  unfold lastImage
  rw [List.filterMap_cons]
  cases handling.image? with
  | none => rfl
  | some image => rw [List.getLastD_cons, Option.getD_some]

theorem cartridge_runScanline (c : Console) :
    c.runScanline.2.machine.bus.cartridge = c.machine.bus.cartridge := by
  obtain ⟨done, hdone⟩ := c.machine.exists_after_runSteps 0 c.timing.stepsPerScanline.toNat
  match hburst : c.machine.runSteps 0 c.timing.stepsPerScanline.toNat with
  | (.error failure, machine) =>
    obtain rfl : machine = c.machine.after done := (congrArg Prod.snd hburst).symm.trans hdone
    simp only [runScanline, hburst]
    exact c.machine.cartridge_after done
  | (.ok cycles, machine) =>
    obtain rfl : machine = c.machine.after done := (congrArg Prod.snd hburst).symm.trans hdone
    simp only [runScanline, hburst, machine_advance, machine_drawScanline]
    exact c.machine.cartridge_after done

theorem cartridge_runFrame (c : Console) :
    c.runFrame.2.machine.bus.cartridge = c.machine.bus.cartridge := by
  fun_induction runFrame c with
  | case1 c failure next hscanline => rw [← c.cartridge_runScanline, hscanline]
  | case2 c cycles next hscanline => rw [← c.cartridge_runScanline, hscanline]
  | case3 c cycles next hscanline _ ih => rw [ih, ← c.cartridge_runScanline, hscanline]

/-- Only loading changes the cartridge. -/
theorem cartridge_handle {image : Array Byte} (h : c.machine.bus.cartridge = .ofImage image)
    (handling : Handling) :
    (c.handle handling).2.machine.bus.cartridge = .ofImage (handling.image?.getD image) := by
  cases handling with
  | call call =>
    cases call with
    | machine call => exact (c.machine.cartridge_perform call).trans h
    | runScanline => exact c.cartridge_runScanline.trans h
    | runFrame => exact c.cartridge_runFrame.trans h
    | clearFrame | reset => exact h
    | load image => rfl
  | board call =>
    cases call with
    | machine call => exact (c.machine.cartridge_perform call).trans h
    | resetProcessor | resetChips => exact h
    | insertCartridge image => rfl

theorem cartridge_handlings {image : Array Byte} (h : c.machine.bus.cartridge = .ofImage image)
    (handlings : List Handling) :
    (performAll handle c handlings).2.machine.bus.cartridge =
      .ofImage (lastImage image handlings) := by
  induction handlings generalizing c image with
  | nil => exact h
  | cons handling rest ih =>
    rw [lastImage_cons]
    exact ih (cartridge_handle h handling)

/-! ## Consoles with different pasts -/

/-- The console as if these events had been noticed before. -/
def withPast (c : Console) (past : List Event) : Console :=
  { c with machine := c.machine.withPast past }

theorem drawScanline_withPast (c : Console) (past : List Event) :
    (c.withPast past).drawScanline = c.drawScanline.withPast past := by
  have hrow : (c.withPast past).timing.visibleRow? (c.withPast past).scanline =
      c.timing.visibleRow? c.scanline := rfl
  unfold drawScanline
  rw [hrow]
  split <;> rfl

theorem advance_withPast (c : Console) (past : List Event) :
    (c.withPast past).advance = c.advance.withPast past := by
  have hline : ((c.withPast past).scanline + 1 < (c.withPast past).timing.scanlinesPerFrame.toNat) =
      (c.scanline + 1 < c.timing.scanlinesPerFrame.toNat) := rfl
  unfold advance
  simp only [hline]
  split <;> rfl

theorem runScanline_withPast (c : Console) (past : List Event) :
    (c.withPast past).runScanline = (c.runScanline.1, c.runScanline.2.withPast past) := by
  have hburst := c.machine.runSteps_withPast past 0 c.timing.stepsPerScanline.toNat
  match hrun : c.machine.runSteps 0 c.timing.stepsPerScanline.toNat with
  | (.error failure, machine) =>
    rw [hrun] at hburst
    simp only [runScanline, hrun]
    simp only [withPast, hburst]
  | (.ok cycles, machine) =>
    rw [hrun] at hburst
    simp only [runScanline, hrun, ← advance_withPast, ← drawScanline_withPast]
    simp only [withPast, hburst]

theorem runFrame_withPast (c : Console) (past : List Event) :
    (c.withPast past).runFrame = (c.runFrame.1, c.runFrame.2.withPast past) := by
  fun_induction runFrame c with
  | case1 c failure next hscanline =>
    exact runFrame_of_error (by rw [runScanline_withPast, hscanline])
  | case2 c cycles next hscanline hfirst =>
    have hpast : (c.withPast past).runScanline = (.ok cycles, next.withPast past) := by
      rw [runScanline_withPast, hscanline]
    rw [runFrame_of_ok hpast]
    exact if_pos hfirst
  | case3 c cycles next hscanline hlater ih =>
    have hpast : (c.withPast past).runScanline = (.ok cycles, next.withPast past) := by
      rw [runScanline_withPast, hscanline]
    rw [runFrame_of_ok hpast, ← ih]
    exact if_neg hlater

theorem reset_withPast (c : Console) (past : List Event) :
    (c.withPast past).reset = c.reset.withPast past :=
  congrArg (fun machine ↦ { c with machine := machine, scanline := 0, frame := .blank })
    (c.machine.resetChips.reset_withPast past)

theorem load_withPast (c : Console) (past : List Event) (image : Array Byte) :
    (c.withPast past).load image = (c.load image).withPast past := by
  have hinserted : (c.withPast past).insertCartridge image =
      (c.insertCartridge image).withPast past :=
    congrArg (fun machine ↦ { c with machine := machine })
      (c.machine.insertCartridge_withPast past image)
  rw [load, hinserted, reset_withPast, load]

theorem handle_withPast (c : Console) (past : List Event) (handling : Handling) :
    (c.withPast past).handle handling =
      ((c.handle handling).1, (c.handle handling).2.withPast past) := by
  cases handling with
  | call call =>
    cases call with
    | machine call =>
      simp only [handle, perform, withPast, Machine.perform_withPast]
    | runScanline => simp only [handle, perform, runScanline_withPast]
    | runFrame => simp only [handle, perform, runFrame_withPast]
    | clearFrame => rfl
    | reset => exact congrArg (Prod.mk _) (c.reset_withPast past)
    | load image => exact congrArg (Prod.mk _) (c.load_withPast past image)
  | board call => simp only [handle, withPast, Machine.operate_withPast]

/-- Nothing that is done with a console shows what was noticed before. -/
theorem handlings_withPast (c : Console) (past : List Event) (handlings : List Handling) :
    performAll handle (c.withPast past) handlings =
      ((performAll handle c handlings).1, (performAll handle c handlings).2.withPast past) := by
  induction handlings generalizing c with
  | nil => rfl
  | cons handling rest ih =>
    simp only [performAll, handle_withPast, ih]

/-! ## After loading -/

/-- The processor starts at the word that is read at the end of the window. -/
theorem pc_load (c : Console) (image : Array Byte) :
    (c.load image).machine.processor.pc =
      .join (image.getD 0xFFC 0xFF) (image.getD 0xFFD 0xFF) := by
  have hlow : Bus.read (c.load image).machine.bus Machine.resetVector =
      (Cartridge.ofImage image).read 0xFFC :=
    (c.load image).machine.bus.read_of_rom (by decide)
  have hhigh : Bus.read (c.load image).machine.bus (Machine.resetVector + 1) =
      (Cartridge.ofImage image).read 0xFFD :=
    (c.load image).machine.bus.read_of_rom (by decide)
  rw [Cartridge.read_ofImage, if_pos (by decide)] at hlow hhigh
  exact congrArg₂ Word.join hlow hhigh

/-- The console as if nothing had been noticed yet. -/
def forget (c : Console) : Console := { c with machine := { c.machine with journal := #[] } }

theorem forget_withPast (c : Console) : c.forget.withPast c.machine.journal.toList = c :=
  congrArg (fun machine ↦ { c with machine := machine }) c.machine.withPast_journal

/-- Only the log of the loading tells images apart that make one cartridge. -/
theorem forget_load_congr (c : Console) {first second : Array Byte}
    (h : Cartridge.ofImage first = .ofImage second) :
    (c.load first).forget = (c.load second).forget := by
  have hbuilt (image : Array Byte) : (c.load image).forget =
      { c with
        machine :=
          { c.machine with
            bus := { c.machine.bus with cartridge := .ofImage image }.reset
            processor := .initial (Bus.readWord
              { c.machine.bus with cartridge := .ofImage image }.reset Machine.resetVector)
            journal := #[] }
        scanline := 0
        frame := .blank } := rfl
  rw [hbuilt, hbuilt, h]

/-- What is done after loading images with the same first 4096 bytes goes the same way. -/
theorem handlings_load_congr (c : Console) {first second : Array Byte}
    (h : first.take 4096 = second.take 4096) (later : List Handling) :
    ∃ answers, ∃ final : Console,
      performAll handle (c.load first) later =
        (answers, final.withPast (c.load first).machine.journal.toList) ∧
      performAll handle (c.load second) later =
        (answers, final.withPast (c.load second).machine.journal.toList) := by
  -- Without their pasts both consoles are the same one.
  have hforgotten := c.forget_load_congr (Cartridge.ofImage_congr h)
  have hfirst := handlings_withPast (c.load first).forget
    (c.load first).machine.journal.toList later
  have hsecond := handlings_withPast (c.load second).forget
    (c.load second).machine.journal.toList later
  rw [forget_withPast] at hfirst hsecond
  rw [← hforgotten] at hsecond
  exact ⟨_, _, hfirst, hsecond⟩

/-- **The cartridge shows the image that was loaded last and nothing else.** Whatever is done with a
console, and whatever was loaded before: reads with line 12 set give the bytes of that image as far
as it has them and 255 elsewhere, the view of the window is the image cut or filled with zeros, and
its size is counted up to 4096. A slot that is empty, as in a new console, stays so until then.
Loading starts the processor at the word of those reads, and after loading images with the same
first 4096 bytes everything goes the same way but for the log of the loading. -/
theorem cartridge_shows_lastImage (c : Console) (handlings : List Handling) :
    let image := lastImage c.machine.bus.cartridge.image handlings
    let last := (performAll handle c handlings).2
    (∀ address : Word, address &&& 0x1000 ≠ 0 →
      let offset := (address &&& 0xFFF).toNat
      (offset < min image.size 4096 → image[offset]? = some (last.machine.read address)) ∧
        (min image.size 4096 ≤ offset → last.machine.read address = 0xFF)) ∧
    (last.machine.bus.cartridge.window.toList =
        image.toList.take 4096 ++ List.replicate (4096 - image.size) 0 ∧
      last.machine.bus.cartridge.size = min image.size 4096) ∧
    (c.machine.bus.cartridge = {} → (∀ handling ∈ handlings, handling.image? = none) →
      image = #[]) ∧
    (∀ loaded, (last.load loaded).machine.processor.pc =
      .join (loaded.getD 0xFFC 0xFF) (loaded.getD 0xFFD 0xFF)) ∧
    ∀ first second : Array Byte, first.take 4096 = second.take 4096 → ∀ later,
      ∃ answers, ∃ final : Console,
        performAll handle (last.load first) later =
          (answers, final.withPast (last.load first).machine.journal.toList) ∧
        performAll handle (last.load second) later =
          (answers, final.withPast (last.load second).machine.journal.toList) := by
  intro image last
  have hcartridge : last.machine.bus.cartridge = .ofImage image :=
    cartridge_handlings (Cartridge.ofImage_image _).symm handlings
  refine ⟨fun address hrom ↦ ?_, ⟨?_, ?_⟩, fun hempty hnone ↦ ?_,
    fun loaded ↦ last.pc_load loaded, fun _ _ h later ↦ last.handlings_load_congr h later⟩
  · have hread : last.machine.read address =
        (Cartridge.ofImage image).read (address &&& 0xFFF).toNat := by
      rw [← hcartridge]
      exact last.machine.bus.read_of_rom hrom
    rw [hread]
    exact Cartridge.read_ofImage_cases image _
  · rw [hcartridge, Cartridge.toList_window_ofImage]
  · rw [hcartridge, Cartridge.size_ofImage]
  · have himages : handlings.filterMap Handling.image? = [] :=
      List.filterMap_eq_nil_iff.mpr hnone
    simp only [image, lastImage, himages, List.getLastD_nil, hempty]

/-- A whole image, a write to it that is lost, and an image of two bytes. -/
def reloading : List Handling :=
  [.call (.load (Array.replicate 4096 0x44)), .call (.machine (.write 0xF002 0x99)),
    .call (.load #[0x55, 0x66])]

/-- Nothing of the long image is left, and a new console has none. A byte behind the window of an
image makes no difference. -/
theorem cartridge_shows_lastImage_reloading :
    let last := (performAll handle (powerOn .ntsc {}) reloading).2
    last.machine.read 0x1001 = 0x66 ∧ last.machine.read 0xF002 = 0xFF ∧
      last.machine.bus.cartridge.size = 2 ∧
      lastImage (powerOn .ntsc {}).machine.bus.cartridge.image [] = #[] ∧
      (last.load #[0x55, 0x66]).machine.processor.pc = 0xFFFF ∧
      ∃ answers, ∃ final : Console,
        performAll handle (last.load (Array.replicate 4096 0)) reloading =
          (answers, final.withPast
            (last.load (Array.replicate 4096 0)).machine.journal.toList) ∧
        performAll handle (last.load (Array.replicate 4097 0)) reloading =
          (answers, final.withPast
            (last.load (Array.replicate 4097 0)).machine.journal.toList) := by
  obtain ⟨hread, ⟨-, hsize⟩, -, hpc, hlater⟩ :=
    cartridge_shows_lastImage (powerOn .ntsc {}) reloading
  obtain ⟨-, -, hnew, -⟩ := cartridge_shows_lastImage (powerOn .ntsc {}) []
  refine ⟨?_, (hread 0xF002 (by decide)).2 (by decide), hsize, ?_, hpc _, hlater _ _ ?_ _⟩
  · exact (Option.some.inj ((hread 0x1001 (by decide)).1 (by decide))).symm
  · exact hnew rfl fun _ hnone ↦ absurd hnone List.not_mem_nil
  · simp

end Console

end VideoComputer
