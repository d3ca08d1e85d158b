import VideoComputer.Proofs.Console.Calls
import VideoComputer.Proofs.Machine.Halt
import VideoComputer.Proofs.Machine.Instructions

/-!
# Programs that store bytes and wait

A cartridge whose program stores bytes on page zero, one after the other, and then jumps to itself.
Main statement: the first frame of such a cartridge succeeds, all of its rows show what the stores
make of blank registers, and the memory chip holds the others.

The program is followed by induction on the stores that are left. The longest such program is done
before the first visible scanline ends, and after that nothing changes.
-/

namespace VideoComputer

/-- The bytes at an offset of a cartridge and behind it. -/
def Cartridge.Holds (cartridge : Cartridge) (offset : Nat) : List Byte → Prop
  | [] => True
  | value :: values => cartridge.read offset = value ∧ cartridge.Holds (offset + 1) values

theorem Cartridge.holds_append {cartridge : Cartridge} {offset : Nat} {first second : List Byte} :
    cartridge.Holds offset (first ++ second) ↔
      cartridge.Holds offset first ∧ cartridge.Holds (offset + first.length) second := by
  induction first generalizing offset with
  | nil => simp [Holds]
  | cons value values ih =>
    have hlength : offset + (value :: values).length = offset + 1 + values.length := by
      rw [List.length_cons]
      omega
    rw [List.cons_append, Holds, Holds, ih, hlength, and_assoc]

/-- An image that fits is held from its first byte on. -/
theorem Cartridge.holds_ofImage {image : List Byte} (h : image.length ≤ 4096) :
    (ofImage image.toArray).Holds 0 image := by
  -- The bytes before an offset are told apart so that the induction can go on behind it.
  suffices hrest : ∀ before rest : List Byte, before ++ rest = image →
      (ofImage image.toArray).Holds before.length rest from hrest [] image rfl
  intro before rest
  induction rest generalizing before with
  | nil => exact fun _ ↦ trivial
  | cons value values ih =>
    intro himage
    constructor
    · have hinside : before.length < 4096 := by
        have hlength := congrArg List.length himage
        rw [List.length_append, List.length_cons] at hlength
        omega
      rw [read_ofImage, if_pos hinside, ← himage]
      simp
    · have hrest := ih (before ++ [value]) (by simpa using himage)
      simpa using hrest

/-- Where the processor sees an offset of the cartridge. -/
def romAddress (offset : Nat) : Word := 0xF000 + UInt16.ofNat offset

theorem romAddress_add (offset count : Nat) :
    romAddress (offset + count) = romAddress offset + UInt16.ofNat count := by
  rw [romAddress, UInt16.ofNat_add, ← UInt16.add_assoc]
  rfl

theorem Region.decode_romAddress {offset : Nat} (h : offset < 4096) :
    decode (romAddress offset) = .rom ⟨offset, h⟩ := by
  have haddress : (romAddress offset).toNat = 61440 + offset := by
    have hstart : UInt16.toNat 0xF000 = 61440 := rfl
    rw [romAddress, UInt16.toNat_add, UInt16.toNat_ofNat', hstart]
    omega
  have hlines : (romAddress offset).toNat % 8192 = 4096 + offset := by omega
  simp only [decode, hlines]
  rw [if_neg (by omega), if_neg (by omega), dif_pos (by omega)]
  simp only [Nat.add_sub_cancel_left]

theorem ConsoleBus.read_romAddress (bus : ConsoleBus) {offset : Nat} (h : offset < 4096) :
    Bus.read bus (romAddress offset) = bus.cartridge.read offset := by
  change bus.read _ = _
  rw [read, Region.decode_romAddress h]

/-! ## What the stores do -/

theorem Byte.toNat_and_lt (value mask : Byte) {size : Nat} (h : mask.toNat < size) :
    (value &&& mask).toNat < size := by
  rw [UInt8.toNat_and]
  exact Nat.lt_of_le_of_lt Nat.and_le_right h

/-- A mask of the lowest `width` bits. -/
theorem Byte.toNat_and_mask (value mask : Byte) (width : Nat) (hmask : mask.toNat = 2 ^ width - 1) :
    (value &&& mask).toNat = value.toNat % 2 ^ width := by
  rw [UInt8.toNat_and, hmask, Nat.and_two_pow_sub_one_eq_mod]

/-- Where a byte is stored on page zero, and which. -/
abbrev Store := Byte × Byte

/-- The television chip takes the stores below 0x80. -/
def Tia.store (tia : Tia) (store : Store) : Tia :=
  if store.1 < 0x80 then
    tia.write ⟨(store.1 &&& 0x3F).toNat, store.1.toNat_and_lt 0x3F (by decide)⟩ store.2
  else tia

/-- The memory chip takes the stores from 0x80 on. -/
def Riot.store (riot : Riot) (store : Store) : Riot :=
  if store.1 < 0x80 then riot
  else riot.write ⟨(store.1 &&& 0x7F).toNat, store.1.toNat_and_lt 0x7F (by decide)⟩ store.2

def ConsoleBus.store (bus : ConsoleBus) (store : Store) : ConsoleBus :=
  bus.write store.1.toUInt16 store.2

theorem ConsoleBus.store_eq (bus : ConsoleBus) (store : Store) :
    bus.store store = { bus with tia := bus.tia.store store, riot := bus.riot.store store } := by
  obtain ⟨address, value⟩ := store
  have hbyte := address.toNat_lt
  have hline : address.toUInt16.toNat % 8192 = address.toNat := by
    rw [UInt8.toNat_toUInt16]
    omega
  have hchip : address < 0x80 ↔ address.toNat < 128 := UInt8.lt_iff_toNat_lt
  simp only [ConsoleBus.store, write, Region.decode, Tia.store, Riot.store, hline, hchip]
  by_cases hlow : address.toNat < 128
  · have hoffset : (address &&& 0x3F).toNat = address.toNat % 64 :=
      address.toNat_and_mask 0x3F 6 (by decide)
    simp only [if_pos hlow, hoffset]
  · have hoffset : (address &&& 0x7F).toNat = (address.toNat - 128) % 128 := by
      rw [address.toNat_and_mask 0x7F 7 (by decide)]
      omega
    simp only [if_neg hlow, if_pos (show address.toNat < 512 by omega), hoffset]

/-- Stores go to the chips separately, and never to the cartridge. -/
theorem ConsoleBus.foldl_store (bus : ConsoleBus) (stores : List Store) :
    stores.foldl store bus =
      { bus with tia := stores.foldl Tia.store bus.tia
                 riot := stores.foldl Riot.store bus.riot } := by
  induction stores generalizing bus with
  | nil => rfl
  | cons first rest ih =>
    simp only [List.foldl_cons, store_eq, ih]

/-! ## The program -/

/-- Each store is a load of the byte and a store of the accumulator. -/
def storeCode : List Store → List Byte
  | [] => []
  | (address, value) :: rest => 0xA9 :: value :: 0x85 :: address :: storeCode rest

/-- A jump to an offset of the cartridge. -/
def jumpCode (offset : Nat) : List Byte :=
  [0x4C, (romAddress offset).low, (romAddress offset).high]

@[simp] theorem length_storeCode (stores : List Store) :
    (storeCode stores).length = 4 * stores.length := by
  induction stores with
  | nil => rfl
  | cons first rest ih =>
    simp only [storeCode, List.length_cons, ih]
    omega

/-- The stores, a jump to itself and zeros up to the last four bytes, where the processor finds its
start. -/
def storeProgram (stores : List Store) : List Byte :=
  let code := storeCode stores ++ jumpCode (storeCode stores).length
  code ++ List.replicate (4092 - code.length) 0 ++ [0x00, 0xF0, 0x00, 0x00]

theorem length_storeProgram {stores : List Store} (h : stores.length ≤ 1022) :
    (storeProgram stores).length = 4096 := by
  simp only [storeProgram, jumpCode, List.length_append, List.length_replicate, length_storeCode,
    List.length_cons, List.length_nil]
  omega

/-- What a cartridge with the program holds, and where. -/
theorem holds_storeProgram {stores : List Store} (h : stores.length ≤ 1022) :
    let cartridge := Cartridge.ofImage (storeProgram stores).toArray
    cartridge.Holds 0 (storeCode stores) ∧
      cartridge.Holds (4 * stores.length) (jumpCode (4 * stores.length)) ∧
      cartridge.Holds 4092 [0x00, 0xF0, 0x00, 0x00] := by
  intro cartridge
  have hholds : cartridge.Holds 0 (storeProgram stores) :=
    Cartridge.holds_ofImage (Nat.le_of_eq (length_storeProgram h))
  have hfill : 4 * stores.length + 3 + (4092 - (4 * stores.length + 3)) = 4092 := by omega
  have hjump : (jumpCode (4 * stores.length)).length = 3 := rfl
  simp only [storeProgram, Cartridge.holds_append, List.length_append, List.length_replicate,
    length_storeCode, hjump, Nat.zero_add, hfill] at hholds
  exact ⟨hholds.1.1.1, hholds.1.1.2, hholds.2⟩

/-! ## The run -/

/-- Running, and about to run what the cartridge holds at an offset. -/
structure Machine.StandsAt (m : Machine ConsoleBus) (offset : Nat) : Prop where
  running : m.processor.halted = false
  pc : m.processor.pc = romAddress offset

namespace Machine

variable {m : Machine ConsoleBus} {offset : Nat}

theorem StandsAt.read (h : m.StandsAt offset) (count : Nat) (hinside : offset + count < 4096) :
    m.read (m.processor.pc + UInt16.ofNat count) = m.bus.cartridge.read (offset + count) := by
  rw [h.pc, ← romAddress_add]
  exact m.bus.read_romAddress hinside

theorem StandsAt.read_pc (h : m.StandsAt offset) (hinside : offset < 4096) :
    m.read m.processor.pc = m.bus.cartridge.read offset := by
  rw [h.pc]
  exact m.bus.read_romAddress hinside

/-- Two steps carry out a store. -/
theorem StandsAt.store (h : m.StandsAt offset) {store : Store} {rest : List Store}
    (hinside : offset + 4 ≤ 4096)
    (hcode : m.bus.cartridge.Holds offset (storeCode (store :: rest))) :
    m.Completes 2 ∧ (m.after 2).StandsAt (offset + 4) ∧ (m.after 2).bus = m.bus.store store := by
  obtain ⟨address, value⟩ := store
  obtain ⟨hload, hvalue, hstore, haddress, -⟩ := hcode
  obtain ⟨loaded, hloadStep, hloadBus, hloadProcessor⟩ := step_loadImmediate h.running
    ((h.read_pc (by omega)).trans hload)
  have hloaded : loaded.StandsAt (offset + 2) := by
    refine ⟨by rw [hloadProcessor]; exact h.running, ?_⟩
    rw [hloadProcessor, romAddress_add, ← h.pc]
    rfl
  have haccumulator : loaded.processor.a = value := by
    rw [hloadProcessor, ← hvalue]
    exact h.read 1 (by omega)
  obtain ⟨stored, hstoreStep, hstoreBus, hstoreProcessor⟩ := step_storeZeroPage hloaded.running
    ((hloaded.read_pc (by omega)).trans (by rw [hloadBus]; exact hstore))
  have hwritten : loaded.read (loaded.processor.pc + 1) = address := by
    rw [← haddress, ← hloadBus]
    exact hloaded.read 1 (by omega)
  have hafter : m.after 2 = stored := by rw [after, hloadStep, after, hstoreStep, after]
  rw [hafter]
  refine ⟨.cons hloadStep (.cons hstoreStep (completes_zero _)), ⟨?_, ?_⟩, ?_⟩
  · rw [hstoreProcessor]
    exact hloaded.running
  · have hoffset : offset + 4 = offset + 2 + 2 := rfl
    rw [hstoreProcessor, hoffset, romAddress_add, ← hloaded.pc]
    rfl
  · rw [hstoreBus, hwritten, haccumulator, hloadBus]
    rfl

/-- The stores of a program are carried out in order, two steps each. -/
theorem StandsAt.stores {stores : List Store} (h : m.StandsAt offset)
    (hinside : offset + 4 * stores.length ≤ 4096)
    (hcode : m.bus.cartridge.Holds offset (storeCode stores)) :
    m.Completes (2 * stores.length) ∧
      (m.after (2 * stores.length)).StandsAt (offset + 4 * stores.length) ∧
      (m.after (2 * stores.length)).bus = stores.foldl ConsoleBus.store m.bus := by
  induction stores generalizing m offset with
  | nil => exact ⟨m.completes_zero, h, rfl⟩
  | cons first rest ih =>
    rw [List.length_cons] at hinside
    obtain ⟨hcompletes, hnext, hbus⟩ := h.store (by omega) hcode
    have hrest : (m.after 2).bus.cartridge.Holds (offset + 4) (storeCode rest) := by
      rw [hbus, ConsoleBus.store_eq]
      exact hcode.2.2.2.2
    obtain ⟨hrestCompletes, hlast, hrestBus⟩ := ih hnext (by omega) hrest
    have hsteps : 2 * (first :: rest).length = 2 + 2 * rest.length := by
      rw [List.length_cons]
      omega
    have hend : offset + 4 * (first :: rest).length = offset + 4 + 4 * rest.length := by
      rw [List.length_cons]
      omega
    rw [hsteps, hend, after_add]
    refine ⟨hcompletes.add hrestCompletes, hlast, ?_⟩
    rw [hrestBus, hbus, List.foldl_cons]

/-- Once the processor stands at a jump to itself, nothing happens to the bus any more. -/
theorem StandsAt.spin (h : m.StandsAt offset) (hinside : offset + 3 ≤ 4096)
    (hcode : m.bus.cartridge.Holds offset (jumpCode offset)) (count : Nat) :
    m.Completes count ∧ (m.after count).bus = m.bus := by
  obtain ⟨hopcode, hlow, hhigh, -⟩ := hcode
  have htarget : m.wordAt (m.processor.pc + 1) = m.processor.pc := by
    have hfirst := h.read 1 (by omega)
    have hsecond := h.read 2 (by omega)
    rw [hlow] at hfirst
    rw [hhigh] at hsecond
    have hbehind : m.processor.pc + 1 + 1 = m.processor.pc + UInt16.ofNat 2 :=
      (Word.add_two _).symm
    rw [wordAt, hbehind, hsecond]
    exact (congrArg (Word.join · _) hfirst).trans ((Word.join_low_high _).trans h.pc.symm)
  obtain ⟨hcompletes, hbus, -⟩ :=
    after_spin h.running ((h.read_pc (by omega)).trans hopcode) htarget count
  exact ⟨hcompletes, hbus⟩

end Machine

namespace Console

variable {stores : List Store}

/-- A new console with the program in its slot. -/
def withStoreProgram (stores : List Store) : Console :=
  (powerOn .ntsc {}).load (storeProgram stores).toArray

theorem standsAt_withStoreProgram (h : stores.length ≤ 1022) :
    (withStoreProgram stores).machine.StandsAt 0 := by
  obtain ⟨-, -, hlow, hhigh, -⟩ := holds_storeProgram h
  refine ⟨rfl, ?_⟩
  have hfirst := (withStoreProgram stores).machine.bus.read_romAddress (show 4092 < 4096 by decide)
  have hsecond := (withStoreProgram stores).machine.bus.read_romAddress (show 4093 < 4096 by decide)
  have hvector : (withStoreProgram stores).machine.processor.pc = Word.join 0x00 0xF0 :=
    congrArg₂ Word.join (hfirst.trans hlow) (hsecond.trans hhigh)
  rw [hvector]
  rfl

/-- However long the program runs, it does not fail, and from the end of the stores on the bus is
what they have made of it. -/
theorem after_withStoreProgram (h : stores.length ≤ 1022) (count : Nat) :
    (withStoreProgram stores).machine.Completes count ∧
      (2 * stores.length ≤ count → ((withStoreProgram stores).machine.after count).bus =
        stores.foldl ConsoleBus.store (withStoreProgram stores).machine.bus) := by
  obtain ⟨hstores, hjump, -⟩ := holds_storeProgram h
  obtain ⟨hcompletes, hstands, hbus⟩ := (standsAt_withStoreProgram h).stores (by omega) hstores
  have hcode : ((withStoreProgram stores).machine.after (2 * stores.length)).bus.cartridge.Holds
      (0 + 4 * stores.length) (jumpCode (0 + 4 * stores.length)) := by
    rw [hbus, ConsoleBus.foldl_store, Nat.zero_add]
    exact hjump
  have hspin := hstands.spin (by omega) hcode
  constructor
  · exact (hcompletes.add (hspin count).1).of_le (Nat.le_add_left count _)
  · intro hdone
    obtain ⟨waited, rfl⟩ := Nat.exists_eq_add_of_le hdone
    rw [Machine.after_add, (hspin waited).2, hbus]

/-- **From program to picture.** A program of at most 1022 stores runs through its first frame. Every
row of the frame shows the registers that the stores below 0x80 leave in the television chip, the
other stores are in the memory chip, the processor is running and one frame is counted. -/
theorem runFrame_storeProgram (h : stores.length ≤ 1022) :
    (storeProgram stores).length = 4096 ∧
    ∃ frame c', (withStoreProgram stores).runFrame = (.ok frame, c') ∧
      (∀ row : Fin 192, frame.rows.get row = (stores.foldl Tia.store {}).scanline) ∧
      c'.machine.bus.tia = stores.foldl Tia.store {} ∧
      c'.machine.bus.riot = stores.foldl Riot.store {} ∧
      c'.machine.processor.halted = false ∧ c'.frameCount = 1 := by
  refine ⟨length_storeProgram h, ?_⟩
  have hcourse := (withStoreProgram stores).runFrame_course
    ((withStoreProgram stores).runFrame_ne_overflow (show 7 * 76 < 4294967296 by decide))
  have hok := hcourse.eq_none_of_completes (after_withStoreProgram h _).1
  match hrun : (withStoreProgram stores).runFrame with
  | (.error failure, c') =>
    rw [hrun] at hok
    cases hok
  | (.ok frame, c') =>
    obtain ⟨hswept, hframe, -, hcount⟩ :=
      (withStoreProgram stores).swept_zero.runFrame rfl (Timing.frameLength_pos _) hrun
    have hfirst : (withStoreProgram stores).scanline = 0 := rfl
    have hlength : (withStoreProgram stores).timing.frameLength = 262 := rfl
    have hlast : c'.machine = (withStoreProgram stores).machine.after (262 * 76) := hswept.machine
    have hbus (count : Nat) (hdone : 2 * stores.length ≤ count) :
        ((withStoreProgram stores).machine.after count).bus =
          { (withStoreProgram stores).machine.bus with
            tia := stores.foldl Tia.store {}, riot := stores.foldl Riot.store {} } := by
      rw [(after_withStoreProgram h count).2 hdone, ConsoleBus.foldl_store]
      rfl
    refine ⟨frame, c', rfl, fun row ↦ ?_, ?_, ?_, ?_, hcount⟩
    · have hline : (withStoreProgram stores).lineOf row = 40 + row := rfl
      rw [hframe, hswept.rows row, sweptRow, hline, hfirst, hlength, if_pos (by omega)]
      -- The scanlines up to the first visible one leave time for 1558 stores.
      have hdone : 2 * stores.length ≤ (40 + row.val - 0 + 1) * 76 := by omega
      exact congrArg (·.tia.scanline) (hbus _ hdone)
    · rw [hlast, hbus _ (by omega)]
    · rw [hlast, hbus _ (by omega)]
    · rw [hlast]
      exact Machine.running_after rfl (after_withStoreProgram h _).1

/-- The background colour is stored twice, the second time by its other name, and the last cell of
the memory chip once. -/
theorem runFrame_storeProgram_background :
    let stores : List Store := [(0x09, 0x1E), (0x49, 0x3C), (0xFF, 0x11)]
    stores.length ≤ 1022 ∧
    ∃ frame c', (withStoreProgram stores).runFrame = (.ok frame, c') ∧
      (frame.rows.get 191).get 80 = 0x3C ∧ c'.machine.bus.riot.read 127 = 0x11 := by
  intro stores
  have hlength : stores.length ≤ 1022 := by decide
  obtain ⟨-, frame, c', hrun, hrows, -, hriot, -, -⟩ := runFrame_storeProgram hlength
  refine ⟨hlength, frame, c', hrun, ?_, ?_⟩
  · change (frame.rows.get 191)[80] = 0x3C
    rw [hrows 191, Tia.getElem_scanline]
    decide +kernel
  · rw [hriot]
    decide +kernel

end Console

end VideoComputer
