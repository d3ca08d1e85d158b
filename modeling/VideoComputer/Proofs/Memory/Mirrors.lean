import Mathlib.Algebra.GroupWithZero.Nat
import Mathlib.Data.List.Forall2
import VideoComputer.Console.AddressMap

/-!
# Mirrored addresses

The address map of the console against a memory that is described by masks alone. Each address
belongs to one of four classes, and in three of them it names a cell by its low lines. Main
statement: over any sequence of reads and writes the bus answers as that memory does, a write is
seen at the other names of its cell and nowhere else, and which of these names is used makes no
difference.
-/

namespace VideoComputer

/-- A mask of `width` lines from `low` upwards picks those digits of an address. -/
theorem Word.toNat_and_mask (w mask : Word) (low width : Nat)
    (hmask : mask.toNat = (2 ^ width - 1) * 2 ^ low) :
    (w &&& mask).toNat = w.toNat / 2 ^ low % 2 ^ width * 2 ^ low := by
  have hpos : 0 < 2 ^ low := Nat.two_pow_pos low
  have hhigh : (w.toNat &&& (2 ^ width - 1) * 2 ^ low) / 2 ^ low =
      w.toNat / 2 ^ low % 2 ^ width := by
    rw [Nat.and_div_two_pow, Nat.mul_div_cancel _ hpos, Nat.and_two_pow_sub_one_eq_mod]
  have hlow : (w.toNat &&& (2 ^ width - 1) * 2 ^ low) % 2 ^ low = 0 := by
    rw [Nat.and_mod_two_pow, Nat.mul_mod_left, Nat.and_zero]
  calc
    (w &&& mask).toNat = w.toNat &&& (2 ^ width - 1) * 2 ^ low := by
      rw [UInt16.toNat_and, hmask]
    _ = (w.toNat &&& (2 ^ width - 1) * 2 ^ low) / 2 ^ low * 2 ^ low :=
      (Nat.div_mul_cancel (Nat.dvd_of_mod_eq_zero hlow)).symm
    _ = w.toNat / 2 ^ low % 2 ^ width * 2 ^ low := by rw [hhigh]

theorem Word.toNat_and_lt (w mask : Word) {size : Nat} (h : mask.toNat < size) :
    (w &&& mask).toNat < size := by
  rw [UInt16.toNat_and]
  exact Nat.lt_of_le_of_lt Nat.and_le_right h

/-! ## Classes and cells by masks -/

/-- Who answers an address. -/
inductive AddressClass where
  | tia
  | riot
  | rom
  | openBus
deriving DecidableEq

namespace AddressClass

/-- The lines that decide the class of an address. -/
def Contains : AddressClass → Word → Prop
  | tia, address => address &&& 0x1F80 = 0
  | riot, address => address &&& 0x1E00 = 0 ∧ address &&& 0x0180 ≠ 0
  | rom, address => address &&& 0x1000 ≠ 0
  | openBus, address => address &&& 0x1000 = 0 ∧ address &&& 0x0E00 ≠ 0

theorem contains_tia (address : Word) : tia.Contains address ↔ address.toNat % 8192 < 128 := by
  rw [Contains, ← UInt16.toNat_inj, Word.toNat_and_mask address 0x1F80 7 6 (by decide)]
  simp only [UInt16.toNat_zero]
  omega

theorem contains_riot (address : Word) :
    riot.Contains address ↔ 128 ≤ address.toNat % 8192 ∧ address.toNat % 8192 < 512 := by
  rw [Contains, Ne, ← UInt16.toNat_inj, ← UInt16.toNat_inj,
    Word.toNat_and_mask address 0x1E00 9 4 (by decide),
    Word.toNat_and_mask address 0x0180 7 2 (by decide)]
  simp only [UInt16.toNat_zero]
  omega

theorem contains_rom (address : Word) : rom.Contains address ↔ 4096 ≤ address.toNat % 8192 := by
  rw [Contains, Ne, ← UInt16.toNat_inj, Word.toNat_and_mask address 0x1000 12 1 (by decide)]
  simp only [UInt16.toNat_zero]
  omega

theorem contains_openBus (address : Word) :
    openBus.Contains address ↔ 512 ≤ address.toNat % 8192 ∧ address.toNat % 8192 < 4096 := by
  rw [Contains, Ne, ← UInt16.toNat_inj, ← UInt16.toNat_inj,
    Word.toNat_and_mask address 0x1000 12 1 (by decide),
    Word.toNat_and_mask address 0x0E00 9 3 (by decide)]
  simp only [UInt16.toNat_zero]
  omega

/-- Every address belongs to one class only. -/
theorem existsUnique_contains (address : Word) :
    ∃! addressClass : AddressClass, addressClass.Contains address := by
  have hunique : ∀ first second : AddressClass,
      first.Contains address → second.Contains address → first = second := by
    intro first second hfirst hsecond
    cases first <;> cases second <;>
      simp only [contains_tia, contains_riot, contains_rom, contains_openBus] at hfirst hsecond <;>
      first | rfl | omega
  have hexists : ∃ addressClass : AddressClass, addressClass.Contains address := by
    rcases Nat.lt_or_ge (address.toNat % 8192) 128 with htia | htia
    · exact ⟨tia, (contains_tia address).mpr htia⟩
    rcases Nat.lt_or_ge (address.toNat % 8192) 512 with hriot | hriot
    · exact ⟨riot, (contains_riot address).mpr ⟨htia, hriot⟩⟩
    rcases Nat.lt_or_ge (address.toNat % 8192) 4096 with hopen | hopen
    · exact ⟨openBus, (contains_openBus address).mpr ⟨hriot, hopen⟩⟩
    · exact ⟨rom, (contains_rom address).mpr hopen⟩
  obtain ⟨found, hfound⟩ := hexists
  exact ⟨found, hfound, fun other hother ↦ hunique other found hother hfound⟩

instance : (addressClass : AddressClass) → (address : Word) →
    Decidable (addressClass.Contains address)
  | tia, address => inferInstanceAs (Decidable (address &&& 0x1F80 = 0))
  | riot, address => inferInstanceAs (Decidable (address &&& 0x1E00 = 0 ∧ address &&& 0x0180 ≠ 0))
  | rom, address => inferInstanceAs (Decidable (address &&& 0x1000 ≠ 0))
  | openBus, address =>
    inferInstanceAs (Decidable (address &&& 0x1000 = 0 ∧ address &&& 0x0E00 ≠ 0))

end AddressClass

namespace Region

/-- The cell of an address, its class and its offset both given by masks. -/
def named (address : Word) : Region :=
  if AddressClass.tia.Contains address then
    .tia ⟨(address &&& 0x3F).toNat, address.toNat_and_lt 0x3F (by decide)⟩
  else if AddressClass.riot.Contains address then
    .riot ⟨(address &&& 0x7F).toNat, address.toNat_and_lt 0x7F (by decide)⟩
  else if AddressClass.rom.Contains address then
    .rom ⟨(address &&& 0xFFF).toNat, address.toNat_and_lt 0xFFF (by decide)⟩
  else .openBus

/-- Cells that keep what is written to them. -/
def IsWritable : Region → Prop
  | tia _ | riot _ => True
  | rom _ | openBus => False

instance : DecidablePred IsWritable
  | tia _ | riot _ => isTrue trivial
  | rom _ | openBus => isFalse id

theorem decode_eq_named (address : Word) : decode address = named address := by
  have htia := Word.toNat_and_mask address 0x3F 0 6 (by decide)
  have hriot := Word.toNat_and_mask address 0x7F 0 7 (by decide)
  have hrom := Word.toNat_and_mask address 0xFFF 0 12 (by decide)
  simp only [decode, named, AddressClass.contains_tia, AddressClass.contains_riot,
    AddressClass.contains_rom]
  split
  · exact congrArg tia (Fin.ext (by simp only [htia]; omega))
  · split
    · rw [if_pos (by omega)]
      exact congrArg riot (Fin.ext (by simp only [hriot]; omega))
    · rw [if_neg (by omega)]
      split
      · exact congrArg rom (Fin.ext (by simp only [hrom]; omega))
      · rfl

end Region

/-! ## The reference memory -/

/-- One byte for each cell of the chips and of the cartridge window. -/
structure ReferenceMemory where
  tia : Fin 64 → Byte
  riot : Fin 128 → Byte
  rom : Fin 4096 → Byte

namespace ReferenceMemory

/-- Where no cell is there are only ones. -/
def get (memory : ReferenceMemory) : Region → Byte
  | .tia offset => memory.tia offset
  | .riot offset => memory.riot offset
  | .rom offset => memory.rom offset
  | .openBus => 0xFF

def set (memory : ReferenceMemory) (cell : Region) (value : Byte) : ReferenceMemory :=
  match cell with
  | .tia offset => { memory with tia := Function.update memory.tia offset value }
  | .riot offset => { memory with riot := Function.update memory.riot offset value }
  | .rom _ | .openBus => memory

theorem get_set (memory : ReferenceMemory) (cell other : Region) (value : Byte) :
    (memory.set cell value).get other =
      if cell = other ∧ cell.IsWritable then value else memory.get other := by
  cases cell <;> cases other <;>
    simp [get, set, Region.IsWritable, Function.update_apply, eq_comm]

instance : Bus ReferenceMemory where
  read memory address := memory.get (.named address)
  write memory address value := memory.set (.named address) value
  report _ _ _ := []

end ReferenceMemory

/-- Two addresses of one cell that can be written. -/
def Aliases (address other : Word) : Prop :=
  Region.named address = Region.named other ∧ (Region.named address).IsWritable

instance (address other : Word) : Decidable (Aliases address other) :=
  inferInstanceAs (Decidable (Region.named address = Region.named other ∧
    (Region.named address).IsWritable))

namespace ConsoleBus

/-- What the cells of the bus hold. -/
def reference (bus : ConsoleBus) : ReferenceMemory where
  tia := bus.tia.read
  riot := bus.riot.read
  rom offset := bus.cartridge.read offset

theorem read_eq_get (bus : ConsoleBus) (address : Word) :
    bus.read address = bus.reference.get (.decode address) := by
  unfold read
  split <;> rename_i hcell <;> rw [hcell] <;> rfl

theorem read_reference (bus : ConsoleBus) (address : Word) :
    Bus.read bus.reference address = Bus.read bus address := by
  change bus.reference.get (.named address) = bus.read address
  rw [read_eq_get, Region.decode_eq_named]

theorem reference_write (bus : ConsoleBus) (address : Word) (value : Byte) :
    (Bus.write bus address value).reference = Bus.write bus.reference address value := by
  change (bus.write address value).reference = bus.reference.set (.named address) value
  have hcells : ∀ (size : Nat) (bank : RegisterBank size) (offset : Fin size),
      (bank.write offset value).read = Function.update bank.read offset value := by
    intro size bank offset
    funext other
    rw [RegisterBank.read_write, Function.update_apply]
  rw [← Region.decode_eq_named, write]
  split
  · rename_i offset hcell
    rw [hcell]
    exact congrArg (ReferenceMemory.mk · _ _) (hcells _ bus.tia offset)
  · rename_i offset hcell
    rw [hcell]
    exact congrArg (ReferenceMemory.mk _ · _) (hcells _ bus.riot offset)
  · rename_i hcell
    rw [hcell]
    rfl
  · rename_i hcell
    rw [hcell]
    rfl

/-- A write is read back at the aliases of its address, and nothing else is read differently. -/
theorem read_write (bus : ConsoleBus) (address other : Word) (value : Byte) :
    Bus.read (Bus.write bus address value) other =
      if Aliases address other then value else Bus.read bus other := by
  rw [← read_reference, reference_write, ← read_reference bus]
  exact ReferenceMemory.get_set bus.reference (.named address) (.named other) value

end ConsoleBus

/-! ## Sequences of accesses -/

inductive Access where
  | read (address : Word)
  | write (address : Word) (value : Byte)
deriving DecidableEq

namespace Access

/-- Performs accesses in order; tells what the reads return, and the bus they leave. -/
def perform {B : Type} [Bus B] (bus : B) : List Access → List Byte × B
  | [] => ([], bus)
  | read address :: rest =>
    let (values, last) := perform bus rest
    (Bus.read bus address :: values, last)
  | write address value :: rest => perform (Bus.write bus address value) rest

/-- The last value written to the cell of an address. -/
def lastWrite? (address : Word) : List Access → Option Byte
  | [] => none
  | read _ :: rest => lastWrite? address rest
  | write other value :: rest =>
    (lastWrite? address rest).or (if Aliases other address then some value else none)

/-- The bus and the memory of its cells stay in step. -/
theorem perform_reference (bus : ConsoleBus) (accesses : List Access) :
    perform bus.reference accesses =
      ((perform bus accesses).1, (perform bus accesses).2.reference) := by
  induction accesses generalizing bus with
  | nil => rfl
  | cons access rest ih =>
    cases access with
    | read address => simp only [perform, ih, ConsoleBus.read_reference]
    | write address value => rw [perform, perform, ← ConsoleBus.reference_write, ih]

/-- A read gives the last value written to its cell, or else what was there at first. -/
theorem read_perform (bus : ConsoleBus) (accesses : List Access) (address : Word) :
    Bus.read (perform bus accesses).2 address =
      (lastWrite? address accesses).getD (Bus.read bus address) := by
  induction accesses generalizing bus with
  | nil => rfl
  | cons access rest ih =>
    cases access with
    | read other => exact ih bus
    | write other value =>
      rw [perform, ih, ConsoleBus.read_write, lastWrite?]
      cases lastWrite? address rest with
      | some last => rfl
      | none => split <;> rfl

end Access

/-! ## Mirrors -/

/-- Names of one place: the three upper lines are not connected, the television chip does not look
at line 6, and the memory chip repeats itself up to the end of page one. -/
inductive Mirror : Word → Word → Prop where
  | upperLines {address other : Word} (h : address &&& 0x1FFF = other &&& 0x1FFF) :
      Mirror address other
  | tia {address other : Word} (haddress : AddressClass.tia.Contains address)
      (hother : AddressClass.tia.Contains other) (h : address &&& 0x3F = other &&& 0x3F) :
      Mirror address other
  | riot {address other : Word} (haddress : AddressClass.riot.Contains address)
      (hother : AddressClass.riot.Contains other) (h : address &&& 0x7F = other &&& 0x7F) :
      Mirror address other

theorem Mirror.decode_eq {address other : Word} (h : Mirror address other) :
    Region.decode address = Region.decode other := by
  cases h with
  | upperLines h =>
    apply Region.decode_congr
    have hlines := congrArg UInt16.toNat h
    rw [Word.toNat_and_mask address 0x1FFF 0 13 (by decide),
      Word.toNat_and_mask other 0x1FFF 0 13 (by decide)] at hlines
    omega
  | tia haddress hother h =>
    rw [Region.decode_eq_named, Region.decode_eq_named, Region.named, Region.named,
      if_pos haddress, if_pos hother]
    exact congrArg Region.tia (Fin.ext (congrArg UInt16.toNat h))
  | riot haddress hother h =>
    have hnotTia : ∀ w : Word, AddressClass.riot.Contains w → ¬AddressClass.tia.Contains w := by
      intro w hriot htia
      rw [AddressClass.contains_riot] at hriot
      rw [AddressClass.contains_tia] at htia
      omega
    rw [Region.decode_eq_named, Region.decode_eq_named, Region.named, Region.named,
      if_neg (hnotTia _ haddress), if_pos haddress, if_neg (hnotTia _ hother), if_pos hother]
    exact congrArg Region.riot (Fin.ext (congrArg UInt16.toNat h))

/-- The same access under another name. -/
inductive Access.Renamed : Access → Access → Prop where
  | read {address other : Word} (h : Mirror address other) : Renamed (.read address) (.read other)
  | write {address other : Word} (h : Mirror address other) (value : Byte) :
      Renamed (.write address value) (.write other value)

/-- No name is better than another: neither results nor the bus depend on it. -/
theorem Access.perform_renamed (bus : ConsoleBus) {accesses others : List Access}
    (h : List.Forall₂ Renamed accesses others) : perform bus accesses = perform bus others := by
  induction h generalizing bus with
  | nil => rfl
  | cons hhead _ ih =>
    cases hhead with
    | @read address other hmirror =>
      have hread : Bus.read bus address = Bus.read bus other := by
        change bus.read address = bus.read other
        rw [ConsoleBus.read_eq_get, ConsoleBus.read_eq_get, hmirror.decode_eq]
      simp only [perform, hread, ih bus]
    | @write address other hmirror value =>
      have hwrite : Bus.write bus address value = Bus.write bus other value := by
        change bus.write address value = bus.write other value
        rw [ConsoleBus.write, ConsoleBus.write, hmirror.decode_eq]
      rw [perform, perform, hwrite, ih]

/-- **The bus is the reference memory.** Over any sequence of accesses the reads return what those
of the memory return, and the cells end alike. So a read gives the last value written to its cell
or the first content, a single write is seen at the aliases of its address only, every address
belongs to one class, and accesses may use any mirror of their address. -/
theorem bus_refines_reference (bus : ConsoleBus) :
    (∀ accesses, (Access.perform bus accesses).1 = (Access.perform bus.reference accesses).1 ∧
      (Access.perform bus accesses).2.reference = (Access.perform bus.reference accesses).2) ∧
    (∀ accesses address, Bus.read (Access.perform bus accesses).2 address =
      (Access.lastWrite? address accesses).getD (Bus.read bus address)) ∧
    (∀ address other value, Bus.read (Bus.write bus address value) other =
      if Aliases address other then value else Bus.read bus other) ∧
    (∀ address : Word, ∃! addressClass : AddressClass, addressClass.Contains address) ∧
    ∀ accesses others, List.Forall₂ Access.Renamed accesses others →
      Access.perform bus accesses = Access.perform bus others := by
  refine ⟨fun accesses ↦ ?_, Access.read_perform bus, bus.read_write,
    AddressClass.existsUnique_contains, fun _ _ h ↦ Access.perform_renamed bus h⟩
  rw [Access.perform_reference]
  exact ⟨rfl, rfl⟩

/-- A byte pushed at the end of the stack page is read back from page zero, by whichever names. -/
theorem bus_refines_reference_stackPage :
    List.Forall₂ Access.Renamed [.write 0x01FF 0x42, .read 0x20FF]
      [.write 0x00FF 0x42, .read 0x017F] ∧
    Access.perform ({} : ConsoleBus) [.write 0x01FF 0x42, .read 0x20FF] =
      Access.perform {} [.write 0x00FF 0x42, .read 0x017F] ∧
    (Access.perform ({} : ConsoleBus) [.write 0x00FF 0x42, .read 0x017F]).1 = [0x42] := by
  have hwrite : Mirror 0x01FF 0x00FF := .riot (by decide) (by decide) (by decide)
  have hread : Mirror 0x20FF 0x017F := .riot (by decide) (by decide) (by decide)
  have hrenamed : List.Forall₂ Access.Renamed [.write 0x01FF 0x42, .read 0x20FF]
      [.write 0x00FF 0x42, .read 0x017F] := .cons (.write hwrite 0x42) (.cons (.read hread) .nil)
  exact ⟨hrenamed, (bus_refines_reference {}).2.2.2.2 _ _ hrenamed, rfl⟩

end VideoComputer
