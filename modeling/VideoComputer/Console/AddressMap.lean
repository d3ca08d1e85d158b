import VideoComputer.Memory.Bus
import VideoComputer.Memory.Cartridge
import VideoComputer.Memory.RegisterBank

/-!
# Address map of the console

Thirteen address lines select a chip and an offset in it; the other three are not connected. Both
chips appear at several addresses, and the stack page is the memory chip again. Where no chip
answers a read gives 255 and a write is lost.
-/

namespace VideoComputer

inductive Region where
  | tia (offset : Fin 64)
  | riot (offset : Fin 128)
  | rom (offset : Fin 4096)
  | openBus
deriving DecidableEq

def Region.decode (address : Word) : Region :=
  let lines := address.toNat % 8192
  have hlines : lines < 8192 := Nat.mod_lt _ (by decide)
  if lines < 128 then .tia ⟨lines % 64, by omega⟩
  else if lines < 512 then .riot ⟨(lines - 128) % 128, by omega⟩
  else if h : 4096 ≤ lines then .rom ⟨lines - 4096, by omega⟩
  else .openBus

/-- The three upper address lines are not connected. -/
theorem Region.decode_congr {address other : Word}
    (h : address.toNat % 8192 = other.toNat % 8192) : decode address = decode other := by
  simp only [decode, h]

structure ConsoleBus where
  tia : Tia := {}
  riot : Riot := {}
  cartridge : Cartridge := {}

namespace ConsoleBus

def read (bus : ConsoleBus) (address : Word) : Byte :=
  match Region.decode address with
  | .tia offset => bus.tia.read offset
  | .riot offset => bus.riot.read offset
  | .rom offset => bus.cartridge.read offset
  | .openBus => 0xFF

def write (bus : ConsoleBus) (address : Word) (value : Byte) : ConsoleBus :=
  match Region.decode address with
  | .tia offset => { bus with tia := bus.tia.write offset value }
  | .riot offset => { bus with riot := bus.riot.write offset value }
  | .rom _ | .openBus => bus

/-- A chip's observer hears of its writes; lost writes are logged. -/
def report (bus : ConsoleBus) (address : Word) (value : Byte) : List Event :=
  match Region.decode address with
  | .tia offset => bus.tia.report offset value
  | .riot offset => bus.riot.report offset value
  | .rom offset => [.logged (.cartridgeWrite offset value)]
  | .openBus => [.logged (.openBusWrite address value)]

instance : Bus ConsoleBus where
  read := read
  write := write
  report := report

/-- A bus whose chips report their writes under the given names. -/
def observed (tiaObserver riotObserver : String) : ConsoleBus where
  tia := { observer := some tiaObserver }
  riot := { observer := some riotObserver }

/-- Zeroes both chips; the cartridge stays. -/
def reset (bus : ConsoleBus) : ConsoleBus :=
  { bus with tia := bus.tia.reset, riot := bus.riot.reset }

end ConsoleBus

end VideoComputer
