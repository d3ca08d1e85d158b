import VideoComputer.Memory.Bus

/-!
# Flat memory

A writable byte at each of the 65536 addresses. Every write over the bus is reported; loading is
not.
-/

namespace VideoComputer

structure FlatMemory where
  cells : Vector Byte 65536
deriving DecidableEq

namespace FlatMemory

def zeroed : FlatMemory := ⟨Vector.replicate 65536 0⟩

def read (memory : FlatMemory) (address : Word) : Byte :=
  have h : address.toNat < 65536 := address.toNat_lt
  memory.cells[address.toNat]

def write (memory : FlatMemory) (address : Word) (value : Byte) : FlatMemory :=
  ⟨memory.cells.set address.toNat value address.toNat_lt⟩

/-- Stores bytes at consecutive addresses; the last address is followed by the first. -/
def load (memory : FlatMemory) (address : Word) : List Byte → FlatMemory
  | [] => memory
  | value :: values => (memory.write address value).load (address + 1) values

instance : Bus FlatMemory where
  read := read
  write := write
  report _ address value := [.memoryWrite address value]

theorem read_write (memory : FlatMemory) (address other : Word) (value : Byte) :
    (memory.write address value).read other =
      if other = address then value else memory.read other := by
  simp only [read, write, Vector.getElem_set, UInt16.toNat_inj, eq_comm]

@[simp] theorem read_zeroed (address : Word) : zeroed.read address = 0 := by
  simp [zeroed, read]

end FlatMemory

end VideoComputer
