import VideoComputer.RangeError
import VideoComputer.Trace.Event

/-!
# Register banks

A chip on the bus as far as the processor can tell: a bank of bytes, every one readable and
writable, and perhaps an observer that is told of each write after it is stored. The television
chip has 64 such registers, the memory chip 128 cells.
-/

namespace VideoComputer

structure RegisterBank (size : Nat) where
  cells : Vector Byte size := Vector.replicate size 0
  observer : Option String := none
deriving DecidableEq

/-- The television chip. -/
abbrev Tia := RegisterBank 64

/-- The memory chip. -/
abbrev Riot := RegisterBank 128

namespace RegisterBank

variable {size : Nat}

def read (bank : RegisterBank size) (offset : Fin size) : Byte := bank.cells[offset]

def write (bank : RegisterBank size) (offset : Fin size) (value : Byte) : RegisterBank size :=
  { bank with cells := bank.cells.set offset value }

/-- What the observer is told of a write. -/
def report (bank : RegisterBank size) (offset : Fin size) (value : Byte) : List Event :=
  bank.observer.toList.map (.chipWrite · offset value)

/-- Zeroes every cell. The observer stays and is not told. -/
def reset (bank : RegisterBank size) : RegisterBank size :=
  { bank with cells := Vector.replicate size 0 }

theorem read_write (bank : RegisterBank size) (offset other : Fin size) (value : Byte) :
    (bank.write offset value).read other = if other = offset then value else bank.read other := by
  simp only [read, write, Fin.getElem_fin, Vector.getElem_set, Fin.val_inj, eq_comm]

@[simp] theorem observer_write (bank : RegisterBank size) (offset : Fin size) (value : Byte) :
    (bank.write offset value).observer = bank.observer := rfl

@[simp] theorem read_reset (bank : RegisterBank size) (offset : Fin size) :
    bank.reset.read offset = 0 := by
  simp [reset, read]

end RegisterBank

/-- The register that an offset names. -/
def Tia.slot (offset : Word) : Except RangeError (Fin 64) :=
  if h : offset.toNat < 64 then .ok ⟨offset.toNat, h⟩ else .error (.tiaRegister offset)

/-- The cell that an offset names. -/
def Riot.slot (offset : Word) : Except RangeError (Fin 128) :=
  if h : offset.toNat < 128 then .ok ⟨offset.toNat, h⟩ else .error (.riotCell offset)

end VideoComputer
