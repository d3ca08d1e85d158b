import VideoComputer.Trace.Event

/-!
# Buses

A bus answers every read and takes every write, whatever the address; reading leaves no trace on
it. A write may be reported to the outside.
-/

namespace VideoComputer

class Bus (B : Type) where
  read : B → Word → Byte
  write : B → Word → Byte → B
  /-- What the outside is told of a write to the bus in this state. -/
  report : B → Word → Byte → List Event

namespace Bus

variable {B : Type} [Bus B]

/-- A word is stored low byte first; the last address is followed by the first. -/
def readWord (bus : B) (address : Word) : Word :=
  .join (read bus address) (read bus (address + 1))

/-- `count` bytes from consecutive addresses. -/
def readMany (bus : B) (address : Word) : Nat → List Byte
  | 0 => []
  | count + 1 => read bus address :: readMany bus (address + 1) count

@[simp] theorem length_readMany (bus : B) (address : Word) (count : Nat) :
    (readMany bus address count).length = count := by
  induction count generalizing address with
  | zero => rfl
  | succ count ih => simp [readMany, ih]

end Bus

end VideoComputer
