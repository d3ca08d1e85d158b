import VideoComputer.Memory.Word

/-!
# Status flags

Seven flags and their packed form N V 1 B D I Z C, most significant bit first. Bit 5 has no flag:
it is set in every packed byte and ignored when one is unpacked.
-/

namespace VideoComputer

inductive Flag where
  | negative
  | overflow
  | breakMark
  | decimal
  | interrupt
  | zero
  | carry
deriving DecidableEq

@[ext]
structure Flags where
  negative : Bool := false
  overflow : Bool := false
  breakMark : Bool := false
  decimal : Bool := false
  interrupt : Bool := false
  zero : Bool := false
  carry : Bool := false
deriving DecidableEq

namespace Flags

def get (flags : Flags) : Flag → Bool
  | .negative => flags.negative
  | .overflow => flags.overflow
  | .breakMark => flags.breakMark
  | .decimal => flags.decimal
  | .interrupt => flags.interrupt
  | .zero => flags.zero
  | .carry => flags.carry

def set (flags : Flags) (flag : Flag) (value : Bool) : Flags :=
  match flag with
  | .negative => { flags with negative := value }
  | .overflow => { flags with overflow := value }
  | .breakMark => { flags with breakMark := value }
  | .decimal => { flags with decimal := value }
  | .interrupt => { flags with interrupt := value }
  | .zero => { flags with zero := value }
  | .carry => { flags with carry := value }

def pack (flags : Flags) : Byte :=
  UInt8.ofNat (flags.negative.toNat * 128 + flags.overflow.toNat * 64 + 32 +
    flags.breakMark.toNat * 16 + flags.decimal.toNat * 8 + flags.interrupt.toNat * 4 +
    flags.zero.toNat * 2 + flags.carry.toNat)

def unpack (status : Byte) : Flags where
  negative := status.bit 7
  overflow := status.bit 6
  breakMark := status.bit 4
  decimal := status.bit 3
  interrupt := status.bit 2
  zero := status.bit 1
  carry := status.bit 0

/-- Zero and negative describe a result byte. -/
def describing (flags : Flags) (result : Byte) : Flags :=
  { flags with negative := result.isNegative, zero := result == 0 }

/-- The copy of the status that goes to the stack has the break mark set. -/
def pushed (flags : Flags) : Byte := (flags.set .breakMark true).pack

/-- A status taken from the stack loses its break mark. -/
def pulled (status : Byte) : Flags := (unpack status).set .breakMark false

theorem get_set (flags : Flags) (flag other : Flag) (value : Bool) :
    (flags.set flag value).get other = if other = flag then value else flags.get other := by
  cases flag <;> cases other <;> rfl

@[simp] theorem unpack_pack (flags : Flags) : unpack flags.pack = flags := by
  obtain ⟨n, v, b, d, i, z, c⟩ := flags
  cases n <;> cases v <;> cases b <;> cases d <;> cases i <;> cases z <;> cases c <;> rfl

@[simp] theorem pulled_pushed (flags : Flags) :
    pulled flags.pushed = flags.set .breakMark false := by
  simp [pulled, pushed, set]

end Flags

end VideoComputer
