/-!
# Bytes and words

Addresses are sixteen bits wide and stored low byte first. The high byte of an address is its
page; address arithmetic that leaves a page costs time or, in some modes, never happens.
-/

namespace VideoComputer

abbrev Byte := UInt8

abbrev Word := UInt16

/-- A byte with bit 7 set is negative in two's complement. -/
def Byte.isNegative (value : Byte) : Bool := decide (128 ≤ value.toNat)

/-- Bit `index` of a byte, counted from the least significant. -/
def Byte.bit (value : Byte) (index : Nat) : Bool := value.toNat.testBit index

/-- The high hexadecimal digit of a byte. -/
def Byte.highDigit (value : Byte) : Fin 16 :=
  ⟨value.toNat / 16, by have := value.toNat_lt; omega⟩

/-- The low hexadecimal digit of a byte. -/
def Byte.lowDigit (value : Byte) : Fin 16 := ⟨value.toNat % 16, Nat.mod_lt _ (by decide)⟩

/-- What holds of the 256 bytes one by one holds of every byte. -/
theorem Byte.forall_of_lt {P : Byte → Prop} (h : ∀ n < 256, P (UInt8.ofNat n)) (value : Byte) :
    P value := by
  have hvalue := h value.toNat value.toNat_lt
  rwa [UInt8.ofNat_toNat] at hvalue

namespace Word

def join (low high : Byte) : Word := UInt16.ofNat (high.toNat * 256 + low.toNat)

def low (w : Word) : Byte := w.toUInt8

def high (w : Word) : Byte := (w / 256).toUInt8

/-- The page of an address is its high byte. -/
abbrev page (w : Word) : Byte := w.high

/-- The address `offset` bytes away, `offset` read as a signed byte. -/
def displace (w : Word) (offset : Byte) : Word :=
  if offset.isNegative then w + offset.toUInt16 - 256 else w + offset.toUInt16

@[simp] theorem toNat_join (low high : Byte) :
    (join low high).toNat = high.toNat * 256 + low.toNat := by
  have hlow := low.toNat_lt
  have hhigh := high.toNat_lt
  simp only [join, UInt16.toNat_ofNat']
  omega

@[simp] theorem toNat_low (w : Word) : w.low.toNat = w.toNat % 256 := by
  simp [low]

@[simp] theorem toNat_high (w : Word) : w.high.toNat = w.toNat / 256 := by
  have h := w.toNat_lt
  have h256 : UInt16.toNat 256 = 256 := rfl
  simp only [high, UInt16.toNat_toUInt8, UInt16.toNat_div, h256]
  omega

@[simp] theorem low_join (low high : Byte) : (join low high).low = low := by
  have hlow := low.toNat_lt
  apply UInt8.toNat_inj.mp
  rw [toNat_low, toNat_join]
  omega

@[simp] theorem high_join (low high : Byte) : (join low high).high = high := by
  have hlow := low.toNat_lt
  apply UInt8.toNat_inj.mp
  rw [toNat_high, toNat_join]
  omega

@[simp] theorem join_low_high (w : Word) : join w.low w.high = w := by
  apply UInt16.toNat_inj.mp
  rw [toNat_join, toNat_low, toNat_high]
  omega

end Word

end VideoComputer
