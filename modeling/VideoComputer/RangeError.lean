import VideoComputer.Text.Hex

/-!
# Accesses out of range

An offset that a chip does not have, or a place outside the picture, and how each is worded.
-/

namespace VideoComputer

inductive RangeError where
  | tiaRegister (offset : Word)
  | riotCell (offset : Word)
  | pixel (x y : Nat)
deriving DecidableEq

namespace RangeError

open Text

def message : RangeError → String
  | tiaRegister offset =>
    String.ofList ("TIA register offset 0x".toList ++ hexAtLeast 2 offset.toNat ++
      " out of range".toList)
  | riotCell offset =>
    String.ofList ("RIOT offset 0x".toList ++ hexAtLeast 2 offset.toNat ++ " out of range".toList)
  | pixel x y => "pixel (" ++ toString x ++ ", " ++ toString y ++ ") out of range"

end RangeError

end VideoComputer
