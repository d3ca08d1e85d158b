import VideoComputer.Text.Quoted

/-!
# Timing

How many steps make a scanline, how many scanlines make a frame and which scanline shows the first
row of the picture. A timing can be read from a settings document, either by field names or by
position.
-/

namespace VideoComputer

/-- A value of a settings document, as far as timings look into it. -/
inductive Setting where
  | integer (value : Int)
  | sequence (items : List Setting)
  | fields (entries : List (String × Setting))
  /-- Text, a truth value, a fraction or nothing. -/
  | other
deriving Inhabited

namespace Setting

def field? (name : String) : Setting → Option Setting
  | fields entries => (entries.find? fun entry ↦ entry.1 == name).map Prod.snd
  | _ => none

/-- An integer that fits 32 bits. -/
def count? : Setting → Option UInt32
  | integer value =>
    if 0 ≤ value ∧ value < 4294967296 then some (UInt32.ofNat value.toNat) else none
  | _ => none

end Setting

@[ext]
structure Timing where
  stepsPerScanline : UInt32
  scanlinesPerFrame : UInt32
  firstVisibleScanline : UInt32
deriving DecidableEq

namespace Timing

/-- The geometry of an NTSC picture. -/
def ntsc : Timing := ⟨76, 262, 40⟩

def stepsPerFrame (timing : Timing) : Nat :=
  timing.stepsPerScanline.toNat * timing.scanlinesPerFrame.toNat

/-- Three named fields, others being ignored, or a sequence of exactly the three values. -/
def ofSetting? : Setting → Option Timing
  | .sequence [steps, scanlines, first] => do
    return ⟨← steps.count?, ← scanlines.count?, ← first.count?⟩
  | document => do
    let steps ← document.field? "steps_per_scanline"
    let scanlines ← document.field? "scanlines_per_frame"
    let first ← document.field? "first_visible_scanline"
    return ⟨← steps.count?, ← scanlines.count?, ← first.count?⟩

def describe (timing : Timing) : String :=
  Text.describeFields "TimingConfig"
    [("steps_per_scanline", toString timing.stepsPerScanline.toNat),
      ("scanlines_per_frame", toString timing.scanlinesPerFrame.toNat),
      ("first_visible_scanline", toString timing.firstVisibleScanline.toNat)]

/-- A scanline counter stays below this; a frame has at least one scanline. -/
def frameLength (timing : Timing) : Nat := max 1 timing.scanlinesPerFrame.toNat

/-- The row of the picture that a scanline shows. -/
def visibleRow? (timing : Timing) (scanline : Nat) : Option (Fin 192) :=
  let first := timing.firstVisibleScanline.toNat
  if h : first ≤ scanline ∧ scanline - first < 192 then some ⟨scanline - first, h.2⟩ else none

end Timing

end VideoComputer
