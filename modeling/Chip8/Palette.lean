/-
Colours and the named pairs of them in which pictures are shown.
-/
import Chip8.Text.Quoted
import Chip8.Word

namespace Chip8

structure Colour where
  red : UInt8
  green : UInt8
  blue : UInt8
  deriving DecidableEq

/-- The colours of lit and unlit pixels. -/
structure Palette where
  on : Colour
  off : Colour
  deriving DecidableEq

namespace Palette

def all : List (String × Palette) :=
  [("classic", ⟨⟨255, 255, 255⟩, ⟨0, 0, 0⟩⟩),
   ("green", ⟨⟨0, 255, 0⟩, ⟨0, 0, 0⟩⟩),
   ("amber", ⟨⟨255, 176, 0⟩, ⟨0, 0, 0⟩⟩),
   ("blue", ⟨⟨0, 255, 255⟩, ⟨0, 0, 64⟩⟩),
   ("retro", ⟨⟨255, 255, 0⟩, ⟨64, 0, 64⟩⟩)]

/-- A name that no palette has. -/
structure Unknown where
  given : String
  deriving DecidableEq

def Unknown.message (e : Unknown) : String :=
  "Unknown color scheme '" ++ e.given ++ "'. Available: " ++ Quoted.list (all.map Prod.fst)

def named (s : String) : Except Unknown Palette :=
  match all.lookup s with
  | some p => .ok p
  | none => .error ⟨s⟩

end Palette

/-! ## Colours from numbers -/

/-- The components of a colour as numbers. -/
def Colour.components (c : Colour) : Int × Int × Int :=
  (c.red.toNat, c.green.toNat, c.blue.toNat)

/-- Why a number is no component of a colour. -/
inductive ComponentError where
  /-- Not even a word of the host holds it. -/
  | overflow (e : WordOverflow)
  /-- It is no byte. -/
  | noByte (component : Int)
  deriving DecidableEq

def ComponentError.message : ComponentError → String
  | .overflow e => e.message
  | .noByte component => "Python integer " ++ toString component ++ " out of bounds for uint8"

/-- A component of a colour. -/
def Colour.component (i : Int) : Except ComponentError UInt8 :=
  if 0 ≤ i ∧ i < 256 then .ok (UInt8.ofNat i.toNat)
  else match hostWord i with
    | .ok i => .error (.noByte i)
    | .error e => .error (.overflow e)

/-- The colour with the given components; the first that is no byte is the error. -/
def Colour.ofInts (red green blue : Int) : Except ComponentError Colour := do
  let r ← component red
  let g ← component green
  let b ← component blue
  return ⟨r, g, b⟩

end Chip8
