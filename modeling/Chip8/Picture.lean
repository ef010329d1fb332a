/-
Pictures of the screen: as lines of text, and as an array of colours in which each pixel is a square
block.
-/
import Chip8.Grid
import Chip8.Host
import Chip8.Palette

namespace Chip8

/-! ## Text -/

/-- Lit pixels, row by row. -/
abbrev Bitmap := List (List Bool)

namespace Bitmap

/-- The bitmap of numbers: all but zero are lit. -/
def ofInts (rows : List (List Int)) : Bitmap := rows.map fun row => row.map (· ≠ 0)

@[simp] theorem length_ofInts (rows : List (List Int)) : (ofInts rows).length = rows.length :=
  List.length_map _

/-- The bitmap has the shape of the numbers. -/
theorem length_of_mem_ofInts {rows : List (List Int)} {w : Nat} (h : ∀ row ∈ rows, row.length = w) :
    ∀ row ∈ ofInts rows, row.length = w := by
  rw [ofInts, List.forall_mem_map]
  intro row hrow
  rw [List.length_map, h row hrow]

/-- One line of a text picture. -/
def textLine (on off : String) (row : List Bool) : String :=
  String.join (row.map fun p => if p then on else off)

def text (on off : String) (b : Bitmap) : String := "\n".intercalate (b.map (textLine on off))

end Bitmap

/-! ## Colour -/

/-- Colours by row and column. -/
abbrev Picture := Plane Colour

/-- Why numbers give no picture. -/
inductive PictureError where
  | component (e : ComponentError)
  /-- No word of the host holds the scale. -/
  | scale (e : WordOverflow)
  /-- The host makes no room for the picture. -/
  | refused (e : HostError)
  deriving DecidableEq

def PictureError.message : PictureError → String
  | .component e => e.message
  | .scale e => e.message
  | .refused e => e.message

def PictureError.colour (red green blue : Int) : Except PictureError Colour :=
  (Colour.ofInts red green blue).mapError .component

namespace Picture

/-- The side of a block. Scales below one count as one. -/
def side (scale : Int) : Nat := max 1 scale.toNat

/-- Makes room for rows of colours. -/
def makeRoom (host : Host) (height width : Int) : Except PictureError Unit :=
  (host.array .byte [height, width, 3]).mapError .refused

/-- The picture of numbers in two colours given as numbers, the first for all but zero. The colours
are written under a mask and its complement; for a scale above one the rows are stretched from top to
bottom, and then from side to side. -/
def ofNumbers (host : Host) {h w : Nat} (display : Grid Int h w) (scale : Int)
    (on off : Int × Int × Int) : Except PictureError Picture := do
  let pixels := display.lit
  makeRoom host h w
  let frame : Grid Colour h w := .constant h w ⟨0, 0, 0⟩
  let on ← PictureError.colour on.1 on.2.1 on.2.2
  let frame := frame.write pixels on
  let off ← PictureError.colour off.1 off.2.1 off.2.2
  let frame := frame.write pixels.complement off
  if 1 < scale then
    let k ← (hostWord scale).mapError .scale
    makeRoom host (h * k) w
    let frame := frame.repeatRows k.toNat
    makeRoom host (h * k) (w * k)
    return .ofGrid (frame.repeatColumns k.toNat)
  else return .ofGrid frame

end Picture

end Chip8
