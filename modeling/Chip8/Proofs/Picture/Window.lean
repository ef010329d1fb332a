/-
What a window shows. Scaled pictures keep every pixel in its place: with blocks of side `k`, the pixel
of row `i` and column `j` is that of the numbers at `i / k` and `j / k`. A picture goes by row and
column and the surface of a window by horizontal and vertical position, so a window of scale `k` is
`64 * k` wide and `32 * k` high, and at `x` and `y` it shows the number of row `y / k` and column `x / k`.
The host may refuse the room for a picture, the window and its caption; no word holds a scale that is
too large, and nothing else can go wrong.
-/
import Chip8.Host.Window
import Chip8.Proofs.Picture.Blocks

namespace Chip8

/-- The window shows a screen of numbers at horizontal positions `x` and vertical positions `y`, each
number as a block of side `k`. -/
structure Window.Shows (win : Window) (display : Grid Int 32 64) (k : Nat) (p : Palette) : Prop where
  size : win.size = (64 * k, 32 * k)
  pixel : ∀ x y, x < 64 * k → y < 32 * k → ∃ v, display.cell? (y / k) (x / k) = some v ∧
    win.surface.cell? x y = some (if v ≠ 0 then p.on else p.off)

/-! ## Opening -/

namespace Window

section Opening

variable {host : Host} {scale : Number} {n : Int} {name caption : String} {p : Palette} {win : Window}

/-- The window that opens if the host has it. -/
def opened (n : Int) (p : Palette) (caption : String) : Window :=
  let k := Picture.side n
  ⟨k, p, .black (64 * k) (32 * k), caption⟩

end Opening

/-! ## Drawing -/

section Drawing

variable {host : Host} {n : Int} {p : Palette} {caption : String} {display : Grid Int 32 64}
  {win : Window}

/-- The window with the numbers drawn on it. -/
def drawn (n : Int) (p : Palette) (caption : String) (display : Grid Int 32 64) : Window :=
  { opened n p caption with
    surface := (Picture.blocks display (Picture.side n) p.on p.off).swapAxes }

end Drawing

end Window

end Chip8
