/-
The screen of 64 by 32 pixels and the sprites drawn on it. A pixel is a byte, 1 where it is lit and
0 where it is not; nothing but drawing keeps it to these two. A sprite is eight pixels wide and has
one byte per row. It is placed with wrapping at both edges and combined with the screen by
exclusive or; two screens collide where both are lit.
-/
namespace Chip8

/-- Rows from the top, each with its pixels from the left. -/
abbrev Screen := Vector (Vector UInt8 64) 32

/-- The byte of a pixel. -/
def pixel (lit : Bool) : UInt8 := if lit then 1 else 0

/-- One byte per row, leftmost pixel in the high bit. -/
abbrev Sprite := List UInt8

/-- Whether the sprite lights the pixel `row`, `col` of its own eight columns. -/
def Sprite.lit (s : Sprite) (row col : Nat) : Bool :=
  decide (col < 8) && ((s[row]?).getD 0).toNat.testBit (7 - col)

namespace Screen

def blank : Screen := Vector.replicate 32 (Vector.replicate 64 0)

/-- A screen that holds nothing but the sprite, its corner at column `x`, row `y`, wrapped. -/
def place (s : Sprite) (x y : Nat) : Screen :=
  Vector.ofFn fun row : Fin 32 => Vector.ofFn fun col : Fin 64 =>
    pixel (s.lit ((row + (32 - y % 32)) % 32) ((col + (64 - x % 64)) % 64))

/-- Each pixel flipped where the other screen is lit: their exclusive or. -/
def flip (a b : Screen) : Screen := Vector.zipWith (Vector.zipWith (· ^^^ ·)) a b

@[simp] theorem getElem_place (s : Sprite) (x y row col : Nat) (hr : row < 32) (hc : col < 64) :
    (place s x y)[row][col] =
      pixel (s.lit ((row + (32 - y % 32)) % 32) ((col + (64 - x % 64)) % 64)) := by
  simp [place]

@[simp] theorem getElem_flip (a b : Screen) (row col : Nat) (hr : row < 32) (hc : col < 64) :
    (a.flip b)[row][col] = a[row][col] ^^^ b[row][col] := by
  simp [flip]

/-- Flipping the same pixels twice changes nothing. -/
theorem flip_flip (a b : Screen) : (a.flip b).flip b = a := by
  ext row hr col hc : 2
  rw [getElem_flip, getElem_flip, UInt8.xor_assoc, UInt8.xor_self, UInt8.xor_zero]

def collides (a b : Screen) : Bool :=
  (List.finRange 32).any fun row => (List.finRange 64).any fun col =>
    a[row][col] &&& b[row][col] == 1

/-- Which pixels are lit, row by row. -/
def rows (s : Screen) : List (List Bool) := s.toList.map fun row => row.toList.map (· != 0)

end Screen

end Chip8
