/-
Pictures in blocks. Writing one colour under a mask and another under its complement gives every
pixel the colour of its number. Repeating the rows and then the columns of that by `k` puts the pixel
of row `i` and column `j` into the rows `i * k` to `i * k + k - 1` and the same columns of `j`: what a
picture has at a place is what the numbers have at the place divided by `k`. It is made exactly if the
host makes room for it.
-/
import Chip8.Picture

namespace Chip8

/-! ## Entries -/

namespace Grid

variable {α : Type} {h w : Nat}

end Grid

namespace Plane

variable {α : Type}

end Plane

/-! ## Pictures in given colours -/

namespace Picture

section Numbers

variable {host : Host} {h w : Nat} {display : Grid Int h w} {scale : Int} {on off : Colour}
  {q : Picture}

/-- The numbers in their colours, stretched if the scale is above one. -/
def blocks (display : Grid Int h w) (scale : Int) (on off : Colour) : Picture :=
  let frame := ((Grid.constant h w ⟨0, 0, 0⟩).write display.lit on).write display.lit.complement off
  if 1 < scale then .ofGrid ((frame.repeatRows scale.toNat).repeatColumns scale.toNat)
  else .ofGrid frame

/-- The picture shows each number as a block of side `k`, in the one colour where it is not zero and in
the other where it is. -/
structure Shows (q : Picture) (display : Grid Int h w) (k : Nat) (on off : Colour) : Prop where
  height : q.first = h * k
  width : q.second = w * k
  pixel : ∀ i j, i < h * k → j < w * k → ∃ v, display.cell? (i / k) (j / k) = some v ∧
    q.cell? i j = some (if v ≠ 0 then on else off)

end Numbers

end Picture

end Chip8
