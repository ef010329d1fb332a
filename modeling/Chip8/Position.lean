/-
Positions in a row of cells, given by numbers: from zero on they count from the front, below zero
they count back from the end.
-/
import Chip8.Word

namespace Chip8

/-- Why a number is no position. -/
inductive PositionError where
  /-- It lies outside of the row, which has so many cells. -/
  | outside (number : Int) (size : Nat)
  /-- No word of the host holds it with its sign, but one without a sign does. -/
  | overflow (e : WordOverflow)
  /-- No word of the host holds it. -/
  | noWord
  deriving DecidableEq

def PositionError.message : PositionError → String
  | .outside number size =>
    "index " ++ toString number ++ " is out of bounds for axis 0 with size " ++ toString size
  | .overflow e => e.message
  | .noWord =>
    "only integers, slices (`:`), ellipsis (`...`), numpy.newaxis (`None`) and integer or " ++
      "boolean arrays are valid indices"

/-- The position of a number in a row of `size` cells. -/
def position (size : Nat) (i : Int) : Except PositionError (Fin size) :=
  if h : 0 ≤ i ∧ i < size then .ok ⟨i.toNat, by omega⟩
  else if h : -size ≤ i ∧ i < 0 then .ok ⟨(i + size).toNat, by omega⟩
  else if fitsWord i then .error (.outside i size)
  else if 0 ≤ i ∧ i < 0x10000000000000000 then .error (.overflow ⟨⟩)
  else .error .noWord

end Chip8
