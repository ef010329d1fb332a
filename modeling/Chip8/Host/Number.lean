/-
Numbers as settings give them: whole numbers of any size, and decimals in double precision.
-/
import Chip8.Host.Rounding

namespace Chip8

/-- A number of a setting. -/
inductive Number where
  | whole (i : Int)
  | decimal (x : Float)

/-- A number so large that it became infinite has no integer part. -/
structure Endless where
  deriving DecidableEq

def Endless.message (_ : Endless) : String := "cannot convert float infinity to integer"

namespace Number

/-- The double nearest to a whole number, unless it is out of range. -/
def doubleOfInt? (i : Int) : Option Float :=
  let q := Rounding.nearestDouble i 1
  if Rounding.inRange q.1 q.2 then some (Rounding.toDouble q.1 q.2) else none

def toDouble? : Number → Option Float
  | .whole i => doubleOfInt? i
  | .decimal x => some x

def truncate : Number → Except Endless Int
  | .whole i => .ok i
  | .decimal x => if x.isInf then .error ⟨⟩ else .ok (Rounding.truncate x)

end Number

end Chip8
