/-
Rounding, exactly, on whole numbers. A quotient rounds to the nearest integer or to the nearest
double; a finite double is an integer times a power of two, and its roundings to integers are exact
on that form.
-/
namespace Chip8.Rounding

/-! ## Quotients to integers -/

/-- The integer nearest to `a / b`, of two the even one. -/
def nearestQuotient (a b : Int) : Int :=
  let below := a / b
  let rest := a % b
  if 2 * rest < b ∨ 2 * rest = b ∧ below % 2 = 0 then below else below + 1

/-! ## Doubles to integers -/

/-- An integer and an exponent of two whose product is the double. -/
def parts (x : Float) : Int × Int :=
  let bits : Nat := x.toBits.toNat
  let exponent : Nat := bits / 0x10000000000000 % 0x800
  let fraction : Nat := bits % 0x10000000000000
  let magnitude : Nat := if exponent = 0 then fraction else fraction + 0x10000000000000
  (if bits < 0x8000000000000000 then (magnitude : Int) else -(magnitude : Int),
    ((max exponent 1 : Nat) : Int) - 1075)

/-- Rounds `m` times a power of two towards zero. -/
def towardZero (m e : Int) : Int :=
  if 0 ≤ e then m * Nat.pow 2 e.toNat else m.tdiv (Nat.pow 2 (-e).toNat)

/-- Rounds `m` times a power of two to the nearest integer, a half to the even one. -/
def toNearestEven (m e : Int) : Int :=
  if 0 ≤ e then m * Nat.pow 2 e.toNat else nearestQuotient m (Nat.pow 2 (-e).toNat)

/-- The integer part of a double. -/
def truncate (x : Float) : Int := towardZero (parts x).1 (parts x).2

/-! ## Quotients to doubles -/

/-- A quotient of the same value as `n / d` divided by the `e`-th power of two. -/
def inUnits (n d : Nat) (e : Int) : Nat × Nat :=
  if 0 ≤ e then (n, d * Nat.pow 2 e.toNat) else (n * Nat.pow 2 (-e).toNat, d)

/-- The exponent of the double nearest to `n / d`: the integer beside it has 53 binary digits, or
fewer where the quotient is so small that the exponent would fall below that of all doubles. -/
def quotientExponent (n d : Nat) : Int :=
  let e : Int := (n.log2 : Int) - d.log2 - 53
  let scaled := inUnits n d e
  max (-1074) (if scaled.1 / scaled.2 < 0x20000000000000 then e else e + 1)

/-- The double nearest to `a / b` as an integer and an exponent of two, without a bound on the
exponent; of two the one with the even integer. -/
def nearestDouble (a b : Int) : Int × Int :=
  let e := quotientExponent a.natAbs b.natAbs
  let scaled := inUnits a.natAbs b.natAbs e
  (a.sign * b.sign * nearestQuotient scaled.1 scaled.2, e)

/-- An integer times a power of two lies within the range of the doubles. -/
def inRange (m e : Int) : Bool := decide (m.natAbs * Nat.pow 2 e.toNat < Nat.pow 2 1024)

/-- The double of an integer times a power of two, infinite if it is out of range. -/
def toDouble (m e : Int) : Float := (Float.ofInt m).scaleB e

end Chip8.Rounding
