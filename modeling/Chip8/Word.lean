/-
Words: of two bytes, the high byte first, and of eight bytes with a sign, in which the host keeps
whole numbers.
-/
namespace Chip8

/-- Numerals of `Fin 16`, the type of digits and registers, need that sixteen is not zero. The library
has more than one proof of it; with this one they read the same whatever a module imports. -/
instance neZeroDigits : @NeZero Nat Zero.ofOfNat0 16 := ⟨Nat.succ_ne_zero 15⟩

/-- The word whose bytes are `high` and `low`. -/
def bigEndian (high low : UInt8) : UInt16 := UInt16.ofNat (256 * high.toNat + low.toNat)

theorem toNat_bigEndian (high low : UInt8) :
    (bigEndian high low).toNat = 256 * high.toNat + low.toNat := by
  have := high.toNat_lt
  have := low.toNat_lt
  have hw : 256 * high.toNat + low.toNat < 65536 := by omega
  simp [bigEndian, Nat.mod_eq_of_lt hw]

/-! ## Words of the host -/

/-- A whole number that no word of the host holds. -/
structure WordOverflow where
  deriving DecidableEq

def WordOverflow.message (_ : WordOverflow) : String := "Python int too large to convert to C long"

/-- A word of the host holds the number. -/
def fitsWord (i : Int) : Bool := decide (-0x8000000000000000 ≤ i ∧ i < 0x8000000000000000)

/-- The number, if a word of the host holds it. -/
def hostWord (i : Int) : Except WordOverflow Int := if fitsWord i then .ok i else .error ⟨⟩

end Chip8
