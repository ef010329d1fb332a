/-
Upper-case hexadecimal numerals with a least width, as mnemonics and messages show words and
addresses. Zeros fill a short numeral; the sign of a negative number counts towards the width and
stands before the zeros.
-/
namespace Chip8.Hex

/-- The digits of a number, most significant first. -/
def digits (n : Nat) : List Char := (Nat.toDigits 16 n).map Char.toUpper

/-- The numeral of `i` with at least `width` characters. -/
def padded (width : Nat) (i : Int) : String :=
  if i < 0 then String.ofList ('-' :: (digits i.natAbs).leftpad (width - 1) '0')
  else String.ofList ((digits i.natAbs).leftpad width '0')

end Chip8.Hex
