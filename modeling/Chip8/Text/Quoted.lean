/-
Text in quotes, as messages show a name that somebody gave. Single quotes surround it, or double
ones if it holds a single quote and no double one. The quote in use, backslashes and characters
that are not shown as themselves are escaped.
-/
import Chip8.Text.CharClass

namespace Chip8.Quoted

/-- A number in lower-case hexadecimal with the given count of digits. -/
def hexFixed (n : Nat) : Nat → List Char
  | 0 => []
  | width + 1 => hexFixed (n / 16) width ++ [Nat.digitChar (n % 16)]

/-- The escape of a character by its number, in two, four or eight digits. -/
def numeric (c : Char) : List Char :=
  if c.toNat < 0x100 then '\x5c' :: 'x' :: hexFixed c.toNat 2
  else if c.toNat < 0x10000 then '\x5c' :: 'u' :: hexFixed c.toNat 4
  else '\x5c' :: 'U' :: hexFixed c.toNat 8

/-- How a character is written between the quotes `q`. -/
def escape (q c : Char) : List Char :=
  if c = q ∨ c = '\x5c' then ['\x5c', c]
  else if c = '\n' then ['\x5c', 'n']
  else if c = '\r' then ['\x5c', 'r']
  else if c = '\t' then ['\x5c', 't']
  else if CharClass.isShown c then [c]
  else numeric c

/-- The quote that a text gets. -/
def quoteFor (s : List Char) : Char :=
  if '\x27' ∈ s ∧ '\x22' ∉ s then '\x22' else '\x27'

def quote (s : String) : String :=
  let q := quoteFor s.toList
  String.ofList (q :: s.toList.flatMap (escape q) ++ [q])

/-- A list of texts in quotes, in brackets. -/
def list (ss : List String) : String := "[" ++ ", ".intercalate (ss.map quote) ++ "]"

end Chip8.Quoted
