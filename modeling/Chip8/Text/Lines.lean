/-
The lines of a text. A line ends at a line feed, a carriage return (or both in this order), a
vertical tab, a form feed, one of three control characters that separate records, or a character
for the next line, a line or a paragraph. Text behind the last end is a line of its own.
-/
namespace Chip8.Lines

def isBreak (c : Char) : Bool :=
  [0x0A, 0x0B, 0x0C, 0x0D, 0x1C, 0x1D, 0x1E, 0x85, 0x2028, 0x2029].contains c.toNat

/-- The lines without what ends them. -/
def split : List Char → List (List Char)
  | [] => []
  | '\r' :: '\n' :: rest => [] :: split rest
  | c :: rest =>
    if isBreak c then [] :: split rest
    else match split rest with
      | [] => [[c]]
      | line :: lines => (c :: line) :: lines

def ofString (s : String) : List String := (split s.toList).map String.ofList

/-- Only the empty text has no line. -/
theorem split_eq_nil_iff (s : List Char) : split s = [] ↔ s = [] := by
  constructor
  · intro h
    unfold split at h
    split at h
    · rfl
    · simp at h
    · split at h
      · simp at h
      · split at h <;> simp at h
  · rintro rfl
    rfl

end Chip8.Lines
