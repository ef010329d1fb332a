/-
Screens whose pixels are 0 or 1. The blank screen is one, a placed sprite is one, and flipping the
pixels of one by another gives one.
-/
import Chip8.Screen

namespace Chip8

theorem pixel_eq (lit : Bool) : pixel lit = 0 ∨ pixel lit = 1 := by
  cases lit <;> simp [pixel]

namespace Screen

/-- Every pixel is 0 or 1. -/
def Binary (s : Screen) : Prop :=
  ∀ (row : Nat) (hr : row < 32) (col : Nat) (hc : col < 64), s[row][col] = 0 ∨ s[row][col] = 1

theorem blank_binary : blank.Binary := by
  intro row hr col hc
  simp [blank]

theorem place_binary (s : Sprite) (x y : Nat) : (place s x y).Binary := by
  intro row hr col hc
  rw [getElem_place]
  exact pixel_eq _

theorem flip_binary {a b : Screen} (ha : a.Binary) (hb : b.Binary) : (a.flip b).Binary := by
  intro row hr col hc
  rw [getElem_flip]
  rcases ha row hr col hc with h | h <;> rcases hb row hr col hc with h' | h' <;> simp [h, h']

end Screen

end Chip8
