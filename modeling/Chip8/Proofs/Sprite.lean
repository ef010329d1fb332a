/-
Where a sprite falls. Row `i` and column `j` of a sprite whose corner is at column `x`, row `y` come
to lie on row `y + i` and column `x + j`, wrapped at both edges. A placed sprite lights those pixels
to which one of its own comes, and two screens collide where both are lit.
-/
import Chip8.Memory
import Chip8.Proofs.Screen

namespace Chip8

/-! ## Sprites -/

namespace Sprite

theorem lit_iff {s : Sprite} {i j : Nat} : s.lit i j = true ↔
    j < 8 ∧ ∃ h : i < s.length, s[i].toNat.testBit (7 - j) = true := by
  rw [lit, Bool.and_eq_true, decide_eq_true_iff]
  constructor
  · rintro ⟨hj, hbit⟩
    cases hi : s[i]? with
    | none =>
      rw [hi] at hbit
      cases hbit.symm.trans (Nat.zero_testBit _)
    | some b =>
      obtain ⟨hlt, rfl⟩ := List.getElem?_eq_some_iff.1 hi
      rw [hi] at hbit
      exact ⟨hj, hlt, hbit⟩
  · rintro ⟨hj, hlt, hbit⟩
    rw [List.getElem?_eq_getElem hlt]
    exact ⟨hj, hbit⟩

/-- A pixel of the sprite comes to lie on the pixel `row`, `col` of the screen. -/
def Covers (s : Sprite) (x y row col : Nat) : Prop :=
  ∃ i j, s.lit i j = true ∧ row = (y + i) % 32 ∧ col = (x + j) % 64

/-- A pixel is covered exactly if that of the sprite which wraps to it is lit: the sprite is smaller
than the screen, so there is only one. -/
theorem lit_iff_covers {s : Sprite} (hs : s.length ≤ 32) {x y row col : Nat} (hr : row < 32)
    (hc : col < 64) :
    s.lit ((row + (32 - y % 32)) % 32) ((col + (64 - x % 64)) % 64) = true ↔
      s.Covers x y row col := by
  constructor
  · intro h
    exact ⟨_, _, h, by omega, by omega⟩
  · rintro ⟨i, j, h, hrow, hcol⟩
    obtain ⟨hj, hi, -⟩ := lit_iff.1 h
    have hi' : (row + (32 - y % 32)) % 32 = i := by omega
    have hj' : (col + (64 - x % 64)) % 64 = j := by omega
    rwa [hi', hj']

end Sprite

theorem Memory.lit_slice {m : Memory} {start n i j : Nat} :
    Sprite.lit (m.slice start n) i j = true ↔
      j < 8 ∧ i < n ∧ (m.read (start + i)).toNat.testBit (7 - j) = true := by
  simp [Sprite.lit_iff, slice]

theorem Memory.covers_slice {m : Memory} {start n x y row col : Nat} :
    Sprite.Covers (m.slice start n) x y row col ↔ ∃ i < n, ∃ j < 8,
      (m.read (start + i)).toNat.testBit (7 - j) = true ∧ row = (y + i) % 32 ∧ col = (x + j) % 64 := by
  simp only [Sprite.Covers, lit_slice]
  constructor
  · rintro ⟨i, j, ⟨hj, hi, hbit⟩, hplace⟩
    exact ⟨i, hi, j, hj, hbit, hplace⟩
  · rintro ⟨i, hi, j, hj, hbit, hplace⟩
    exact ⟨i, j, ⟨hj, hi, hbit⟩, hplace⟩

/-! ## Screens -/

theorem pixel_eq_one {lit : Bool} : pixel lit = 1 ↔ lit = true := by
  cases lit <;> simp [pixel]

namespace Screen

/-- The corner may be given with its turns around the screen or without. -/
theorem place_mod (s : Sprite) (x y : Nat) : place s (x % 64) (y % 32) = place s x y := by
  simp only [place, Nat.mod_mod]

theorem getElem_place_eq_one {s : Sprite} (hs : s.length ≤ 32) {x y row col : Nat} (hr : row < 32)
    (hc : col < 64) : (place s x y)[row][col] = 1 ↔ s.Covers x y row col := by
  rw [getElem_place, pixel_eq_one, Sprite.lit_iff_covers hs hr hc]

theorem collides_iff {a b : Screen} (ha : a.Binary) (hb : b.Binary) : a.collides b = true ↔
    ∃ (row : Nat) (hr : row < 32) (col : Nat) (hc : col < 64), a[row][col] = 1 ∧ b[row][col] = 1 := by
  have hand {row col : Nat} (hr : row < 32) (hc : col < 64) :
      a[row][col] &&& b[row][col] = 1 ↔ a[row][col] = 1 ∧ b[row][col] = 1 := by
    rcases ha row hr col hc with h | h <;> rcases hb row hr col hc with h' | h' <;> simp [h, h']
  simp only [collides, List.any_eq_true, List.mem_finRange, true_and, beq_iff_eq]
  constructor
  · rintro ⟨row, col, h⟩
    exact ⟨row, row.isLt, col, col.isLt, (hand row.isLt col.isLt).1 h⟩
  · rintro ⟨row, hr, col, hc, h⟩
    exact ⟨⟨row, hr⟩, ⟨col, hc⟩, (hand hr hc).2 h⟩

end Screen

end Chip8
