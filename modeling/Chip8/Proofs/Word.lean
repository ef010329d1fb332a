/-
Sums and differences of words that do not wrap, and the word at an address of memory as a number.
-/
import Chip8.Memory

namespace Chip8

theorem toNat_add_two {a : UInt16} (h : a.toNat + 2 < 65536) : (a + 2).toNat = a.toNat + 2 := by
  have h2 : (2 : UInt16).toNat = 2 := rfl
  rw [UInt16.toNat_add, h2]
  omega

theorem toNat_add_one {a : UInt16} (h : a.toNat + 1 < 65536) : (a + 1).toNat = a.toNat + 1 := by
  have h1 : (1 : UInt16).toNat = 1 := rfl
  rw [UInt16.toNat_add, h1]
  omega

theorem toNat_sub_two {a : UInt16} (h : 2 ≤ a.toNat) : (a - 2).toNat = a.toNat - 2 := by
  have h2 : (2 : UInt16) ≤ a := UInt16.le_iff_toNat_le.2 h
  rw [UInt16.toNat_sub_of_le _ _ h2]
  rfl

/-- The two bytes at an address as a number, high byte first. -/
def Memory.wordAt (m : Memory) (a : Nat) : Nat := 256 * (m.read a).toNat + (m.read (a + 1)).toNat

theorem Memory.toNat_word (m : Memory) {a : UInt16} (h : Fits a.toNat 2) :
    (m.word a).toNat = m.wordAt a.toNat := by
  rw [word, toNat_bigEndian, toNat_add_one (by omega), wordAt]

end Chip8
