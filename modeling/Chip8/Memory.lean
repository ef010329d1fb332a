/-
The machine's memory: 4096 bytes, the first eighty of which hold the font. Reading is total (past
the end the last byte answers) and so is writing (bytes past the end are dropped); callers that
must not leave memory ask `Memory.Fits` first.
-/
import Chip8.Word

namespace Chip8

/-- The 4096 bytes a program sees. -/
abbrev Memory := Vector UInt8 4096

/-- Glyphs of the sixteen hexadecimal digits, five rows each, leftmost pixel in the high bit. -/
def font : List UInt8 :=
  [0xF0, 0x90, 0x90, 0x90, 0xF0,
   0x20, 0x60, 0x20, 0x20, 0x70,
   0xF0, 0x10, 0xF0, 0x80, 0xF0,
   0xF0, 0x10, 0xF0, 0x10, 0xF0,
   0x90, 0x90, 0xF0, 0x10, 0x10,
   0xF0, 0x80, 0xF0, 0x10, 0xF0,
   0xF0, 0x80, 0xF0, 0x90, 0xF0,
   0xF0, 0x10, 0x20, 0x40, 0x40,
   0xF0, 0x90, 0xF0, 0x90, 0xF0,
   0xF0, 0x90, 0xF0, 0x10, 0xF0,
   0xF0, 0x90, 0xF0, 0x90, 0x90,
   0xE0, 0x90, 0xE0, 0x90, 0xE0,
   0xF0, 0x80, 0x80, 0x80, 0xF0,
   0xE0, 0x90, 0x90, 0x90, 0xE0,
   0xF0, 0x80, 0xF0, 0x80, 0xF0,
   0xF0, 0x80, 0xF0, 0x80, 0x80]

def glyphSize : Nat := 5

/-- Where programs are loaded and start. -/
def programStart : Nat := 0x200

/-- The number of bytes from `programStart` to the end of memory. -/
def programCapacity : Nat := 4096 - programStart

namespace Memory

/-- The `n` bytes from `start` on lie in memory. -/
abbrev Fits (start n : Nat) : Prop := start + n ≤ 4096

/-- The byte at an address; past the end the last byte answers. -/
def read (m : Memory) (a : Nat) : UInt8 :=
  if h : a < 4096 then m[a] else m[4095]

def slice (m : Memory) (start n : Nat) : List UInt8 :=
  (List.range n).map fun i => m.read (start + i)

/-- Writes bytes to consecutive addresses from `start` on. -/
def store (m : Memory) (start : Nat) : List UInt8 → Memory
  | [] => m
  | b :: bs => Memory.store (m.setIfInBounds start b) (start + 1) bs

theorem read_of_lt (m : Memory) {a : Nat} (h : a < 4096) : m.read a = m[a] := dif_pos h

@[simp] theorem length_slice (m : Memory) (start n : Nat) : (m.slice start n).length = n := by
  simp [slice]

/-- Storing sets the bytes of its stretch and no other. -/
theorem getElem_store (m : Memory) (start : Nat) (bs : List UInt8) (a : Nat) (ha : a < 4096) :
    (m.store start bs)[a] = if start ≤ a then (bs[a - start]?).getD m[a] else m[a] := by
  induction bs generalizing start m with
  | nil => simp [store]
  | cons b bs ih =>
    rw [store, ih]
    by_cases h : start + 1 ≤ a
    · have hs : start ≠ a := by omega
      have hi : a - start = a - (start + 1) + 1 := by omega
      rw [if_pos h, if_pos (by omega), hi, List.getElem?_cons_succ,
        Vector.getElem_setIfInBounds_ne _ hs]
    · rw [if_neg h]
      by_cases hs : start = a
      · subst hs; simp
      · rw [if_neg (by omega), Vector.getElem_setIfInBounds_ne _ hs]

theorem read_store (m : Memory) {start i : Nat} (h : start + i < 4096) (bs : List UInt8) :
    (m.store start bs).read (start + i) = (bs[i]?).getD (m.read (start + i)) := by
  rw [read_of_lt _ h, read_of_lt _ h, getElem_store, if_pos (Nat.le_add_right _ _),
    Nat.add_sub_cancel_left]

/-- The word at `a`, high byte first. The address after `0xFFFF` is 0. -/
def word (m : Memory) (a : UInt16) : UInt16 :=
  bigEndian (m.read a.toNat) (m.read (a + 1).toNat)

/-- Memory that is zero but for the font. -/
def fresh : Memory := Memory.store (Vector.replicate 4096 0) 0 font

end Memory

end Chip8
