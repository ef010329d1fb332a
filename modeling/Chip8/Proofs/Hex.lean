/-
Reading hexadecimal numerals back: filling zeros do not change the value of a numeral, so the number
is determined by the text whatever the width, and a number with no more digits than the width is
shown with exactly as many characters. A negative number is read back with its sign.
-/
import Chip8.Text.Hex

namespace Chip8.Hex

/-- The sixteen digits in order. -/
def alphabet : List Char := "0123456789ABCDEF".toList

/-- The number that a list of digits stands for. -/
def value (cs : List Char) : Nat := cs.foldl (fun n c => 16 * n + alphabet.idxOf c) 0

theorem digits_eq (n : Nat) :
    digits n = (if n < 16 then [] else digits (n / 16)) ++ [(Nat.digitChar (n % 16)).toUpper] := by
  unfold digits
  rw [Nat.toDigits_eq_if (by decide)]
  split
  · next h => simp [Nat.mod_eq_of_lt h]
  · simp

/-- The digit of a number is the one at its place in the alphabet. -/
theorem idxOf_digit {d : Nat} (h : d < 16) :
    (Nat.digitChar d).toUpper ∈ alphabet ∧ alphabet.idxOf (Nat.digitChar d).toUpper = d := by
  have hall : ∀ d : Fin 16, (Nat.digitChar d).toUpper ∈ alphabet ∧
      alphabet.idxOf (Nat.digitChar d).toUpper = d := by decide
  exact hall ⟨d, h⟩

theorem mem_alphabet_of_mem_digits {n : Nat} {c : Char} (h : c ∈ digits n) : c ∈ alphabet := by
  induction n using Nat.strongRecOn with
  | ind n ih =>
    have hlast := (idxOf_digit (Nat.mod_lt n (by decide : 0 < 16))).1
    rw [digits_eq, List.mem_append, List.mem_singleton] at h
    rcases h with h | rfl
    · split at h
      · cases h
      · exact ih (n / 16) (by omega) h
    · exact hlast

theorem value_append_singleton (cs : List Char) (c : Char) :
    value (cs ++ [c]) = 16 * value cs + alphabet.idxOf c := by
  simp [value]

theorem value_digits (n : Nat) : value (digits n) = n := by
  -- all digits but the last are those of the quotient
  induction n using Nat.strongRecOn with
  | ind n ih =>
    have hlast := (idxOf_digit (Nat.mod_lt n (by decide : 0 < 16))).2
    rw [digits_eq, value_append_singleton, hlast]
    split
    · next h =>
      have hnil : value [] = 0 := rfl
      omega
    · rw [ih (n / 16) (by omega)]
      omega

theorem value_replicate_zero (k : Nat) (cs : List Char) :
    value (List.replicate k '0' ++ cs) = value cs := by
  induction k with
  | zero => rfl
  | succ k ih => exact ih

/-! ## Padded numerals -/

section Padded

variable (width n : Nat)

theorem toList_padded : (padded width n).toList = (digits n).leftpad width '0' := by
  have hn : ¬ (n : Int) < 0 := by omega
  rw [padded, if_neg hn, String.toList_ofList, Int.natAbs_natCast]

theorem value_padded : value (padded width n).toList = n := by
  rw [toList_padded, List.leftpad, value_replicate_zero, value_digits]

variable {width n}

theorem mem_alphabet_of_mem_padded {c : Char} (h : c ∈ (padded width n).toList) : c ∈ alphabet := by
  rw [toList_padded, List.leftpad, List.mem_append, List.mem_replicate] at h
  rcases h with ⟨-, rfl⟩ | h
  · decide
  · exact mem_alphabet_of_mem_digits h

theorem le_length_padded : width ≤ (padded width n).toList.length := by
  rw [toList_padded, List.length_leftpad]
  exact Nat.le_max_left ..

theorem length_padded (hw : 0 < width) (h : n < Nat.pow 16 width) :
    (padded width n).toList.length = width := by
  have hd : (digits n).length ≤ width := by
    rw [digits, List.length_map]
    exact (Nat.length_toDigits_le_iff (by decide) hw).2 h
  rw [toList_padded, List.length_leftpad, Nat.max_eq_left hd]

end Padded

/-! ## Signed numerals -/

/-- The number that digits stand for, behind a sign or not. -/
def signedValue : List Char → Int
  | '-' :: cs => -(value cs : Int)
  | cs => value cs

theorem signedValue_of_notMem {cs : List Char} (h : '-' ∉ cs) : signedValue cs = value cs := by
  unfold signedValue
  split
  · simp at h
  · rfl

theorem signedValue_padded (width : Nat) (i : Int) : signedValue (padded width i).toList = i := by
  by_cases hneg : i < 0
  · have hvalue : value ((digits i.natAbs).leftpad (width - 1) '0') = i.natAbs := by
      rw [List.leftpad, value_replicate_zero, value_digits]
    rw [padded, if_pos hneg, String.toList_ofList, signedValue, hvalue]
    omega
  · obtain ⟨n, rfl⟩ := Int.eq_ofNat_of_zero_le (Int.not_lt.1 hneg)
    have hsign : '-' ∉ (padded width n).toList := fun hmem =>
      absurd (mem_alphabet_of_mem_padded hmem) (by decide)
    rw [signedValue_of_notMem hsign, value_padded]

end Chip8.Hex
