/-
Words of any size. Decoding masks and shifts a word, and in two's complement that cuts the last four
digits out of it, however large or negative it is. So a word is executed as its low sixteen bits are.
Only `CLS` and `RET` are compared with the word as a whole: a longer word that ends like one of them
is no instruction, and what is reported of it is the word itself.
-/
import Mathlib.Data.Int.Bitwise
import Chip8.Machine.Report
import Chip8.Proofs.Hex
import Chip8.Proofs.Instruction

namespace Chip8

/-! ## Masks in two's complement -/

/-- A mask of `k` ones keeps the last `k` bits. -/
theorem land_ones (w : Int) (k : Nat) : Int.land w (2 ^ k - 1 : Nat) = w % (2 ^ k : Nat) := by
  cases w with
  | ofNat m => exact congrArg Nat.cast (Nat.and_two_pow_sub_one_eq_mod m k)
  | negSucc m =>
    have hlt := Nat.mod_lt m (Nat.two_pow_pos k)
    -- the last bits of a negative number are those of `m` turned over
    have hbits : Nat.ldiff (2 ^ k - 1) m = 2 ^ k - (m % 2 ^ k + 1) := by
      refine Nat.eq_of_testBit_eq fun i => ?_
      rw [Nat.testBit_ldiff, Nat.testBit_two_pow_sub_one, Nat.testBit_two_pow_sub_succ hlt,
        Nat.testBit_mod_two_pow]
      cases decide (i < k) <;> rfl
    have hmask : Int.land (.negSucc m) (2 ^ k - 1 : Nat) = (Nat.ldiff (2 ^ k - 1) m : Nat) := rfl
    rw [hmask, hbits, Int.negSucc_emod m (by exact_mod_cast Nat.two_pow_pos k)]
    omega

/-- A mask with nothing in its last `j` bits may be moved down with what it is put on. -/
theorem shiftRight_land (w : Int) (j m : Nat) :
    (Int.land w (2 ^ j * m : Nat)).shiftRight j = Int.land (w.shiftRight j) m := by
  have hmask (i : Nat) : (2 ^ j * m).testBit (j + i) = m.testBit i := by
    rw [Nat.testBit_two_pow_mul, decide_eq_true (Nat.le_add_right j i), Bool.true_and,
      Nat.add_sub_cancel_left]
  cases w with
  | ofNat n =>
    refine congrArg Nat.cast (Nat.eq_of_testBit_eq fun i => ?_)
    rw [Nat.testBit_shiftRight, Nat.testBit_and, Nat.testBit_and, Nat.testBit_shiftRight, hmask]
  | negSucc n =>
    refine congrArg Nat.cast (Nat.eq_of_testBit_eq fun i => ?_)
    rw [Nat.testBit_shiftRight, Nat.testBit_ldiff, Nat.testBit_ldiff, Nat.testBit_shiftRight, hmask]

/-- Masking `k` bits from `j` on and shifting them down gives a digit. -/
theorem shiftRight_land_ones (w : Int) (j k : Nat) :
    (Int.land w (2 ^ j * (2 ^ k - 1) : Nat)).shiftRight j = w / (2 ^ j : Nat) % (2 ^ k : Nat) := by
  have hshift : w.shiftRight j = w / (2 ^ j : Nat) := Int.shiftRight_eq_div_pow w j
  rw [shiftRight_land, land_ones, hshift]

/-! ## Fields -/

namespace Fields

/-- The fields are the digits of the low sixteen bits of `w`. -/
structure Digits (f : Fields) (w : Int) : Prop where
  raw : f.raw = w
  low : (4096 * f.opcode + 256 * f.x + 16 * f.y + f.n : Int) = w % 65536
  kk : f.kk.toNat = 16 * f.y.val + f.n.val
  nnn : f.nnn.val = 256 * f.x.val + f.kk.toNat

/-- The fields are cut out of `w` by masks and shifts. -/
structure Masks (f : Fields) (w : Int) : Prop where
  opcode : (f.opcode : Int) = (Int.land w 0xF000).shiftRight 12
  x : (f.x : Int) = (Int.land w 0x0F00).shiftRight 8
  y : (f.y : Int) = (Int.land w 0x00F0).shiftRight 4
  n : (f.n : Int) = Int.land w 0x000F
  kk : (f.kk.toNat : Int) = Int.land w 0x00FF
  nnn : (f.nnn : Int) = Int.land w 0x0FFF

section Word

variable (w : Int)

theorem digitsOf_ofWord : (ofWord w).Digits w where
  raw := rfl
  low := digits_ofWord w
  kk := by
    simp [ofWord]
    omega
  nnn := by
    simp [ofWord]
    omega

theorem natCast_low : (low w : Int) = w % 65536 := Int.toNat_of_nonneg (by omega)

theorem masks_ofWord : (ofWord w).Masks w := by
  have hlow := natCast_low w
  refine ⟨.trans ?_ (shiftRight_land_ones w 12 4).symm, .trans ?_ (shiftRight_land_ones w 8 4).symm,
    .trans ?_ (shiftRight_land_ones w 4 4).symm, .trans ?_ (land_ones w 4).symm,
    .trans ?_ (land_ones w 8).symm, .trans ?_ (land_ones w 12).symm⟩
  -- what is left are the digits that the decoder takes from the low sixteen bits
  all_goals
    simp [ofWord]
    omega

/-- Words with the same low sixteen bits differ in nothing but the word itself. -/
theorem ofWord_eq_withRaw : ofWord w = { ofWord (w % 65536) with raw := w } := by
  simp [ofWord, low]

end Word

end Fields

/-! ## Instructions -/

namespace Instruction

/-- The instruction, with `v` as the word to report if it is none. -/
def showing (v : Int) : Instruction → Instruction
  | unknown _ => unknown v
  | i => i

section Families

variable (f : Fields) (v : Int)

theorem ofAlu_withRaw : ofAlu { f with raw := v } = (ofAlu f).showing v := by
  rw [ofAlu_eq, ofAlu_eq]
  dsimp only
  split <;> rfl

theorem ofKeys_withRaw : ofKeys { f with raw := v } = (ofKeys f).showing v := by
  rw [ofKeys_eq, ofKeys_eq]
  dsimp only
  split <;> rfl

theorem ofMisc_withRaw : ofMisc { f with raw := v } = (ofMisc f).showing v := by
  rw [ofMisc_eq, ofMisc_eq]
  dsimp only
  split <;> rfl

/-- Another word with the same digits is the same instruction, unless one of them is `CLS` or `RET`. -/
theorem ofFields_withRaw (hclear : f.raw = 0x00E0 ↔ v = 0x00E0) (hret : f.raw = 0x00EE ↔ v = 0x00EE) :
    ofFields { f with raw := v } = (ofFields f).showing v := by
  rw [ofFields_eq, ofFields_eq]
  dsimp only
  split
  case h_1 =>
    simp only [hclear, hret]
    split
    · rfl
    · split <;> rfl
  case h_9 => exact ofAlu_withRaw f v
  case h_15 => exact ofKeys_withRaw f v
  case h_16 => exact ofMisc_withRaw f v
  all_goals rfl

end Families

section Words

variable {w : Int}

/-- A word that ends like `CLS` or `RET` and is neither. -/
def Imitates (w : Int) : Prop := (w % 65536 = 0x00E0 ∨ w % 65536 = 0x00EE) ∧ w ≠ w % 65536

instance (w : Int) : Decidable (Imitates w) :=
  inferInstanceAs (Decidable ((w % 65536 = 0x00E0 ∨ w % 65536 = 0x00EE) ∧ w ≠ w % 65536))

theorem ofWord_eq_showing (h : ¬ Imitates w) : ofWord w = (ofWord (w % 65536)).showing w := by
  have hsame : w % 65536 = 0x00E0 ∨ w % 65536 = 0x00EE → w = w % 65536 := fun hlow =>
    Decidable.not_not.1 fun hne => h ⟨hlow, hne⟩
  rw [ofWord, Fields.ofWord_eq_withRaw]
  refine ofFields_withRaw _ _ (show w % 65536 = _ ↔ _ from ?_) (show w % 65536 = _ ↔ _ from ?_)
  · omega
  · omega

theorem ofWord_of_imitates (h : Imitates w) : ofWord w = unknown w := by
  obtain ⟨hlow, hne⟩ := h
  have hopcode : (Fields.ofWord w).opcode.val = 0 := by
    have hdigits := Fields.digits_ofWord w
    omega
  rw [ofWord, ofFields_eq, hopcode]
  exact (if_neg (show ¬ w = 0x00E0 by omega)).trans (if_neg (show ¬ w = 0x00EE by omega))

end Words

end Instruction

/-! ## Execution -/

/-- The text of the notice has a numeral for the word, and that stands for `w`. -/
def Notice.Shows (n : Notice) (w : Int) : Prop :=
  ∃ shown, n.message = "Unknown opcode 0x" ++ shown ++ " at 0x" ++ Hex.padded 3 n.address ∧
    Hex.signedValue shown.toList = w

theorem Notice.shows_word (n : Notice) : n.Shows n.word :=
  ⟨Hex.padded 4 n.word, rfl, Hex.signedValue_padded 4 n.word⟩

namespace Machine

open Instruction

theorem execute_showing (s : Machine) (v : Int) (i : Instruction) :
    s.execute (i.showing v) = s.execute i := by
  cases i <;> rfl

theorem noticeOf?_showing (s : Machine) (v : Int) (i : Instruction) :
    s.noticeOf? (i.showing v) = (s.noticeOf? i).map fun n => { n with word := v } := by
  cases i <;> rfl

/-- What a word does is what its low sixteen bits do, for words of any size and sign; only the word
that a notice shows is the whole word. The exceptions are words that end like `CLS` or `RET` and are
longer: these do nothing but give a notice, which shows the whole word. -/
theorem lowBits_decide (w : Int) :
    (Fields.ofWord w).Digits w ∧ (Fields.ofWord w).Masks w ∧
    disassemble w = disassemble (w % 65536) ∧
    ∀ s : Machine,
      (¬ Imitates w →
        s.execute (.ofWord w) = s.execute (.ofWord (w % 65536)) ∧
        s.noticeOf? (.ofWord w) =
          (s.noticeOf? (.ofWord (w % 65536))).map fun n => { n with word := w }) ∧
      (Imitates w → s.execute (.ofWord w) = s ∧
        ∃ n, s.noticeOf? (.ofWord w) = some n ∧ n.address = (s.pc - 2).toNat ∧ n.Shows w) := by
  refine ⟨Fields.digitsOf_ofWord w, Fields.masks_ofWord w, ?_, fun s => ⟨fun h => ?_, fun h => ?_⟩⟩
  · rw [disassemble, disassemble, Int.emod_emod_of_dvd w (Int.dvd_refl 65536)]
  · rw [ofWord_eq_showing h]
    exact ⟨execute_showing s w _, noticeOf?_showing s w _⟩
  · rw [ofWord_of_imitates h]
    exact ⟨rfl, ⟨w, (s.pc - 2).toNat⟩, rfl, rfl, Notice.shows_word _⟩

/-- `CLS` with a bit before it, `RET` as a negative number, an undefined word and `6A07` with many
bits before them. -/
theorem lowBits_decide_long :
    let s := fresh (.ofSeed 0) false
    s.execute (.ofWord 0x100E0) = s ∧ s.execute (.ofWord (0xEE - 0x10000)) = s ∧
      (s.noticeOf? (.ofWord (-1))).map Notice.message = some "Unknown opcode 0x-001 at 0x1FE" ∧
      s.execute (.ofWord (0x6A07 - 0x10000000000000000)) = s.setRegister 0xA 7 ∧
      disassemble (0x6A07 - 0x10000000000000000) = "LD VA, 0x07" := by
  intro s
  have hpc : s.pc = 0x200 := rfl
  clear_value s
  obtain ⟨-, -, -, hclear⟩ := lowBits_decide 0x100E0
  obtain ⟨-, -, -, hret⟩ := lowBits_decide (0xEE - 0x10000)
  obtain ⟨-, -, -, hundefined⟩ := lowBits_decide (-1)
  obtain ⟨-, -, htext, hset⟩ := lowBits_decide (0x6A07 - 0x10000000000000000)
  refine ⟨((hclear s).2 (by decide)).1, ((hret s).2 (by decide)).1, ?_,
    ((hset s).1 (by decide)).1, htext.trans (by decide)⟩
  have hlow : Instruction.ofWord (-1 % 65536) = .unknown 0xFFFF := rfl
  rw [((hundefined s).1 (by decide)).2, hlow, noticeOf?, hpc]
  decide +kernel

end Machine

end Chip8
