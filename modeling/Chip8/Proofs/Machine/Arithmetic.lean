/-
The two-register operations of family `8XYN`, in whole numbers. `Gives` says of each last digit which
result and which flag belong to the two operands, without words that wrap; result and flag are
determined by it. A machine reads both operands first, then writes the result to `VX` and last the
flag to `VF`, so that it does not matter which of `X`, `Y` and `F` are the same register.
-/
import Chip8.Proofs.Machine.Frame

namespace Chip8

namespace Arithmetic

/-! ## The operations by their last digit -/

/-- The last digits that are operations. -/
def Operates (n : Nat) : Prop := n ≤ 0x7 ∨ n = 0xE

/-- The last digits whose operation has a flag. -/
def HasFlag (n : Nat) : Prop := 0x4 ≤ n ∧ n ≤ 0x7 ∨ n = 0xE

instance (n : Nat) : Decidable (Operates n) := inferInstanceAs (Decidable (_ ∨ _))

instance (n : Nat) : Decidable (HasFlag n) := inferInstanceAs (Decidable (_ ∨ _))

theorem HasFlag.operates {n : Nat} (h : HasFlag n) : Operates n := h.imp_left And.right

/-- The operation of a last digit makes the result `r` and the flag `f` of `a` in `VX` and `b` in
`VY`. -/
def Gives (n a b r f : Nat) : Prop :=
  match n with
  | 0x0 => r = b
  | 0x1 => r = a ||| b
  | 0x2 => r = a &&& b
  | 0x3 => r = a ^^^ b
  | 0x4 => a + b = 256 * f + r
  | 0x5 => (r : Int) = ((a : Int) - b) % 256 ∧ f = if b < a then 1 else 0
  | 0x6 => a = 2 * r + f ∧ f ≤ 1
  | 0x7 => (r : Int) = ((b : Int) - a) % 256 ∧ f = if a < b then 1 else 0
  | 0xE => 2 * a = 256 * f + r
  | _ => False

/-- The last digits of operations are those of `Alu` and the two shifts. -/
theorem Operates.cases {n : Nat} (h : Operates n) :
    (∃ op : Alu, n = op.digit) ∨ n = 0x6 ∨ n = 0xE := by
  have hn : n = 0x0 ∨ n = 0x1 ∨ n = 0x2 ∨ n = 0x3 ∨ n = 0x4 ∨ n = 0x5 ∨
      n = 0x6 ∨ n = 0x7 ∨ n = 0xE := by
    unfold Operates at h
    omega
  rcases hn with h | h | h | h | h | h | h | h | h
  · exact .inl ⟨.copy, h⟩
  · exact .inl ⟨.or, h⟩
  · exact .inl ⟨.and, h⟩
  · exact .inl ⟨.xor, h⟩
  · exact .inl ⟨.add, h⟩
  · exact .inl ⟨.sub, h⟩
  · exact .inr (.inl h)
  · exact .inl ⟨.subFrom, h⟩
  · exact .inr (.inr h)

/-- The operands determine the result and, if there is one, the flag. -/
theorem Gives.unique {n a b : Nat} {r r' f f' : UInt8} (h : Gives n a b r.toNat f.toNat)
    (h' : Gives n a b r'.toNat f'.toNat) : r' = r ∧ (HasFlag n → f' = f) := by
  have hr := r.toNat_lt
  have hr' := r'.toNat_lt
  rw [← UInt8.toNat_inj, ← UInt8.toNat_inj]
  unfold Gives at h h'
  split at h
  case h_1 | h_2 | h_3 | h_4 => exact ⟨h'.trans h.symm, fun hf => by simp [HasFlag] at hf⟩
  case h_6 | h_8 =>
    -- the flags are the same comparison
    refine ⟨?_, fun _ => h'.2.trans h.2.symm⟩
    have hresult := h'.1.trans h.1.symm
    omega
  case h_10 => exact h.elim
  all_goals
    simp only at h'
    omega

/-! ## The operations of the machine -/

theorem toNat_flagByte (p : Prop) [Decidable p] :
    (flagByte (decide p)).toNat = if p then 1 else 0 := by
  by_cases h : p <;> simp [flagByte, h]

theorem flagByte_le (p : Bool) : (flagByte p).toNat ≤ 1 := by
  cases p <;> decide

theorem toNat_sub (a b : UInt8) : ((a - b).toNat : Int) = ((a.toNat : Int) - b.toNat) % 256 := by
  have ha := a.toNat_lt
  have hb := b.toNat_lt
  rw [UInt8.toNat_sub]
  omega

theorem toNat_add (a b : UInt8) :
    a.toNat + b.toNat =
      256 * (flagByte (decide (255 < a.toNat + b.toNat))).toNat + (a + b).toNat := by
  have ha := a.toNat_lt
  have hb := b.toNat_lt
  rw [toNat_flagByte, UInt8.toNat_add]
  split <;> omega

/-- The bit that is shifted out to the right. -/
theorem toNat_shiftRight (a : UInt8) :
    a.toNat = 2 * (a >>> 1).toNat + (flagByte (a.toNat.testBit 0)).toNat := by
  have hhalf : (a >>> 1).toNat = a.toNat / 2 := by
    simp [UInt8.toNat_shiftRight, Nat.shiftRight_eq_div_pow]
  rw [hhalf, Nat.testBit_zero, toNat_flagByte]
  split <;> omega

/-- The bit that is shifted out to the left. -/
theorem toNat_shiftLeft (a : UInt8) :
    2 * a.toNat = 256 * (flagByte (a.toNat.testBit 7)).toNat + (a <<< 1).toNat := by
  have ha := a.toNat_lt
  have hdouble : (a <<< 1).toNat = 2 * a.toNat % 256 := by
    simp [UInt8.toNat_shiftLeft, Nat.shiftLeft_eq, Nat.mul_comm]
  rw [hdouble, Nat.testBit_eq_decide_div_mod_eq, toNat_flagByte]
  split <;> omega

theorem hasFlag_digit (op : Alu) (a b : UInt8) : HasFlag op.digit ↔ (op.eval a b).2.isSome := by
  cases op <;> simp [HasFlag, Alu.digit, Alu.eval]

theorem gives_eval (op : Alu) (a b : UInt8) : Gives op.digit a.toNat b.toNat
    (op.eval a b).1.toNat (flagByte ((op.eval a b).2.getD false)).toNat := by
  cases op with
  | copy => rfl
  | or => exact UInt8.toNat_or a b
  | and => exact UInt8.toNat_and a b
  | xor => exact UInt8.toNat_xor a b
  | add => exact toNat_add a b
  | sub => exact ⟨toNat_sub a b, toNat_flagByte _⟩
  | subFrom => exact ⟨toNat_sub b a, toNat_flagByte _⟩

end Arithmetic

namespace Machine

open Arithmetic

/-! ## Words -/

section Words

variable {x y n : Fin 16}

theorem ofWord_arithmetic_iff {i : Instruction} :
    Instruction.ofWord (0x8000 + 0x100 * x + 0x10 * y + n) = i ↔
      Instruction.Stands (0x8000 + 0x100 * x + 0x10 * y + n) i :=
  Instruction.ofWord_eq_iff (w := 0x8000 + 0x100 * x + 0x10 * y + n) (by omega)

theorem ofWord_alu {op : Alu} (h : n.val = op.digit) :
    Instruction.ofWord (0x8000 + 0x100 * x + 0x10 * y + n) = .alu op x y := by
  rw [ofWord_arithmetic_iff, Instruction.Stands]
  omega

theorem ofWord_shiftRight (h : n.val = 0x6) :
    Instruction.ofWord (0x8000 + 0x100 * x + 0x10 * y + n) = .shiftRight x := by
  rw [ofWord_arithmetic_iff, Instruction.Stands]
  omega

theorem ofWord_shiftLeft (h : n.val = 0xE) :
    Instruction.ofWord (0x8000 + 0x100 * x + 0x10 * y + n) = .shiftLeft x := by
  rw [ofWord_arithmetic_iff, Instruction.Stands]
  omega

theorem ofWord_of_not_operates (h : ¬ Operates n) :
    ∃ w, Instruction.ofWord (0x8000 + 0x100 * x + 0x10 * y + n) = .unknown w := by
  refine ⟨_, ofWord_arithmetic_iff.2 ⟨rfl, .inr (.inl ?_)⟩⟩
  unfold Operates at h
  omega

end Words

/-! ## Execution -/

section Execute

variable {s : Machine} {x y n : Fin 16}

theorem setResult_eq_ite (s : Machine) (x : Fin 16) (r : UInt8) {flag : Option Bool}
    (h : HasFlag n ↔ flag.isSome) : s.setResult x (r, flag) =
      if HasFlag n then (s.setRegister x r).setRegister flagRegister (flagByte (flag.getD false))
      else s.setRegister x r := by
  cases flag with
  | none =>
    rw [if_neg fun hf => Bool.false_ne_true (h.1 hf)]
    rfl
  | some f =>
    rw [if_pos (h.2 rfl)]
    rfl

/-- An operation writes its result and then its flag, both of the operands from before. -/
theorem exists_gives (s : Machine) (x y : Fin 16) (h : Operates n) : ∃ r f : UInt8,
    Gives n (s.register x).toNat (s.register y).toNat r.toNat f.toNat ∧
      s.execute (.ofWord (0x8000 + 0x100 * x + 0x10 * y + n)) =
        if HasFlag n then (s.setRegister x r).setRegister flagRegister f else s.setRegister x r := by
  rcases h.cases with ⟨op, hop⟩ | hn | hn
  · refine ⟨_, _, hop ▸ gives_eval op (s.register x) (s.register y), ?_⟩
    rw [ofWord_alu hop, execute]
    exact setResult_eq_ite s x _ (hop ▸ hasFlag_digit op _ _)
  · refine ⟨s.register x >>> 1, flagByte ((s.register x).toNat.testBit 0), ?_, ?_⟩
    · rw [hn]
      exact ⟨toNat_shiftRight _, flagByte_le _⟩
    · rw [ofWord_shiftRight hn, execute]
      exact setResult_eq_ite s x _ (by simp [HasFlag, hn])
  · refine ⟨s.register x <<< 1, flagByte ((s.register x).toNat.testBit 7), ?_, ?_⟩
    · rw [hn]
      exact toNat_shiftLeft _
    · rw [ofWord_shiftLeft hn, execute]
      exact setResult_eq_ite s x _ (by simp [HasFlag, hn])

theorem execute_of_not_operates (s : Machine) (x y : Fin 16) (h : ¬ Operates n) :
    s.execute (.ofWord (0x8000 + 0x100 * x + 0x10 * y + n)) = s := by
  obtain ⟨w, hw⟩ := ofWord_of_not_operates h
  rw [hw, execute]

/-- The flag comes last, so it stands even where the result was written to `VF`. -/
theorem exists_gives_flag (s : Machine) (x y : Fin 16) (h : HasFlag n) : ∃ r : UInt8,
    Gives n (s.register x).toNat (s.register y).toNat r.toNat
      ((s.execute (.ofWord (0x8000 + 0x100 * x + 0x10 * y + n))).register flagRegister).toNat := by
  obtain ⟨r, f, hg, ht⟩ := exists_gives s x y h.operates
  refine ⟨r, ?_⟩
  rw [ht, if_pos h, register_setRegister, if_pos rfl]
  exact hg

theorem register_execute_of_ne (s : Machine) (x y : Fin 16) {q : Fin 16} (hx : q ≠ x)
    (hflag : HasFlag n → q ≠ flagRegister) :
    (s.execute (.ofWord (0x8000 + 0x100 * x + 0x10 * y + n))).register q = s.register q := by
  by_cases h : Operates n
  · obtain ⟨r, f, -, ht⟩ := exists_gives s x y h
    rw [ht]
    split
    · next hn =>
      rw [register_setRegister, if_neg (hflag hn).symm, register_setRegister, if_neg hx.symm]
    · rw [register_setRegister, if_neg hx.symm]
  · rw [execute_of_not_operates s x y h]

/-- Taking away what has just been added. -/
theorem register_sub_add (s : Machine) (hxy : x ≠ y) (hx : x ≠ flagRegister) (hy : y ≠ flagRegister) :
    ((s.execute (.alu .add x y)).execute (.alu .sub x y)).register x = s.register x := by
  have hadd (r : Fin 16) (hr : r ≠ flagRegister) : (s.execute (.alu .add x y)).register r =
      if x = r then s.register x + s.register y else s.register r := by
    rw [execute, setResult, Alu.eval, register_setRegister, if_neg hr.symm, register_setRegister]
  rw [execute, setResult, Alu.eval, register_setRegister, if_neg hx.symm, register_setRegister,
    if_pos rfl, hadd x hx, hadd y hy, if_pos rfl, if_neg hxy, UInt8.add_sub_cancel]

/-- Family `8XYN`, whichever of `X`, `Y` and `F` are the same register. An operation writes first the
result to `VX` and then the flag to `VF`, and the operands from before determine both. So `VF` holds
the flag even if it is `VX`, and registers other than these two stay; a last digit that is no
operation changes nothing, and subtracting what has just been added gives the register back. -/
theorem execute_arithmetic (s : Machine) (x y n : Fin 16) :
    let a := (s.register x).toNat
    let b := (s.register y).toNat
    let t := s.execute (.ofWord (0x8000 + 0x100 * x + 0x10 * y + n))
    (Operates n → ∃ r f : UInt8, Gives n a b r.toNat f.toNat ∧
      (∀ r' f' : UInt8, Gives n a b r'.toNat f'.toNat → r' = r ∧ (HasFlag n → f' = f)) ∧
      t = if HasFlag n then (s.setRegister x r).setRegister 0xF f else s.setRegister x r) ∧
    (HasFlag n → ∃ r : UInt8, Gives n a b r.toNat (t.register 0xF).toNat) ∧
    (∀ q, q ≠ x → (HasFlag n → q ≠ 0xF) → t.register q = s.register q) ∧
    (¬ Operates n → t = s) ∧
    (x ≠ y → x ≠ 0xF → y ≠ 0xF →
      ((s.execute (.ofWord (0x8000 + 0x100 * x + 0x10 * y + 4))).execute
        (.ofWord (0x8000 + 0x100 * x + 0x10 * y + 5))).register x = s.register x) := by
  intro a b t
  refine ⟨fun h => ?_, exists_gives_flag s x y, fun q => register_execute_of_ne s x y,
    execute_of_not_operates s x y, ?_⟩
  · obtain ⟨r, f, hg, ht⟩ := exists_gives s x y h
    exact ⟨r, f, hg, fun _ _ => hg.unique, ht⟩
  · intro hxy hx hy
    have hadd : Instruction.ofWord (0x8000 + 0x100 * x + 0x10 * y + 4) = .alu .add x y :=
      ofWord_alu (n := 4) rfl
    have hsub : Instruction.ofWord (0x8000 + 0x100 * x + 0x10 * y + 5) = .alu .sub x y :=
      ofWord_alu (n := 5) rfl
    rw [hadd, hsub]
    exact register_sub_add s hxy hx hy

/-- `VF` added to itself, with a carry; and a sum of two other registers that is taken back. -/
theorem execute_arithmetic_flagTwice :
    let s := { fresh (.ofSeed 0) false with registers := Vector.replicate 16 0x90 }
    let t := s.execute (.ofWord 0x8FF4)
    t = (s.setRegister 0xF 0x20).setRegister 0xF 1 ∧ t.register 0xE = 0x90 ∧
      s.execute (.ofWord 0x8FF8) = s ∧
      ((s.execute (.ofWord 0x8124)).execute (.ofWord 0x8125)).register 1 = 0x90 := by
  intro s t
  have hv (r : Fin 16) : s.register r = 0x90 := Vector.getElem_replicate r.isLt
  have hgives : Gives 4 (s.register 0xF).toNat (s.register 0xF).toNat (0x20 : UInt8).toNat
      (1 : UInt8).toNat := by
    rw [hv]
    rfl
  clear_value s
  obtain ⟨hoperates, -, hother, -, -⟩ := execute_arithmetic s 0xF 0xF 4
  obtain ⟨-, -, -, hundefined, -⟩ := execute_arithmetic s 0xF 0xF 8
  obtain ⟨-, -, -, -, hback⟩ := execute_arithmetic s 1 2 4
  obtain ⟨r, f, -, hunique, ht⟩ := hoperates (by decide)
  obtain ⟨rfl, hf⟩ := hunique 0x20 1 hgives
  obtain rfl := hf (by decide)
  refine ⟨ht, ?_, hundefined (by decide), ?_⟩
  · exact (hother 0xE (by decide) fun _ => by decide).trans (hv 0xE)
  · exact (hback (by decide) (by decide) (by decide)).trans (hv 1)

end Execute

end Machine

end Chip8
