/-
The text of a word and the dispatch of the machine classify words alike. The disassembler asks for
digits one after the other and looks names up; the machine selects a family from a table, and within
some families an instruction from another one. Family by family they come to the same instruction,
and to none for the same words.
-/
import Chip8.Disassembler
import Chip8.Proofs.Instruction

namespace Chip8

/-! ## Texts of instructions -/

namespace Mnemonic

/-- The operation name of a two-register instruction. -/
def alu : Alu → String
  | .copy => "LD"
  | .or => "OR"
  | .and => "AND"
  | .xor => "XOR"
  | .add => "ADD"
  | .sub => "SUB"
  | .subFrom => "SUBN"

end Mnemonic

open Mnemonic in
/-- The text of an instruction with its operands. -/
def Instruction.mnemonic : Instruction → String
  | .clear => "CLS"
  | .ret => "RET"
  | .jump a => "JP " ++ address a
  | .call a => "CALL " ++ address a
  | .skipEqualByte x k => "SE " ++ register x ++ ", " ++ byte k
  | .skipUnequalByte x k => "SNE " ++ register x ++ ", " ++ byte k
  | .skipEqual x y => "SE " ++ register x ++ ", " ++ register y
  | .setByte x k => "LD " ++ register x ++ ", " ++ byte k
  | .addByte x k => "ADD " ++ register x ++ ", " ++ byte k
  | .alu op x y => Mnemonic.alu op ++ " " ++ register x ++ ", " ++ register y
  | .shiftRight x => "SHR " ++ register x
  | .shiftLeft x => "SHL " ++ register x
  | .skipUnequal x y => "SNE " ++ register x ++ ", " ++ register y
  | .setIndex a => "LD I, " ++ address a
  | .jumpOffset a => "JP V0, " ++ address a
  | .random x k => "RND " ++ register x ++ ", " ++ byte k
  | .draw x y n => "DRW " ++ register x ++ ", " ++ register y ++ ", " ++ toString n.val
  | .skipDown x => "SKP " ++ register x
  | .skipUp x => "SKNP " ++ register x
  | .getDelay x => "LD " ++ register x ++ ", DT"
  | .waitKey x => "LD " ++ register x ++ ", K"
  | .setDelay x => "LD DT, " ++ register x
  | .setSound x => "LD ST, " ++ register x
  | .addIndex x => "ADD I, " ++ register x
  | .glyph x => "LD F, " ++ register x
  | .storeDigits x => "LD B, " ++ register x
  | .storeRegisters x => "LD [I], " ++ register x
  | .loadRegisters x => "LD " ++ register x ++ ", [I]"
  | .unknown w => "DW 0x" ++ Hex.padded 4 w

/-! ## Agreement -/

namespace Mnemonic

open Instruction

/-- The sum of masks is the place of a byte among the formats, and behind them for all others. -/
theorem lookup_miscFormats (k : UInt8) :
    miscFormats.lookup k = (miscFormats.map Prod.snd)[miscBranch k]? := by
  have hall : ∀ m : Fin 256, miscFormats.lookup (UInt8.ofNat m) =
      (miscFormats.map Prod.snd)[miscBranch (UInt8.ofNat m)]? := by decide +kernel
  have h := hall ⟨k.toNat, k.toNat_lt⟩
  rwa [UInt8.ofNat_toNat] at h

section Families

variable (f : Fields)

theorem ofFields_system (h : f.opcode.val = 0x0) : ofFields f = (ofSystem f).mnemonic := by
  rw [ofSystem_eq]
  simp only [ofFields, h, reduceIte, zero_ne_one, reduceCtorEq]
  split
  · rfl
  · split <;> rfl

theorem ofFields_alu (h : f.opcode.val = 0x8) : ofFields f = (ofAlu f).mnemonic := by
  simp only [ofFields, ofAlu, h, reduceIte, reduceCtorEq, Nat.reduceEqDiff, Nat.succ_ne_self]
  generalize f.n = n
  fin_cases n <;> rfl

theorem ofFields_keys (h : f.opcode.val = 0xE) : ofFields f = (ofKeys f).mnemonic := by
  simp only [ofFields, ofKeys, keysBranch, h, reduceIte, reduceCtorEq, Nat.reduceEqDiff,
    Nat.succ_ne_self]
  split
  · rfl
  · split <;> rfl

theorem ofFields_misc (h : f.opcode.val = 0xF) : ofFields f = (ofMisc f).mnemonic := by
  simp only [ofFields, ofMisc, h, reduceIte, reduceCtorEq, Nat.reduceEqDiff, Nat.succ_ne_self,
    lookup_miscFormats]
  generalize miscBranch f.kk = b
  -- both tables at the same place; in most formats nothing stands behind the register
  rcases b with _ | _ | _ | _ | _ | _ | _ | _ | _ | b
  all_goals simp [miscFormats, switch, ofUnknown, mnemonic]

end Families

/-- The text of a word is that of the instruction which the machine takes it for. -/
theorem ofFields_eq_mnemonic (f : Fields) : ofFields f = (Instruction.ofFields f).mnemonic := by
  have hlt := f.opcode.isLt
  rw [ofFields_eq]
  split
  case h_1 e => exact (ofFields_system f e).trans (congrArg mnemonic (ofSystem_eq f))
  case h_9 e => exact ofFields_alu f e
  case h_15 e => exact ofFields_keys f e
  case h_16 => exact ofFields_misc f (by grind)
  all_goals
    next e =>
      rw [Mnemonic.ofFields, e]
      rfl

end Mnemonic

end Chip8
