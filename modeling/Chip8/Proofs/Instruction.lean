/-
Which words stand for which instruction. `Stands` gives the words of each instruction by their
digits, without decoding them: the first digit names the family, and within the families `8XYN`,
`EXKK` and `FXKK` the last digit or the last byte names the instruction. Every word stands for
exactly one instruction, the one that it is decoded to; so what is true of an instruction is said of
its words by `cases`, without looking at the decoder again.
-/
import Chip8.Instruction
import Mathlib.Data.Fintype.Basic
import Mathlib.Tactic.FinCases

namespace Chip8

/-! ## The fields of a word -/

namespace Fields

/-- The fields are the digits of `w`. -/
structure Of (f : Fields) (w : Nat) : Prop where
  raw : f.raw = w
  opcode : f.opcode.val = w / 0x1000
  x : f.x.val = w / 0x100 % 0x10
  y : f.y.val = w / 0x10 % 0x10
  n : f.n.val = w % 0x10
  kk : f.kk.toNat = w % 0x100
  nnn : f.nnn.val = w % 0x1000

theorem of_ofWord {w : Nat} (h : w < 65536) : (ofWord w).Of w := by
  have hlow : low w = w := by
    unfold low
    omega
  constructor <;> simp [ofWord, hlow]
  omega

section Operands

variable {f : Fields} {w : Nat}

theorem Of.x_eq (hf : f.Of w) {x : Fin 16} (h : x.val = w / 0x100 % 0x10) : f.x = x :=
  Fin.ext (hf.x.trans h.symm)

theorem Of.y_eq (hf : f.Of w) {y : Fin 16} (h : y.val = w / 0x10 % 0x10) : f.y = y :=
  Fin.ext (hf.y.trans h.symm)

theorem Of.n_eq (hf : f.Of w) {n : Fin 16} (h : n.val = w % 0x10) : f.n = n :=
  Fin.ext (hf.n.trans h.symm)

theorem Of.kk_eq (hf : f.Of w) {k : UInt8} (h : k.toNat = w % 0x100) : f.kk = k :=
  UInt8.toNat_inj.1 (hf.kk.trans h.symm)

theorem Of.nnn_eq (hf : f.Of w) {a : Fin 4096} (h : a.val = w % 0x1000) : f.nnn = a :=
  Fin.ext (hf.nnn.trans h.symm)

end Operands

end Fields

/-! ## The words of an instruction -/

/-- The last digit of the words of a two-register operation. -/
def Alu.digit : Alu → Nat
  | .copy => 0x0
  | .or => 0x1
  | .and => 0x2
  | .xor => 0x3
  | .add => 0x4
  | .sub => 0x5
  | .subFrom => 0x7

namespace Instruction

/-- The last bytes of the instructions of family `FXKK`. -/
def miscBytes : List Nat := [0x07, 0x0A, 0x15, 0x18, 0x1E, 0x29, 0x33, 0x55, 0x65]

/-- A word that is no instruction, though others of its family are. -/
def Undefined (w : Nat) : Prop :=
  w / 0x1000 = 0x0 ∧ w ≠ 0x00E0 ∧ w ≠ 0x00EE ∨
  w / 0x1000 = 0x8 ∧ 0x8 ≤ w % 0x10 ∧ w % 0x10 ≠ 0xE ∨
  w / 0x1000 = 0xE ∧ w % 0x100 ≠ 0x9E ∧ w % 0x100 ≠ 0xA1 ∨
  w / 0x1000 = 0xF ∧ w % 0x100 ∉ miscBytes

/-- The words of an instruction by their digits. -/
def Stands (w : Nat) : Instruction → Prop
  | clear => w = 0x00E0
  | ret => w = 0x00EE
  | jump a => w / 0x1000 = 0x1 ∧ a.val = w % 0x1000
  | call a => w / 0x1000 = 0x2 ∧ a.val = w % 0x1000
  | skipEqualByte x k => w / 0x1000 = 0x3 ∧ x.val = w / 0x100 % 0x10 ∧ k.toNat = w % 0x100
  | skipUnequalByte x k => w / 0x1000 = 0x4 ∧ x.val = w / 0x100 % 0x10 ∧ k.toNat = w % 0x100
  | skipEqual x y => w / 0x1000 = 0x5 ∧ x.val = w / 0x100 % 0x10 ∧ y.val = w / 0x10 % 0x10
  | setByte x k => w / 0x1000 = 0x6 ∧ x.val = w / 0x100 % 0x10 ∧ k.toNat = w % 0x100
  | addByte x k => w / 0x1000 = 0x7 ∧ x.val = w / 0x100 % 0x10 ∧ k.toNat = w % 0x100
  | alu op x y =>
    w / 0x1000 = 0x8 ∧ w % 0x10 = op.digit ∧ x.val = w / 0x100 % 0x10 ∧ y.val = w / 0x10 % 0x10
  | shiftRight x => w / 0x1000 = 0x8 ∧ w % 0x10 = 0x6 ∧ x.val = w / 0x100 % 0x10
  | shiftLeft x => w / 0x1000 = 0x8 ∧ w % 0x10 = 0xE ∧ x.val = w / 0x100 % 0x10
  | skipUnequal x y => w / 0x1000 = 0x9 ∧ x.val = w / 0x100 % 0x10 ∧ y.val = w / 0x10 % 0x10
  | setIndex a => w / 0x1000 = 0xA ∧ a.val = w % 0x1000
  | jumpOffset a => w / 0x1000 = 0xB ∧ a.val = w % 0x1000
  | random x k => w / 0x1000 = 0xC ∧ x.val = w / 0x100 % 0x10 ∧ k.toNat = w % 0x100
  | draw x y n =>
    w / 0x1000 = 0xD ∧ x.val = w / 0x100 % 0x10 ∧ y.val = w / 0x10 % 0x10 ∧ n.val = w % 0x10
  | skipDown x => w / 0x1000 = 0xE ∧ w % 0x100 = 0x9E ∧ x.val = w / 0x100 % 0x10
  | skipUp x => w / 0x1000 = 0xE ∧ w % 0x100 = 0xA1 ∧ x.val = w / 0x100 % 0x10
  | getDelay x => w / 0x1000 = 0xF ∧ w % 0x100 = 0x07 ∧ x.val = w / 0x100 % 0x10
  | waitKey x => w / 0x1000 = 0xF ∧ w % 0x100 = 0x0A ∧ x.val = w / 0x100 % 0x10
  | setDelay x => w / 0x1000 = 0xF ∧ w % 0x100 = 0x15 ∧ x.val = w / 0x100 % 0x10
  | setSound x => w / 0x1000 = 0xF ∧ w % 0x100 = 0x18 ∧ x.val = w / 0x100 % 0x10
  | addIndex x => w / 0x1000 = 0xF ∧ w % 0x100 = 0x1E ∧ x.val = w / 0x100 % 0x10
  | glyph x => w / 0x1000 = 0xF ∧ w % 0x100 = 0x29 ∧ x.val = w / 0x100 % 0x10
  | storeDigits x => w / 0x1000 = 0xF ∧ w % 0x100 = 0x33 ∧ x.val = w / 0x100 % 0x10
  | storeRegisters x => w / 0x1000 = 0xF ∧ w % 0x100 = 0x55 ∧ x.val = w / 0x100 % 0x10
  | loadRegisters x => w / 0x1000 = 0xF ∧ w % 0x100 = 0x65 ∧ x.val = w / 0x100 % 0x10
  | unknown v => v = w ∧ Undefined w

/-! ## The dispatch by cases -/

theorem ofSystem_eq (f : Fields) : ofSystem f =
    if f.raw = 0x00E0 then clear else if f.raw = 0x00EE then ret else unknown f.raw :=
  if_congr eq_comm rfl (if_congr eq_comm rfl rfl)

theorem ofAlu_eq (f : Fields) : ofAlu f =
    match f.n.val with
    | 0x0 => alu .copy f.x f.y
    | 0x1 => alu .or f.x f.y
    | 0x2 => alu .and f.x f.y
    | 0x3 => alu .xor f.x f.y
    | 0x4 => alu .add f.x f.y
    | 0x5 => alu .sub f.x f.y
    | 0x6 => shiftRight f.x
    | 0x7 => alu .subFrom f.x f.y
    | 0xE => shiftLeft f.x
    | _ => unknown f.raw := by
  obtain ⟨raw, opcode, x, y, n, kk, nnn⟩ := f
  fin_cases n <;> rfl

theorem byte_eq_ofNat {k : UInt8} {m : Nat} (h : k.toNat = m) : k = UInt8.ofNat m := by
  rw [← h, UInt8.ofNat_toNat]

theorem ofKeys_eq (f : Fields) : ofKeys f =
    match f.kk.toNat with
    | 0x9E => skipDown f.x
    | 0xA1 => skipUp f.x
    | _ => unknown f.raw := by
  rw [ofKeys]
  split
  case h_3 hdown hup =>
    have hrest : keysBranch f.kk = 2 := by
      rw [keysBranch, if_neg (fun h => hdown (congrArg UInt8.toNat h)),
        if_neg (fun h => hup (congrArg UInt8.toNat h))]
    rw [hrest]
    rfl
  all_goals
    next e =>
      rw [keysBranch, byte_eq_ofNat e]
      rfl

theorem ofMisc_eq (f : Fields) : ofMisc f =
    match f.kk.toNat with
    | 0x07 => getDelay f.x
    | 0x0A => waitKey f.x
    | 0x15 => setDelay f.x
    | 0x18 => setSound f.x
    | 0x1E => addIndex f.x
    | 0x29 => glyph f.x
    | 0x33 => storeDigits f.x
    | 0x55 => storeRegisters f.x
    | 0x65 => loadRegisters f.x
    | _ => unknown f.raw := by
  rw [ofMisc]
  split
  case h_10 =>
    have hbeq (k : UInt8) : (f.kk == k) = decide (f.kk.toNat = k.toNat) := by
      rw [beq_eq_decide, decide_eq_decide, UInt8.toNat_inj]
    have hrest : miscBranch f.kk = 9 := by
      simp_all [miscBranch]
    rw [hrest]
    rfl
  all_goals
    next e =>
      rw [byte_eq_ofNat e]
      rfl

theorem ofFields_eq (f : Fields) : ofFields f =
    match f.opcode.val with
    | 0x0 => if f.raw = 0x00E0 then clear else if f.raw = 0x00EE then ret else unknown f.raw
    | 0x1 => jump f.nnn
    | 0x2 => call f.nnn
    | 0x3 => skipEqualByte f.x f.kk
    | 0x4 => skipUnequalByte f.x f.kk
    | 0x5 => skipEqual f.x f.y
    | 0x6 => setByte f.x f.kk
    | 0x7 => addByte f.x f.kk
    | 0x8 => ofAlu f
    | 0x9 => skipUnequal f.x f.y
    | 0xA => setIndex f.nnn
    | 0xB => jumpOffset f.nnn
    | 0xC => random f.x f.kk
    | 0xD => draw f.x f.y f.n
    | 0xE => ofKeys f
    | _ => ofMisc f := by
  obtain ⟨raw, opcode, x, y, n, kk, nnn⟩ := f
  fin_cases opcode
  · exact ofSystem_eq _
  all_goals rfl

/-! ## Decoding -/

section Families

variable {f : Fields} {w : Nat}

theorem stands_ofAlu (hf : f.Of w) (ho : w / 0x1000 = 0x8) : Stands w (ofAlu f) := by
  have hn := hf.n.symm
  rw [ofAlu_eq]
  split
  case h_7 e | h_9 e => exact ⟨ho, hn.trans e, hf.x⟩
  case h_10 =>
    have hrest : 0x8 ≤ f.n.val ∧ f.n.val ≠ 0xE := by grind
    exact ⟨hf.raw, .inr (.inl ⟨ho, hn ▸ hrest.1, hn ▸ hrest.2⟩)⟩
  all_goals next e => exact ⟨ho, hn.trans e, hf.x, hf.y⟩

theorem stands_ofKeys (hf : f.Of w) (ho : w / 0x1000 = 0xE) : Stands w (ofKeys f) := by
  have hk := hf.kk.symm
  rw [ofKeys_eq]
  split
  case h_3 hdown hup => exact ⟨hf.raw, .inr (.inr (.inl ⟨ho, hk ▸ hdown, hk ▸ hup⟩))⟩
  all_goals next e => exact ⟨ho, hk.trans e, hf.x⟩

theorem stands_ofMisc (hf : f.Of w) (ho : w / 0x1000 = 0xF) : Stands w (ofMisc f) := by
  have hk := hf.kk.symm
  rw [ofMisc_eq]
  split
  case h_10 =>
    have hrest : f.kk.toNat ∉ miscBytes := by simp_all [miscBytes]
    exact ⟨hf.raw, .inr (.inr (.inr ⟨ho, hk ▸ hrest⟩))⟩
  all_goals next e => exact ⟨ho, hk.trans e, hf.x⟩

theorem stands_ofFields (hf : f.Of w) : Stands w (ofFields f) := by
  have ho := hf.opcode.symm
  have hlt := f.opcode.isLt
  rw [ofFields_eq]
  split
  case h_1 e =>
    split
    · next hr => exact Int.ofNat.inj (hf.raw.symm.trans hr)
    · next hclear =>
      split
      · next hr => exact Int.ofNat.inj (hf.raw.symm.trans hr)
      · next hret =>
        rw [hf.raw] at hclear hret
        exact ⟨hf.raw, .inl ⟨ho.trans e, by omega, by omega⟩⟩
  case h_2 e | h_3 e | h_11 e | h_12 e => exact ⟨ho.trans e, hf.nnn⟩
  case h_6 e | h_10 e => exact ⟨ho.trans e, hf.x, hf.y⟩
  case h_9 e => exact stands_ofAlu hf (ho.trans e)
  case h_14 e => exact ⟨ho.trans e, hf.x, hf.y, hf.n⟩
  case h_15 e => exact stands_ofKeys hf (ho.trans e)
  -- the last family is the one that is left
  case h_16 => exact stands_ofMisc hf (by grind)
  all_goals next e => exact ⟨ho.trans e, hf.x, hf.kk⟩

theorem ofFields_of_undefined (hf : f.Of w) (hu : Undefined w) : ofFields f = unknown w := by
  rw [← hf.raw]
  rcases hu with ⟨ho, hclear, hret⟩ | ⟨ho, hn⟩ | ⟨ho, hk⟩ | ⟨ho, hk⟩ <;>
    rw [← hf.opcode] at ho <;> simp only [ofFields_eq, ho]
  · rw [if_neg (by rw [hf.raw]; omega), if_neg (by rw [hf.raw]; omega)]
  · rw [← hf.n] at hn
    rw [ofAlu_eq]
    split
    case h_10 => rfl
    all_goals omega
  · rw [← hf.kk] at hk
    rw [ofKeys_eq]
    split
    case h_3 => rfl
    all_goals omega
  · rw [← hf.kk] at hk
    rw [ofMisc_eq]
    split
    case h_10 => rfl
    all_goals next e => simp [e, miscBytes] at hk

theorem ofFields_of_stands (hf : f.Of w) {i : Instruction} (hs : Stands w i) : ofFields f = i := by
  have ho := hf.opcode
  cases i with
  | clear | ret =>
    cases hs
    simp only [ofFields_eq, ho, hf.raw]
    rfl
  | jump a | call a | setIndex a | jumpOffset a =>
    obtain ⟨hd, ha⟩ := hs
    simp only [ofFields_eq, ho, hd, hf.nnn_eq ha]
  | skipEqualByte x k | skipUnequalByte x k | setByte x k | addByte x k | random x k =>
    obtain ⟨hd, hx, hk⟩ := hs
    simp only [ofFields_eq, ho, hd, hf.x_eq hx, hf.kk_eq hk]
  | skipEqual x y | skipUnequal x y =>
    obtain ⟨hd, hx, hy⟩ := hs
    simp only [ofFields_eq, ho, hd, hf.x_eq hx, hf.y_eq hy]
  | alu op x y =>
    obtain ⟨hd, hn, hx, hy⟩ := hs
    simp only [ofFields_eq, ho, hd, ofAlu_eq, hf.n, hn, hf.x_eq hx, hf.y_eq hy]
    cases op <;> rfl
  | shiftRight x | shiftLeft x =>
    obtain ⟨hd, hn, hx⟩ := hs
    simp only [ofFields_eq, ho, hd, ofAlu_eq, hf.n, hn, hf.x_eq hx]
  | draw x y n =>
    obtain ⟨hd, hx, hy, hn⟩ := hs
    simp only [ofFields_eq, ho, hd, hf.x_eq hx, hf.y_eq hy, hf.n_eq hn]
  | skipDown x | skipUp x =>
    obtain ⟨hd, hk, hx⟩ := hs
    simp only [ofFields_eq, ho, hd, ofKeys_eq, hf.kk, hk, hf.x_eq hx]
  | unknown v =>
    obtain ⟨rfl, hu⟩ := hs
    exact ofFields_of_undefined hf hu
  | _ x =>
    obtain ⟨hd, hk, hx⟩ := hs
    simp only [ofFields_eq, ho, hd, ofMisc_eq, hf.kk, hk, hf.x_eq hx]

end Families

section Words

variable {w : Nat}

theorem ofWord_eq_iff (h : w < 65536) {i : Instruction} : ofWord w = i ↔ Stands w i := by
  constructor
  · rintro rfl
    exact stands_ofFields (Fields.of_ofWord h)
  · exact ofFields_of_stands (Fields.of_ofWord h)

theorem stands_ofWord (h : w < 65536) : Stands w (ofWord w) := (ofWord_eq_iff h).1 rfl

theorem ofWord_of_undefined (h : w < 65536) (hu : Undefined w) : ofWord w = unknown w :=
  (ofWord_eq_iff h).2 ⟨rfl, hu⟩

theorem undefined_of_ofWord (h : w < 65536) {v : Int} (hi : ofWord w = unknown v) : Undefined w :=
  ((ofWord_eq_iff h).1 hi).2

theorem ofWord_eq_ret_iff (h : w < 65536) : ofWord w = ret ↔ w = 0x00EE := ofWord_eq_iff h

theorem ofWord_eq_call_iff (h : w < 65536) : (∃ a, ofWord w = call a) ↔ w / 0x1000 = 2 := by
  constructor
  · rintro ⟨a, ha⟩
    exact ((ofWord_eq_iff h).1 ha).1
  · intro hd
    exact ⟨⟨w % 0x1000, Nat.mod_lt _ (by decide)⟩, (ofWord_eq_iff h).2 ⟨hd, rfl⟩⟩

/-! ## The bytes behind the index register -/

/-- How many bytes from the index register on an instruction reads or writes. -/
def span : Instruction → Nat
  | draw _ _ height => height
  | storeDigits _ => 3
  | storeRegisters x | loadRegisters x => x + 1
  | _ => 0

theorem span_ofWord (h : w < 65536) : (ofWord w).span =
    if w / 0x1000 = 0xD then w % 0x10
    else if w / 0x1000 = 0xF then
      if w % 0x100 = 0x33 then 3
      else if w % 0x100 = 0x55 ∨ w % 0x100 = 0x65 then w / 0x100 % 0x10 + 1 else 0
    else 0 := by
  have hs := stands_ofWord h
  generalize ofWord w = i at hs ⊢
  cases i with
  | clear | ret =>
    cases hs
    rfl
  | draw x y n => simp [span, hs.1, hs.2.2.2]
  | storeDigits x => simp [span, hs.1, hs.2.1]
  | storeRegisters x | loadRegisters x => simp [span, hs.1, hs.2.1, hs.2.2]
  | getDelay | waitKey | setDelay | setSound | addIndex | glyph => simp [span, hs.1, hs.2.1]
  | unknown v =>
    rcases hs.2 with ⟨hd, -⟩ | ⟨hd, -⟩ | ⟨hd, -⟩ | ⟨hd, hk⟩
    case inr.inr.inr => simp_all [span, miscBytes]
    all_goals simp [span, hd]
  | _ => simp [span, hs.1]

end Words

end Instruction

end Chip8
