/-
Assembling: the text of an instruction can be read back. A text is cut at its spaces into tokens,
each token tells by its first characters or by its length what it is, and the tokens give the
instruction. So the text of a word determines the instruction that the word stands for.
-/
import Chip8.Proofs.Disassembler
import Chip8.Proofs.Hex

namespace Chip8.Assembler

/-! ## Tokens -/

/-- The names of operations, and of operands that are neither registers nor numbers. -/
inductive Keyword where
  | cls | ret | jp | call | se | sne | ld | add | or | and | xor | sub | subn | shr | shl | rnd
  | drw | skp | sknp | dw
  | index | atIndex | delay | sound | key | font | digits
  deriving DecidableEq

namespace Keyword

def text : Keyword → String
  | cls => "CLS"
  | ret => "RET"
  | jp => "JP"
  | call => "CALL"
  | se => "SE"
  | sne => "SNE"
  | ld => "LD"
  | add => "ADD"
  | or => "OR"
  | and => "AND"
  | xor => "XOR"
  | sub => "SUB"
  | subn => "SUBN"
  | shr => "SHR"
  | shl => "SHL"
  | rnd => "RND"
  | drw => "DRW"
  | skp => "SKP"
  | sknp => "SKNP"
  | dw => "DW"
  | index => "I"
  | atIndex => "[I]"
  | delay => "DT"
  | sound => "ST"
  | key => "K"
  | font => "F"
  | digits => "B"

def all : List Keyword :=
  [cls, ret, jp, call, se, sne, ld, add, or, and, xor, sub, subn, shr, shl, rnd, drw, skp, sknp, dw,
    index, atIndex, delay, sound, key, font, digits]

/-- The name of a two-register operation. -/
def ofAlu : Alu → Keyword
  | .copy => ld
  | .or => or
  | .and => and
  | .xor => xor
  | .add => add
  | .sub => sub
  | .subFrom => subn

end Keyword

inductive Token where
  | keyword (k : Keyword)
  | register (x : Fin 16)
  | byte (k : UInt8)
  | address (a : Fin 4096)
  | height (n : Fin 16)
  | word (w : Nat)
  deriving DecidableEq

namespace Token

def text : Token → String
  | keyword k => k.text
  | register x => Mnemonic.register x
  | byte k => Mnemonic.byte k
  | address a => Mnemonic.address a
  | height n => toString n.val
  | word w => "0x" ++ Hex.padded 4 w

/-- The number of digits tells bytes, addresses and words apart. -/
def ofDigits (ds : List Char) : Token :=
  match ds.length with
  | 2 => byte (UInt8.ofNat (Hex.value ds))
  | 3 => address ⟨Hex.value ds % 0x1000, Nat.mod_lt _ (by decide)⟩
  | _ => word (Hex.value ds)

/-- What is neither a register nor a number in hexadecimal digits is a keyword or a height. -/
def read : List Char → Token
  | 'V' :: ds => register (Fin.ofNat 16 (Hex.value ds))
  | '0' :: 'x' :: ds => ofDigits ds
  | cs =>
    match Keyword.all.find? fun k => k.text.toList = cs with
    | some k => keyword k
    | none => height (Fin.ofNat 16 (Nat.ofDigitChars 10 cs 0))

theorem read_register (x : Fin 16) : read (register x).text.toList = register x := by
  simp [text, Mnemonic.register, read, Hex.value_padded]

theorem read_byte (k : UInt8) : read (byte k).text.toList = byte k := by
  have hlen := Hex.length_padded (by decide : 0 < 2) (n := k.toNat) k.toNat_lt
  simp [text, Mnemonic.byte, read, ofDigits, hlen, Hex.value_padded]

theorem read_address (a : Fin 4096) : read (address a).text.toList = address a := by
  have hlen := Hex.length_padded (by decide : 0 < 3) (n := a.val) a.isLt
  simp [text, Mnemonic.address, read, ofDigits, hlen, Hex.value_padded, Nat.mod_eq_of_lt a.isLt]

theorem read_word (w : Nat) : read (word w).text.toList = word w := by
  have hlen : 4 ≤ (Hex.padded 4 w).toList.length := Hex.le_length_padded
  have hread : ofDigits (Hex.padded 4 w).toList = word (Hex.value (Hex.padded 4 w).toList) := by
    unfold ofDigits
    split
    · omega
    · omega
    · rfl
  simpa [text, read, Hex.value_padded] using hread

theorem read_text (t : Token) : read t.text.toList = t := by
  cases t with
  | keyword k => cases k <;> decide
  | register x => exact read_register x
  | byte k => exact read_byte k
  | address a => exact read_address a
  | height n => revert n; decide
  | word w => exact read_word w

/-- Separators are in no token. -/
theorem not_mem_text {c : Char} (hc : c = ' ' ∨ c = ',') (t : Token) : c ∉ t.text.toList := by
  have halpha : c ∉ Hex.alphabet := by rcases hc with rfl | rfl <;> decide
  have hhex (width n : Nat) : c ∉ (Hex.padded width n).toList :=
    fun h => halpha (Hex.mem_alphabet_of_mem_padded h)
  cases t with
  | keyword k => rcases hc with rfl | rfl <;> cases k <;> decide
  | height n => rcases hc with rfl | rfl <;> revert n <;> decide
  | register x => rcases hc with rfl | rfl <;> simp [text, Mnemonic.register, hhex]
  | byte k => rcases hc with rfl | rfl <;> simp [text, Mnemonic.byte, hhex]
  | address a => rcases hc with rfl | rfl <;> simp [text, Mnemonic.address, hhex]
  | word w => rcases hc with rfl | rfl <;> simp [text, hhex]

end Token

/-! ## Lines of tokens -/

/-- Operands with a comma and a space between each two. -/
def spellOperands : List Token → List Char
  | [] => []
  | [t] => t.text.toList
  | t :: ts => t.text.toList ++ ',' :: ' ' :: spellOperands ts

/-- An operation with its operands. -/
def spell : List Token → List Char
  | [] => []
  | [t] => t.text.toList
  | t :: ts => t.text.toList ++ ' ' :: spellOperands ts

/-- The tokens of a line: the commas tell nothing, since a space follows each of them. -/
def cut (line : List Char) : List Token := ((line.filter (· ≠ ',')).splitOn ' ').map Token.read

theorem filter_text (t : Token) : t.text.toList.filter (· ≠ ',') = t.text.toList := by
  rw [List.filter_eq_self]
  intro c hc
  have hne : c ≠ ',' := fun h => Token.not_mem_text (.inr rfl) t (h ▸ hc)
  simpa using hne

theorem filter_spellOperands (ts : List Token) :
    (spellOperands ts).filter (· ≠ ',') = [' '].intercalate (ts.map (·.text.toList)) := by
  fun_induction spellOperands ts with
  | case1 => rfl
  | case2 t => simpa using filter_text t
  | case3 t ts hne ih =>
    obtain ⟨u, us, rfl⟩ := List.exists_cons_of_ne_nil hne
    rw [List.map_cons, List.map_cons, List.intercalate_cons_cons, List.filter_append, filter_text]
    simpa using ih

theorem filter_spell (ts : List Token) :
    (spell ts).filter (· ≠ ',') = [' '].intercalate (ts.map (·.text.toList)) := by
  fun_cases spell ts with
  | case1 => rfl
  | case2 t => simpa using filter_text t
  | case3 t ts hne =>
    obtain ⟨u, us, rfl⟩ := List.exists_cons_of_ne_nil hne
    rw [List.map_cons, List.map_cons, List.intercalate_cons_cons, List.filter_append, filter_text,
      List.filter_cons_of_pos (by decide), filter_spellOperands]
    simp

theorem cut_spell {ts : List Token} (h : ts ≠ []) : cut (spell ts) = ts := by
  -- no token holds a space, so the line is cut nowhere but between tokens
  have hspace : ∀ cs ∈ ts.map (·.text.toList), ' ' ∉ cs := by
    simp only [List.mem_map, forall_exists_index, and_imp]
    rintro _ t - rfl
    exact Token.not_mem_text (.inl rfl) t
  rw [cut, filter_spell, List.splitOn_intercalate _ hspace (by simpa using h), List.map_map]
  exact List.map_id'' Token.read_text ts

/-! ## Instructions -/

section Instructions

open Token

def tokens : Instruction → List Token
  | .clear => [keyword .cls]
  | .ret => [keyword .ret]
  | .jump a => [keyword .jp, address a]
  | .call a => [keyword .call, address a]
  | .skipEqualByte x k => [keyword .se, register x, byte k]
  | .skipUnequalByte x k => [keyword .sne, register x, byte k]
  | .skipEqual x y => [keyword .se, register x, register y]
  | .setByte x k => [keyword .ld, register x, byte k]
  | .addByte x k => [keyword .add, register x, byte k]
  | .alu op x y => [keyword (.ofAlu op), register x, register y]
  | .shiftRight x => [keyword .shr, register x]
  | .shiftLeft x => [keyword .shl, register x]
  | .skipUnequal x y => [keyword .sne, register x, register y]
  | .setIndex a => [keyword .ld, keyword .index, address a]
  | .jumpOffset a => [keyword .jp, register 0, address a]
  | .random x k => [keyword .rnd, register x, byte k]
  | .draw x y n => [keyword .drw, register x, register y, height n]
  | .skipDown x => [keyword .skp, register x]
  | .skipUp x => [keyword .sknp, register x]
  | .getDelay x => [keyword .ld, register x, keyword .delay]
  | .waitKey x => [keyword .ld, register x, keyword .key]
  | .setDelay x => [keyword .ld, keyword .delay, register x]
  | .setSound x => [keyword .ld, keyword .sound, register x]
  | .addIndex x => [keyword .add, keyword .index, register x]
  | .glyph x => [keyword .ld, keyword .font, register x]
  | .storeDigits x => [keyword .ld, keyword .digits, register x]
  | .storeRegisters x => [keyword .ld, keyword .atIndex, register x]
  | .loadRegisters x => [keyword .ld, register x, keyword .atIndex]
  | .unknown w => [keyword .dw, word w.toNat]

/-- The instruction with these tokens. -/
def assemble : List Token → Option Instruction
  | [keyword .cls] => some .clear
  | [keyword .ret] => some .ret
  | [keyword .jp, address a] => some (.jump a)
  | [keyword .jp, register _, address a] => some (.jumpOffset a)
  | [keyword .call, address a] => some (.call a)
  | [keyword .se, register x, byte k] => some (.skipEqualByte x k)
  | [keyword .se, register x, register y] => some (.skipEqual x y)
  | [keyword .sne, register x, byte k] => some (.skipUnequalByte x k)
  | [keyword .sne, register x, register y] => some (.skipUnequal x y)
  | [keyword .ld, register x, byte k] => some (.setByte x k)
  | [keyword .ld, register x, register y] => some (.alu .copy x y)
  | [keyword .ld, register x, keyword .delay] => some (.getDelay x)
  | [keyword .ld, register x, keyword .key] => some (.waitKey x)
  | [keyword .ld, register x, keyword .atIndex] => some (.loadRegisters x)
  | [keyword .ld, keyword .index, address a] => some (.setIndex a)
  | [keyword .ld, keyword .delay, register x] => some (.setDelay x)
  | [keyword .ld, keyword .sound, register x] => some (.setSound x)
  | [keyword .ld, keyword .font, register x] => some (.glyph x)
  | [keyword .ld, keyword .digits, register x] => some (.storeDigits x)
  | [keyword .ld, keyword .atIndex, register x] => some (.storeRegisters x)
  | [keyword .add, register x, byte k] => some (.addByte x k)
  | [keyword .add, register x, register y] => some (.alu .add x y)
  | [keyword .add, keyword .index, register x] => some (.addIndex x)
  | [keyword .or, register x, register y] => some (.alu .or x y)
  | [keyword .and, register x, register y] => some (.alu .and x y)
  | [keyword .xor, register x, register y] => some (.alu .xor x y)
  | [keyword .sub, register x, register y] => some (.alu .sub x y)
  | [keyword .subn, register x, register y] => some (.alu .subFrom x y)
  | [keyword .shr, register x] => some (.shiftRight x)
  | [keyword .shl, register x] => some (.shiftLeft x)
  | [keyword .rnd, register x, byte k] => some (.random x k)
  | [keyword .drw, register x, register y, height n] => some (.draw x y n)
  | [keyword .skp, register x] => some (.skipDown x)
  | [keyword .sknp, register x] => some (.skipUp x)
  | [keyword .dw, word w] => some (.unknown w)
  | _ => none

theorem assemble_tokens {i : Instruction} (h : ∀ w, i = .unknown w → 0 ≤ w) :
    assemble (tokens i) = some i := by
  cases i with
  | alu op x y => cases op <;> rfl
  | unknown w =>
    show some (Instruction.unknown w.toNat) = _
    rw [Int.toNat_of_nonneg (h w rfl)]
  | _ => rfl

theorem toList_mnemonic {i : Instruction} (h : ∀ w, i = .unknown w → 0 ≤ w) :
    i.mnemonic.toList = spell (tokens i) := by
  have hzero : Mnemonic.register 0 = "V0" := by decide
  cases i with
  | alu op x y =>
    cases op <;> simp [Instruction.mnemonic, Mnemonic.alu, tokens, spell, spellOperands, Token.text,
      Keyword.text, Keyword.ofAlu]
  | unknown w =>
    have hw : (w.toNat : Int) = w := Int.toNat_of_nonneg (h w rfl)
    simp [Instruction.mnemonic, tokens, spell, spellOperands, Token.text, Keyword.text, hw]
  | _ =>
    simp [Instruction.mnemonic, tokens, spell, spellOperands, Token.text, Keyword.text, hzero]

end Instructions

/-! ## Reading -/

/-- The instruction of a line of text. -/
def read (line : String) : Option Instruction := assemble (cut line.toList)

theorem read_mnemonic {i : Instruction} (h : ∀ w, i = .unknown w → 0 ≤ w) :
    read i.mnemonic = some i := by
  have hne : tokens i ≠ [] := by cases i <;> simp [tokens]
  rw [read, toList_mnemonic h, cut_spell hne, assemble_tokens h]

theorem disassemble_eq (w : UInt16) :
    disassemble w.toNat = (Instruction.ofWord w.toNat).mnemonic := by
  have hlow : (w.toNat : Int) % 65536 = w.toNat := by have := w.toNat_lt; omega
  rw [disassemble, hlow, Mnemonic.ofFields_eq_mnemonic]
  rfl

/-- The text of a word gives the instruction that it stands for. -/
theorem read_disassemble (w : UInt16) :
    read (disassemble w.toNat) = some (Instruction.ofWord w.toNat) := by
  rw [disassemble_eq]
  refine read_mnemonic fun v hv => ?_
  obtain ⟨rfl, -⟩ := (Instruction.ofWord_eq_iff w.toNat_lt).1 hv
  exact Int.natCast_nonneg _

end Chip8.Assembler
