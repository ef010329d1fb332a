/-
Instruction words and what a machine takes them for. `Fields` cuts a word into its digits,
`Instruction` is the meaning of a word without the digits that do not matter, and
`Instruction.ofWord` is the dispatch of the machine: the first digit selects a family from a table,
and within four families a table, comparisons or a sum of masks select the instruction or find that
the word is none. Words are integers of any size: the fields are those of the low sixteen bits,
while `CLS`, `RET` and an unknown word look at the whole integer.
-/
import Chip8.Word

namespace Chip8

structure Fields where
  raw : Int
  opcode : Fin 16
  x : Fin 16
  y : Fin 16
  n : Fin 16
  kk : UInt8
  nnn : Fin 4096
  deriving DecidableEq

/-- The low sixteen bits of a word, in two's complement. -/
def Fields.low (word : Int) : Nat := (word % 65536).toNat

/-- Cuts the low sixteen bits into four digits, the last byte and the last three digits. -/
def Fields.ofWord (word : Int) : Fields where
  raw := word
  opcode := Fin.ofNat 16 (low word / 4096)
  x := Fin.ofNat 16 (low word / 256)
  y := Fin.ofNat 16 (low word / 16)
  n := Fin.ofNat 16 (low word)
  kk := UInt8.ofNat (low word)
  nnn := Fin.ofNat 4096 (low word)

/-- The four digits make up the low sixteen bits. -/
theorem Fields.digits_ofWord (word : Int) :
    (4096 * (ofWord word).opcode + 256 * (ofWord word).x + 16 * (ofWord word).y +
      (ofWord word).n : Int) = word % 65536 := by
  simp [ofWord, low]
  omega

inductive Alu where
  | copy | or | and | xor | add | sub | subFrom
  deriving DecidableEq

/-- An instruction with the operands that it reads. -/
inductive Instruction where
  | clear
  | ret
  | jump (target : Fin 4096)
  | call (target : Fin 4096)
  | skipEqualByte (x : Fin 16) (k : UInt8)
  | skipUnequalByte (x : Fin 16) (k : UInt8)
  | skipEqual (x y : Fin 16)
  | setByte (x : Fin 16) (k : UInt8)
  | addByte (x : Fin 16) (k : UInt8)
  | alu (op : Alu) (x y : Fin 16)
  | shiftRight (x : Fin 16)
  | shiftLeft (x : Fin 16)
  | skipUnequal (x y : Fin 16)
  | setIndex (target : Fin 4096)
  | jumpOffset (target : Fin 4096)
  | random (x : Fin 16) (mask : UInt8)
  | draw (x y : Fin 16) (height : Fin 16)
  | skipDown (x : Fin 16)
  | skipUp (x : Fin 16)
  | getDelay (x : Fin 16)
  | waitKey (x : Fin 16)
  | setDelay (x : Fin 16)
  | setSound (x : Fin 16)
  | addIndex (x : Fin 16)
  | glyph (x : Fin 16)
  | storeDigits (x : Fin 16)
  | storeRegisters (x : Fin 16)
  | loadRegisters (x : Fin 16)
  | unknown (word : Int)
  deriving DecidableEq

namespace Instruction

/-- The branch with a number. A number past the end takes the last branch. -/
def switch (branches : List (Fields → Instruction)) (last : Fields → Instruction) (i : Nat) :
    Fields → Instruction :=
  branches.getD i last

/-- A word that is no instruction. -/
def ofUnknown (f : Fields) : Instruction := unknown f.raw

/-- Family `0NNN`, told apart by the whole word. -/
def ofSystem (f : Fields) : Instruction :=
  if 0x00E0 = f.raw then clear else if 0x00EE = f.raw then ret else ofUnknown f

/-- The last digits of family `8XYN` that are operations. -/
def definedOps : Vector Bool 16 :=
  #v[true, true, true, true, true, true, true, true,
    false, false, false, false, false, false, true, false]

/-- The branch of an operation: its last digit, and the branch behind the others for digit `E`. -/
def aluBranch (n : Fin 16) : Nat := if n.val = 0xE then 8 else n.val

/-- Family `8XYN`. -/
def ofAlu (f : Fields) : Instruction :=
  if definedOps.get f.n then
    switch
      [fun f => alu .copy f.x f.y, fun f => alu .or f.x f.y, fun f => alu .and f.x f.y,
        fun f => alu .xor f.x f.y, fun f => alu .add f.x f.y, fun f => alu .sub f.x f.y,
        fun f => shiftRight f.x, fun f => alu .subFrom f.x f.y]
      (fun f => shiftLeft f.x) (aluBranch f.n) f
  else ofUnknown f

/-- The branch of a key instruction. -/
def keysBranch (kk : UInt8) : Nat := if kk = 0x9E then 0 else if kk = 0xA1 then 1 else 2

/-- Family `EXKK`. -/
def ofKeys (f : Fields) : Instruction :=
  switch [fun f => skipDown f.x, fun f => skipUp f.x] ofUnknown (keysBranch f.kk) f

/-- The branch of a last byte of family `FXKK`, as the sum of the branches times the truth of
whether they are the one. -/
def miscBranch (kk : UInt8) : Nat :=
  (kk == 0x07).toNat * 0 + (kk == 0x0A).toNat * 1 + (kk == 0x15).toNat * 2 +
    (kk == 0x18).toNat * 3 + (kk == 0x1E).toNat * 4 + (kk == 0x29).toNat * 5 +
    (kk == 0x33).toNat * 6 + (kk == 0x55).toNat * 7 + (kk == 0x65).toNat * 8 +
    (!(kk == 0x07 || kk == 0x0A || kk == 0x15 || kk == 0x18 || kk == 0x1E || kk == 0x29 ||
      kk == 0x33 || kk == 0x55 || kk == 0x65)).toNat * 9

/-- Family `FXKK`. -/
def ofMisc (f : Fields) : Instruction :=
  switch
    [fun f => getDelay f.x, fun f => waitKey f.x, fun f => setDelay f.x, fun f => setSound f.x,
      fun f => addIndex f.x, fun f => glyph f.x, fun f => storeDigits f.x,
      fun f => storeRegisters f.x, fun f => loadRegisters f.x]
    ofUnknown (miscBranch f.kk) f

def ofFields (f : Fields) : Instruction :=
  switch
    [ofSystem, fun f => jump f.nnn, fun f => call f.nnn, fun f => skipEqualByte f.x f.kk,
      fun f => skipUnequalByte f.x f.kk, fun f => skipEqual f.x f.y, fun f => setByte f.x f.kk,
      fun f => addByte f.x f.kk, ofAlu, fun f => skipUnequal f.x f.y, fun f => setIndex f.nnn,
      fun f => jumpOffset f.nnn, fun f => random f.x f.kk, fun f => draw f.x f.y f.n, ofKeys]
    ofMisc f.opcode f

/-- The instruction that a word stands for. -/
def ofWord (word : Int) : Instruction := ofFields (Fields.ofWord word)

end Instruction

end Chip8
