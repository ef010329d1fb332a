/-
Ticks with nothing promised about the ends of arrays. `Loose.tick` does what `Machine.tick` does,
access by access: a read past the end of an array answers with whatever `Beyond` says for that read,
every write is kept on record, and a gather takes all of its elements, those that are thrown away
afterwards too. The machine comes out the same whatever `Beyond` says, as long as a pop reads one of
the cells: everything else is either in range or masked.
-/
import Chip8.Proofs.Machine.Invariant

namespace Chip8

namespace Loose

/-! ## Reads -/

/-- The reads of a tick. -/
inductive Place where
  /-- The two bytes of the word at the program counter. -/
  | high
  | low
  /-- The registers that the digits of a word name, `V0` of a jump, and `VF` behind an operation
  without a flag. -/
  | first
  | second
  | offset
  | flag
  | key
  | popped
  /-- The tables of family `8XYN`. -/
  | defined
  | flagged
  /-- The bytes behind `I`, by the register they are for. -/
  | kept (lane : Fin 16)
  | loaded (lane : Fin 16)
  /-- The byte of a sprite that a pixel of the screen takes its bit from. -/
  | pixel (row : Fin 32) (col : Fin 64)

/-- A result and a flag, which some operations leave cleared and nobody looks at. -/
abbrev Operation := UInt8 → UInt8 → UInt8 × Bool

/-- What a read past the end answers. -/
structure Beyond where
  byte : Place → UInt8
  address : Place → UInt16
  bit : Place → Bool
  operation : Operation

def read {α : Type} {n : Nat} (v : Vector α n) (i : Nat) (beyond : α) : α := v[i]?.getD beyond

/-! ## Writes -/

/-- A write by the index it is for. -/
inductive Write where
  | byte (a : Nat)
  | register (r : Nat)
  | cell (i : Nat)
  deriving DecidableEq

def Write.InRange : Write → Prop
  | byte a => a < 4096
  | register r => r < 16
  | cell i => i < 16

/-- A machine and the writes that led to it. -/
structure Outcome where
  machine : Machine
  writes : List Write

/-- No write so far. -/
def start (s : Machine) : Outcome := ⟨s, []⟩

namespace Outcome

def map (o : Outcome) (f : Machine → Machine) : Outcome := ⟨f o.machine, o.writes⟩

def setRegister (o : Outcome) (r : Nat) (v : UInt8) : Outcome where
  machine := { o.machine with registers := o.machine.registers.setIfInBounds r v }
  writes := o.writes ++ [.register r]

def setCell (o : Outcome) (i : Nat) (a : UInt16) : Outcome where
  machine :=
    { o.machine with stack := ⟨o.machine.stack.cells.setIfInBounds i a, o.machine.stack.pointer⟩ }
  writes := o.writes ++ [.cell i]

def setByte (o : Outcome) (a : Nat) (v : UInt8) : Outcome where
  machine := { o.machine with memory := o.machine.memory.setIfInBounds a v }
  writes := o.writes ++ [.byte a]

/-- Writes to consecutive addresses. -/
def scatter (o : Outcome) (a : Nat) : List UInt8 → Outcome
  | [] => o
  | v :: vs => (o.setByte a v).scatter (a + 1) vs

end Outcome

/-! ## The tick over them -/

section Instructions

variable (b : Beyond) (s : Machine)

def register (p : Place) (x : Nat) : UInt8 := read s.registers x (b.byte p)

/-- The key that a register names. -/
def keyDown (x : Nat) : Bool := read s.keypad ((register b s .first x).toNat % 16) (b.bit .key)

def ret : Outcome :=
  if s.stack.isEmpty then start (s.haltBack .stackUnderflow)
  else
    let pointer := s.stack.pointer - 1
    let pc := read s.stack.cells pointer.toNat (b.address .popped)
    ((start s).setCell pointer.toNat 0).map fun t =>
      { t with stack := ⟨t.stack.cells, pointer⟩, pc }

def call (target : Fin 4096) : Outcome :=
  if s.stack.isFull then start (s.haltBack .stackOverflow)
  else ((start s).setCell s.stack.pointer.toNat s.pc).map fun t =>
    { t with stack := ⟨t.stack.cells, t.stack.pointer + 1⟩, pc := UInt16.ofNat target }

/-- The sprite on the screen. Every pixel takes a byte, but only those under the sprite use it. -/
def mask (height left top : Nat) : Screen :=
  Vector.ofFn fun row : Fin 32 => Vector.ofFn fun col : Fin 64 =>
    let down := (row + (32 - top % 32)) % 32
    let right := (col + (64 - left % 64)) % 64
    let bits := read s.memory (s.index.toNat + down) (b.byte (.pixel row col))
    pixel (decide (right < 8 ∧ down < height) && bits.toNat.testBit (7 - right))

def draw (x y : Nat) (height : Fin 16) : Outcome :=
  if height = 0 ∨ Memory.Fits s.index.toNat height then
    let sprite := mask b s height (register b s .first x).toNat (register b s .second y).toNat
    ((start s).setRegister Machine.flagRegister (flagByte (s.screen.collides sprite))).map fun t =>
      { t with screen := t.screen.flip sprite, redraw := true }
  else start (s.haltBack .memoryBounds)

def storeDigits (x : Nat) : Outcome :=
  if Memory.Fits s.index.toNat 3 then
    (start s).scatter s.index.toNat (decimalDigits (register b s .first x))
  else start (s.haltBack .memoryBounds)

/-- The registers up to `x`, and behind them the bytes that are in memory already. -/
def lanes (x : Fin 16) : Vector UInt8 16 :=
  Vector.ofFn fun lane : Fin 16 =>
    if lane ≤ x then s.registers.get lane
    else read s.memory (s.index.toNat + lane) (b.byte (.kept lane))

/-- All sixteen lanes are written. -/
def storeRegisters (x : Fin 16) : Outcome :=
  if Memory.Fits s.index.toNat (x + 1) then (start s).scatter s.index.toNat (lanes b s x).toList
  else start (s.haltBack .memoryBounds)

/-- Sixteen bytes are read, and those up to the last register used. -/
def loadRegisters (x : Fin 16) : Outcome :=
  if Memory.Fits s.index.toNat (x + 1) then
    start { s with registers := Vector.ofFn fun lane : Fin 16 =>
      let byte := read s.memory (s.index.toNat + lane) (b.byte (.loaded lane))
      if lane ≤ x then byte else s.registers.get lane }
  else start (s.haltBack .memoryBounds)

def addIndex (x : Nat) : Outcome :=
  let sum := min (s.index.toNat + (register b s .first x).toNat) 0xFFFF
  let moved := start { s with index := UInt16.ofNat sum }
  if s.carryIndex then
    moved.setRegister Machine.flagRegister (flagByte (decide (0xFFF < sum)))
  else moved

def waitKey (x : Fin 16) : Outcome :=
  match s.keypad.lowest? with
  | some k => (start s).setRegister x (UInt8.ofNat k)
  | none => start { s with awaiting := true, keyRegister := UInt8.ofNat x }

/-- All instructions outside of family `8XYN`. Those without a line of their own use no array. -/
def perform : Instruction → Outcome
  | .ret => ret b s
  | .call a => call s a
  | .skipEqualByte x k => start (s.skipIf (register b s .first x == k))
  | .skipUnequalByte x k => start (s.skipIf (register b s .first x != k))
  | .skipEqual x y => start (s.skipIf (register b s .first x == register b s .second y))
  | .skipUnequal x y => start (s.skipIf (register b s .first x != register b s .second y))
  | .setByte x k => (start s).setRegister x k
  | .addByte x k => (start s).setRegister x (register b s .first x + k)
  | .jumpOffset a => start { s with pc := UInt16.ofNat (a + (register b s .offset 0).toNat) }
  | .random x bits =>
    ((start s).setRegister x (s.random.byte &&& bits)).map fun t =>
      { t with random := s.random.next }
  | .draw x y height => draw b s x y height
  | .skipDown x => start (s.skipIf (keyDown b s x))
  | .skipUp x => start (s.skipIf (!keyDown b s x))
  | .getDelay x => (start s).setRegister x s.delay
  | .waitKey x => waitKey s x
  | .setDelay x => start { s with delay := register b s .first x }
  | .setSound x => start { s with sound := register b s .first x }
  | .addIndex x => addIndex b s x
  | .glyph x => start { s with index := UInt16.ofNat ((register b s .first x).toNat * glyphSize) }
  | .storeDigits x => storeDigits b s x
  | .storeRegisters x => storeRegisters b s x
  | .loadRegisters x => loadRegisters b s x
  | i => start (s.execute i)

end Instructions

section Arithmetic

/-- The last digits whose operation has a flag. -/
def flaggedTable : Vector Bool 16 :=
  #v[false, false, false, false, true, true, true, true,
    false, false, false, false, false, false, true, false]

def ofAlu (op : Alu) : Operation := fun x y =>
  ((op.eval x y).1, (op.eval x y).2.getD false)

/-- The operations by their last digit, the one of digit `E` at the end. -/
def operations : Vector Operation 9 :=
  #v[ofAlu .copy, ofAlu .or, ofAlu .and, ofAlu .xor, ofAlu .add, ofAlu .sub,
    fun x _ => (x >>> 1, x.toNat.testBit 0), ofAlu .subFrom,
    fun x _ => (x <<< 1, x.toNat.testBit 7)]

/-- Family `8XYN`. `VF` is written in any case, with its own value if there is no flag. -/
def arithmetic (b : Beyond) (s : Machine) (f : Fields) : Outcome :=
  if read Instruction.definedOps f.n (b.bit .defined) then
    let operation := read operations (if f.n.val = 0xE then 8 else f.n.val) b.operation
    let r := operation (register b s .first f.x) (register b s .second f.y)
    let o := (start s).setRegister f.x r.1
    o.setRegister Machine.flagRegister
      (if read flaggedTable f.n (b.bit .flagged) then flagByte r.2
       else register b o.machine .flag Machine.flagRegister)
  else start s

end Arithmetic

section Tick

variable (b : Beyond) (s : Machine)

def execute (w : UInt16) : Outcome :=
  let f := Fields.ofWord w.toNat
  if f.opcode = 8 then arithmetic b s f else perform b s (.ofFields f)

def word : UInt16 :=
  bigEndian (read s.memory s.pc.toNat (b.byte .high)) (read s.memory (s.pc + 1).toNat (b.byte .low))

def resume : Outcome :=
  match s.keypad.lowest? with
  | some k =>
    ((start s).setRegister s.keyRegister.toNat (UInt8.ofNat k)).map fun t =>
      { t with awaiting := false }
  | none => start s

def tick (keys : Keypad) : Outcome :=
  let t := s.sample keys
  if s.fault ≠ 0 then start t
  else if s.awaiting then (resume t).map Machine.countDownIfRunning
  else if Memory.Fits s.pc.toNat 2 then
    (execute b t.fetch.1 (word b t)).map Machine.countDownIfRunning
  else start (t.halt .memoryBounds)

end Tick

/-! ## Agreement -/

theorem read_of_lt {α : Type} {n : Nat} (v : Vector α n) {i : Nat} (h : i < n) (beyond : α) :
    read v i beyond = v[i] := by
  simp [read, h]

theorem read_get {α : Type} {n : Nat} (v : Vector α n) (i : Fin n) (beyond : α) :
    read v i beyond = v.get i :=
  read_of_lt v i.isLt beyond

section Agreement

variable (b : Beyond) (s : Machine)

@[simp] theorem register_eq (p : Place) (x : Fin 16) : register b s p x = s.register x :=
  read_get ..

@[simp] theorem machine_start : (start s).machine = s := rfl

@[simp] theorem machine_map (o : Outcome) (f : Machine → Machine) :
    (o.map f).machine = f o.machine := rfl

@[simp] theorem machine_setRegister (o : Outcome) (x : Fin 16) (v : UInt8) :
    (o.setRegister x v).machine = o.machine.setRegister x v := by
  have hset : o.machine.registers.setIfInBounds x v = o.machine.registers.set x v := by
    ext i hi : 1
    rw [Vector.getElem_setIfInBounds hi, Vector.getElem_set x.isLt hi]
  rw [Outcome.setRegister, hset]
  rfl

theorem machine_scatter (o : Outcome) (a : Nat) (vs : List UInt8) :
    (o.scatter a vs).machine = { o.machine with memory := o.machine.memory.store a vs } := by
  induction vs generalizing o a with
  | nil => rfl
  | cons v vs ih => exact ih (o.setByte a v) (a + 1)

theorem keyDown_eq (x : Fin 16) : keyDown b s x = s.keyDown x := by
  rw [keyDown, register_eq]
  exact read_get _ (Fin.ofNat 16 (s.register x).toNat) _

/-- Behind the end of a sprite no bit of memory is used. -/
theorem bit_eq {start height : Nat} (h : height = 0 ∨ Memory.Fits start height) (m : Memory)
    (down right : Nat) (beyond : UInt8) :
    (decide (right < 8 ∧ down < height) &&
        (read m (start + down) beyond).toNat.testBit (7 - right)) =
      Sprite.lit (m.slice start height) down right := by
  by_cases hdown : down < height
  · have hlt : start + down < 4096 := by omega
    simp [Sprite.lit, Memory.slice, hdown, read_of_lt _ hlt, Memory.read_of_lt _ hlt]
  · simp [Sprite.lit, Memory.slice, hdown]

theorem mask_eq {height : Nat} (h : height = 0 ∨ Memory.Fits s.index.toNat height)
    (left top : Nat) :
    mask b s height left top = Screen.place (s.memory.slice s.index.toNat height) left top := by
  simp only [mask, bit_eq h]
  rfl

theorem draw_eq (x y height : Fin 16) : (draw b s x y height).machine = s.draw x y height := by
  unfold draw Machine.draw
  split
  · next h =>
    have hfit : height.val = 0 ∨ Memory.Fits s.index.toNat height := h.imp_left (congrArg Fin.val)
    simp only [mask_eq b s hfit, register_eq, machine_map, machine_setRegister, machine_start]
    rfl
  · rfl

theorem getElem_lanes (x : Fin 16) (lane : Nat) (h : lane < 16) : (lanes b s x)[lane] =
    if lane ≤ x.val then s.registers[lane]
    else read s.memory (s.index.toNat + lane) (b.byte (.kept ⟨lane, h⟩)) := by
  rw [lanes, Vector.getElem_ofFn]
  rfl

/-- The lanes behind the last register put back what was there, as far as it is in memory. -/
theorem store_lanes (x : Fin 16) :
    s.memory.store s.index.toNat (lanes b s x).toList =
      s.memory.store s.index.toNat (s.registers.toList.take (x + 1)) := by
  ext a ha : 1
  rw [Memory.getElem_store, Memory.getElem_store]
  split
  · next hle =>
    obtain ⟨lane, rfl⟩ := Nat.exists_eq_add_of_le hle
    rw [Nat.add_sub_cancel_left, List.getElem?_take, Vector.getElem?_toList, Vector.getElem?_toList]
    by_cases h16 : lane < 16
    · rw [Vector.getElem?_eq_getElem h16, Vector.getElem?_eq_getElem h16, getElem_lanes]
      by_cases hx : lane ≤ x.val
      · rw [if_pos hx, if_pos (Nat.lt_succ_of_le hx)]
      -- here the address is in memory, so the byte written is the one that was read
      · rw [if_neg hx, if_neg (by omega), read_of_lt _ ha]
        rfl
    · rw [Vector.getElem?_eq_none (by omega), if_neg (by omega)]
  · rfl

theorem storeRegisters_eq (x : Fin 16) : (storeRegisters b s x).machine = s.storeRegisters x := by
  unfold storeRegisters Machine.storeRegisters
  split
  · rw [machine_scatter, machine_start, store_lanes]
  · rfl

/-- No lane up to the last register is past the end of memory. -/
theorem loaded_lanes {x : Fin 16} (h : Memory.Fits s.index.toNat (x + 1)) :
    (Vector.ofFn fun lane : Fin 16 =>
        if lane ≤ x then read s.memory (s.index.toNat + lane) (b.byte (.loaded lane))
        else s.registers.get lane) =
      Vector.ofFn fun lane : Fin 16 =>
        if lane ≤ x then s.memory.read (s.index.toNat + lane) else s.register lane := by
  refine congrArg Vector.ofFn (funext fun lane => ?_)
  split
  · next hx =>
    have hlt : s.index.toNat + lane < 4096 := by
      have hx' : lane.val ≤ x.val := hx
      omega
    rw [read_of_lt _ hlt, Memory.read_of_lt _ hlt]
  · rfl

theorem loadRegisters_eq (x : Fin 16) : (loadRegisters b s x).machine = s.loadRegisters x := by
  unfold loadRegisters Machine.loadRegisters
  split
  · next h => rw [machine_start, loaded_lanes b s h]
  · rfl

theorem storeDigits_eq (x : Fin 16) : (storeDigits b s x).machine = s.storeDigits x := by
  unfold storeDigits Machine.storeDigits
  split
  · rw [machine_scatter, machine_start, register_eq]
  · rfl

theorem addIndex_eq (x : Fin 16) : (addIndex b s x).machine = s.addIndex x := by
  unfold addIndex Machine.addIndex
  rw [register_eq]
  dsimp only
  split
  · rw [machine_setRegister]
    rfl
  · rfl

theorem waitKey_eq (x : Fin 16) : (waitKey s x).machine = s.waitKey x := by
  rw [waitKey, Machine.waitKey]
  cases s.keypad.lowest? with
  | some k => exact machine_setRegister ..
  | none => rfl

/-- A pop reads a cell, or `Beyond` answers it with the last one. -/
def PopsCell (b : Beyond) (s : Machine) : Prop :=
  s.stack.pointer.toNat ≤ 16 ∨ b.address .popped = s.stack.read 15

theorem popped_lt {c : CallStack} (he : c.isEmpty = false) (hp : c.pointer.toNat ≤ 16) :
    (c.pointer - 1).toNat < 16 := by
  have hpos := CallStack.isEmpty_eq_false.1 he
  have hpointer : (c.pointer - 1).toNat = c.pointer.toNat - 1 := CallStack.pointer_pop he
  omega

theorem read_cells_of_lt (c : CallStack) {i : Nat} (h : i < 16) (beyond : UInt16) :
    read c.cells i beyond = c.read i := by
  rw [read_of_lt _ h, CallStack.read, dif_pos h]

theorem read_cells_last (c : CallStack) (i : Nat) : read c.cells i (c.read 15) = c.read i := by
  by_cases h : i < 16
  · exact read_cells_of_lt c h _
  · rw [read, Vector.getElem?_eq_none (by omega), CallStack.read, CallStack.read, dif_neg h]
    rfl

theorem read_popped (he : s.stack.isEmpty = false) (h : PopsCell b s) :
    read s.stack.cells (s.stack.pointer - 1).toNat (b.address .popped) = s.stack.pop.2 := by
  rcases h with h | h
  · exact read_cells_of_lt s.stack (popped_lt he h) _
  · rw [h]
    exact read_cells_last ..

theorem ret_eq (h : PopsCell b s) : (ret b s).machine = s.ret := by
  unfold ret Machine.ret
  split
  · rfl
  · next he =>
    simp only [read_popped b s (by simpa using he) h]
    rfl

theorem call_eq (target : Fin 4096) : (call s target).machine = s.call target := by
  unfold call Machine.call
  split <;> rfl

theorem perform_eq (h : PopsCell b s) (i : Instruction) :
    (perform b s i).machine = s.execute i := by
  cases i with
  | ret => exact ret_eq b s h
  | call a => exact call_eq s a
  | draw x y height => exact draw_eq b s x y height
  | waitKey x => exact waitKey_eq s x
  | addIndex x => exact addIndex_eq b s x
  | storeDigits x => exact storeDigits_eq b s x
  | storeRegisters x => exact storeRegisters_eq b s x
  | loadRegisters x => exact loadRegisters_eq b s x
  | skipDown x | skipUp x => simp [perform, Machine.execute, keyDown_eq]
  | jumpOffset a =>
    have h0 : register b s .offset 0 = s.register 0 := register_eq b s .offset 0
    simp [perform, Machine.execute, h0]
  | _ => simp [perform, Machine.execute]

/-! ### Family `8XYN` -/

theorem setRegister_own (x : Fin 16) : s.setRegister x (s.register x) = s := by
  have hget : s.registers.set x (s.registers.get x) = s.registers := Vector.set_getElem_self x.isLt
  rw [Machine.setRegister, Machine.register, hget]

/-- Writing `VF` with its own value leaves the result of an operation without a flag. -/
theorem setResult_eq (x : Fin 16) (v : UInt8) (flag : Bool) (hasFlag : Bool) :
    (s.setRegister x v).setRegister Machine.flagRegister
        (if hasFlag then flagByte flag else (s.setRegister x v).register Machine.flagRegister) =
      s.setResult x (v, if hasFlag then some flag else none) := by
  cases hasFlag with
  | true => rfl
  | false => exact setRegister_own ..

/-- What the tables say of a last digit. -/
theorem arithmetic_of_tables {f : Fields} {d : Nat} (hd : d < 16) (hn : f.n.val = d)
    {operation : Operation} {hasFlag : Bool} (hdefined : Instruction.definedOps.get ⟨d, hd⟩ = true)
    (hoperation : read operations (if d = 0xE then 8 else d) b.operation = operation)
    (hflag : flaggedTable.get ⟨d, hd⟩ = hasFlag) :
    let r := operation (s.register f.x) (s.register f.y)
    (arithmetic b s f).machine = s.setResult f.x (r.1, if hasFlag then some r.2 else none) := by
  intro r
  subst hn
  rw [← setResult_eq, arithmetic, read_get, if_pos hdefined, hoperation, read_get, ← hflag]
  simp [r]

/-- The tables agree with the decoder: a last digit that is no operation is not looked up, and the
flag of one that has none is not used. -/
theorem arithmetic_eq (f : Fields) : (arithmetic b s f).machine = s.execute (.ofAlu f) := by
  rw [Instruction.ofAlu_eq]
  split
  case h_10 =>
    have htable : ∀ d : Fin 16, Instruction.definedOps.get d = true → d.val ≤ 7 ∨ d.val = 14 := by decide
    have hundefined : ¬ Instruction.definedOps.get f.n = true := by
      intro h
      rcases htable f.n h with h | h <;> grind
    rw [arithmetic, read_get, if_neg hundefined]
    rfl
  -- every other digit is that of an operation, and the tables evaluate at it
  all_goals next e => exact arithmetic_of_tables b s (by decide) e rfl rfl rfl

theorem execute_eq (h : PopsCell b s) (w : UInt16) :
    (execute b s w).machine = s.execute (.ofWord w.toNat) := by
  unfold execute
  dsimp only
  split
  · next ho =>
    rw [arithmetic_eq, Instruction.ofWord, Instruction.ofFields_eq, ho]
    rfl
  · exact perform_eq b s h _

theorem word_eq (h : Memory.Fits s.pc.toNat 2) : word b s = s.memory.word s.pc := by
  have hlow : (s.pc + 1).toNat = s.pc.toNat + 1 := toNat_add_one (by omega)
  have h0 : s.pc.toNat < 4096 := by omega
  have h1 : (s.pc + 1).toNat < 4096 := by omega
  rw [word, Memory.word, read_of_lt _ h0, read_of_lt _ h1, Memory.read_of_lt _ h0,
    Memory.read_of_lt _ h1]

theorem resume_eq : (resume s).machine = s.resume := by
  rw [resume, Machine.resume]
  cases s.keypad.lowest? <;> rfl

/-- The tick goes by the same cases as `Machine.next`, which reads the word itself. -/
theorem tick_by_next (keys : Keypad) : tick b s keys =
    match s.next with
    | .halted => start (s.sample keys)
    | .awaiting => (resume (s.sample keys)).map Machine.countDownIfRunning
    | .overrun => start ((s.sample keys).halt .memoryBounds)
    | .word w => (execute b (s.sample keys).fetch.1 w).map Machine.countDownIfRunning := by
  unfold tick Machine.next
  dsimp only
  by_cases hf : s.fault ≠ 0
  · rw [if_pos hf, if_pos hf]
  · rw [if_neg hf, if_neg hf]
    by_cases ha : s.awaiting = true
    · rw [if_pos ha, if_pos ha]
    · rw [if_neg ha, if_neg ha]
      by_cases hm : Memory.Fits s.pc.toNat 2
      · have hw : word b (s.sample keys) = s.fetch.2 := word_eq b (s.sample keys) hm
        rw [if_pos hm, if_pos hm, hw]
      · rw [if_neg hm, if_neg hm]

/-- Of all reads past an end only the one of a stack pointer past the cells can show. -/
theorem tick_eq (h : PopsCell b s) (keys : Keypad) : (tick b s keys).machine = s.tick keys := by
  rw [tick_by_next, Machine.tick]
  cases s.next with
  | halted | overrun => rfl
  | awaiting => exact congrArg Machine.countDownIfRunning (resume_eq (s.sample keys))
  | word w =>
    exact congrArg Machine.countDownIfRunning (execute_eq b (s.sample keys).fetch.1 h w)

end Agreement

end Loose

end Chip8
