/-
The listing of a program and the machine that runs it. A listing has a line for every two bytes,
and its words, written high byte first, are the program again, with a zero behind a last single
byte. A machine that has loaded the program fetches at the address of a line the word of that line:
both bytes are the program's, but for the one behind a last single byte, which is still zero in a
fresh machine.
-/
import Chip8.Listing
import Chip8.Machine.Program
import Chip8.Machine.Tick
import Chip8.Proofs.Machine.Effect
import Chip8.Proofs.Word

namespace Chip8

/-! ## Bytes of words -/

/-- The two bytes of a word, the high one first. -/
def bytesOf (w : UInt16) : List UInt8 := [UInt8.ofNat (w.toNat / 256), UInt8.ofNat w.toNat]

theorem bytesOf_bigEndian (high low : UInt8) : bytesOf (bigEndian high low) = [high, low] := by
  have hlow := low.toNat_lt
  have hhigh : (256 * high.toNat + low.toNat) / 256 = high.toNat := by omega
  have hrest : (256 * high.toNat + low.toNat) % 256 = low.toNat := by omega
  rw [bytesOf, toNat_bigEndian, hhigh, UInt8.ofNat_toNat, List.cons.injEq, List.cons.injEq]
  exact ⟨rfl, UInt8.toNat_inj.1 (UInt8.toNat_ofNat'.trans hrest), rfl⟩

/-! ## Lines -/

namespace Listing

/-- The words of the lines, written out. -/
def bytes (lines : List Line) : List UInt8 := lines.flatMap fun l => bytesOf l.word

theorem length_ofBytes (start : Int) (program : List UInt8) :
    (ofBytes start program).length = (program.length + 1) / 2 := by
  fun_induction ofBytes start program with
  | case1 => rfl
  | case2 start high => simp
  | case3 start high low rest ih =>
    simp only [List.length_cons, ih]
    omega

/-- The lines in turn. -/
theorem getElem?_ofBytes (start : Int) (program : List UInt8) (k : Nat) :
    (ofBytes start program)[k]? = (program[2 * k]?).map fun high =>
      line (start + 2 * k) (bigEndian high ((program[2 * k + 1]?).getD 0)) := by
  fun_induction ofBytes start program generalizing k with
  | case1 => rfl
  | case2 start high =>
    cases k with
    | zero => simp
    | succ k => simp
  | case3 start high low rest ih =>
    cases k with
    | zero => simp
    | succ k =>
      have hstart : start + 2 + 2 * (k : Int) = start + 2 * ((k + 1 : Nat) : Int) := by omega
      rw [List.getElem?_cons_succ, ih, hstart]
      rfl

/-- The listing loses nothing. -/
theorem bytes_ofBytes (start : Int) (program : List UInt8) :
    bytes (ofBytes start program) = program ++ List.replicate (program.length % 2) 0 := by
  fun_induction ofBytes start program with
  | case1 => rfl
  | case2 start high => exact congrArg (· ++ []) (bytesOf_bigEndian high 0)
  | case3 start high low rest ih =>
    have hmod : (rest.length + 1 + 1) % 2 = rest.length % 2 := by omega
    rw [bytes] at ih
    rw [bytes, List.flatMap_cons, ih, line, bytesOf_bigEndian, List.length_cons, List.length_cons,
      hmod]
    rfl

end Listing

/-! ## Fetching -/

theorem Memory.read_fresh {a : Nat} (hfont : font.length ≤ a) (ha : a < 4096) :
    Memory.fresh.read a = 0 := by
  have hstore (m : Memory) : (m.store 0 font).read a = m.read a := by
    have hbyte := read_store m (i := a) (show 0 + a < 4096 by omega) font
    rwa [Nat.zero_add, List.getElem?_eq_none hfont] at hbyte
  exact (hstore _).trans ((read_of_lt _ ha).trans (Vector.getElem_replicate ha))

namespace Machine

section Fetch

variable {s : Machine} {program : List UInt8} {k : Nat} {high : UInt8}

/-- Programs start at an even address, so there is room for the low byte of the last word. -/
theorem line_fits (hfit : program.length ≤ programCapacity) (hk : 2 * k < program.length) :
    Memory.Fits (programStart + 2 * k) 2 := by
  simp only [programStart, programCapacity] at hfit ⊢
  omega

/-- The word at two bytes of a program, the second of which may be missing where memory holds a
zero. -/
theorem word_withProgram (hfit : program.length ≤ programCapacity)
    (hk : program[2 * k]? = some high)
    (hpad : 2 * k + 1 < program.length ∨ s.memory.read (programStart + (2 * k + 1)) = 0)
    {pc : UInt16} (hpc : pc.toNat = programStart + 2 * k) :
    (s.withProgram program).memory.word pc =
      bigEndian high ((program[2 * k + 1]?).getD 0) := by
  obtain ⟨hlt, -⟩ := List.getElem?_eq_some_iff.1 hk
  have hroom := line_fits hfit hlt
  have hend : programStart + (2 * k + 1) < 4096 := by omega
  have hlow : (pc + 1).toNat = programStart + (2 * k + 1) := by
    rw [toNat_add_one (by omega), hpc]
    rfl
  have hpadded : (program[2 * k + 1]?).getD (s.memory.read (programStart + (2 * k + 1))) =
      (program[2 * k + 1]?).getD 0 := by
    rcases hpad with hin | hzero
    · rw [List.getElem?_eq_getElem hin]
      rfl
    · rw [hzero]
  rw [Memory.word, hpc, hlow, withProgram, Memory.read_store _ (by omega), Memory.read_store _ hend,
    hk, hpadded]
  rfl

/-- With its program counter at a line, the machine fetches the word of the line. -/
def Fetches (s : Machine) (l : Listing.Line) : Prop :=
  ∃ pc : UInt16, (pc.toNat : Int) = l.address ∧ pc.toNat + 2 ≤ 4096 ∧
    ({ s with pc := pc } : Machine).fetch.2 = l.word

theorem fetches_withProgram (hfit : program.length ≤ programCapacity)
    (hpad : program.length % 2 = 0 ∨ s.memory.read (programStart + program.length) = 0)
    {l : Listing.Line} (hl : l ∈ Listing.ofBytes programStart program) :
    (s.withProgram program).Fetches l := by
  obtain ⟨k, hk⟩ := List.mem_iff_getElem?.1 hl
  rw [Listing.getElem?_ofBytes, Option.map_eq_some_iff] at hk
  obtain ⟨high, hk, rfl⟩ := hk
  obtain ⟨hlt, -⟩ := List.getElem?_eq_some_iff.1 hk
  have hroom := line_fits hfit hlt
  have hpc : (UInt16.ofNat (programStart + 2 * k)).toNat = programStart + 2 * k := by
    rw [UInt16.toNat_ofNat']
    omega
  refine ⟨UInt16.ofNat (programStart + 2 * k), ?_, ?_, word_withProgram hfit hk ?_ hpc⟩
  · rw [hpc]
    rfl
  · rw [hpc]
    exact hroom
  · -- the last byte stands alone exactly if their number is odd
    by_cases hin : 2 * k + 1 < program.length
    · exact .inl hin
    · have hlast : 2 * k + 1 = program.length := by omega
      exact .inr (hlast ▸ hpad.resolve_left (by omega))

/-- On a machine that runs, the coming tick executes what is fetched. -/
theorem Fetches.next {l : Listing.Line} (h : s.Fetches l) (hf : s.fault = 0)
    (ha : s.awaiting = false) : ∃ pc : UInt16, (pc.toNat : Int) = l.address ∧
      ({ s with pc := pc } : Machine).fetch.2 = l.word ∧
      ({ s with pc := pc } : Machine).next = .word l.word := by
  obtain ⟨pc, haddress, hroom, hword⟩ := h
  exact ⟨pc, haddress, hword, next_eq_word_iff.2 ⟨hf, ha, hroom, hword⟩⟩

/-- A zero stands behind a program of odd length in a fresh machine, if there is a byte at all. -/
theorem pad_fresh (hfit : program.length ≤ programCapacity) (key : Random.Key) (carryIndex : Bool) :
    program.length % 2 = 0 ∨
      (fresh key carryIndex).memory.read (programStart + program.length) = 0 := by
  rw [Classical.or_iff_not_imp_left]
  intro hodd
  simp only [programStart, programCapacity] at hfit ⊢
  exact Memory.read_fresh (Nat.le_trans (by decide) (Nat.le_add_right _ _)) (by omega)

end Fetch

/-- The listing of a program is all of it and what the machine fetches: line `k` stands at
`0x200 + 2 * k` with the text of its word, the words are the bytes of the program, and a fresh
machine with the program executes at a line the word of the line. Any other machine fetches it as
well, if the program has no single byte at its end. -/
theorem listing_is_fetched {program : List UInt8} (hfit : program.length ≤ 3584) :
    let lines := Listing.ofBytes programStart program
    lines.length = (program.length + 1) / 2 ∧
    (∀ (k : Nat) (l : Listing.Line), lines[k]? = some l →
      l.address = 0x200 + 2 * k ∧ l.text = disassemble l.word.toNat) ∧
    Listing.bytes lines = program ++ List.replicate (program.length % 2) 0 ∧
    (∀ key carryIndex, ∃ s, (fresh key carryIndex).load program = .ok s ∧ ∀ l ∈ lines,
      ∃ pc : UInt16, (pc.toNat : Int) = l.address ∧
        ({ s with pc := pc } : Machine).fetch.2 = l.word ∧
        ({ s with pc := pc } : Machine).next = .word l.word) ∧
    (program.length % 2 = 0 → ∀ s : Machine, ∃ t, s.load program = .ok t ∧
      ∀ l ∈ lines, t.Fetches l) := by
  intro lines
  have hload (s : Machine) : s.load program = .ok (s.withProgram program) :=
    if_neg (Nat.not_lt.2 hfit)
  refine ⟨Listing.length_ofBytes _ _, ?_, Listing.bytes_ofBytes _ _, ?_, ?_⟩
  · intro k l hl
    rw [Listing.getElem?_ofBytes, Option.map_eq_some_iff] at hl
    obtain ⟨high, -, rfl⟩ := hl
    exact ⟨rfl, rfl⟩
  · intro key carryIndex
    refine ⟨_, hload _, fun l hl => ?_⟩
    exact (fetches_withProgram hfit (pad_fresh hfit key carryIndex) hl).next rfl rfl
  · intro heven s
    exact ⟨_, hload s, fun l hl => fetches_withProgram hfit (.inl heven) hl⟩

/-- The last word ends where memory ends, with a byte that no program has put there. -/
theorem listing_is_fetched_lastByte :
    ∃ s, (fresh (.ofSeed 0) false).load (List.replicate 3583 0xAB) = .ok s ∧ ∃ pc : UInt16,
      pc.toNat = 0xFFE ∧ ({ s with pc := pc } : Machine).next = .word 0xAB00 := by
  have hfit : (List.replicate 3583 (0xAB : UInt8)).length ≤ 3584 := by
    rw [List.length_replicate]
    decide
  obtain ⟨-, -, -, hfetched, -⟩ := listing_is_fetched hfit
  obtain ⟨s, hs, hall⟩ := hfetched (.ofSeed 0) false
  have hlast : (Listing.ofBytes programStart (List.replicate 3583 0xAB))[1791]? =
      some (Listing.line 0xFFE 0xAB00) := by
    rw [Listing.getElem?_ofBytes, List.getElem?_replicate, List.getElem?_replicate]
    rfl
  obtain ⟨pc, haddress, -, hnext⟩ := hall _ (List.mem_of_getElem? hlast)
  exact ⟨s, hs, pc, Int.ofNat.inj haddress, hnext⟩

end Machine

end Chip8
