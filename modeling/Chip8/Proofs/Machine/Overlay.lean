/-
Programs loaded one after the other. A program that does not fit is refused and changes nothing, and
one that fits covers its own bytes from `0x200` on and no others. So each byte from there on is in
the end that of the last program which fits and is long enough to have it; where there is none, it is
the byte from before. Empty programs leave no trace, and short ones leave the end of longer ones.
-/
import Chip8.Proofs.Machine.Invariant

namespace Chip8

/-! ## The last program that reaches a place -/

/-- The byte of a program that comes to place `i` of those for programs, if the program fits and is
long enough. -/
def byteAt? (i : Nat) (program : List UInt8) : Option UInt8 :=
  if program.length ≤ programCapacity then program[i]? else none

/-- The byte of the last program that has one for place `i`. -/
def lastByteAt? (programs : List (List UInt8)) (i : Nat) : Option UInt8 :=
  (programs.filterMap (byteAt? i)).getLast?

/-- A later program goes before the first. -/
theorem lastByteAt?_cons (program : List UInt8) (programs : List (List UInt8)) (i : Nat) :
    lastByteAt? (program :: programs) i = (lastByteAt? programs i).or (byteAt? i program) := by
  rw [lastByteAt?, lastByteAt?, List.filterMap_cons]
  cases byteAt? i program with
  | none => exact Option.or_none.symm
  | some b =>
    rw [List.getLast?_cons]
    cases (programs.filterMap (byteAt? i)).getLast? <;> rfl

namespace Machine

/-! ## Covered machines -/

/-- `t` is `s` with bytes from `0x200` on covered by others where `byte?` has one. -/
structure Covered (s : Machine) (byte? : Nat → Option UInt8) (t : Machine) : Prop where
  rest : t = { s with memory := t.memory }
  below : ∀ (a : Nat) (ha : a < 0x200), t.memory[a] = s.memory[a]
  above : ∀ (i : Nat) (hi : i < 3584), t.memory[0x200 + i] = (byte? i).getD s.memory[0x200 + i]

section Covering

variable {s t u : Machine} {byte? byte?' : Nat → Option UInt8}

theorem Covered.refl (s : Machine) (h : ∀ i, byte? i = none) : s.Covered byte? s where
  rest := rfl
  below _ _ := rfl
  above i _ := by rw [h, Option.getD_none]

/-- What covers last is what shows. -/
theorem Covered.trans (h : s.Covered byte? t) (h' : t.Covered byte?' u) :
    s.Covered (fun i => (byte?' i).or (byte? i)) u where
  rest := by
    rw [h'.rest, h.rest]
  below a ha := (h'.below a ha).trans (h.below a ha)
  above i hi := by rw [h'.above i hi, h.above i hi, Option.getD_or]

end Covering

/-! ## Loading -/

section Loading

variable (s : Machine)

theorem load_eq_error_iff (program : List UInt8) (e : LoadError) : s.load program = .error e ↔
    programCapacity < program.length ∧ e = .tooLarge program.length := by
  unfold load
  split
  · next h => simp [h, eq_comm]
  · next h => simp [h]

theorem covered_loadOrKeep (program : List UInt8) :
    s.Covered (byteAt? · program) (s.loadOrKeep program) := by
  rw [loadOrKeep_eq]
  split
  · next h => exact .refl s fun i => if_neg (Nat.not_le.2 h)
  · next h =>
    have hfit : program.length ≤ programCapacity := Nat.not_lt.1 h
    refine ⟨rfl, fun a ha => ?_, fun i hi => ?_⟩
    · have hstore := Memory.getElem_store s.memory 0x200 program a (by omega)
      exact hstore.trans (if_neg (Nat.not_le.2 ha))
    · have hstore := Memory.getElem_store s.memory 0x200 program (0x200 + i) (by omega)
      rw [if_pos (Nat.le_add_right 0x200 i), Nat.add_sub_cancel_left] at hstore
      rw [byteAt?, if_pos hfit]
      exact hstore

/-- Loads programs in turn; those that do not fit are passed over. -/
def loadAll (programs : List (List UInt8)) : Machine := programs.foldl loadOrKeep s

theorem covered_loadAll (programs : List (List UInt8)) :
    s.Covered (lastByteAt? programs) (s.loadAll programs) := by
  induction programs generalizing s with
  | nil => exact .refl s fun _ => rfl
  | cons program programs ih =>
    have hlast : lastByteAt? (program :: programs) = _ := funext (lastByteAt?_cons program programs)
    rw [hlast]
    exact (covered_loadOrKeep s program).trans (ih (s.loadOrKeep program))

/-- A program is refused exactly if it has more than 3584 bytes. After any number of programs each
byte from `0x200` on is that of the last program which was not refused and has one for its place, or
the byte from before; and nothing else has changed. -/
theorem loads_overlay (programs : List (List UInt8)) :
    (∀ (t : Machine) (program : List UInt8) (e : LoadError),
      t.load program = .error e ↔ 3584 < program.length ∧ e = .tooLarge program.length) ∧
    s.Covered (lastByteAt? programs) (s.loadAll programs) :=
  ⟨load_eq_error_iff, covered_loadAll s programs⟩

end Loading

/-- A long program, a short one, an empty one, one that is a byte too long, and one of two bytes. -/
theorem loads_overlay_tails :
    let s := fresh (.ofSeed 0) false
    let t := s.loadAll [[1, 2, 3, 4], [5, 6, 7], [], List.replicate 3585 8, [9, 10]]
    t.memory[0x200] = 9 ∧ t.memory[0x201] = 10 ∧ t.memory[0x202] = 7 ∧ t.memory[0x203] = 4 ∧
      t.memory[0x204] = s.memory[0x204] ∧ t.memory[0x1FF] = s.memory[0x1FF] ∧ t.pc = s.pc := by
  intro s t
  clear_value s
  obtain ⟨-, hrest, hbelow, habove⟩ :=
    loads_overlay s [[1, 2, 3, 4], [5, 6, 7], [], List.replicate 3585 8, [9, 10]]
  have hlast (i : Nat) : lastByteAt? [[1, 2, 3, 4], [5, 6, 7], [], List.replicate 3585 8, [9, 10]] i =
      ([9, 10, 7, 4] : List UInt8)[i]? := by
    have hlarge : byteAt? i (List.replicate 3585 8) = none := by
      refine if_neg ?_
      rw [List.length_replicate]
      decide
    simp only [lastByteAt?, List.filterMap_cons, hlarge]
    rcases i with _ | _ | _ | _ | i <;> rfl
  simp only [hlast] at habove
  have hpc := congrArg Machine.pc hrest
  exact ⟨habove 0 (by decide), habove 1 (by decide), habove 2 (by decide), habove 3 (by decide),
    habove 4 (by decide), hbelow 0x1FF (by decide), hpc⟩

end Machine

end Chip8
