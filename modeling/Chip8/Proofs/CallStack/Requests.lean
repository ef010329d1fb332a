/-
Requests to a stack, one after the other. On lists of at most sixteen addresses a push appends and a
pop takes the last element. The sixteen cells with their pointer do the same: from the empty stack on
they admit the same requests and give back the same addresses, and in the end they hold the list,
followed by zeros. Since a pop zeroes its cell, the cells tell nothing of how the list came about.
-/
import Chip8.Proofs.CallStack

namespace Chip8

/-! ## Kinds of stacks -/

/-- What is asked of a stack of return addresses. -/
inductive StackRequest where
  | push (a : UInt16)
  | pop

/-- A kind of stack: which requests a state admits, and what serving one makes of the state and
gives back. -/
structure StackKind (σ : Type) where
  admits : σ → StackRequest → Bool
  serve : σ → StackRequest → σ × Option UInt16

namespace StackKind

variable {σ τ : Type}

/-- Each of the requests is admitted when its turn comes. -/
def admitsAll (K : StackKind σ) : σ → List StackRequest → Bool
  | _, [] => true
  | s, r :: rs => K.admits s r && K.admitsAll (K.serve s r).1 rs

/-- The state behind all requests, and what each of them gave back. -/
def serveAll (K : StackKind σ) : σ → List StackRequest → σ × List (Option UInt16)
  | s, [] => (s, [])
  | s, r :: rs =>
    let next := K.serve s r
    let last := K.serveAll next.1 rs
    (last.1, next.2 :: last.2)

/-- Related states admit the same requests, and serving an admitted one gives back the same and keeps
them related. -/
structure Refines (K : StackKind σ) (L : StackKind τ) (R : σ → τ → Prop) : Prop where
  admits : ∀ {s t} r, R s t → K.admits s r = L.admits t r
  related : ∀ {s t} r, R s t → K.admits s r = true → R (K.serve s r).1 (L.serve t r).1
  answer : ∀ {s t} r, R s t → K.admits s r = true → (K.serve s r).2 = (L.serve t r).2

section Refinement

variable {K : StackKind σ} {L : StackKind τ} {R : σ → τ → Prop} {s : σ} {t : τ}

theorem Refines.admitsAll_eq (h : K.Refines L R) (hR : R s t) (rs : List StackRequest) :
    K.admitsAll s rs = L.admitsAll t rs := by
  induction rs generalizing s t with
  | nil => rfl
  | cons r rs ih =>
    rw [StackKind.admitsAll, StackKind.admitsAll, ← h.admits r hR]
    -- a request that is not admitted ends it on both sides
    cases hr : K.admits s r with
    | false => rfl
    | true => exact ih (h.related r hR hr)

theorem Refines.serveAll (h : K.Refines L R) (hR : R s t) {rs : List StackRequest}
    (ha : K.admitsAll s rs = true) :
    R (K.serveAll s rs).1 (L.serveAll t rs).1 ∧ (K.serveAll s rs).2 = (L.serveAll t rs).2 := by
  induction rs generalizing s t with
  | nil => exact ⟨hR, rfl⟩
  | cons r rs ih =>
    obtain ⟨hr, hrs⟩ := Bool.and_eq_true_iff.1 ha
    obtain ⟨hlast, hanswers⟩ := ih (h.related r hR hr) hrs
    refine ⟨hlast, ?_⟩
    rw [StackKind.serveAll, StackKind.serveAll, h.answer r hR hr, hanswers]

end Refinement

end StackKind

/-- Lists of at most sixteen addresses, the last of which is the first to be taken. -/
def boundedList : StackKind (List UInt16) where
  admits l
    | .push _ => l.length < 16
    | .pop => !l.isEmpty
  serve l
    | .push a => (l ++ [a], none)
    | .pop => (l.dropLast, l.getLast?)

namespace CallStack

/-- Call stacks, with the checks that their callers make. -/
def checked : StackKind CallStack where
  admits c
    | .push _ => !c.isFull
    | .pop => !c.isEmpty
  serve c
    | .push a => (c.push a, none)
    | .pop => (c.pop.1, some c.pop.2)

/-! ## One request -/

section Request

variable {c : CallStack}

/-- The cells are the addresses and, from the pointer on, zeros. -/
theorem toList_cells (h : c.WF) :
    c.cells.toList = c.toList ++ List.replicate (16 - c.toList.length) 0 := by
  have hlen := length_toList h
  have hle := h.pointer_le
  apply List.ext_getElem
  · simp [hlen, hle]
  · intro i hi _
    rw [Vector.length_toList] at hi
    rw [List.getElem_append]
    split
    · simp [toList]
    · next hge =>
      rw [hlen] at hge
      simpa using h.free i hi (Nat.not_lt.1 hge)

theorem isEmpty_iff (h : c.WF) : c.isEmpty = true ↔ c.toList = [] := by
  rw [← Bool.not_eq_false, isEmpty_eq_false, ← length_toList h, ← List.length_eq_zero_iff]
  omega

theorem isFull_iff (h : c.WF) : c.isFull = true ↔ c.toList.length = 16 := by
  have hle := h.pointer_le
  rw [← Bool.not_eq_false, isFull_eq_false, length_toList h]
  omega

theorem toList_pop_eq (h : c.WF) (he : c.isEmpty = false) : c.pop.1.toList = c.toList.dropLast := by
  rw [← toList_pop h he, List.dropLast_concat]

theorem popped_eq (h : c.WF) (he : c.isEmpty = false) : some c.pop.2 = c.toList.getLast? := by
  rw [← toList_pop h he, List.getLast?_concat]

/-- A well-formed stack and its list go on alike. -/
theorem checked_refines : checked.Refines boundedList fun c l => c.WF ∧ c.toList = l where
  admits := by
    rintro c _ r ⟨h, rfl⟩
    cases r with
    | push a =>
      show (!c.isFull) = decide (c.toList.length < 16)
      rw [Bool.eq_iff_iff, Bool.not_eq_true', isFull_eq_false, decide_eq_true_iff, length_toList h]
    | pop =>
      show (!c.isEmpty) = !c.toList.isEmpty
      rw [Bool.eq_iff_iff, Bool.not_eq_true', Bool.not_eq_true', isEmpty_eq_false,
        List.isEmpty_eq_false_iff, ← List.length_pos_iff, length_toList h]
  related := by
    rintro c _ r ⟨h, rfl⟩ ha
    cases r with
    | push a =>
      have hf : c.isFull = false := by simpa [checked] using ha
      exact ⟨push_wf h hf a, toList_push hf a⟩
    | pop =>
      have he : c.isEmpty = false := by simpa [checked] using ha
      exact ⟨pop_wf h he, toList_pop_eq h he⟩
  answer := by
    rintro c _ r ⟨h, rfl⟩ ha
    cases r with
    | push a => rfl
    | pop =>
      have he : c.isEmpty = false := by simpa [checked] using ha
      exact popped_eq h he

end Request

/-! ## All requests -/

/-- From the empty stack on, the sixteen cells admit the requests that the list admits, and give back
what it gives back. In the end they hold the list, oldest address first, and zeros behind it; the
pointer is its length, and the checks tell whether it is empty or has sixteen elements. Requests that
leave the same list leave the same stack. -/
theorem serves_as_list (rs : List StackRequest) :
    checked.admitsAll empty rs = boundedList.admitsAll [] rs ∧
    (checked.admitsAll empty rs = true →
      let c := (checked.serveAll empty rs).1
      let l := (boundedList.serveAll [] rs).1
      (checked.serveAll empty rs).2 = (boundedList.serveAll [] rs).2 ∧
      c.pointer.toNat = l.length ∧
      c.cells.toList = l ++ List.replicate (16 - l.length) 0 ∧
      (c.isEmpty = true ↔ l = []) ∧
      (c.isFull = true ↔ l.length = 16) ∧
      ∀ rs', checked.admitsAll empty rs' = true → (boundedList.serveAll [] rs').1 = l →
        (checked.serveAll empty rs').1 = c) := by
  have hempty : empty.WF ∧ empty.toList = [] := ⟨empty_wf, toList_empty⟩
  refine ⟨checked_refines.admitsAll_eq hempty rs, fun ha => ?_⟩
  intro c l
  obtain ⟨⟨hwf, hlist⟩, hanswers⟩ := checked_refines.serveAll hempty ha
  have hl : c.toList = l := hlist
  refine ⟨hanswers, ?_, ?_, ?_, ?_, fun rs' ha' hl' => ?_⟩
  · rw [← hl, length_toList hwf]
  · rw [← hl]
    exact toList_cells hwf
  · rw [← hl]
    exact isEmpty_iff hwf
  · rw [← hl]
    exact isFull_iff hwf
  · obtain ⟨⟨hwf', hlist'⟩, -⟩ := checked_refines.serveAll hempty ha'
    exact ext_toList hwf' hwf (by rw [hlist', hl', hl])

/-- Sixteen pushes fill the stack, three pops and a push leave fourteen addresses. The same list comes
about by fourteen pushes alone, and so does the same stack. -/
theorem serves_as_list_refilled :
    let pushes (n : Nat) := (List.range n).map fun i => StackRequest.push (UInt16.ofNat (0x202 + 2 * i))
    let rs := pushes 16 ++ [.pop, .pop, .pop, .push 0x21C]
    (checked.serveAll empty rs).2.drop 16 = [some 0x220, some 0x21E, some 0x21C, none] ∧
      (checked.serveAll empty rs).1.pointer.toNat = 14 ∧
      (checked.serveAll empty (pushes 14)).1 = (checked.serveAll empty rs).1 := by
  intro pushes rs
  have ha : checked.admitsAll empty rs = true := by decide
  obtain ⟨-, h⟩ := serves_as_list rs
  obtain ⟨hanswers, hpointer, -, -, -, hsame⟩ := h ha
  refine ⟨?_, ?_, hsame (pushes 14) (by decide) (by decide)⟩
  · rw [hanswers]
    decide
  · rw [hpointer]
    decide

end CallStack

end Chip8
