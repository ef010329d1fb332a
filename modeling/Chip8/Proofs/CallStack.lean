/-
The call stack as a list of return addresses. On a well-formed stack the cells below the pointer
are the list, oldest address first, and all others are zero; `push` appends to the list, `pop` takes
its last element, and a well-formed stack is determined by its list.
-/
import Chip8.CallStack

namespace Chip8.CallStack

/-- The addresses below the pointer, the oldest first. -/
def toList (c : CallStack) : List UInt16 := c.cells.toList.take c.pointer.toNat

/-- The pointer is no larger than the number of cells, and the cells from it on are zero. -/
structure WF (c : CallStack) : Prop where
  pointer_le : c.pointer.toNat ≤ 16
  free : ∀ (i : Nat) (h : i < 16), c.pointer.toNat ≤ i → c.cells[i] = 0

variable {c : CallStack}

theorem isFull_eq_false : c.isFull = false ↔ c.pointer.toNat < 16 := by
  simp [isFull, UInt8.le_iff_toNat_le]

theorem isEmpty_eq_false : c.isEmpty = false ↔ 0 < c.pointer.toNat := by
  simp [isEmpty, ← UInt8.toNat_inj, Nat.pos_iff_ne_zero]

theorem length_toList (h : c.WF) : c.toList.length = c.pointer.toNat := by
  simp [toList, h.pointer_le]

theorem getElem?_toList (i : Nat) :
    c.toList[i]? = if i < c.pointer.toNat then c.cells[i]? else none := by
  simp [toList, List.getElem?_take]

/-- Well-formed stacks with the same addresses are the same, cell by cell. -/
theorem ext_toList {a b : CallStack} (ha : a.WF) (hb : b.WF) (h : a.toList = b.toList) : a = b := by
  have hp : a.pointer = b.pointer := by
    rw [← UInt8.toNat_inj, ← length_toList ha, ← length_toList hb, h]
  have hc : a.cells = b.cells := by
    ext i hi : 1
    by_cases hlt : i < a.pointer.toNat
    · have hi' := congrArg (·[i]?) h
      simp only [getElem?_toList, ← hp, hlt, if_true] at hi'
      simpa [hi] using hi'
    · rw [ha.free i hi (by omega), hb.free i hi (by rw [← hp]; omega)]
  cases a; cases b
  simp_all

theorem empty_wf : empty.WF := ⟨by decide, fun i hi _ => by simp [empty]⟩

theorem toList_empty : empty.toList = [] := by simp [toList, empty]

/-! ## Pushing -/

theorem pointer_push (hf : c.isFull = false) (a : UInt16) :
    (c.push a).pointer.toNat = c.pointer.toNat + 1 := by
  have := isFull_eq_false.1 hf
  simp only [push, UInt8.toNat_add, UInt8.toNat_one]
  omega

theorem push_wf (h : c.WF) (hf : c.isFull = false) (a : UInt16) : (c.push a).WF := by
  have hp := pointer_push hf a
  have := isFull_eq_false.1 hf
  refine ⟨by omega, fun i hi hle => ?_⟩
  have hne : c.pointer.toNat ≠ i := by omega
  simp only [push, Vector.getElem_setIfInBounds_ne hi hne]
  exact h.free i hi (by omega)

theorem toList_push (hf : c.isFull = false) (a : UInt16) : (c.push a).toList = c.toList ++ [a] := by
  have hlt := isFull_eq_false.1 hf
  have hset : (c.push a).cells.toList = c.cells.toList.set c.pointer.toNat a := by simp [push]
  have hlen : c.pointer.toNat < (c.cells.toList.set c.pointer.toNat a).length := by simpa using hlt
  rw [toList, toList, pointer_push hf, hset, List.take_succ_eq_append_getElem hlen,
    List.take_set_of_le (Nat.le_refl _), List.getElem_set_self]

/-! ## Popping -/

theorem pointer_pop (he : c.isEmpty = false) : c.pop.1.pointer.toNat = c.pointer.toNat - 1 := by
  have := isEmpty_eq_false.1 he
  have hle : 1 ≤ c.pointer := by rw [UInt8.le_iff_toNat_le]; exact this
  rw [pop, UInt8.toNat_sub_of_le _ _ hle, UInt8.toNat_one]

theorem pop_wf (h : c.WF) (he : c.isEmpty = false) : c.pop.1.WF := by
  have hp := pointer_pop he
  have := h.pointer_le
  refine ⟨by omega, fun i hi hle => ?_⟩
  have hcells : c.pop.1.cells = c.cells.setIfInBounds c.pop.1.pointer.toNat 0 := rfl
  simp only [hcells, Vector.getElem_setIfInBounds hi]
  split
  · rfl
  · exact h.free i hi (by omega)

/-- The popped address stood last in the list. -/
theorem toList_pop (h : c.WF) (he : c.isEmpty = false) : c.pop.1.toList ++ [c.pop.2] = c.toList := by
  have hp := pointer_pop he
  have hpos := isEmpty_eq_false.1 he
  have hle := h.pointer_le
  have hset : c.pop.1.cells.toList = c.cells.toList.set c.pop.1.pointer.toNat 0 := by simp [pop]
  have hlen : c.pop.1.pointer.toNat < c.cells.toList.length := by simp; omega
  have hread : c.pop.2 = c.cells.toList[c.pop.1.pointer.toNat] := by
    have hlt : c.pop.1.pointer.toNat < 16 := by omega
    rw [Vector.getElem_toList]
    exact dif_pos hlt
  have hn : c.pointer.toNat = c.pop.1.pointer.toNat + 1 := by omega
  rw [toList, toList, hset, List.take_set_of_le (Nat.le_refl _), hread, hn,
    List.take_succ_eq_append_getElem hlen]

end Chip8.CallStack
