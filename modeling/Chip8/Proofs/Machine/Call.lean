/-
Calls and returns. A tick changes the call stack only by `2NNN`, which puts the address behind the
call on top, and by `00EE`, which takes the top off; so the lower part of the stack stays as it is
for as long as no tick uncovers it, and a return that uncovers the stack of a call goes back to the
address behind that call.
-/
import Chip8.Proofs.Machine.Invariant

namespace Chip8.Machine

/-! ## The stack under a tick -/

section Tick

variable {s t : Machine} {i : Instruction}

/-- An instruction keeps the stack, or it is a call and pushes the program counter, or it is a return
and pops an address. -/
theorem Effect.stack (e : Effect s i t) :
    t.stack = s.stack ∨
      (∃ a, i = .call a) ∧ s.stack.isFull = false ∧ t.stack = s.stack.push s.pc ∨
      i = .ret ∧ s.stack.isEmpty = false ∧ t.stack = s.stack.pop.1 := by
  cases e with
  | @call a hf => exact .inr (.inl ⟨⟨a, rfl⟩, hf, rfl⟩)
  | ret he => exact .inr (.inr ⟨rfl, he, rfl⟩)
  | _ => exact .inl rfl

/-- Only the words `2NNN` and `00EE` change the stack. -/
theorem stack_tick (s : Machine) (keys : Keypad) :
    (s.tick keys).stack = s.stack ∨
      (∃ w, s.nextWord? = some w ∧ w.toNat / 0x1000 = 2) ∧ s.stack.isFull = false ∧
        (s.tick keys).stack = s.stack.push (s.pc + 2) ∨
      s.nextWord? = some 0x00EE ∧ s.stack.isEmpty = false ∧ (s.tick keys).stack = s.stack.pop.1 := by
  rcases byInstructions_stack.tick s keys with hsame | ⟨w, hn, hexecute⟩
  · exact .inl hsame
  · have hw := nextWord?_eq_some_iff.2 hn
    rw [hexecute]
    rcases (effect_execute (s.sample keys).fetch.1 (.ofWord w.toNat)).stack with
      h | ⟨ha, h⟩ | ⟨hr, h⟩
    · exact .inl h
    · exact .inr (.inl ⟨⟨w, hw, (Instruction.ofWord_eq_call_iff w.toNat_lt).1 ha⟩, h⟩)
    · have hret : w = 0x00EE :=
        UInt16.toNat_inj.1 ((Instruction.ofWord_eq_ret_iff w.toNat_lt).1 hr)
      exact .inr (.inr ⟨hret ▸ hw, h⟩)

theorem stack_tick_of_call {w : UInt16} (hw : s.nextWord? = some w) (hc : w.toNat / 0x1000 = 2)
    (hf : s.stack.isFull = false) (keys : Keypad) :
    (s.tick keys).stack = s.stack.push (s.pc + 2) := by
  obtain ⟨a, ha⟩ := (Instruction.ofWord_eq_call_iff w.toNat_lt).2 hc
  rw [tick_of_word keys (nextWord?_eq_some_iff.1 hw), countDownIfRunning_stack, ha,
    execute_call (s := (s.sample keys).fetch.1) hf]
  rfl

theorem tick_of_ret (hw : s.nextWord? = some 0x00EE) (he : s.stack.isEmpty = false) (keys : Keypad) :
    (s.tick keys).stack = s.stack.pop.1 ∧ (s.tick keys).pc = s.stack.pop.2 := by
  have hi : Instruction.ofWord (0x00EE : UInt16).toNat = .ret := by decide
  rw [tick_of_word keys (nextWord?_eq_some_iff.1 hw), countDownIfRunning_stack, countDownIfRunning_pc,
    hi, execute_ret (s := (s.sample keys).fetch.1) he]
  exact ⟨rfl, rfl⟩

end Tick

/-! ## The covered part of the stack -/

section Covered

variable {s : Machine} {below : List UInt16}

/-- A tick keeps the addresses that it does not uncover. -/
theorem covered_tick (hs : s.Sound) (h : below <+: s.stack.toList) (keys : Keypad)
    (hd : below.length ≤ (s.tick keys).stack.pointer.toNat) : below <+: (s.tick keys).stack.toList := by
  rcases stack_tick s keys with hk | ⟨-, hf, hk⟩ | ⟨-, he, hk⟩
  · rw [hk]
    exact h
  · rw [hk, CallStack.toList_push hf]
    exact h.trans (List.prefix_append _ _)
  · -- the popped address is not one of `below`: what remains is at least as long
    rw [hk] at hd ⊢
    have hpop : s.stack.pop.1.toList <+: s.stack.toList := by
      rw [← CallStack.toList_pop hs.stack he]
      exact List.prefix_append _ _
    refine List.prefix_of_prefix_length_le h hpop ?_
    rw [CallStack.length_toList (CallStack.pop_wf hs.stack he)]
    exact hd

theorem covered_run (hs : s.Sound) (h : below <+: s.stack.toList) {samples : List Keypad}
    (hd : ∀ n ≤ samples.length, below.length ≤ (s.run (samples.take n)).stack.pointer.toNat) :
    below <+: (s.run samples).stack.toList := by
  induction samples generalizing s with
  | nil => exact h
  | cons k ks ih =>
    apply ih (hs.tick k)
    · exact covered_tick hs h k (hd 1 (by simp))
    · intro n hn
      exact hd (n + 1) (Nat.succ_le_succ hn)

end Covered

/-! ## Round trips -/

/-- From a call that finds room, through any ticks that leave its address covered, to the return
that uncovers it: the machine continues behind the call with the stack it had before. A run that
halts on the way reaches no return. -/
theorem Reachable.return_of_call {s : Machine} (h : Reachable s) {w : UInt16}
    (hw : s.nextWord? = some w) (hc : w.toNat / 0x1000 = 2) (hp : s.stack.pointer.toNat < 16)
    (call : Keypad) {inner : List Keypad}
    (hd : ∀ n ≤ inner.length,
      s.stack.pointer.toNat + 1 ≤ (s.run (call :: inner.take n)).stack.pointer.toNat)
    (hend : (s.run (call :: inner)).stack.pointer.toNat = s.stack.pointer.toNat + 1)
    (hret : (s.run (call :: inner)).nextWord? = some 0x00EE) (back : Keypad) :
    ((s.run (call :: inner)).tick back).pc.toNat = s.pc.toNat + 2 ∧
      ((s.run (call :: inner)).tick back).stack = s.stack := by
  have hs := h.sound
  have ht := (h.run (call :: inner)).sound
  have hf := CallStack.isFull_eq_false.2 hp
  have he : (s.run (call :: inner)).stack.isEmpty = false := by
    rw [CallStack.isEmpty_eq_false]
    omega
  have hlen : (s.stack.toList ++ [s.pc + 2]).length = s.stack.pointer.toNat + 1 := by
    simp [CallStack.length_toList hs.stack]
  have hcalled : s.stack.toList ++ [s.pc + 2] <+: (s.tick call).stack.toList := by
    simp only [stack_tick_of_call hw hc hf, CallStack.toList_push hf, List.prefix_rfl]
  have hcovered : s.stack.toList ++ [s.pc + 2] = (s.run (call :: inner)).stack.toList := by
    rw [← hlen] at hd
    refine (covered_run (hs.tick call) hcalled hd).eq_of_length ?_
    show _ = (s.run (call :: inner)).stack.toList.length
    rw [hlen, CallStack.length_toList ht.stack, hend]
  -- so the top of the stack is the address behind the call, and below it is the old stack
  rw [← CallStack.toList_pop ht.stack he] at hcovered
  obtain ⟨hlist, haddr⟩ := List.append_inj' hcovered rfl
  obtain ⟨hstack, hpc⟩ := tick_of_ret hret he back
  constructor
  · obtain ⟨-, -, hm, -⟩ := next_eq_word_iff.1 (nextWord?_eq_some_iff.1 hw)
    rw [hpc, ← List.singleton_inj.1 haddr, toNat_add_two (by omega)]
  · rw [hstack]
    exact CallStack.ext_toList (CallStack.pop_wf ht.stack he) hs.stack hlist.symm

/-- A call whose subroutine calls another. -/
theorem return_of_call_nested :
    let s := (fresh (.ofSeed 0) true).loadOrKeep
      [0x22, 0x06, 0x12, 0x02, 0x00, 0x00, 0x22, 0x0A, 0x00, 0xEE, 0x00, 0xEE]
    let t := s.run [Keypad.released, Keypad.released, Keypad.released]
    t.stack.pointer.toNat = s.stack.pointer.toNat + 1 ∧ t.nextWord? = some 0x00EE ∧
      ∀ back, (t.tick back).pc.toNat = s.pc.toNat + 2 ∧ (t.tick back).stack = s.stack := by
  intro s t
  have h : Reachable s := .load _ (.fresh _ _)
  have hall : s.nextWord? = some 0x2206 ∧ s.stack.pointer.toNat < 16 ∧
      (∀ n ≤ 2, s.stack.pointer.toNat + 1 ≤
        (s.run (Keypad.released :: [Keypad.released, Keypad.released].take n)).stack.pointer.toNat) ∧
      t.stack.pointer.toNat = s.stack.pointer.toNat + 1 ∧ t.nextWord? = some 0x00EE := by
    decide +kernel
  obtain ⟨hw, hp, hd, hend, hret⟩ := hall
  exact ⟨hend, hret, h.return_of_call hw (by decide) hp _ hd hend hret⟩

end Chip8.Machine
