/-
Requests to draw. A tick asks for its screen to be drawn exactly if it executes `00E0`, or `DXYN`
without being stopped; and where it does not ask, the screen is the one from before. So a picture
that is drawn whenever a tick asks for it is never out of date.
-/
import Chip8.Proofs.Machine.Clock

namespace Chip8

/-! ## Instructions that paint -/

namespace Instruction

/-- `CLS` and `DRW`. -/
def Paints (i : Instruction) : Prop := i = clear ∨ ∃ x y n, i = draw x y n

variable {w : Nat}

theorem ofWord_eq_clear_iff (h : w < 65536) : ofWord w = clear ↔ w = 0x00E0 := ofWord_eq_iff h

theorem ofWord_eq_draw_iff (h : w < 65536) : (∃ x y n, ofWord w = draw x y n) ↔ w / 0x1000 = 0xD := by
  constructor
  · rintro ⟨x, y, n, hi⟩
    exact ((ofWord_eq_iff h).1 hi).1
  · intro hd
    have hlt (a : Nat) : a % 0x10 < 16 := Nat.mod_lt a (by decide)
    exact ⟨⟨_, hlt (w / 0x100)⟩, ⟨_, hlt (w / 0x10)⟩, ⟨_, hlt w⟩,
      (ofWord_eq_iff h).2 ⟨hd, rfl, rfl, rfl⟩⟩

end Instruction

namespace Machine

section Instructions

variable {s t : Machine} {i : Instruction}

/-- An instruction leaves the screen alone, or it paints and asks for the screen to be drawn. -/
theorem Effect.screen (e : Effect s i t) :
    t.screen = s.screen ∧ t.redraw = s.redraw ∨ i.Paints ∧ t.redraw = true := by
  cases e with
  | clear => exact .inr ⟨.inl rfl, rfl⟩
  | draw => exact .inr ⟨.inr ⟨_, _, _, rfl⟩, rfl⟩
  | _ => exact .inl ⟨rfl, rfl⟩

theorem redraw_of_paints (hi : i.Paints) (ho : s.obstacle? i = none) : (s.execute i).redraw = true := by
  obtain rfl | ⟨x, y, n, rfl⟩ := hi
  · rfl
  · rw [execute, Machine.draw, if_pos ((not_overruns_draw ..).1 (not_overruns_of_clear ho))]

/-- An instruction that halts the machine asks for nothing. -/
theorem fault_execute_of_redraw (hs : s.redraw = false) (hf : s.fault = 0)
    (h : (s.execute i).redraw = true) : (s.execute i).fault = 0 := by
  cases ho : s.obstacle? i with
  | none => exact ((effect_execute s i).fault_eq ho).trans hf
  | some f =>
    rw [execute_of_obstacle ho] at h
    exact absurd (hs.symm.trans h) Bool.false_ne_true

end Instructions

/-! ## Ticks -/

section Tick

variable {s : Machine} {keys : Keypad}

theorem countDownIfRunning_screen (s : Machine) : s.countDownIfRunning.screen = s.screen ∧
    s.countDownIfRunning.redraw = s.redraw := by
  unfold countDownIfRunning
  split <;> exact ⟨rfl, rfl⟩

theorem resume_screen (s : Machine) : s.resume.screen = s.screen ∧ s.resume.redraw = s.redraw := by
  unfold resume
  split <;> exact ⟨rfl, rfl⟩

theorem screen_tick_of_awaiting (hn : s.next = .awaiting) (keys : Keypad) :
    (s.tick keys).screen = s.screen ∧ (s.tick keys).redraw = false := by
  obtain ⟨hc, hc'⟩ := countDownIfRunning_screen (s.sample keys).resume
  obtain ⟨hr, hr'⟩ := resume_screen (s.sample keys)
  rw [tick_of_awaiting keys hn, hc, hc', hr, hr']
  exact ⟨rfl, rfl⟩

/-- A tick that asks for no drawing leaves the screen alone. -/
theorem screen_tick_of_not_redraw (h : (s.tick keys).redraw = false) :
    (s.tick keys).screen = s.screen := by
  cases hn : s.next with
  | halted => rw [tick_of_halted keys hn, sample]
  | overrun => rw [tick_of_overrun keys hn, halt, sample]
  | awaiting => exact (screen_tick_of_awaiting hn keys).1
  | word w =>
    obtain ⟨hc, hc'⟩ :=
      countDownIfRunning_screen ((s.sample keys).fetch.1.execute (.ofWord w.toNat))
    rw [tick_of_word keys hn, hc'] at h
    rw [tick_of_word keys hn, hc]
    rcases (effect_execute (s.sample keys).fetch.1 (.ofWord w.toNat)).screen with
      ⟨hsame, -⟩ | ⟨-, hdrawn⟩
    · exact hsame
    · exact absurd (h.symm.trans hdrawn) Bool.false_ne_true

theorem redraw_tick_of_screen_ne (h : (s.tick keys).screen ≠ s.screen) :
    (s.tick keys).redraw = true := by
  cases hr : (s.tick keys).redraw with
  | true => rfl
  | false => exact absurd (screen_tick_of_not_redraw hr) h

theorem redraw_tick_of_word {w : UInt16} (hn : s.next = .word w) :
    (s.tick keys).redraw = true ↔
      (Instruction.ofWord w.toNat).Paints ∧ (s.tick keys).fault = 0 := by
  rw [tick_of_word keys hn, (countDownIfRunning_screen _).2, countDownIfRunning_fault]
  constructor
  · intro h
    refine ⟨?_, fault_execute_of_redraw rfl (next_eq_word_iff.1 hn).1 h⟩
    rcases (effect_execute (s.sample keys).fetch.1 (.ofWord w.toNat)).screen with
      ⟨-, hsame⟩ | ⟨hi, -⟩
    · exact absurd (hsame.symm.trans h) Bool.false_ne_true
    · exact hi
  · rintro ⟨hi, hf⟩
    exact redraw_of_paints hi (obstacle?_eq_none_of_fault hf)

theorem fault_tick_of_clear (h : s.Executes 0x00E0) (keys : Keypad) : (s.tick keys).fault = 0 := by
  obtain ⟨w, hw, hval⟩ := h.next
  rw [tick_of_word keys hw, countDownIfRunning_fault,
    (Instruction.ofWord_eq_clear_iff w.toNat_lt).2 hval]
  exact (next_eq_word_iff.1 hw).1

/-- Exactly `00E0` and a `DXYN` that does not halt the machine ask for drawing. -/
theorem redraw_tick_iff (s : Machine) (keys : Keypad) : (s.tick keys).redraw = true ↔
    s.Executes 0x00E0 ∨ (∃ w, s.Executes w ∧ w / 0x1000 = 0xD) ∧ (s.tick keys).fault = 0 := by
  constructor
  · intro h
    cases hn : s.next with
    | halted =>
      rw [tick_of_halted keys hn] at h
      exact absurd h Bool.false_ne_true
    | overrun =>
      rw [tick_of_overrun keys hn] at h
      exact absurd h Bool.false_ne_true
    | awaiting => exact absurd ((screen_tick_of_awaiting hn keys).2.symm.trans h) Bool.false_ne_true
    | word w =>
      obtain ⟨hi | hi, hf⟩ := (redraw_tick_of_word hn).1 h
      · have hw : w.toNat = 0x00E0 := (Instruction.ofWord_eq_clear_iff w.toNat_lt).1 hi
        exact .inl (hw ▸ executes_of_next hn)
      · exact .inr ⟨⟨_, executes_of_next hn, (Instruction.ofWord_eq_draw_iff w.toNat_lt).1 hi⟩, hf⟩
  · rintro (h | ⟨⟨v, h, hd⟩, hf⟩)
    · obtain ⟨w, hw, hval⟩ := h.next
      have hi := (Instruction.ofWord_eq_clear_iff w.toNat_lt).2 hval
      exact (redraw_tick_of_word hw).2 ⟨.inl hi, fault_tick_of_clear h keys⟩
    · obtain ⟨w, hw, rfl⟩ := h.next
      have hi := (Instruction.ofWord_eq_draw_iff w.toNat_lt).2 hd
      exact (redraw_tick_of_word hw).2 ⟨.inr hi, hf⟩

/-- A tick that halts the machine leaves the screen alone. -/
theorem screen_tick_of_fault (h : (s.tick keys).fault ≠ 0) : (s.tick keys).screen = s.screen := by
  refine screen_tick_of_not_redraw (Bool.eq_false_iff.2 fun hr => ?_)
  rcases (redraw_tick_iff s keys).1 hr with hc | ⟨-, hf⟩
  · exact h (fault_tick_of_clear hc keys)
  · exact h hf

end Tick

end Machine

end Chip8
