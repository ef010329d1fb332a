/-
The clock of a machine along a run. A tick that leaves the machine running ends by counting both
timers down, whatever it did before, waiting for a key included. So a timer that no word sets loses
one a tick until it is zero, and the beep lasts as many ticks as the sound timer had left when the
run began or as `FX18` gave it.
-/
import Chip8.Proofs.Machine.Halt

namespace Chip8.Machine

/-! ## Words that ticks execute -/

/-- The coming tick executes the word with this number. -/
def Executes (s : Machine) (w : Nat) : Prop := s.nextWord?.map UInt16.toNat = some w

/-- The coming tick executes `FX15`. -/
def SetsDelay (s : Machine) : Prop := ∃ x : Fin 16, s.Executes (0xF015 + 0x100 * x)

/-- The coming tick executes `FX18`. -/
def SetsSound (s : Machine) : Prop := ∃ x : Fin 16, s.Executes (0xF018 + 0x100 * x)

/-- No tick of the run leaves the machine halted. -/
def Runs (s : Machine) (samples : List Keypad) : Prop :=
  ∀ n ≤ samples.length, (s.run (samples.take n)).fault = 0

instance (s : Machine) (w : Nat) : Decidable (s.Executes w) :=
  inferInstanceAs (Decidable (_ = _))

instance (s : Machine) : Decidable s.SetsDelay :=
  inferInstanceAs (Decidable (∃ x : Fin 16, s.Executes (0xF015 + 0x100 * x)))

instance (s : Machine) : Decidable s.SetsSound :=
  inferInstanceAs (Decidable (∃ x : Fin 16, s.Executes (0xF018 + 0x100 * x)))

instance (s : Machine) (samples : List Keypad) : Decidable (s.Runs samples) :=
  inferInstanceAs (Decidable (∀ n ≤ samples.length, _))

section Words

variable {s : Machine}

theorem executes_of_next {w : UInt16} (h : s.next = .word w) : s.Executes w.toNat := by
  rw [Executes, nextWord?_eq_some_iff.2 h]
  rfl

theorem Executes.next {w : Nat} (h : s.Executes w) : ∃ u : UInt16, s.next = .word u ∧ u.toNat = w := by
  obtain ⟨u, hu, rfl⟩ := Option.map_eq_some_iff.1 h
  exact ⟨u, nextWord?_eq_some_iff.1 hu, rfl⟩

/-- A tick executes a word where a running machine that waits for no key finds it. -/
theorem executes_iff {w : Nat} : s.Executes w ↔
    s.fault = 0 ∧ s.awaiting = false ∧ s.pc.toNat + 2 ≤ 4096 ∧ s.here = w := by
  constructor
  · intro h
    obtain ⟨u, hu, rfl⟩ := h.next
    obtain ⟨hf, ha, hm, rfl⟩ := next_eq_word_iff.1 hu
    exact ⟨hf, ha, hm, (Memory.toNat_word _ hm).symm⟩
  · rintro ⟨hf, ha, hm, rfl⟩
    have hw := executes_of_next (next_eq_word_iff.2 ⟨hf, ha, hm, rfl⟩)
    rwa [Memory.toNat_word _ hm] at hw

theorem Runs.head {samples : List Keypad} (h : s.Runs samples) : s.fault = 0 :=
  h 0 (Nat.zero_le _)

theorem Runs.tail {k : Keypad} {ks : List Keypad} (h : s.Runs (k :: ks)) : (s.tick k).Runs ks :=
  fun n hn => h (n + 1) (Nat.succ_le_succ hn)

end Words

/-! ## One tick -/

section Tick

variable {s t : Machine} {i : Instruction}

theorem toNat_pred (v : UInt8) : (if 0 < v then v - 1 else v).toNat = v.toNat - 1 := by
  split
  · next h =>
    have h1 : (1 : UInt8) ≤ v := by
      rw [UInt8.lt_iff_toNat_lt] at h
      exact UInt8.le_iff_toNat_le.2 h
    rw [UInt8.toNat_sub_of_le _ _ h1]
    rfl
  · next h =>
    rw [UInt8.lt_iff_toNat_lt, UInt8.toNat_zero] at h
    omega

theorem toNat_delay_countDown (s : Machine) : s.countDown.delay.toNat = s.delay.toNat - 1 :=
  toNat_pred s.delay

theorem toNat_sound_countDown (s : Machine) : s.countDown.sound.toNat = s.sound.toNat - 1 :=
  toNat_pred s.sound

theorem beeping_countDown (s : Machine) : s.countDown.beeping = true ↔ 0 < s.sound.toNat := by
  rw [countDown, decide_eq_true_iff, UInt8.lt_iff_toNat_lt, UInt8.toNat_zero]

theorem countDownIfRunning_of_running {s : Machine} (h : s.fault = 0) :
    s.countDownIfRunning = s.countDown :=
  if_pos h

/-- A machine that still runs after a tick has counted down after one more look for a key or after
an instruction. -/
theorem tick_of_running {keys : Keypad} (h : (s.tick keys).fault = 0) :
    ∃ t : Machine, s.tick keys = t.countDown ∧
      (s.next = .awaiting ∧ t = (s.sample keys).resume ∨
        ∃ w, s.next = .word w ∧ t = (s.sample keys).fetch.1.execute (.ofWord w.toNat)) := by
  cases hn : s.next with
  | halted =>
    rw [tick_of_halted keys hn] at h
    exact absurd h (next_eq_halted_iff.1 hn)
  | overrun =>
    rw [tick_of_overrun keys hn] at h
    exact absurd h (Fault.code_ne_zero .memoryBounds)
  | awaiting =>
    rw [tick_of_awaiting keys hn, countDownIfRunning_fault] at h
    rw [tick_of_awaiting keys hn, countDownIfRunning_of_running h]
    exact ⟨_, rfl, .inl ⟨rfl, rfl⟩⟩
  | word w =>
    rw [tick_of_word keys hn, countDownIfRunning_fault] at h
    rw [tick_of_word keys hn, countDownIfRunning_of_running h]
    exact ⟨_, rfl, .inr ⟨w, rfl, rfl⟩⟩

theorem Effect.delay_eq (e : Effect s i t) : t.delay = s.delay ∨ ∃ x, i = .setDelay x := by
  cases e with
  | @delay x => exact .inr ⟨x, rfl⟩
  | _ => exact .inl rfl

theorem Effect.sound_eq (e : Effect s i t) : t.sound = s.sound ∨ ∃ x, i = .setSound x := by
  cases e with
  | @sound x => exact .inr ⟨x, rfl⟩
  | _ => exact .inl rfl

theorem resume_timers (s : Machine) : s.resume.delay = s.delay ∧ s.resume.sound = s.sound := by
  unfold resume
  split <;> exact ⟨rfl, rfl⟩

theorem setsDelay_of_next {w : UInt16} (h : s.next = .word w) {x : Fin 16}
    (hi : Instruction.ofWord w.toNat = .setDelay x) : s.SetsDelay := by
  obtain ⟨hd, hk, hx⟩ := (Instruction.ofWord_eq_iff w.toNat_lt).1 hi
  have hw : w.toNat = 0xF015 + 0x100 * x.val := by omega
  exact ⟨x, hw ▸ executes_of_next h⟩

theorem setsSound_of_next {w : UInt16} (h : s.next = .word w) {x : Fin 16}
    (hi : Instruction.ofWord w.toNat = .setSound x) : s.SetsSound := by
  obtain ⟨hd, hk, hx⟩ := (Instruction.ofWord_eq_iff w.toNat_lt).1 hi
  have hw : w.toNat = 0xF018 + 0x100 * x.val := by omega
  exact ⟨x, hw ▸ executes_of_next h⟩

/-- Before the clock, a tick has set no timer that its word does not set. -/
theorem timers_tick {keys : Keypad} (h : (s.tick keys).fault = 0) :
    ∃ t : Machine, s.tick keys = t.countDown ∧ (t.delay = s.delay ∨ s.SetsDelay) ∧
      (t.sound = s.sound ∨ s.SetsSound) := by
  obtain ⟨t, ht, ⟨-, rfl⟩ | ⟨w, hw, rfl⟩⟩ := tick_of_running h
  · obtain ⟨hd, hs⟩ := resume_timers (s.sample keys)
    exact ⟨_, ht, .inl hd, .inl hs⟩
  · have e := effect_execute (s.sample keys).fetch.1 (.ofWord w.toNat)
    refine ⟨_, ht, e.delay_eq.imp_right ?_, e.sound_eq.imp_right ?_⟩
    · rintro ⟨x, hx⟩
      exact setsDelay_of_next hw hx
    · rintro ⟨x, hx⟩
      exact setsSound_of_next hw hx

theorem delay_tick {keys : Keypad} (h : (s.tick keys).fault = 0) (hn : ¬ s.SetsDelay) :
    (s.tick keys).delay.toNat = s.delay.toNat - 1 := by
  obtain ⟨t, ht, hd, -⟩ := timers_tick h
  rw [ht, toNat_delay_countDown, hd.resolve_right hn]

theorem sound_tick {keys : Keypad} (h : (s.tick keys).fault = 0) (hn : ¬ s.SetsSound) :
    (s.tick keys).sound.toNat = s.sound.toNat - 1 ∧
      ((s.tick keys).beeping = true ↔ 0 < s.sound.toNat) := by
  obtain ⟨t, ht, -, hs⟩ := timers_tick h
  rw [ht, toNat_sound_countDown, beeping_countDown, hs.resolve_right hn]
  exact ⟨rfl, Iff.rfl⟩

/-- `FX18` counts from the register's value on, in the very tick that executes it. -/
theorem sound_tick_of_set {x : Fin 16} (h : s.Executes (0xF018 + 0x100 * x)) (keys : Keypad) :
    (s.tick keys).sound.toNat = (s.register x).toNat - 1 ∧
      ((s.tick keys).beeping = true ↔ 0 < (s.register x).toNat) := by
  obtain ⟨w, hw, hval⟩ := h.next
  have hi : Instruction.ofWord w.toNat = .setSound x :=
    (Instruction.ofWord_eq_iff w.toNat_lt).2 ⟨by omega, by omega, by omega⟩
  have hrun : ((s.sample keys).fetch.1.execute (.setSound x)).fault = 0 := (next_eq_word_iff.1 hw).1
  rw [tick_of_word keys hw, hi, countDownIfRunning_of_running hrun, toNat_sound_countDown,
    beeping_countDown]
  exact ⟨rfl, Iff.rfl⟩

end Tick

/-! ## Runs -/

section Run

variable {s : Machine} {samples : List Keypad}

/-- A timer that every tick of a run counts down, unless its word sets it. -/
theorem timer_run {timer : Machine → UInt8} {Sets : Machine → Prop}
    (hstep : ∀ {s : Machine} {keys : Keypad}, (s.tick keys).fault = 0 → ¬ Sets s →
      (timer (s.tick keys)).toNat = (timer s).toNat - 1)
    (hr : s.Runs samples) (hn : ∀ n < samples.length, ¬ Sets (s.run (samples.take n))) :
    (timer (s.run samples)).toNat = (timer s).toNat - samples.length := by
  induction samples generalizing s with
  | nil => rfl
  | cons k ks ih =>
    have hk := hstep hr.tail.head (hn 0 (Nat.zero_lt_succ _))
    have hks := ih hr.tail fun n h => hn (n + 1) (Nat.succ_lt_succ h)
    rw [run_cons, hks, hk, List.length_cons]
    omega

theorem delay_run (hr : s.Runs samples)
    (hn : ∀ n < samples.length, ¬ (s.run (samples.take n)).SetsDelay) :
    (s.run samples).delay.toNat = s.delay.toNat - samples.length :=
  timer_run delay_tick hr hn

theorem sound_run (hr : s.Runs samples)
    (hn : ∀ n < samples.length, ¬ (s.run (samples.take n)).SetsSound) :
    (s.run samples).sound.toNat = s.sound.toNat - samples.length :=
  timer_run (fun h hs => (sound_tick h hs).1) hr hn

/-- The beep sounds after the first ticks, as many as the sound timer had left. -/
theorem beeping_run (hr : s.Runs samples)
    (hn : ∀ n < samples.length, ¬ (s.run (samples.take n)).SetsSound) {n : Nat} (hpos : 1 ≤ n)
    (hle : n ≤ samples.length) :
    (s.run (samples.take n)).beeping = true ↔ n ≤ s.sound.toNat := by
  induction samples generalizing s n with
  | nil => exact absurd (Nat.le_trans hpos hle) (Nat.not_succ_le_zero 0)
  | cons k ks ih =>
    obtain ⟨hk, hb⟩ := sound_tick hr.tail.head (hn 0 (Nat.zero_lt_succ _))
    obtain ⟨n, rfl⟩ := Nat.exists_eq_succ_of_ne_zero (Nat.pos_iff_ne_zero.1 hpos)
    rw [Nat.succ_eq_add_one, List.take_succ_cons, run_cons]
    cases n with
    | zero => exact hb
    | succ n =>
      have hks := ih hr.tail (fun m h => hn (m + 1) (Nat.succ_lt_succ h)) (Nat.succ_pos n)
        (Nat.le_of_succ_le_succ hle)
      rw [hks, hk]
      omega

/-- The same for a run that `FX18` begins: the tick that executes it is the first to sound. -/
theorem beeping_run_of_set {x : Fin 16} (h : s.Executes (0xF018 + 0x100 * x)) (hr : s.Runs samples)
    (hn : ∀ n, 1 ≤ n → n < samples.length → ¬ (s.run (samples.take n)).SetsSound) {n : Nat}
    (hpos : 1 ≤ n) (hle : n ≤ samples.length) :
    (s.run (samples.take n)).beeping = true ↔ n ≤ (s.register x).toNat := by
  cases samples with
  | nil => exact absurd (Nat.le_trans hpos hle) (Nat.not_succ_le_zero 0)
  | cons k ks =>
    obtain ⟨hk, hb⟩ := sound_tick_of_set h k
    obtain ⟨n, rfl⟩ := Nat.exists_eq_succ_of_ne_zero (Nat.pos_iff_ne_zero.1 hpos)
    rw [Nat.succ_eq_add_one, List.take_succ_cons, run_cons]
    cases n with
    | zero => exact hb
    | succ n =>
      have hks := beeping_run hr.tail
        (fun m h => hn (m + 1) (Nat.succ_pos m) (Nat.succ_lt_succ h)) (Nat.succ_pos n)
        (Nat.le_of_succ_le_succ hle)
      rw [hks, hk]
      omega

/-- Along a run that never halts, waiting ticks included: a timer that no word sets has lost one a
tick; the beep sounds after exactly the first ticks, as many as the sound timer had left; and from
`FX18` on, after exactly as many as the register says, that tick included. -/
theorem Runs.timers_count_ticks (hr : s.Runs samples) :
    ((∀ n < samples.length, ¬ (s.run (samples.take n)).SetsDelay) →
      (s.run samples).delay.toNat = s.delay.toNat - samples.length) ∧
    ((∀ n < samples.length, ¬ (s.run (samples.take n)).SetsSound) →
      (s.run samples).sound.toNat = s.sound.toNat - samples.length ∧
      ∀ n, 1 ≤ n → n ≤ samples.length →
        ((s.run (samples.take n)).beeping = true ↔ n ≤ min samples.length s.sound.toNat)) ∧
    (∀ x : Fin 16, s.Executes (0xF018 + 0x100 * x) →
      (∀ n, 1 ≤ n → n < samples.length → ¬ (s.run (samples.take n)).SetsSound) →
      ∀ n, 1 ≤ n → n ≤ samples.length →
        ((s.run (samples.take n)).beeping = true ↔
          n ≤ min samples.length (s.register x).toNat)) := by
  refine ⟨delay_run hr, fun hn => ⟨sound_run hr hn, fun n hpos hle => ?_⟩,
    fun x hx hn n hpos hle => ?_⟩
  · rw [beeping_run hr hn hpos hle]
    omega
  · rw [beeping_run_of_set hx hr hn hpos hle]
    omega

/-- A tone of two ticks, the second of them a waiting one. -/
theorem timers_count_ticks_wait :
    let s := ((fresh (.ofSeed 0) false).withProgram [0x60, 0x02, 0xF0, 0x18, 0xF1, 0x0A]).run
      [Keypad.released]
    let samples := List.replicate 4 Keypad.released
    s.Runs samples ∧ (s.run samples).delay.toNat = s.delay.toNat - 4 ∧
      (s.run (samples.take 2)).beeping = true ∧ (s.run (samples.take 3)).beeping = false ∧
      ((s.run [Keypad.released]).run [Keypad.released]).sound = 0 := by
  intro s samples
  have hall : s.Runs samples ∧ s.Executes (0xF018 + 0x100 * (0 : Fin 16)) ∧
      (∀ n < samples.length, ¬ (s.run (samples.take n)).SetsDelay) ∧
      (∀ n < samples.length, 1 ≤ n → ¬ (s.run (samples.take n)).SetsSound) ∧
      (s.run [Keypad.released]).Runs [Keypad.released] ∧
      (∀ n < 1, ¬ ((s.run [Keypad.released]).run ([Keypad.released].take n)).SetsSound) ∧
      (s.register 0).toNat = 2 ∧ (s.run [Keypad.released]).sound.toNat = 1 := by
    decide +kernel
  obtain ⟨hr, hx, hdelay, hsound, hr', hsound', hv, ht⟩ := hall
  obtain ⟨hd, -, hset⟩ := hr.timers_count_ticks
  have hbeep := hset 0 hx fun n hpos hlt => hsound n hlt hpos
  rw [hv] at hbeep
  obtain ⟨hrest, -⟩ := hr'.timers_count_ticks.2.1 hsound'
  refine ⟨hr, hd hdelay, ?_, ?_, ?_⟩
  · exact (hbeep 2 (by decide) (by decide)).2 (by decide)
  · exact Bool.eq_false_iff.2 fun h => absurd ((hbeep 3 (by decide) (by decide)).1 h) (by decide)
  · rw [ht] at hrest
    exact UInt8.toNat_inj.1 hrest

end Run

end Chip8.Machine
