/-
Waiting for a key. `FX0A` takes a key that is down at once; else it makes the machine wait, and from
then on ticks look for a key and fetch nothing. So a wait of any length ends as if `FX0A` had been
executed at the moment at which the key came, but for the clock, which went on, and the number of
the register, which stays noted.

That a waiting machine stands behind the `FX0A` that it waits for is an invariant of runs: nothing
that happens while it waits moves the program counter or writes to memory.
-/
import Chip8.Proofs.Machine.Clock

namespace Chip8

/-! ## The lowest key -/

namespace Keypad

/-- The key is down and no lower one is. -/
def IsLowest (keys : Keypad) (k : Fin 16) : Prop :=
  keys.isDown k = true ∧ ∀ j < k, keys.isDown j = false

instance (keys : Keypad) (k : Fin 16) : Decidable (keys.IsLowest k) :=
  inferInstanceAs (Decidable (_ ∧ _))

theorem lowest?_of_isLowest {keys : Keypad} {k : Fin 16} (h : keys.IsLowest k) :
    keys.lowest? = some k := by
  rw [lowest?, List.find?_eq_some_iff_getElem]
  refine ⟨h.1, k, by simp, by simp, fun j hj => ?_⟩
  have hlt : j < 16 := Nat.lt_trans hj k.isLt
  simpa using h.2 ⟨j, hlt⟩ hj

theorem lowest?_released : released.lowest? = none := by
  rw [lowest?_eq_none_iff]
  intro i
  exact Vector.getElem_replicate i.isLt

end Keypad

namespace Machine

/-! ## Counting down -/

/-- A timer after so many ticks that only count it down. -/
def timerAfter (v : UInt8) (n : Nat) : UInt8 := UInt8.ofNat (v.toNat - n)

theorem toNat_timerAfter (v : UInt8) (n : Nat) : (timerAfter v n).toNat = v.toNat - n := by
  have := v.toNat_lt
  rw [timerAfter, UInt8.toNat_ofNat']
  omega

theorem timerAfter_timerAfter (v : UInt8) (m n : Nat) :
    timerAfter (timerAfter v m) n = timerAfter v (m + n) := by
  rw [← UInt8.toNat_inj, toNat_timerAfter, toNat_timerAfter, toNat_timerAfter]
  omega

theorem countDown_eq (s : Machine) : s.countDown = { s with
    delay := timerAfter s.delay 1
    sound := timerAfter s.sound 1
    beeping := decide (1 ≤ s.sound.toNat) } := by
  have hpred (v : UInt8) : (if 0 < v then v - 1 else v) = timerAfter v 1 := by
    rw [← UInt8.toNat_inj, toNat_pred, toNat_timerAfter]
  have hbeep : decide (0 < s.sound) = decide (1 ≤ s.sound.toNat) := by
    rw [decide_eq_decide, UInt8.lt_iff_toNat_lt, UInt8.toNat_zero]
    exact Iff.rfl
  rw [countDown, hpred, hpred, hbeep]

/-! ## The wait -/

section Wait

variable {s : Machine} {x k : Fin 16} {keys : Keypad}

/-- A machine that has come upon `FX0A` and has seen no key in so many ticks, that one included. -/
def waiting (s : Machine) (x : Fin 16) (n : Nat) : Machine :=
  { s with
    pc := s.pc + 2
    delay := timerAfter s.delay n
    sound := timerAfter s.sound n
    keypad := Keypad.released
    redraw := false
    beeping := decide (n ≤ s.sound.toNat)
    awaiting := true
    keyRegister := UInt8.ofNat x }

theorem waitKey_of_lowest (h : s.keypad.lowest? = some k) (x : Fin 16) :
    s.waitKey x = s.setRegister x (UInt8.ofNat k) := by
  rw [waitKey, h]

theorem waitKey_of_none (h : s.keypad.lowest? = none) (x : Fin 16) :
    s.waitKey x = { s with awaiting := true, keyRegister := UInt8.ofNat x } := by
  rw [waitKey, h]

theorem resume_of_lowest (h : s.keypad.lowest? = some k) : s.resume = { s with
    registers := s.registers.setIfInBounds s.keyRegister.toNat (UInt8.ofNat k)
    awaiting := false } := by
  rw [resume, h]

theorem resume_of_none (h : s.keypad.lowest? = none) : s.resume = s := by
  rw [resume, h]

theorem toNat_ofNat_register (x : Fin 16) : (UInt8.ofNat x).toNat = x := by
  rw [UInt8.toNat_ofNat']
  omega

theorem ofWord_waitKey_iff {w : Nat} (h : w < 65536) :
    Instruction.ofWord w = .waitKey x ↔ w = 0xF00A + 0x100 * x := by
  rw [Instruction.ofWord_eq_iff h, Instruction.Stands]
  omega

theorem tick_of_waitKey (h : s.Executes (0xF00A + 0x100 * x)) (keys : Keypad) :
    s.tick keys = ((s.sample keys).fetch.1.waitKey x).countDownIfRunning := by
  obtain ⟨w, hw, hval⟩ := h.next
  rw [tick_of_word keys hw, (ofWord_waitKey_iff w.toNat_lt).2 hval, execute]

theorem tick_waitKey_released (h : s.Executes (0xF00A + 0x100 * x)) :
    s.tick Keypad.released = s.waiting x 1 := by
  have hf : s.fault = 0 := (executes_iff.1 h).1
  have hnone : (s.sample Keypad.released).fetch.1.keypad.lowest? = none := Keypad.lowest?_released
  rw [tick_of_waitKey h, waitKey_of_none hnone]
  refine (countDownIfRunning_of_running ?_).trans ?_
  · exact hf
  · rw [countDown_eq]
    rfl

theorem tick_waiting_released (hf : s.fault = 0) (n : Nat) :
    (s.waiting x n).tick Keypad.released = s.waiting x (n + 1) := by
  have hn : (s.waiting x n).next = .awaiting := next_eq_awaiting_iff.2 ⟨hf, rfl⟩
  have hnone : ((s.waiting x n).sample Keypad.released).keypad.lowest? = none :=
    Keypad.lowest?_released
  have hbeep : decide (1 ≤ (timerAfter s.sound n).toNat) = decide (n + 1 ≤ s.sound.toNat) := by
    rw [decide_eq_decide, toNat_timerAfter]
    omega
  rw [tick_of_awaiting _ hn, resume_of_none hnone]
  refine (countDownIfRunning_of_running ?_).trans ?_
  · exact hf
  · simp only [waiting, sample, countDown_eq, timerAfter_timerAfter, hbeep]

/-- While no key comes only the clock goes on. -/
theorem run_released (h : s.Executes (0xF00A + 0x100 * x)) (n : Nat) :
    s.run (List.replicate (n + 1) Keypad.released) = s.waiting x (n + 1) := by
  induction n with
  | zero => exact tick_waitKey_released h
  | succ n ih =>
    rw [List.replicate_succ', run_concat, ih]
    exact tick_waiting_released (executes_iff.1 h).1 (n + 1)

theorem tick_waitKey_down (h : s.Executes (0xF00A + 0x100 * x)) (hk : keys.IsLowest k) :
    s.tick keys = { s with
      pc := s.pc + 2
      registers := (s.setRegister x (UInt8.ofNat k)).registers
      delay := timerAfter s.delay 1
      sound := timerAfter s.sound 1
      keypad := keys
      redraw := false
      beeping := decide (1 ≤ s.sound.toNat) } := by
  have hf : s.fault = 0 := (executes_iff.1 h).1
  have hsome : (s.sample keys).fetch.1.keypad.lowest? = some k := Keypad.lowest?_of_isLowest hk
  rw [tick_of_waitKey h, waitKey_of_lowest hsome]
  refine (countDownIfRunning_of_running ?_).trans ?_
  · exact hf
  · rw [countDown_eq]
    rfl

theorem tick_waiting_down (hf : s.fault = 0) (hk : keys.IsLowest k) (n : Nat) :
    (s.waiting x n).tick keys = { s with
      pc := s.pc + 2
      registers := (s.setRegister x (UInt8.ofNat k)).registers
      delay := timerAfter s.delay (n + 1)
      sound := timerAfter s.sound (n + 1)
      keypad := keys
      redraw := false
      beeping := decide (n < s.sound.toNat)
      awaiting := false
      keyRegister := UInt8.ofNat x } := by
  have hn : (s.waiting x n).next = .awaiting := next_eq_awaiting_iff.2 ⟨hf, rfl⟩
  have hsome : ((s.waiting x n).sample keys).keypad.lowest? = some k := Keypad.lowest?_of_isLowest hk
  have hbeep : decide (1 ≤ (timerAfter s.sound n).toNat) = decide (n < s.sound.toNat) := by
    rw [decide_eq_decide, toNat_timerAfter]
    omega
  -- the noted number is that of a register, so the key is stored
  have hset : s.registers.setIfInBounds (UInt8.ofNat x).toNat (UInt8.ofNat k) =
      (s.setRegister x (UInt8.ofNat k)).registers := by
    ext i hi : 1
    rw [toNat_ofNat_register, Vector.getElem_setIfInBounds hi, setRegister, Vector.getElem_set]
  rw [tick_of_awaiting _ hn, resume_of_lowest hsome]
  refine (countDownIfRunning_of_running ?_).trans ?_
  · exact hf
  · simp only [waiting, sample, countDown_eq, timerAfter_timerAfter, hbeep, hset]

end Wait

/-! ## What a waiting machine waits for -/

/-- A waiting machine runs and stands behind an `FX0A` for the register that it has noted. -/
def WaitsForKey (s : Machine) : Prop :=
  s.awaiting = true → s.fault = 0 ∧ 2 ≤ s.pc.toNat ∧
    s.memory.wordAt (s.pc.toNat - 2) = 0xF00A + 0x100 * s.keyRegister.toNat

section Waits

variable {s t : Machine} {i : Instruction}

theorem WaitsForKey.countDown (h : s.WaitsForKey) : s.countDownIfRunning.WaitsForKey := by
  unfold Machine.countDownIfRunning
  split <;> exact h

theorem WaitsForKey.sample (h : s.WaitsForKey) (keys : Keypad) : (s.sample keys).WaitsForKey := h

theorem WaitsForKey.resume (h : s.WaitsForKey) : s.resume.WaitsForKey := by
  unfold Machine.resume
  split
  · exact fun ha => absurd ha Bool.false_ne_true
  · exact h

/-- Only `FX0A` makes a machine wait. -/
theorem Effect.awaits (e : Effect s i t) (ha : s.awaiting = false) (ht : t.awaiting = true) :
    ∃ x, i = .waitKey x ∧ t = { s with awaiting := true, keyRegister := UInt8.ofNat x } := by
  cases e with
  | @wait x => exact ⟨x, rfl, rfl⟩
  | _ => exact absurd (ha.symm.trans ht) Bool.false_ne_true

theorem waitsForKey_execute {w : UInt16} (hn : s.next = .word w) (keys : Keypad) :
    ((s.sample keys).fetch.1.execute (.ofWord w.toNat)).WaitsForKey := by
  obtain ⟨hf, ha, hm, hw⟩ := next_eq_word_iff.1 hn
  intro ht
  obtain ⟨x, hi, heq⟩ := (effect_execute (s.sample keys).fetch.1 (.ofWord w.toNat)).awaits ha ht
  have hpc : (s.sample keys).fetch.1.pc.toNat = s.pc.toNat + 2 := toNat_add_two (a := s.pc) (by omega)
  rw [heq]
  refine ⟨hf, hpc ▸ Nat.le_add_left 2 _, ?_⟩
  calc s.memory.wordAt ((s.sample keys).fetch.1.pc.toNat - 2)
      = s.memory.wordAt s.pc.toNat := by rw [hpc, Nat.add_sub_cancel]
    _ = w.toNat := by rw [← hw, Memory.toNat_word _ hm]
    _ = 0xF00A + 0x100 * x := (ofWord_waitKey_iff w.toNat_lt).1 hi
    _ = 0xF00A + 0x100 * (UInt8.ofNat x).toNat := by rw [toNat_ofNat_register]

theorem WaitsForKey.tick (h : s.WaitsForKey) (keys : Keypad) : (s.tick keys).WaitsForKey := by
  cases hn : s.next with
  | halted =>
    rw [tick_of_halted keys hn]
    exact h.sample keys
  | awaiting =>
    rw [tick_of_awaiting keys hn]
    exact (h.sample keys).resume.countDown
  | overrun =>
    rw [tick_of_overrun keys hn]
    exact fun ha => absurd ((next_eq_overrun_iff.1 hn).2.1.symm.trans ha) Bool.false_ne_true
  | word w =>
    rw [tick_of_word keys hn]
    exact (waitsForKey_execute hn keys).countDown

theorem WaitsForKey.run (h : s.WaitsForKey) (samples : List Keypad) :
    (s.run samples).WaitsForKey := by
  induction samples generalizing s with
  | nil => exact h
  | cons k ks ih => exact ih (h.tick k)

theorem waitsForKey_loadOrKeep (key : Random.Key) (carryIndex : Bool) (program : List UInt8) :
    ((fresh key carryIndex).loadOrKeep program).WaitsForKey := by
  rw [loadOrKeep_eq]
  split <;> exact fun ha => absurd ha Bool.false_ne_true

end Waits

/-- From `FX0A`, through any number of ticks without a key to the first with one: the machine waits
and only its clock goes on, and then it is as if `FX0A` were executed with that key down, but for
the clock and the noted register. And whatever program has been loaded and run, a waiting machine
runs and stands behind an `FX0A` for the register that it has noted. -/
theorem wait_ends_as_if_pressed :
    (∀ (s : Machine) (x : Fin 16), s.fault = 0 → s.awaiting = false → s.pc.toNat + 2 ≤ 4096 →
      s.here = 0xF00A + 0x100 * x → ∀ (keys : Keypad) (k : Fin 16), keys.IsLowest k →
      ∀ m, 1 ≤ m →
        s.run (List.replicate m Keypad.released) = s.waiting x m ∧
        (s.run (List.replicate m Keypad.released)).tick keys = { s.tick keys with
          delay := timerAfter s.delay (m + 1)
          sound := timerAfter s.sound (m + 1)
          beeping := decide (m < s.sound.toNat)
          keyRegister := UInt8.ofNat x } ∧
        (s.tick keys).register x = UInt8.ofNat k ∧ (s.tick keys).pc.toNat = s.pc.toNat + 2 ∧
        (s.tick keys).awaiting = false) ∧
    (∀ key carryIndex program samples,
      let s := ((fresh key carryIndex).loadOrKeep program).run samples
      s.awaiting = true → s.fault = 0 ∧ 2 ≤ s.pc.toNat ∧
        s.memory.wordAt (s.pc.toNat - 2) = 0xF00A + 0x100 * s.keyRegister.toNat) := by
  constructor
  · intro s x hf ha hm hw keys k hk m hpos
    have hx : s.Executes (0xF00A + 0x100 * x) := executes_iff.2 ⟨hf, ha, hm, hw⟩
    obtain ⟨n, rfl⟩ := Nat.exists_eq_succ_of_ne_zero (Nat.pos_iff_ne_zero.1 hpos)
    have hwait : s.run (List.replicate n.succ Keypad.released) = s.waiting x n.succ := run_released hx n
    refine ⟨hwait, ?_, ?_, ?_, ?_⟩
    · rw [hwait, tick_waiting_down hf hk, tick_waitKey_down hx hk, ha]
    · rw [tick_waitKey_down hx hk]
      exact Vector.getElem_set_self x.isLt
    · rw [tick_waitKey_down hx hk]
      exact toNat_add_two (by omega)
    · rw [tick_waitKey_down hx hk]
      exact ha
  · intro key carryIndex program samples
    exact (waitsForKey_loadOrKeep key carryIndex program).run samples

/-- Three ticks without a key, then two keys at once; and a machine that goes on waiting. -/
theorem wait_ends_as_if_pressed_twoKeys :
    let s := { (fresh (.ofSeed 0) false).withProgram [0xF2, 0x0A] with sound := 3 }
    let t := s.run (List.replicate 3 Keypad.released)
    let u := t.tick (Keypad.ofKeys [0xE, 0x7])
    let v := ((fresh (.ofSeed 0) false).loadOrKeep [0xF2, 0x0A]).run [Keypad.released]
    t = s.waiting 2 3 ∧ u.register 2 = 7 ∧ u.pc.toNat = s.pc.toNat + 2 ∧ u.beeping = false ∧
      v.awaiting = true ∧ v.memory.wordAt (v.pc.toNat - 2) = 0xF00A + 0x100 * v.keyRegister.toNat := by
  intro s t u v
  have hs : s.fault = 0 ∧ s.awaiting = false ∧ s.pc.toNat + 2 ≤ 4096 ∧
      s.here = 0xF00A + 0x100 * (2 : Fin 16) ∧ (Keypad.ofKeys [0xE, 0x7]).IsLowest 7 ∧
      v.awaiting = true := by
    decide +kernel
  obtain ⟨hf, ha, hm, hw, hk, hv⟩ := hs
  obtain ⟨hwait, hend, hreg, hpc, -⟩ :=
    wait_ends_as_if_pressed.1 s 2 hf ha hm hw (Keypad.ofKeys [0xE, 0x7]) 7 hk 3 (by decide)
  have hu : u = _ := hend
  obtain ⟨-, -, hword⟩ := wait_ends_as_if_pressed.2 (.ofSeed 0) false [0xF2, 0x0A] [Keypad.released] hv
  refine ⟨hwait, ?_, ?_, ?_, hv, hword⟩
  · rw [hu]
    exact hreg
  · rw [hu]
    exact hpc
  · rw [hu]
    rfl

end Machine

end Chip8
