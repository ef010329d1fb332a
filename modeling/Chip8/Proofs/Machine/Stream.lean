/-
The random bytes of a run. One instruction alone moves the generator on, `CXKK`, and by one step
each time; nothing else touches it, ticks that wait or stand still included. So the keys that a run
goes through are those of its seed one after the other, and the bytes that it sees are theirs,
whatever else the program does in between.
-/
import Chip8.Proofs.Machine.Clock

namespace Chip8

/-- The keys that a generator goes through: each is the first half of the one before. -/
def Random.Key.stream (k : Random.Key) : Nat → Random.Key
  | 0 => k
  | j + 1 => (k.stream j).split.1

theorem Instruction.ofWord_eq_random_iff {w : Nat} (h : w < 65536) {x : Fin 16} {mask : UInt8} :
    ofWord w = random x mask ↔ w = 0xC000 + 0x100 * x + mask.toNat := by
  have := mask.toNat_lt
  rw [ofWord_eq_iff h, Stands]
  omega

namespace Machine

/-! ## Ticks that draw a byte -/

/-- The coming tick executes `CXKK`. -/
def DrawsByte (s : Machine) : Prop := ∃ w, s.Executes w ∧ w / 0x1000 = 0xC

section Tick

variable {s t : Machine} {i : Instruction} {keys : Keypad} {x : Fin 16} {mask : UInt8}

theorem exists_executes_iff {P : Nat → Prop} :
    (∃ w, s.Executes w ∧ P w) ↔ ∃ w ∈ s.nextWord?, P w.toNat := by
  constructor
  · rintro ⟨w, h, hw⟩
    obtain ⟨u, hu, rfl⟩ := h.next
    exact ⟨u, nextWord?_eq_some_iff.2 hu, hw⟩
  · rintro ⟨u, hu, hw⟩
    exact ⟨u.toNat, executes_of_next (nextWord?_eq_some_iff.1 hu), hw⟩

instance (s : Machine) (P : Nat → Prop) [DecidablePred P] : Decidable (∃ w, s.Executes w ∧ P w) :=
  decidable_of_iff _ exists_executes_iff.symm

instance (s : Machine) : Decidable s.DrawsByte :=
  inferInstanceAs (Decidable (∃ w, s.Executes w ∧ w / 0x1000 = 0xC))

theorem DrawsByte.exists_executes (h : s.DrawsByte) :
    ∃ (x : Fin 16) (mask : UInt8), s.Executes (0xC000 + 0x100 * x + mask.toNat) := by
  obtain ⟨w, hw, hd⟩ := h
  have hmask : (UInt8.ofNat w).toNat = w % 0x100 := UInt8.toNat_ofNat'
  have hx : w / 0x100 % 0x10 < 16 := Nat.mod_lt _ (by decide)
  refine ⟨⟨w / 0x100 % 0x10, hx⟩, UInt8.ofNat w, ?_⟩
  have hval : 0xC000 + 0x100 * (w / 0x100 % 0x10) + (UInt8.ofNat w).toNat = w := by omega
  rwa [hval]

/-- A word is `CXKK` for one `X` and one `KK`. -/
theorem Executes.random_operands {y : Fin 16} {other : UInt8}
    (h : s.Executes (0xC000 + 0x100 * x + mask.toNat))
    (h' : s.Executes (0xC000 + 0x100 * y + other.toNat)) : x = y ∧ mask = other := by
  have hval := Option.some.inj (h.symm.trans h')
  have hmask := mask.toNat_lt
  have hother := other.toNat_lt
  exact ⟨Fin.ext (by omega), UInt8.toNat_inj.1 (by omega)⟩

theorem Effect.random_eq (e : Effect s i t) : t.random = s.random ∨ ∃ x mask, i = .random x mask := by
  cases e with
  | @random x mask => exact .inr ⟨x, mask, rfl⟩
  | _ => exact .inl rfl

/-- `CXKK` puts the byte of the present key into its register and moves on to the next key. -/
theorem tick_of_random (h : s.Executes (0xC000 + 0x100 * x + mask.toNat)) (keys : Keypad) :
    (s.tick keys).random = s.random.split.1 ∧
      (s.tick keys).register x = s.random.byte &&& mask := by
  obtain ⟨w, hw, hval⟩ := h.next
  have hi := (Instruction.ofWord_eq_random_iff w.toNat_lt).2 hval
  have hrun : ((s.sample keys).fetch.1.execute (.random x mask)).fault = 0 := (next_eq_word_iff.1 hw).1
  rw [tick_of_word keys hw, hi, countDownIfRunning_of_running hrun]
  exact ⟨rfl, Vector.getElem_set_self x.isLt⟩

/-- A tick that draws no byte leaves the generator alone. -/
theorem random_tick_of_not_draws (h : ¬ s.DrawsByte) (keys : Keypad) :
    (s.tick keys).random = s.random := by
  rcases byInstructions_random.tick s keys with hsame | ⟨w, hn, hexecute⟩
  · exact hsame
  · rw [hexecute]
    rcases (effect_execute (s.sample keys).fetch.1 (.ofWord w.toNat)).random_eq with he | ⟨x, m, hi⟩
    · exact he
    · have hd : w.toNat / 0x1000 = 0xC := ((Instruction.ofWord_eq_iff w.toNat_lt).1 hi).1
      exact absurd ⟨_, executes_of_next hn, hd⟩ h

end Tick

/-! ## Runs -/

/-- Those of the first `n` ticks of a run that execute `CXKK`. -/
def randomTicks (s : Machine) (samples : List Keypad) (n : Nat) : List Nat :=
  (List.range n).filter fun i => (s.run (samples.take i)).DrawsByte

section Run

variable {s : Machine} {samples : List Keypad} {n i j : Nat}

theorem randomTicks_succ_of_draws (h : (s.run (samples.take n)).DrawsByte) :
    s.randomTicks samples (n + 1) = s.randomTicks samples n ++ [n] := by
  simp [randomTicks, List.range_succ, h]

theorem randomTicks_succ_of_not_draws (h : ¬ (s.run (samples.take n)).DrawsByte) :
    s.randomTicks samples (n + 1) = s.randomTicks samples n := by
  simp [randomTicks, List.range_succ, h]

/-- The `j`-th tick that draws a byte has `j` such ticks before it. -/
theorem length_randomTicks_of_getElem? (h : (s.randomTicks samples n)[j]? = some i) :
    i < n ∧ (s.run (samples.take i)).DrawsByte ∧ (s.randomTicks samples i).length = j := by
  induction n with
  | zero => cases h
  | succ n ih =>
    by_cases hd : (s.run (samples.take n)).DrawsByte
    · rw [randomTicks_succ_of_draws hd, List.getElem?_append] at h
      split at h
      · obtain ⟨hlt, hi⟩ := ih h
        exact ⟨Nat.lt_succ_of_lt hlt, hi⟩
      · next hj =>
        -- the tick is the last one, so all that draw before it are counted
        obtain ⟨hj0, rfl⟩ : j - (s.randomTicks samples n).length = 0 ∧ n = i := by
          simpa [List.getElem?_singleton] using h
        exact ⟨Nat.lt_succ_self _, hd, by omega⟩
    · rw [randomTicks_succ_of_not_draws hd] at h
      obtain ⟨hlt, hi⟩ := ih h
      exact ⟨Nat.lt_succ_of_lt hlt, hi⟩

/-- The generator is as many keys on as ticks have drawn a byte. -/
theorem random_run (hn : n ≤ samples.length) :
    (s.run (samples.take n)).random = s.random.stream (s.randomTicks samples n).length := by
  induction n with
  | zero => rfl
  | succ n ih =>
    have hkey := ih (Nat.le_of_succ_le hn)
    rw [s.run_take_succ hn]
    by_cases hd : (s.run (samples.take n)).DrawsByte
    · obtain ⟨x, mask, hx⟩ := hd.exists_executes
      rw [(tick_of_random hx _).1, hkey, randomTicks_succ_of_draws hd, List.length_append]
      rfl
    · rw [random_tick_of_not_draws hd, hkey, randomTicks_succ_of_not_draws hd]

end Run

/-- The random bytes of a run are those of its seed: after the run the generator is as many keys on
as ticks have executed `CXKK`, and the `j`-th of them has put the byte of the `j`-th key, masked,
into its register. -/
theorem random_bytes_of_seed (seed : Int) (carryIndex : Bool) {program : List UInt8}
    (hfit : program.length ≤ programCapacity) :
    ∃ s, (fresh (.ofSeed seed) carryIndex).load program = .ok s ∧
      ∀ samples, let ticks := s.randomTicks samples samples.length
        (s.run samples).random = (Random.Key.ofSeed seed).stream ticks.length ∧
        ∀ j (hj : j < ticks.length), ∃ (x : Fin 16) (mask : UInt8),
          (s.run (samples.take ticks[j])).Executes (0xC000 + 0x100 * x + mask.toNat) ∧
          (s.run (samples.take (ticks[j] + 1))).register x =
            ((Random.Key.ofSeed seed).stream j).byte &&& mask := by
  refine ⟨_, if_neg (Nat.not_lt.2 hfit), fun samples => ⟨?_, fun j hj => ?_⟩⟩
  · have hrun := random_run (s := (fresh (.ofSeed seed) carryIndex).withProgram program)
      (Nat.le_refl samples.length)
    rwa [List.take_length] at hrun
  · obtain ⟨hlt, hdraws, hcount⟩ := length_randomTicks_of_getElem? (List.getElem?_eq_getElem hj)
    obtain ⟨x, mask, hx⟩ := hdraws.exists_executes
    refine ⟨x, mask, hx, ?_⟩
    rw [run_take_succ _ hlt, (tick_of_random hx _).2, random_run (Nat.le_of_lt hlt), hcount]
    rfl

/-- Two bytes, with a wait for a key between them. -/
theorem random_bytes_of_seed_wait :
    let program := [0xC1, 0x0F, 0xF2, 0x0A, 0xCF, 0xFF]
    let samples := List.replicate 3 Keypad.released ++ [Keypad.ofKeys [5], Keypad.released]
    let s := (fresh (.ofSeed 0) false).withProgram program
    program.length ≤ programCapacity ∧ s.randomTicks samples 5 = [0, 4] ∧
      (s.run samples).random = (Random.Key.ofSeed 0).stream 2 ∧
      (s.run (samples.take 1)).register 1 = 14 &&& 0x0F ∧
      (s.run (samples.take 5)).register 0xF = 36 &&& 0xFF := by
  intro program samples s
  have hfit : program.length ≤ programCapacity := by decide
  have hticks : s.randomTicks samples samples.length = [0, 4] := by decide +kernel
  have hwords : (s.run (samples.take 0)).Executes (0xC000 + 0x100 * (1 : Fin 16) + (0x0F : UInt8).toNat) ∧
      (s.run (samples.take 4)).Executes (0xC000 + 0x100 * (0xF : Fin 16) + (0xFF : UInt8).toNat) ∧
      ((Random.Key.ofSeed 0).stream 0).byte = 14 ∧ ((Random.Key.ofSeed 0).stream 1).byte = 36 := by
    decide +kernel
  obtain ⟨hfirst, hsecond, hbyte, hbyte'⟩ := hwords
  obtain ⟨t, ht, hruns⟩ := random_bytes_of_seed 0 false hfit
  obtain rfl : s = t := Except.ok.inj ht
  obtain ⟨hrandom, hbytes⟩ := hruns samples
  simp only [hticks] at hrandom hbytes
  refine ⟨hfit, hticks, hrandom, ?_, ?_⟩
  · obtain ⟨x, mask, hx, hv⟩ := hbytes 0 (by decide)
    obtain ⟨rfl, rfl⟩ := hx.random_operands hfirst
    exact hbyte ▸ hv
  · obtain ⟨x, mask, hx, hv⟩ := hbytes 1 (by decide)
    obtain ⟨rfl, rfl⟩ := hx.random_operands hsecond
    exact hbyte' ▸ hv

end Machine

end Chip8
