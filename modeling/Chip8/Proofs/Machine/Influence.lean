/-
What keys and the generator can influence. Only `EX9E`, `EXA1` and `FX0A` look at the keys that a
tick sees, and only `CXKK` at the generator; all other instructions, the clock and the fault checks
ignore them. So two runs of one program, with different keys or from different seeds, stay equal but
for the stored keys and the generator as long as the first of them executes no instruction that
would look at what differs: the two are on the same instruction at every tick, so the second
executes none either.

`Twins` says which of the two parts may differ, so that the three kinds of pairs of runs need one
induction.
-/
import Chip8.Proofs.Machine.Stream
import Chip8.Proofs.Machine.Wait
import Chip8.Session

namespace Chip8

namespace Instruction

/-- `SKP`, `SKNP` and `LD Vx, K`. -/
def LooksAtKeys (i : Instruction) : Prop :=
  (∃ x, i = skipDown x) ∨ (∃ x, i = skipUp x) ∨ ∃ x, i = waitKey x

/-- `RND`. -/
def LooksAtRandom (i : Instruction) : Prop := ∃ x mask, i = random x mask

end Instruction

namespace Machine

/-! ## Ticks that read keys -/

/-- The coming tick executes `EX9E`, `EXA1` or `FX0A`. -/
def ReadsKeys (s : Machine) : Prop :=
  ∃ w, s.Executes w ∧ (w / 0x1000 = 0xE ∧ (w % 0x100 = 0x9E ∨ w % 0x100 = 0xA1) ∨
    w / 0x1000 = 0xF ∧ w % 0x100 = 0x0A)

instance (s : Machine) : Decidable s.ReadsKeys :=
  inferInstanceAs (Decidable (∃ w, s.Executes w ∧
    (w / 0x1000 = 0xE ∧ (w % 0x100 = 0x9E ∨ w % 0x100 = 0xA1) ∨
      w / 0x1000 = 0xF ∧ w % 0x100 = 0x0A)))

section Reads

variable {s : Machine} {w : UInt16}

theorem readsKeys_of_next (hn : s.next = .word w) (h : (Instruction.ofWord w.toNat).LooksAtKeys) :
    s.ReadsKeys := by
  refine ⟨w.toNat, executes_of_next hn, ?_⟩
  rcases h with ⟨x, hi⟩ | ⟨x, hi⟩ | ⟨x, hi⟩
  · obtain ⟨hd, hk, -⟩ := (Instruction.ofWord_eq_iff w.toNat_lt).1 hi
    exact .inl ⟨hd, .inl hk⟩
  · obtain ⟨hd, hk, -⟩ := (Instruction.ofWord_eq_iff w.toNat_lt).1 hi
    exact .inl ⟨hd, .inr hk⟩
  · obtain ⟨hd, hk, -⟩ := (Instruction.ofWord_eq_iff w.toNat_lt).1 hi
    exact .inr ⟨hd, hk⟩

theorem drawsByte_of_next (hn : s.next = .word w)
    (h : (Instruction.ofWord w.toNat).LooksAtRandom) : s.DrawsByte := by
  obtain ⟨x, mask, hi⟩ := h
  exact ⟨w.toNat, executes_of_next hn, ((Instruction.ofWord_eq_iff w.toNat_lt).1 hi).1⟩

/-- A machine begins to wait by reading keys only. -/
theorem awaiting_tick (ha : s.awaiting = false) (hr : ¬ s.ReadsKeys) (keys : Keypad) :
    (s.tick keys).awaiting = false := by
  cases hn : s.next with
  | halted =>
    rw [tick_of_halted keys hn]
    exact ha
  | overrun =>
    rw [tick_of_overrun keys hn]
    exact ha
  | awaiting => exact absurd (ha.symm.trans (next_eq_awaiting_iff.1 hn).2) Bool.false_ne_true
  | word w =>
    rw [tick_of_word keys hn, countDownIfRunning_awaiting, Bool.eq_false_iff]
    intro ht
    obtain ⟨x, hi, -⟩ := (effect_execute (s.sample keys).fetch.1 (.ofWord w.toNat)).awaits ha ht
    exact hr (readsKeys_of_next hn (.inr (.inr ⟨x, hi⟩)))

theorem awaiting_run (ha : s.awaiting = false) {ks : List Keypad} {n : Nat} (hn : n ≤ ks.length)
    (hr : ∀ m < n, ¬ (s.run (ks.take m)).ReadsKeys) : (s.run (ks.take n)).awaiting = false := by
  induction n with
  | zero => exact ha
  | succ n ih =>
    rw [s.run_take_succ hn]
    exact awaiting_tick (ih (Nat.le_of_succ_le hn) fun m hm => hr m (Nat.lt_succ_of_lt hm))
      (hr n (Nat.lt_succ_self n)) _

end Reads

/-! ## Machines that differ in keys and generator -/

/-- The machine with other keys and another generator. -/
def supply (s : Machine) (keys : Keypad) (random : Random.Key) : Machine :=
  { s with keypad := keys, random := random }

/-- `t` is `s` with other keys and another generator, of which those stay the same that have to. -/
inductive Twins (sameKeys sameRandom : Prop) (s : Machine) : Machine → Prop where
  | of (keys : Keypad) (random : Random.Key) (hk : sameKeys → keys = s.keypad)
    (hr : sameRandom → random = s.random) : Twins sameKeys sameRandom s (s.supply keys random)

section Instructions

variable {s : Machine} {i : Instruction} {keys : Keypad} {random : Random.Key}

theorem skipIf_supply (s : Machine) (c : Bool) (keys : Keypad) (random : Random.Key) :
    (s.supply keys random).skipIf c = (s.skipIf c).supply keys random := by
  cases c <;> rfl

theorem execute_supply (hk : ¬ i.LooksAtKeys) (hr : ¬ i.LooksAtRandom) :
    (s.supply keys random).execute i = (s.execute i).supply keys random := by
  cases i with
  | skipDown x => exact absurd (.inl ⟨x, rfl⟩) hk
  | skipUp x => exact absurd (.inr (.inl ⟨x, rfl⟩)) hk
  | waitKey x => exact absurd (.inr (.inr ⟨x, rfl⟩)) hk
  | random x mask => exact absurd ⟨x, mask, rfl⟩ hr
  | alu op x y => cases op <;> rfl
  | skipEqualByte | skipUnequalByte | skipEqual | skipUnequal =>
    exact skipIf_supply s _ keys random
  -- these choose between two machines by what is neither keys nor generator
  | ret | call | addIndex | draw | storeDigits | storeRegisters | loadRegisters =>
    simp only [execute, Machine.ret, Machine.call, Machine.addIndex, Machine.draw,
      Machine.storeDigits, Machine.storeRegisters, Machine.loadRegisters]
    rw [apply_ite fun m : Machine => m.supply keys random]
    rfl
  | _ => rfl

/-- An instruction that looks at keys ignores the generator. -/
theorem execute_supply_of_keys (hk : i.LooksAtKeys) (random : Random.Key) :
    (s.supply s.keypad random).execute i = (s.execute i).supply s.keypad random := by
  rcases hk with ⟨x, rfl⟩ | ⟨x, rfl⟩ | ⟨x, rfl⟩
  · exact skipIf_supply s _ s.keypad random
  · exact skipIf_supply s _ s.keypad random
  · rw [execute, execute]
    cases hl : s.keypad.lowest? with
    | none =>
      rw [waitKey_of_none (s := s) hl, waitKey_of_none (s := s.supply s.keypad random) hl]
      rfl
    | some k =>
      rw [waitKey_of_lowest (s := s) hl, waitKey_of_lowest (s := s.supply s.keypad random) hl]
      rfl

theorem resume_supply (s : Machine) (random : Random.Key) :
    (s.supply s.keypad random).resume = s.resume.supply s.keypad random := by
  cases hl : s.keypad.lowest? with
  | none =>
    rw [resume_of_none (s := s) hl, resume_of_none (s := s.supply s.keypad random) hl]
  | some k =>
    rw [resume_of_lowest (s := s) hl, resume_of_lowest (s := s.supply s.keypad random) hl]
    rfl

theorem countDownIfRunning_supply (s : Machine) (keys : Keypad) (random : Random.Key) :
    (s.supply keys random).countDownIfRunning = s.countDownIfRunning.supply keys random := by
  rw [countDownIfRunning, countDownIfRunning, apply_ite fun m : Machine => m.supply keys random]
  rfl

end Instructions

/-! ## Twins stay twins -/

section Twins

variable {K R : Prop} {s t : Machine} {f : Machine → Machine} {i : Instruction}

/-- What is done alike to a machine with any keys and any generator keeps twins. -/
theorem Twins.map (h : Twins K R s t)
    (hf : ∀ s keys random, f (supply s keys random) = (f s).supply keys random) :
    Twins K R (f s) (f t) := by
  have hself : f s = (f s).supply s.keypad s.random := hf s s.keypad s.random
  cases h with
  | of keys random hk hr =>
    rw [hf, hself]
    exact .of keys random hk hr

/-- If the keys are the same, it may look at them. -/
theorem Twins.map_of_keys (h : Twins K R s t) (hK : K)
    (hf : ∀ s random, f (supply s s.keypad random) = (f s).supply s.keypad random) :
    Twins K R (f s) (f t) := by
  have hself : f s = (f s).supply s.keypad s.random := hf s s.random
  cases h with
  | of keys random hk hr =>
    obtain rfl := hk hK
    rw [hf, hself]
    exact .of s.keypad random hk hr

theorem Twins.execute (h : Twins K R s t) (hk : K ∨ ¬ i.LooksAtKeys)
    (hr : R ∨ ¬ i.LooksAtRandom) : Twins K R (s.execute i) (t.execute i) := by
  by_cases hrandom : i.LooksAtRandom
  · have hR : R := hr.resolve_right fun hn => hn hrandom
    obtain ⟨x, mask, rfl⟩ := hrandom
    cases h with
    | of keys random hkeys hsame =>
      obtain rfl := hsame hR
      exact .of keys s.random.next hkeys fun _ => rfl
  · by_cases hkeys : i.LooksAtKeys
    · have hK : K := hk.resolve_right fun hn => hn hkeys
      exact h.map_of_keys (f := fun m => m.execute i) hK fun _ => execute_supply_of_keys hkeys
    · exact h.map (f := fun m => m.execute i) fun _ _ _ => execute_supply hkeys hrandom

theorem Twins.sample (h : Twins K R s t) {k l : Keypad} (hkl : K → k = l) :
    Twins K R (s.sample k) (t.sample l) := by
  cases h with
  | of keys random hk hr => exact .of l random (fun hK => (hkl hK).symm) hr

theorem Twins.next_eq (h : Twins K R s t) : t.next = s.next := by
  cases h
  rfl

/-- A tick keeps twins if it looks at nothing in which they may differ. -/
theorem Twins.tick (h : Twins K R s t) {k l : Keypad} (hkl : K → k = l)
    (hk : K ∨ s.awaiting = false ∧ ¬ s.ReadsKeys) (hr : R ∨ ¬ s.DrawsByte) :
    Twins K R (s.tick k) (t.tick l) := by
  have hsample := h.sample hkl
  cases hn : s.next with
  | halted =>
    rw [tick_of_halted k hn, tick_of_halted l (h.next_eq.trans hn)]
    exact hsample
  | overrun =>
    rw [tick_of_overrun k hn, tick_of_overrun l (h.next_eq.trans hn)]
    exact hsample.map (f := fun m => m.halt .memoryBounds) fun _ _ _ => rfl
  | awaiting =>
    have hK : K := hk.resolve_right fun ⟨ha, _⟩ =>
      Bool.false_ne_true (ha.symm.trans (next_eq_awaiting_iff.1 hn).2)
    rw [tick_of_awaiting k hn, tick_of_awaiting l (h.next_eq.trans hn)]
    exact (hsample.map_of_keys hK resume_supply).map countDownIfRunning_supply
  | word w =>
    have hfetch := hsample.map (f := fun m => m.fetch.1) fun _ _ _ => rfl
    rw [tick_of_word k hn, tick_of_word l (h.next_eq.trans hn)]
    refine (hfetch.execute ?_ ?_).map countDownIfRunning_supply
    · exact hk.imp_right fun ⟨_, hreads⟩ hi => hreads (readsKeys_of_next hn hi)
    · exact hr.imp_right fun hdraws hi => hdraws (drawsByte_of_next hn hi)

/-- Ticks keep twins as long as the first of them looks at nothing in which they may differ. -/
theorem Twins.run (h : Twins K R s t) (ha : s.awaiting = false) {ks ls : List Keypad}
    (hlen : ks.length = ls.length) (hks : K → ks = ls)
    (hk : K ∨ ∀ m < ks.length, ¬ (s.run (ks.take m)).ReadsKeys)
    (hr : R ∨ ∀ m < ks.length, ¬ (s.run (ks.take m)).DrawsByte) {n : Nat} (hn : n ≤ ks.length) :
    Twins K R (s.run (ks.take n)) (t.run (ls.take n)) := by
  induction n with
  | zero => exact h
  | succ n ih =>
    have hlt : n < ks.length := hn
    have hlt' : n < ls.length := hlen ▸ hlt
    rw [s.run_take_succ hlt, t.run_take_succ hlt']
    refine (ih (Nat.le_of_lt hlt)).tick ?_ (hk.imp_right fun hreads => ?_)
      (hr.imp_right fun hdraws => hdraws n hlt)
    · intro hK
      obtain rfl := hks hK
      rfl
    · have hawaits := awaiting_run ha (Nat.le_of_lt hlt) fun m hm => hreads m (Nat.lt_trans hm hlt)
      exact ⟨hawaits, hreads n hlt⟩

/-! ## What twins share -/

theorem Twins.eq_with (h : Twins K R s t) : t = { s with keypad := t.keypad, random := t.random } := by
  cases h
  rfl

theorem Twins.eq_with_keypad (h : Twins K R s t) (hR : R) : t = { s with keypad := t.keypad } := by
  cases h with
  | of keys random hk hr =>
    obtain rfl := hr hR
    rfl

theorem Twins.eq_with_random (h : Twins K R s t) (hK : K) : t = { s with random := t.random } := by
  cases h with
  | of keys random hk hr =>
    obtain rfl := hk hK
    rfl

theorem Twins.readsKeys_iff (h : Twins K R s t) : t.ReadsKeys ↔ s.ReadsKeys := by
  cases h
  exact Iff.rfl

theorem Twins.drawsByte_iff (h : Twins K R s t) : t.DrawsByte ↔ s.DrawsByte := by
  cases h
  exact Iff.rfl

theorem Twins.tickLog_eq (h : Twins K R s t) (debug : Bool) :
    Session.tickLog debug t = Session.tickLog debug s := by
  cases h
  rfl

end Twins

/-! ## Two runs of one program -/

section Programs

variable {K R : Prop} {a b : Int} {ks ls : List Keypad} {n : Nat}

theorem awaiting_loadOrKeep (key : Random.Key) (carryIndex : Bool) (program : List UInt8) :
    ((fresh key carryIndex).loadOrKeep program).awaiting = false := by
  rw [loadOrKeep_eq]
  split <;> rfl

theorem twins_loadOrKeep (carryIndex : Bool) (program : List UInt8) (hr : R → a = b) :
    Twins K R ((fresh (.ofSeed a) carryIndex).loadOrKeep program)
      ((fresh (.ofSeed b) carryIndex).loadOrKeep program) := by
  have hkey : R → Random.Key.ofSeed b = .ofSeed a := fun hR => by rw [hr hR]
  rw [loadOrKeep_eq, loadOrKeep_eq]
  split
  · exact .of Keypad.released _ (fun _ => rfl) hkey
  · exact .of Keypad.released _ (fun _ => rfl) hkey

theorem twins_run (carryIndex : Bool) (program : List UInt8) (hr : R → a = b) (hks : K → ks = ls)
    (hlen : ks.length = ls.length) :
    let s m := ((fresh (.ofSeed a) carryIndex).loadOrKeep program).run (ks.take m)
    let t m := ((fresh (.ofSeed b) carryIndex).loadOrKeep program).run (ls.take m)
    (K ∨ ∀ m < ks.length, ¬ (s m).ReadsKeys) → (R ∨ ∀ m < ks.length, ¬ (s m).DrawsByte) →
      ∀ n ≤ ks.length, Twins K R (s n) (t n) := by
  intro s t hreads hdraws n hn
  have hstart : Twins K R _ _ := twins_loadOrKeep carryIndex program hr
  exact hstart.run (awaiting_loadOrKeep _ carryIndex program) hlen hks hreads hdraws hn

/-- Keys and seed influence a run only through the instructions that look at them. Of two runs of
one program, as long as the first executes none of these, neither does the second, both log the
same, and after every tick they are equal but for the stored keys and the generator. With the same
seed, only instructions that read keys count, and with the same keys only `CXKK`. -/
theorem keys_and_seed_reach_only_readers (carryIndex : Bool) (program : List UInt8) (a b : Int)
    {ks ls : List Keypad} (hlen : ks.length = ls.length) :
    let s m := ((fresh (.ofSeed a) carryIndex).loadOrKeep program).run (ks.take m)
    let t m := ((fresh (.ofSeed b) carryIndex).loadOrKeep program).run (ls.take m)
    let sameLog := ∀ m < ks.length, ∀ debug,
      Session.tickLog debug (t m) = Session.tickLog debug (s m)
    ((∀ m < ks.length, ¬ (s m).ReadsKeys ∧ ¬ (s m).DrawsByte) →
      (∀ m < ks.length, ¬ (t m).ReadsKeys ∧ ¬ (t m).DrawsByte) ∧ sameLog ∧
        ∀ n ≤ ks.length, t n = { s n with keypad := (t n).keypad, random := (t n).random }) ∧
    (a = b → (∀ m < ks.length, ¬ (s m).ReadsKeys) →
      (∀ m < ks.length, ¬ (t m).ReadsKeys) ∧ sameLog ∧
        ∀ n ≤ ks.length, t n = { s n with keypad := (t n).keypad }) ∧
    (ks = ls → (∀ m < ks.length, ¬ (s m).DrawsByte) →
      (∀ m < ks.length, ¬ (t m).DrawsByte) ∧ sameLog ∧
        ∀ n ≤ ks.length, t n = { s n with random := (t n).random }) := by
  intro s t sameLog
  refine ⟨fun h => ?_, fun hseed h => ?_, fun hkeys h => ?_⟩
  · have htwins : ∀ n ≤ ks.length, Twins False False (s n) (t n) :=
      twins_run carryIndex program False.elim False.elim hlen (.inr fun m hm => (h m hm).1)
        (.inr fun m hm => (h m hm).2)
    refine ⟨fun m hm => ?_, fun m hm => (htwins m (Nat.le_of_lt hm)).tickLog_eq, fun n hn =>
      (htwins n hn).eq_with⟩
    rw [(htwins m (Nat.le_of_lt hm)).readsKeys_iff, (htwins m (Nat.le_of_lt hm)).drawsByte_iff]
    exact h m hm
  · have htwins : ∀ n ≤ ks.length, Twins False True (s n) (t n) :=
      twins_run carryIndex program (fun _ => hseed) False.elim hlen (.inr h) (.inl trivial)
    refine ⟨fun m hm => ?_, fun m hm => (htwins m (Nat.le_of_lt hm)).tickLog_eq, fun n hn =>
      (htwins n hn).eq_with_keypad trivial⟩
    rw [(htwins m (Nat.le_of_lt hm)).readsKeys_iff]
    exact h m hm
  · have htwins : ∀ n ≤ ks.length, Twins True False (s n) (t n) :=
      twins_run carryIndex program False.elim (fun _ => hkeys) hlen (.inl trivial) (.inr h)
    refine ⟨fun m hm => ?_, fun m hm => (htwins m (Nat.le_of_lt hm)).tickLog_eq, fun n hn =>
      (htwins n hn).eq_with_random trivial⟩
    rw [(htwins m (Nat.le_of_lt hm)).drawsByte_iff]
    exact h m hm

end Programs

/-- An undefined word and a halt, which no key and no seed changes; a random byte, which keys do not
change; and a wait for a key, which the seed does not change. -/
theorem keys_and_seed_reach_only_readers_threePrograms :
    let ks := [Keypad.released, Keypad.ofKeys [5]]
    let ls := [Keypad.ofKeys [2], Keypad.released]
    let start (seed : Int) (program : List UInt8) := (fresh (.ofSeed seed) false).loadOrKeep program
    let halting := [0x00, 0x01, 0x00, 0xEE]
    ks.length = ls.length ∧
      (((start 1 halting).run (ls.take 2)).fault = 2 ∧ ∀ debug,
        Session.tickLog debug ((start 1 halting).run (ls.take 0)) =
          Session.tickLog debug ((start 0 halting).run (ks.take 0))) ∧
      ((start 4 [0xC1, 0xFF]).run (ls.take 2)).registers =
        ((start 4 [0xC1, 0xFF]).run (ks.take 2)).registers ∧
      ((start 1 [0xF1, 0x0A]).run (ks.take 1)).awaiting = true ∧
      ((start 1 [0xF1, 0x0A]).run (ks.take 2)).awaiting = false := by
  intro ks ls start halting
  have hlen : ks.length = ls.length := rfl
  have hquiet : (∀ m < ks.length, ¬ ((start 0 halting).run (ks.take m)).ReadsKeys ∧
        ¬ ((start 0 halting).run (ks.take m)).DrawsByte) ∧
      (∀ m < ks.length, ¬ ((start 4 [0xC1, 0xFF]).run (ks.take m)).ReadsKeys) ∧
      (∀ m < ks.length, ¬ ((start 0 [0xF1, 0x0A]).run (ks.take m)).DrawsByte) ∧
      ((start 0 halting).run (ks.take 2)).fault = 2 ∧
      ((start 0 [0xF1, 0x0A]).run (ks.take 1)).awaiting = true ∧
      ((start 0 [0xF1, 0x0A]).run (ks.take 2)).awaiting = false := by
    decide +kernel
  obtain ⟨hboth, hkeys, hrandom, hfault, hbegun, hended⟩ := hquiet
  obtain ⟨-, hlog, hhalts⟩ := (keys_and_seed_reach_only_readers false halting 0 1 hlen).1 hboth
  obtain ⟨-, -, hbyte⟩ :=
    (keys_and_seed_reach_only_readers false [0xC1, 0xFF] 4 4 hlen).2.1 rfl hkeys
  obtain ⟨-, -, hwait⟩ :=
    (keys_and_seed_reach_only_readers false [0xF1, 0x0A] 0 1 (rfl : ks.length = ks.length)).2.2 rfl
      hrandom
  refine ⟨hlen, ⟨?_, hlog 0 (by decide)⟩, ?_, ?_, ?_⟩
  · exact (congrArg Machine.fault (hhalts 2 (Nat.le_refl 2))).trans hfault
  · have hregisters := congrArg Machine.registers (hbyte 2 (Nat.le_refl 2))
    exact hregisters
  · exact (congrArg Machine.awaiting (hwait 1 (by decide))).trans hbegun
  · exact (congrArg Machine.awaiting (hwait 2 (by decide))).trans hended

end Machine

end Chip8
