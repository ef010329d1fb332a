/-
A session as a run of its machine. The frames before the first that closes the window give one
sample of the keypad each; the session ticks the machine once a sample until a tick halts it, shows
what each tick but the halting one asks for, and switches the tone off at the end. A session whose
program cannot be loaded ticks nothing and shows nothing.

`Shows` says this of the frames from any one on, so that the induction over them goes through: a
completed frame puts its own share in front of what the rest of the session shows.
-/
import Chip8.Proofs.Machine.Clock
import Chip8.Proofs.Session.Printed

namespace Chip8

/-! ## Halts along a run -/

namespace Machine

/-- The `f`-th tick of a run is the first that leaves the machine halted. -/
structure HaltsAt (s : Machine) (samples : List Keypad) (f : Nat) : Prop where
  le_length : f ≤ samples.length
  halted : (s.run (samples.take f)).fault ≠ 0
  before : ∀ n < f, (s.run (samples.take n)).fault = 0

instance (s : Machine) (samples : List Keypad) (f : Nat) : Decidable (s.HaltsAt samples f) :=
  decidable_of_iff (f ≤ samples.length ∧ (s.run (samples.take f)).fault ≠ 0 ∧
      ∀ n < f, (s.run (samples.take n)).fault = 0)
    ⟨fun h => ⟨h.1, h.2.1, h.2.2⟩, fun h => ⟨h.le_length, h.halted, h.before⟩⟩

section Halts

variable {s : Machine} {k : Keypad} {ks : List Keypad} {f : Nat}

theorem Runs.cons (hs : s.fault = 0) (h : (s.tick k).Runs ks) : s.Runs (k :: ks) := by
  intro n hn
  cases n with
  | zero => exact hs
  | succ n => exact h n (Nat.le_of_succ_le_succ hn)

theorem HaltsAt.cons (hs : s.fault = 0) (h : (s.tick k).HaltsAt ks f) :
    s.HaltsAt (k :: ks) (f + 1) := by
  refine ⟨Nat.succ_le_succ h.le_length, h.halted, fun n hn => ?_⟩
  cases n with
  | zero => exact hs
  | succ n => exact h.before n (Nat.lt_of_succ_lt_succ hn)

theorem HaltsAt.tail (h : s.HaltsAt (k :: ks) (f + 1)) : (s.tick k).HaltsAt ks f where
  le_length := Nat.le_of_succ_le_succ h.le_length
  halted := h.halted
  before n hn := h.before (n + 1) (Nat.succ_lt_succ hn)

theorem HaltsAt.exists_succ (h : s.HaltsAt ks f) (hs : s.fault = 0) : ∃ q, f = q + 1 := by
  refine Nat.exists_eq_succ_of_ne_zero ?_
  rintro rfl
  exact h.halted hs

theorem HaltsAt.eq_zero (h : s.HaltsAt (k :: ks) (f + 1)) (hk : (s.tick k).fault ≠ 0) : f = 0 := by
  cases f with
  | zero => rfl
  | succ f => exact absurd (h.before 1 (by omega)) hk

/-- A run halts at one of its ticks or at none. -/
theorem runs_or_haltsAt (hs : s.fault = 0) (samples : List Keypad) :
    s.Runs samples ∨ ∃ f, s.HaltsAt samples f := by
  induction samples generalizing s with
  | nil =>
    refine .inl fun n hn => ?_
    rw [List.take_nil]
    exact hs
  | cons k ks ih =>
    by_cases hk : (s.tick k).fault = 0
    · rcases ih hk with h | ⟨f, h⟩
      · exact .inl (h.cons hs)
      · exact .inr ⟨f + 1, h.cons hs⟩
    · refine .inr ⟨1, Nat.succ_le_succ (Nat.zero_le _), hk, fun n hn => ?_⟩
      obtain rfl : n = 0 := by omega
      exact hs

theorem halt?_of_running (h : s.fault = 0) : s.halt? = none := by
  rw [halt?, h]
  rfl

theorem exists_halt?_of_fault (h : s.fault ≠ 0) : ∃ c, s.halt? = some c := by
  have hne : (s.fault.toNat : Int) ≠ 0 := by
    rw [Ne, ← UInt8.toNat_inj, UInt8.toNat_zero] at h
    omega
  rw [halt?, Halt.of?, if_neg hne]
  split <;> exact ⟨_, rfl⟩

end Halts

end Machine

/-! ## What the machine of a session sees -/

/-- The frame closes the window. -/
def Frame.asksToQuit (f : Frame) : Bool := f.events.any HostEvent.asksToQuit

/-- The keypad that the standard keyboard makes of the keys held. -/
def Frame.keypad (f : Frame) : Keypad := KeyMap.standard.keypad f.held

theorem Keyboard.poll_standard {f : Frame} (h : f.asksToQuit = false) :
    Keyboard.standard.poll f = (Keyboard.standard, f.keypad) := by
  show (Keyboard.mk KeyMap.standard f.asksToQuit, f.keypad) = _
  rw [h]
  rfl

namespace Session

/-- The keypads of the frames before the first that closes the window. -/
def samples (fs : List Frame) : List Keypad :=
  (fs.takeWhile fun f => !f.asksToQuit).map Frame.keypad

/-- The screens that the first `q` ticks of a run ask to draw, each with the number of ticks before
it, counted from `n` on. -/
def drawsOf (n : Nat) (s : Machine) (ks : List Keypad) (q : Nat) : List (Nat × Screen) :=
  (List.range q).flatMap fun i => drawn (n + i) (s.run (ks.take (i + 1)))

/-- Whether the first `q` ticks of a run beep. -/
def beepsOf (s : Machine) (ks : List Keypad) (q : Nat) : List Bool :=
  (List.range q).map fun i => (s.run (ks.take (i + 1))).beeping

section Samples

variable {f : Frame} {fs : List Frame}

theorem samples_of_quit (h : f.asksToQuit = true) : samples (f :: fs) = [] := by
  simp [samples, h]

theorem samples_of_not_quit (h : f.asksToQuit = false) :
    samples (f :: fs) = f.keypad :: samples fs := by
  simp [samples, h]

theorem drawsOf_succ (n : Nat) (s : Machine) (k : Keypad) (ks : List Keypad) (q : Nat) :
    drawsOf n s (k :: ks) (q + 1) = drawn n (s.tick k) ++ drawsOf (n + 1) (s.tick k) ks q := by
  have hshift : (fun i => drawn (n + Nat.succ i) (s.run ((k :: ks).take (Nat.succ i + 1)))) =
      fun i => drawn (n + 1 + i) ((s.tick k).run (ks.take (i + 1))) := by
    funext i
    rw [Nat.succ_eq_add_one, Nat.add_comm i 1, ← Nat.add_assoc, Nat.add_comm 1 i]
    rfl
  rw [drawsOf, List.range_succ_eq_map, List.flatMap_cons, List.flatMap_map, hshift]
  rfl

theorem beepsOf_succ (s : Machine) (k : Keypad) (ks : List Keypad) (q : Nat) :
    beepsOf s (k :: ks) (q + 1) = (s.tick k).beeping :: beepsOf (s.tick k) ks q := by
  rw [beepsOf, List.range_succ_eq_map, List.map_cons, List.map_map]
  rfl

end Samples

/-! ## The frames -/

/-- The message of a session that ends because its window is closed. -/
def closing : LogEntry := ⟨.info, "Window closed"⟩

/-- The message of a session that ends because its machine halts. -/
def halting (c : Halt) : LogEntry := ⟨.critical, c.message⟩

/-- The session ends in this way and with this message, and up to its end it shows the first `q`
ticks of a run, in frames counted from `n` on. -/
structure Shows (S : Session) (ending : Ending) (last : LogEntry) (n : Nat) (s : Machine)
    (ks : List Keypad) (q : Nat) : Prop where
  ending : S.ending = ending
  last : S.log.getLast? = some last
  draws : S.draws = drawsOf n s ks q
  tone : S.tone = beepsOf s ks q ++ [false]

section Frames

variable {S : Session} {ending : Ending} {last : LogEntry} {n q : Nat} {s : Machine} {k : Keypad}
  {ks : List Keypad}

theorem finish_shows (ending : Ending) (log : List LogEntry) (last : LogEntry) (tone : Tone) (n : Nat)
    (s : Machine) (ks : List Keypad) :
    (finish ending (log ++ [last]) tone).Shows ending last n s ks 0 :=
  ⟨rfl, List.getLast?_concat, rfl, rfl⟩

/-- What a completed frame adds is what its tick asks for. -/
theorem Shows.after (h : S.Shows ending last (n + 1) (s.tick k) ks q) (log : List LogEntry)
    (audio : List AudioCall) :
    (S.after log (drawn n (s.tick k)) [(s.tick k).beeping] audio).Shows ending last n s (k :: ks)
      (q + 1) where
  ending := h.ending
  last := by rw [Session.after, List.getLast?_append, h.last, Option.some_or]
  draws := by rw [Session.after, h.draws, drawsOf_succ]
  tone := by rw [Session.after, h.tone, beepsOf_succ]; rfl

/-- What is said and done before the first frame shows nothing. -/
theorem Shows.opened (h : S.Shows ending last n s ks q) (log : List LogEntry)
    (audio : List AudioCall) : (S.after log [] [] audio).Shows ending last n s ks q where
  ending := h.ending
  last := by rw [Session.after, List.getLast?_append, h.last, Option.some_or]
  draws := h.draws
  tone := h.tone

variable {f : Frame} {fs : List Frame} (debug : Bool) (n : Nat) (tone : Tone)

theorem frames_of_quit (h : f.asksToQuit = true) (s : Machine) :
    frames debug n s Keyboard.standard tone (f :: fs) = finish .closed [closing] tone := by
  have hq : (Keyboard.standard.poll f).1.quit = true := h
  rw [frames]
  simp only [hq, if_true]
  rfl

theorem frames_of_halt (h : f.asksToQuit = false) {c : Halt}
    (hc : (s.tick f.keypad).halt? = some c) :
    frames debug n s Keyboard.standard tone (f :: fs) =
      finish .halted (tickLog debug s ++ [halting c]) tone := by
  rw [frames, Keyboard.poll_standard h]
  simp only [hc]
  rfl

theorem frames_of_running (h : f.asksToQuit = false) (hf : (s.tick f.keypad).fault = 0) :
    frames debug n s Keyboard.standard tone (f :: fs) =
      (frames debug (n + 1) (s.tick f.keypad) Keyboard.standard
        (tone.request (s.tick f.keypad).beeping).1 fs).after (tickLog debug s)
        (drawn n (s.tick f.keypad)) [(s.tick f.keypad).beeping]
        (tone.request (s.tick f.keypad).beeping).2 := by
  rw [frames, Keyboard.poll_standard h]
  simp only [Machine.halt?_of_running hf]
  rfl

/-- Frame by frame: the window is closed, a tick halts the machine, or the frame is completed and the
others follow. -/
theorem frames_induction {motive : Machine → List Frame → Prop}
    (closed : ∀ s fs, samples fs = [] →
      (∀ debug n tone, frames debug n s Keyboard.standard tone fs = finish .closed [closing] tone) →
      motive s fs)
    (halted : ∀ s f fs c, samples (f :: fs) = f.keypad :: samples fs →
      (s.tick f.keypad).halt? = some c → (s.tick f.keypad).fault ≠ 0 →
      (∀ debug n tone, frames debug n s Keyboard.standard tone (f :: fs) =
        finish .halted (tickLog debug s ++ [halting c]) tone) →
      motive s (f :: fs))
    (completed : ∀ s f fs, samples (f :: fs) = f.keypad :: samples fs →
      (s.tick f.keypad).fault = 0 →
      (∀ debug n tone, frames debug n s Keyboard.standard tone (f :: fs) =
        (frames debug (n + 1) (s.tick f.keypad) Keyboard.standard
          (tone.request (s.tick f.keypad).beeping).1 fs).after (tickLog debug s)
          (drawn n (s.tick f.keypad)) [(s.tick f.keypad).beeping]
          (tone.request (s.tick f.keypad).beeping).2) →
      motive (s.tick f.keypad) fs → motive s (f :: fs))
    (s : Machine) (fs : List Frame) : motive s fs := by
  induction fs generalizing s with
  | nil => exact closed s [] rfl fun _ _ _ => rfl
  | cons f fs ih =>
    by_cases hq : f.asksToQuit = true
    · exact closed s (f :: fs) (samples_of_quit hq) fun debug n tone =>
        frames_of_quit debug n tone hq s
    · rw [Bool.not_eq_true] at hq
      by_cases hf : (s.tick f.keypad).fault = 0
      · exact completed s f fs (samples_of_not_quit hq) hf
          (fun debug n tone => frames_of_running debug n tone hq hf) (ih _)
      · obtain ⟨c, hc⟩ := Machine.exists_halt?_of_fault hf
        exact halted s f fs c (samples_of_not_quit hq) hc hf fun debug n tone =>
          frames_of_halt debug n tone hq hc

/-- If no tick halts the machine, the session goes on until the window is closed. -/
theorem frames_shows_of_runs (h : s.Runs (samples fs)) :
    (frames debug n s Keyboard.standard tone fs).Shows .closed closing n s (samples fs)
      (samples fs).length := by
  induction s, fs using frames_induction generalizing n tone with
  | closed s fs hs hframes =>
    rw [hframes, hs]
    exact finish_shows .closed [] closing tone n s []
  | halted s f fs c hs hc hf hframes =>
    rw [hs] at h
    exact absurd h.tail.head hf
  | completed s f fs hs hf hframes ih =>
    rw [hs] at h ⊢
    rw [hframes]
    exact (ih _ _ h.tail).after _ _

/-- Else it goes on until the tick that halts the machine. -/
theorem frames_shows_of_haltsAt {i : Nat} (h : s.HaltsAt (samples fs) (i + 1)) :
    ∃ c, (s.run ((samples fs).take (i + 1))).halt? = some c ∧
      (frames debug n s Keyboard.standard tone fs).Shows .halted (halting c) n s (samples fs) i := by
  induction s, fs using frames_induction generalizing n tone i with
  | closed s fs hs hframes =>
    rw [hs] at h
    exact absurd h.le_length (Nat.not_succ_le_zero i)
  | halted s f fs c hs hc hf hframes =>
    rw [hs] at h ⊢
    obtain rfl : i = 0 := h.eq_zero hf
    rw [hframes]
    exact ⟨c, hc, finish_shows .halted _ _ tone n s _⟩
  | completed s f fs hs hf hframes ih =>
    rw [hs] at h ⊢
    obtain ⟨i, rfl⟩ := h.tail.exists_succ hf
    obtain ⟨c, hc, hshows⟩ := ih (n + 1) (tone.request (s.tick f.keypad).beeping).1 h.tail
    rw [hframes]
    exact ⟨c, hc, hshows.after _ _⟩

end Frames

end Session

end Chip8
