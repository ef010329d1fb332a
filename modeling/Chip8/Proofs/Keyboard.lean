/-
What polls of the keyboard report. Each pair of a key map overwrites what an earlier pair has said of
the same key, so of the host keys that stand for a key the last one in the map decides alone: the key
is down exactly if that one is held. Where one host key stands for a key, as in the standard map, no
held key is lost and the order of the pairs does not matter; where two do, one of them goes unheard.
A wish to quit is kept from the poll that sees it on.
-/
import Chip8.Host.Keyboard
import Mathlib.Data.List.Induction

namespace Chip8

/-! ## Keypads of key maps -/

theorem Keypad.isDown_released (k : Fin 16) : released.isDown k = false :=
  Vector.getElem_replicate k.isLt

namespace KeyMap

/-- The host keys that stand for a key, in the order of the map. -/
def hosts (m : KeyMap) (k : Fin 16) : List String := (m.filter (·.2 = k)).map Prod.fst

/-- No two host keys stand for the key. -/
def Single (m : KeyMap) (k : Fin 16) : Prop := ∀ a ∈ m.hosts k, ∀ b ∈ m.hosts k, a = b

instance (m : KeyMap) (k : Fin 16) : Decidable (m.Single k) :=
  inferInstanceAs (Decidable (∀ a ∈ m.hosts k, ∀ b ∈ m.hosts k, a = b))

theorem single_standard : ∀ k, standard.Single k := by decide

section Hosts

variable {m m' : KeyMap} {k : Fin 16} {held : List String} {host : String}

theorem mem_hosts_iff : host ∈ m.hosts k ↔ (host, k) ∈ m := by
  simp [hosts]

theorem hosts_concat (m : KeyMap) (p : String × Fin 16) (k : Fin 16) :
    hosts (m ++ [p]) k = m.hosts k ++ if p.2 = k then [p.1] else [] := by
  rw [hosts, List.filter_append, List.map_append, hosts]
  split <;> simp [*]

/-- A further pair settles its own key, and no other. -/
theorem isDown_keypad_concat (m : KeyMap) (p : String × Fin 16) (held : List String) (k : Fin 16) :
    (keypad (m ++ [p]) held).isDown k =
      if p.2 = k then held.contains p.1 else (m.keypad held).isDown k := by
  rw [keypad, List.foldl_append]
  refine (Vector.getElem_set p.2.isLt k.isLt).trans ?_
  simp only [Fin.ext_iff]
  rfl

/-- The induction takes the pairs from the end of the map, where the last host key stands. -/
theorem isDown_keypad (m : KeyMap) (held : List String) (k : Fin 16) :
    (m.keypad held).isDown k = (m.hosts k).getLast?.any held.contains := by
  induction m using List.reverseRecOn with
  | nil => exact Keypad.isDown_released k
  | append_singleton m p ih =>
    rw [isDown_keypad_concat, hosts_concat]
    split
    · rw [List.getLast?_concat]
      rfl
    · rw [List.append_nil, ih]

theorem isDown_keypad_iff : (m.keypad held).isDown k = true ↔
    ∃ host, (m.hosts k).getLast? = some host ∧ host ∈ held := by
  rw [isDown_keypad, Option.any_eq_true]
  simp

/-- A key that is down was reported by a held host key. -/
theorem exists_held_of_isDown (h : (m.keypad held).isDown k = true) : ∃ host ∈ m.hosts k, host ∈ held := by
  obtain ⟨host, hlast, hheld⟩ := isDown_keypad_iff.1 h
  exact ⟨host, List.mem_of_getLast? hlast, hheld⟩

/-- Held host keys are heard if and only if no two stand for the key. -/
theorem heard_iff_single (m : KeyMap) (k : Fin 16) :
    (∀ held, (m.keypad held).isDown k = true ↔ ∃ host ∈ m.hosts k, host ∈ held) ↔ m.Single k := by
  constructor
  · intro hheard
    -- a host key that is held alone must be the last
    have hlast (a : String) (ha : a ∈ m.hosts k) : (m.hosts k).getLast? = some a := by
      have hdown := (hheard [a]).2 ⟨a, ha, List.mem_singleton_self a⟩
      obtain ⟨host, hhost, hmem⟩ := isDown_keypad_iff.1 hdown
      rwa [List.mem_singleton.1 hmem] at hhost
    intro a ha b hb
    exact Option.some.inj ((hlast a ha).symm.trans (hlast b hb))
  · intro hsingle held
    constructor
    · exact exists_held_of_isDown
    · rintro ⟨host, hhost, hheld⟩
      have hne : m.hosts k ≠ [] := List.ne_nil_of_mem hhost
      refine isDown_keypad_iff.2 ⟨_, List.getLast?_eq_some_getLast hne, ?_⟩
      rwa [hsingle _ (List.getLast_mem hne) host hhost]

/-- Where one host key stands for each key, the order of the pairs does not matter. -/
theorem keypad_perm (hp : m.Perm m') (hs : ∀ k, m.Single k) (held : List String) :
    m.keypad held = m'.keypad held := by
  have hs' (k : Fin 16) : m'.Single k := by
    intro a ha b hb
    rw [mem_hosts_iff, ← hp.mem_iff, ← mem_hosts_iff] at ha hb
    exact hs k a ha b hb
  have hdown (k : Fin 16) : (m.keypad held).isDown k = (m'.keypad held).isDown k := by
    rw [Bool.eq_iff_iff, (heard_iff_single m k).2 (hs k), (heard_iff_single m' k).2 (hs' k)]
    simp only [mem_hosts_iff, hp.mem_iff]
  ext i hi
  exact hdown ⟨i, hi⟩

end Hosts

end KeyMap

/-! ## Polls in turn -/

namespace Keyboard

/-- The keyboard and the keypad after each poll. -/
def pollAll (k : Keyboard) : List Frame → List (Keyboard × Keypad)
  | [] => []
  | f :: fs =>
    let next := k.poll f
    next :: pollAll next.1 fs

theorem getElem?_pollAll (k : Keyboard) (fs : List Frame) (i : Nat) :
    (k.pollAll fs)[i]? = fs[i]?.map fun f =>
      ({ k with quit := k.quit || (fs.take (i + 1)).any (·.events.any HostEvent.asksToQuit) },
        k.map.keypad f.held) := by
  induction fs generalizing k i with
  | nil => rfl
  | cons f fs ih =>
    cases i with
    | zero => simp [pollAll, poll, notice]
    | succ i =>
      rw [pollAll, List.getElem?_cons_succ, ih]
      simp [poll, notice, Bool.or_assoc]

/-- The events among which one asks for the end of the session. -/
theorem any_asksToQuit_iff (es : List HostEvent) :
    es.any HostEvent.asksToQuit = true ↔ HostEvent.quit ∈ es ∨ HostEvent.down "ESCAPE" ∈ es := by
  have hasks (e : HostEvent) : e.asksToQuit = true ↔ e = .quit ∨ e = .down "ESCAPE" := by
    cases e <;> simp [HostEvent.asksToQuit]
  rw [List.any_eq_true]
  constructor
  · rintro ⟨e, he, hq⟩
    rcases (hasks e).1 hq with rfl | rfl
    · exact .inl he
    · exact .inr he
  · rintro (he | he)
    · exact ⟨_, he, rfl⟩
    · exact ⟨_, he, rfl⟩

/-- What polls report. Of the host keys that stand for a key the last in the map decides whether it is
down, in each poll by what is held there; a wish to quit counts in all polls from its own on. So it is
exactly for a key for which at most one host key stands that every held host key is heard; if that is
so for all keys, the pairs may stand in any order, and in the standard map it is so. -/
theorem last_host_decides (m : KeyMap) :
    (∀ (fs : List Frame) (i : Nat) (hi : i < fs.length), ∃ after keys,
      (pollAll ⟨m, false⟩ fs)[i]? = some (after, keys) ∧
      (∀ k, keys.isDown k = true ↔ ∃ host, (m.hosts k).getLast? = some host ∧ host ∈ fs[i].held) ∧
      (after.quit = true ↔
        ∃ f ∈ fs.take (i + 1), HostEvent.quit ∈ f.events ∨ HostEvent.down "ESCAPE" ∈ f.events)) ∧
    (∀ k, (∀ held, (m.keypad held).isDown k = true ↔ ∃ host ∈ m.hosts k, host ∈ held) ↔ m.Single k) ∧
    ((∀ k, m.Single k) → ∀ m' : KeyMap, m.Perm m' → ∀ held, m.keypad held = m'.keypad held) ∧
    (∀ k, KeyMap.standard.Single k) := by
  refine ⟨fun fs i hi => ?_, m.heard_iff_single, fun hs m' hp => KeyMap.keypad_perm hp hs,
    KeyMap.single_standard⟩
  have hpoll := getElem?_pollAll ⟨m, false⟩ fs i
  rw [List.getElem?_eq_getElem hi] at hpoll
  refine ⟨_, _, hpoll, fun k => KeyMap.isDown_keypad_iff, ?_⟩
  rw [Bool.false_or, List.any_eq_true]
  simp only [any_asksToQuit_iff]

/-- Two host keys on one key, three polls. The first host key alone is heard in none, the second in
each in which it is held, and `ESCAPE` from the second poll on. -/
theorem last_host_decides_threePolls :
    let m : KeyMap := [("1", 5), ("2", 5), ("q", 4)]
    let fs : List Frame := [⟨[], ["1"]⟩, ⟨[.down "ESCAPE"], ["1", "2"]⟩, ⟨[.up "2"], ["2", "q"]⟩]
    ∃ after keys, (pollAll ⟨m, false⟩ fs)[2]? = some (after, keys) ∧ keys.isDown 5 = true ∧
      keys.isDown 4 = true ∧ keys.isDown 0 = false ∧ after.quit = true := by
  intro m fs
  obtain ⟨hpolls, -⟩ := last_host_decides m
  obtain ⟨after, keys, hpoll, hdown, hquit⟩ := hpolls fs 2 (by decide)
  refine ⟨after, keys, hpoll, (hdown 5).2 ⟨"2", by decide, by decide⟩,
    (hdown 4).2 ⟨"q", by decide, by decide⟩, ?_, hquit.2 ⟨fs[1], by decide, .inr (by decide)⟩⟩
  rw [← Bool.not_eq_true, hdown 0]
  rintro ⟨host, hhost, -⟩
  cases hhost

/-- With two host keys on one key the first is not heard while it is held alone, unless the pairs
change places. -/
theorem first_host_unheard :
    let m : KeyMap := [("1", 5), ("2", 5)]
    (∃ host ∈ m.hosts 5, host ∈ ["1"]) ∧ (m.keypad ["1"]).isDown 5 = false ∧
      (KeyMap.keypad m.reverse ["1"]).isDown 5 = true := by
  decide

end Keyboard

end Chip8
