/-
What a tone asks of the mixer. Requests in turn reach the mixer only where they differ from the one
before, so that the calls play and stop in strict alternation, the first one plays, and the last one
plays exactly if the tone is on. With the calls go the numbers of the requests that they answer: the
sound is played at the first request of each longest block of requests to be on, and nowhere else.

A tone without a sound makes no calls and follows its requests all the same.
-/
import Chip8.Session

namespace Chip8

namespace Tone

/-! ## Requests in turn -/

/-- The call that switches the sound on or off. -/
def switch (on : Bool) : AudioCall := if on then .play else .stop

/-- The calls of requests in turn. -/
def callsOf (t : Tone) (rs : List Bool) : List AudioCall := (t.requests rs).flatMap Prod.snd

/-- The tone after requests in turn. -/
def afterAll (t : Tone) (rs : List Bool) : Tone := ((t.requests rs).getLast?.map Prod.fst).getD t

/-- The calls of requests in turn, each with the number of its request, counted from `n` on. -/
def numbered (n : Nat) (t : Tone) : List Bool → List (Nat × AudioCall)
  | [] => []
  | on :: rest => (t.request on).2.map (n, ·) ++ numbered (n + 1) (t.request on).1 rest

/-- The numbers of the requests that make a call. -/
def requestsOf (c : AudioCall) (calls : List (Nat × AudioCall)) : List Nat :=
  (calls.filter (·.2 = c)).map Prod.fst

section Requests

variable {t : Tone} {on : Bool} {rs : List Bool} {i n : Nat} {c : AudioCall}

theorem switch_eq_play_iff : switch on = .play ↔ on = true := by
  cases on <;> simp [switch]

theorem callsOf_cons (t : Tone) (on : Bool) (rs : List Bool) :
    t.callsOf (on :: rs) = (t.request on).2 ++ (t.request on).1.callsOf rs :=
  rfl

theorem afterAll_cons (t : Tone) (on : Bool) (rs : List Bool) :
    t.afterAll (on :: rs) = (t.request on).1.afterAll rs := by
  unfold afterAll
  rw [requests, List.getLast?_cons]
  cases ((t.request on).1.requests rs).getLast? <;> rfl

theorem map_snd_numbered (n : Nat) (t : Tone) (rs : List Bool) :
    (numbered n t rs).map Prod.snd = t.callsOf rs := by
  induction rs generalizing n t with
  | nil => rfl
  | cons on rs ih =>
    rw [numbered, List.map_append, List.map_map, ih, callsOf_cons]
    exact congrArg (· ++ _) (List.map_id _)

/-- After each request the tone is as requested. -/
theorem map_active_requests (t : Tone) (rs : List Bool) :
    (t.requests rs).map (·.1.active) = rs := by
  induction rs generalizing t with
  | nil => rfl
  | cons on rs ih =>
    rw [requests, List.map_cons, ih]
    rfl

theorem active_afterAll (t : Tone) (rs : List Bool) :
    (t.afterAll rs).active = rs.getLast?.getD t.active := by
  have hlast : (t.requests rs).getLast?.map (·.1.active) = rs.getLast? := by
    rw [← List.getLast?_map, map_active_requests]
  rw [afterAll, ← hlast]
  cases (t.requests rs).getLast? <;> rfl

theorem callsOf_of_silent (hs : t.sounding = false) (rs : List Bool) : t.callsOf rs = [] := by
  induction rs generalizing t with
  | nil => rfl
  | cons on rs ih =>
    have hnone : (t.request on).2 = [] := if_neg (by simp [hs])
    have hrest : (t.request on).1.callsOf rs = [] := ih hs
    rw [callsOf_cons, hnone, hrest]
    rfl

/-- A request to a tone with a sound makes a call just if it changes something. -/
theorem request_cases (hs : t.sounding = true) (on : Bool) :
    on = t.active ∧ t.request on = (t, []) ∨
      on = (!t.active) ∧ t.request on = ({ t with active := !t.active }, [switch (!t.active)]) := by
  by_cases h : on = t.active
  · subst h
    exact .inl ⟨rfl, by simp [request]⟩
  · obtain rfl := Bool.eq_not.2 h
    exact .inr ⟨rfl, by simp [request, hs, switch]⟩

/-- The calls of a tone with a sound alternate, from the one on that changes what it does. -/
theorem getElem?_callsOf (hs : t.sounding = true) (h : (t.callsOf rs)[i]? = some c) :
    c = switch (t.active != (i % 2 == 0)) := by
  induction rs generalizing t i with
  | nil => cases h
  | cons on rs ih =>
    rw [callsOf_cons] at h
    obtain ⟨-, hr⟩ | ⟨-, hr⟩ := request_cases hs on
    · rw [hr] at h
      exact ih hs h
    · rw [hr] at h
      cases i with
      | zero =>
        obtain rfl := Option.some.inj h
        cases t.active <;> rfl
      | succ i =>
        have hrest := ih (t := { t with active := !t.active }) hs h
        have hparity : ((i + 1) % 2 == 0) = !(i % 2 == 0) := by grind
        rw [hrest, hparity]
        cases t.active <;> cases i % 2 == 0 <;> rfl

/-- The last call is the one that leaves the tone as it is. -/
theorem getLast?_callsOf (hs : t.sounding = true) (rs : List Bool) :
    (t.callsOf rs).getLast?.getD (switch t.active) = switch (t.afterAll rs).active := by
  induction rs generalizing t with
  | nil => rfl
  | cons on rs ih =>
    rw [callsOf_cons, afterAll_cons]
    obtain ⟨-, hr⟩ | ⟨-, hr⟩ := request_cases hs on
    · rw [hr]
      exact ih hs
    · rw [hr, List.singleton_append, List.getLast?_cons]
      exact ih (t := { t with active := !t.active }) hs

theorem count_switch (on : Bool) :
    [switch on].count .play = on.toNat ∧ [switch on].count .stop = (!on).toNat := by
  cases on <;> decide

/-- There is one more call to play than to stop if requests switch the tone on, one less if they
switch it off, and as many else. -/
theorem count_callsOf (hs : t.sounding = true) (rs : List Bool) :
    (t.callsOf rs).count .play + t.active.toNat =
      (t.callsOf rs).count .stop + (t.afterAll rs).active.toNat := by
  induction rs generalizing t with
  | nil => rfl
  | cons on rs ih =>
    rw [callsOf_cons, afterAll_cons]
    obtain ⟨-, hr⟩ | ⟨-, hr⟩ := request_cases hs on
    · rw [hr]
      exact ih hs
    · have hrest := ih (t := { t with active := !t.active }) hs
      obtain ⟨hplay, hstop⟩ := count_switch (!t.active)
      simp only [hr, List.count_append, hplay, hstop, Bool.not_not] at hrest ⊢
      omega

end Requests

/-! ## The requests that make calls -/

section Numbered

variable {t : Tone} {rs : List Bool} {i n : Nat} {c : AudioCall}

theorem le_of_mem_numbered (h : (i, c) ∈ numbered n t rs) : n ≤ i := by
  induction rs generalizing n t with
  | nil => cases h
  | cons on rs ih =>
    rcases List.mem_append.1 h with h | h
    · obtain ⟨d, -, hd⟩ := List.mem_map.1 h
      exact Nat.le_of_eq (congrArg Prod.fst hd)
    · exact Nat.le_of_succ_le (ih h)

theorem length_calls_request_le (t : Tone) (on : Bool) : (t.request on).2.length ≤ 1 := by
  unfold request
  split <;> simp

/-- The calls are in the order of their requests, none of which makes two. -/
theorem pairwise_numbered (n : Nat) (t : Tone) (rs : List Bool) :
    (numbered n t rs).Pairwise (·.1 < ·.1) := by
  induction rs generalizing n t with
  | nil => exact .nil
  | cons on rs ih =>
    refine List.pairwise_append.2 ⟨?_, ih _ _, ?_⟩
    · have hle := length_calls_request_le t on
      rcases hcalls : (t.request on).2 with _ | ⟨d, _ | ⟨e, rest⟩⟩
      · exact .nil
      · exact List.pairwise_singleton _ _
      · rw [hcalls] at hle
        exact absurd hle (by simp)
    · rintro ⟨i, d⟩ hi ⟨j, e⟩ hj
      obtain ⟨d', -, hd⟩ := List.mem_map.1 hi
      cases hd
      exact le_of_mem_numbered hj

theorem pairwise_requestsOf (c : AudioCall) (n : Nat) (t : Tone) (rs : List Bool) :
    (requestsOf c (numbered n t rs)).Pairwise (· < ·) :=
  List.pairwise_map.2 ((pairwise_numbered n t rs).filter _)

/-- A tone with a sound answers the requests that differ from the one before. -/
theorem mem_numbered_iff (hs : t.sounding = true) : (n + i, c) ∈ numbered n t rs ↔
    ∃ on, rs[i]? = some on ∧ (t.active :: rs)[i]? = some (!on) ∧ c = switch on := by
  induction rs generalizing n t i with
  | nil => simp [numbered]
  | cons on rs ih =>
    rw [numbered, List.mem_append, List.mem_map]
    cases i with
    | zero =>
      have hlate (u : Tone) : (n, c) ∉ numbered (n + 1) u rs := fun h =>
        Nat.not_succ_le_self n (le_of_mem_numbered h)
      obtain ⟨rfl, hr⟩ | ⟨rfl, hr⟩ := request_cases hs on
      · simp [hr, hlate]
      · simp [hr, hlate, eq_comm]
    | succ i =>
      have hrest := ih (t := (t.request on).1) (n := n + 1) (i := i) hs
      rw [Nat.add_right_comm] at hrest
      constructor
      · rintro (⟨d, -, hd⟩ | h)
        · have hn := congrArg Prod.fst hd
          omega
        · exact hrest.1 h
      · exact fun h => .inr (hrest.2 h)

end Numbered

/-! ## Blocks of requests -/

/-- The requests from `a` on and before `b` are to be on, and neither the one before them nor the
one after them is. -/
structure Block (rs : List Bool) (a b : Nat) : Prop where
  lt : a < b
  on : ∀ i, a ≤ i → i < b → rs[i]? = some true
  before : ∀ i, i + 1 = a → rs[i]? = some false
  after : rs[b]? ≠ some true

section Blocks

variable {t : Tone} {rs : List Bool} {a : Nat}

theorem exists_prefix (rs : List Bool) :
    ∃ n : Nat, (∀ i < n, rs[i]? = some true) ∧ rs[n]? ≠ some true := by
  induction rs with
  | nil => exact ⟨0, fun i h => absurd h (Nat.not_lt_zero i), by simp⟩
  | cons on rs ih =>
    cases on with
    | false => exact ⟨0, fun i h => absurd h (Nat.not_lt_zero i), by simp⟩
    | true =>
      obtain ⟨n, hon, hafter⟩ := ih
      refine ⟨n + 1, fun i h => ?_, hafter⟩
      cases i with
      | zero => rfl
      | succ i => exact hon i (Nat.lt_of_succ_lt_succ h)

/-- A block starts where a request to be on follows none or one to be off. -/
theorem exists_block_iff : (∃ b, Block rs a b) ↔
    rs[a]? = some true ∧ (false :: rs)[a]? = some false := by
  constructor
  · rintro ⟨b, h⟩
    refine ⟨h.on a (Nat.le_refl a) h.lt, ?_⟩
    cases a with
    | zero => rfl
    | succ a => exact h.before a rfl
  · rintro ⟨hon, hbefore⟩
    obtain ⟨n, hn, hafter⟩ := exists_prefix (rs.drop a)
    rw [List.getElem?_drop] at hafter
    have hpos : 0 < n := by
      rw [Nat.pos_iff_ne_zero]
      rintro rfl
      exact hafter hon
    refine ⟨a + n, Nat.lt_add_of_pos_right hpos, fun i hle hlt => ?_, ?_, hafter⟩
    · have hi := hn (i - a) (by omega)
      rwa [List.getElem?_drop, Nat.add_sub_cancel' hle] at hi
    · rintro i rfl
      exact hbefore

/-- The sound is played at the first requests of all blocks. -/
theorem mem_requestsOf_play_iff (hs : t.sounding = true) (ha : t.active = false) (rs : List Bool) :
    a ∈ requestsOf .play (numbered 0 t rs) ↔ ∃ b, Block rs a b := by
  have hmem : a ∈ requestsOf .play (numbered 0 t rs) ↔ (0 + a, .play) ∈ numbered 0 t rs := by
    simp [requestsOf]
  rw [hmem, mem_numbered_iff hs, exists_block_iff, ha]
  constructor
  · rintro ⟨on, hon, hbefore, hplay⟩
    cases on with
    | true => exact ⟨hon, hbefore⟩
    | false => cases hplay
  · rintro ⟨hon, hbefore⟩
    exact ⟨true, hon, hbefore, rfl⟩

/-- A last request to be off does not change where blocks begin. -/
theorem exists_block_concat_false :
    (∃ b, Block (rs ++ [false]) a b) ↔ ∃ b, Block rs a b := by
  have hon : (rs ++ [false])[a]? = some true ↔ rs[a]? = some true := by grind
  rw [exists_block_iff, exists_block_iff, hon]
  refine and_congr_right fun h => ?_
  obtain ⟨hlt, -⟩ := List.getElem?_eq_some_iff.1 h
  have hle : a < (false :: rs).length := Nat.lt_succ_of_lt hlt
  rw [← List.cons_append, List.getElem?_append_left hle]

end Blocks

/-! ## Openings -/

section Openings

variable {host : Host} {m : Mixer} {mixer : Option Mixer} {failure : Option String}
  {frequency volume : Number} {o : Opening}

theorem openOn_eq (h : openOn host m frequency volume = .ok o) :
    ∃ w, o = ⟨⟨true, false⟩, [soundCall w m], []⟩ := by
  unfold openOn at h
  obtain ⟨w, -, h⟩ := bind_eq_ok_iff.1 h
  obtain ⟨_, -, h⟩ := bind_eq_ok_iff.1 h
  exact ⟨w, pure_eq_ok_iff.1 h⟩

theorem exists_openOn_standard :
    ∃ o, openOn .ample .standard standardFrequency standardVolume = .ok o := by
  have hok : (openOn .ample .standard standardFrequency standardVolume).isOk = true := by
    decide +kernel
  cases h : openOn .ample .standard standardFrequency standardVolume with
  | ok o => exact ⟨o, rfl⟩
  | error e =>
    rw [h] at hok
    cases hok

/-- A tone has a sound unless no mixer was open and none could be opened. It is off at first. -/
theorem opening_tone (h : opening host mixer failure frequency volume = .ok o) :
    o.tone = ⟨mixer.isSome || failure.isNone, false⟩ := by
  cases mixer with
  | some m =>
    obtain ⟨w, rfl⟩ := openOn_eq h
    rfl
  | none =>
    cases failure with
    | some why =>
      obtain rfl := Except.ok.inj h
      rfl
    | none =>
      cases ho : openOn host .standard frequency volume with
      | error e =>
        simp only [opening, ho] at h
        cases h
      | ok p =>
        simp only [opening, ho] at h
        obtain rfl := Except.ok.inj h
        obtain ⟨w, rfl⟩ := openOn_eq ho
        rfl

/-- A new tone follows its requests. With a mixer its calls alternate from a first one to play on,
and the last one plays exactly if the tone is on; without one it makes none. -/
theorem follows_requests (h : opening host mixer failure frequency volume = .ok o) (rs : List Bool) :
    (o.tone.requests rs).map (·.1.active) = rs ∧
    (mixer ≠ none ∨ failure = none →
      (∀ i c, (o.tone.callsOf rs)[i]? = some c → c = if i % 2 = 0 then .play else .stop) ∧
      ((o.tone.callsOf rs).getLast? = some .play ↔ (o.tone.afterAll rs).active = true)) ∧
    (mixer = none ∧ failure ≠ none → o.tone.callsOf rs = []) := by
  have htone := opening_tone h
  have hoff : o.tone.active = false := by rw [htone]
  refine ⟨map_active_requests o.tone rs, fun hmixer => ?_, fun ⟨hmixer, hfailure⟩ => ?_⟩
  · have hs : o.tone.sounding = true := by
      rw [htone]
      rcases hmixer with hmixer | rfl
      · exact Bool.or_eq_true_iff.2 (.inl (Option.isSome_iff_ne_none.2 hmixer))
      · exact Bool.or_true _
    constructor
    · intro i c hc
      rw [getElem?_callsOf hs hc, hoff]
      by_cases hi : i % 2 = 0
      · simp [hi, switch]
      · simp [hi, switch]
    · have hlast := getLast?_callsOf hs rs
      rw [← switch_eq_play_iff, ← hlast, hoff]
      cases (o.tone.callsOf rs).getLast? <;> simp [switch]
  · have hs : o.tone.sounding = false := by
      obtain ⟨why, rfl⟩ := Option.ne_none_iff_exists'.1 hfailure
      rw [htone, hmixer]
      rfl
    exact callsOf_of_silent hs rs

end Openings

end Tone

/-- The tone of a session has a sound and is off, and making it took one call and no message. -/
theorem Session.beep_eq : ∃ w, beep = ⟨⟨true, false⟩, [Tone.soundCall w Mixer.standard], []⟩ := by
  obtain ⟨o, ho⟩ := Tone.exists_openOn_standard
  obtain ⟨w, rfl⟩ := Tone.openOn_eq ho
  refine ⟨w, ?_⟩
  unfold beep
  rw [ho]

end Chip8
