/-
The tone of a session. It answers one request for each completed frame and one more at the end,
which switches it off however the session ends. So the sound is stopped as often as it is played,
and it is played in the first frame of each longest block of frames that beep.
-/
import Chip8.Proofs.Session.Window
import Chip8.Proofs.Tone

namespace Chip8

namespace Session

/-! ## The calls of the frames -/

/-- The frames call the mixer just as the tone answers their requests. -/
theorem audio_frames (debug : Bool) (n : Nat) (s : Machine) (tone : Tone) (fs : List Frame) :
    (frames debug n s Keyboard.standard tone fs).audio =
      tone.callsOf (frames debug n s Keyboard.standard tone fs).tone := by
  induction s, fs using frames_induction generalizing n tone with
  | closed s fs hs hframes =>
    rw [hframes]
    exact (List.append_nil _).symm
  | halted s f fs c hs hc hf hframes =>
    rw [hframes]
    exact (List.append_nil _).symm
  | completed s f fs hs hf hframes ih =>
    rw [hframes]
    exact congrArg (_ ++ ·) (ih _ _)

/-! ## The calls of a session -/

section Sessions

variable {r : Command.Request} {content : Except ReadError (List UInt8)} {seed : Int} {s : Machine}

theorem audio_of_no_machine (h : machine? r.program content seed = none) (fs : List Frame) :
    (run r content seed fs).audio = [] := by
  obtain ⟨ending, log, hrun⟩ := run_eq_of_no_machine h fs
  rw [hrun]

theorem audio_of_machine (h : machine? r.program content seed = some s) (fs : List Frame) :
    (run r content seed fs).audio =
      .prepare Mixer.standard :: beep.calls ++ beep.tone.callsOf (run r content seed fs).tone := by
  rw [run_of_machine? h, play]
  simp only [Session.after, audio_frames, List.nil_append]

/-- One request a completed frame, and one to be off at the end. -/
theorem tone_of_machine (h : machine? r.program content seed = some s) (fs : List Frame) :
    let S := run r content seed fs
    S.tone = beepsOf s (samples fs) S.completed ++ [false] ∧
      (S.ending = .closed ∧ S.completed = (samples fs).length ∨
        S.ending = .halted ∧ s.HaltsAt (samples fs) (S.completed + 1)) := by
  intro S
  have hf := (machine?_blank h).2
  rcases Machine.runs_or_haltsAt hf (samples fs) with hruns | ⟨f, hhalts⟩
  · have hshows := run_shows_of_runs h hruns
    rw [hshows.completed_eq]
    exact ⟨hshows.tone, .inl ⟨hshows.ending, rfl⟩⟩
  · obtain ⟨q, rfl⟩ := hhalts.exists_succ hf
    obtain ⟨c, -, hshows⟩ := run_shows_of_haltsAt h hhalts
    rw [hshows.completed_eq]
    exact ⟨hshows.tone, .inr ⟨hshows.ending, hhalts⟩⟩

theorem count_audio (h : machine? r.program content seed = some s) (fs : List Frame) :
    (run r content seed fs).audio.count .play = (run r content seed fs).audio.count .stop := by
  obtain ⟨w, hbeep⟩ := beep_eq
  obtain ⟨htone, -⟩ := tone_of_machine h fs
  have hsounding : beep.tone.sounding = true := by rw [hbeep]
  have hoff : beep.tone.active = false := by rw [hbeep]
  have hend : (beep.tone.afterAll (run r content seed fs).tone).active = false := by
    rw [Tone.active_afterAll, htone, List.getLast?_concat]
    rfl
  have hcount := Tone.count_callsOf hsounding (run r content seed fs).tone
  have hopening : (.prepare Mixer.standard :: beep.calls).count AudioCall.play = 0 ∧
      (.prepare Mixer.standard :: beep.calls).count AudioCall.stop = 0 := by
    rw [hbeep]
    exact ⟨rfl, rfl⟩
  rw [audio_of_machine h, List.count_append, List.count_append, hopening.1, hopening.2]
  rw [hoff, hend] at hcount
  omega

end Sessions

/-- The tone is switched on and off in strict alternation and never left on. A new tone follows its
requests, and its calls alternate from a first one to play on, or it makes none if there is no mixer.
A session stops the sound as often as it plays it, and plays it in the first frame of each longest
block of completed frames that beep. -/
theorem tone_never_left_on :
    (∀ host mixer failure frequency volume o,
      Tone.opening host mixer failure frequency volume = .ok o → ∀ rs,
        (o.tone.requests rs).map (·.1.active) = rs ∧
        (mixer ≠ none ∨ failure = none →
          (∀ i c, (o.tone.callsOf rs)[i]? = some c → c = if i % 2 = 0 then .play else .stop) ∧
          ((o.tone.callsOf rs).getLast? = some .play ↔ (o.tone.afterAll rs).active = true)) ∧
        (mixer = none ∧ failure ≠ none → o.tone.callsOf rs = [])) ∧
    (∀ r content seed fs, let S := run r content seed fs
      S.audio.count .play = S.audio.count .stop ∧
      (machine? r.program content seed = none → S.audio = []) ∧
      ∀ s, machine? r.program content seed = some s →
        let beeps := beepsOf s (samples fs) S.completed
        let calls := Tone.numbered 0 beep.tone (beeps ++ [false])
        S.audio = .prepare Mixer.standard :: beep.calls ++ calls.map Prod.snd ∧
        (Tone.requestsOf .play calls).Pairwise (· < ·) ∧
        (∀ a, a ∈ Tone.requestsOf .play calls ↔ ∃ b, Tone.Block beeps a b) ∧
        (S.ending = .closed ∧ S.completed = (samples fs).length ∨
          S.ending = .halted ∧ s.HaltsAt (samples fs) (S.completed + 1))) := by
  refine ⟨fun _ _ _ _ _ _ h rs => Tone.follows_requests h rs, fun r content seed fs => ⟨?_, ?_, ?_⟩⟩
  · cases hm : machine? r.program content seed with
    | none =>
      rw [audio_of_no_machine hm]
      rfl
    | some s => exact count_audio hm fs
  · exact fun hm => audio_of_no_machine hm fs
  · intro s hm beeps calls
    obtain ⟨htone, hend⟩ := tone_of_machine hm fs
    obtain ⟨w, hbeep⟩ := beep_eq
    have hsounding : beep.tone.sounding = true := by rw [hbeep]
    have hoff : beep.tone.active = false := by rw [hbeep]
    refine ⟨?_, Tone.pairwise_requestsOf .play 0 beep.tone _, fun a => ?_, hend⟩
    · rw [Tone.map_snd_numbered, ← htone]
      exact audio_of_machine hm fs
    · rw [Tone.mem_requestsOf_play_iff hsounding hoff, Tone.exists_block_concat_false]

/-- Two requests to be on, of which the second changes nothing; and a program that beeps for two
frames of three, in a window that is closed while it does. -/
theorem tone_never_left_on_twice :
    (∃ o, Tone.opening .ample (some .standard) none Tone.standardFrequency Tone.standardVolume = .ok o ∧
      (o.tone.callsOf [true, true, false, true]).getLast? = some .play) ∧
    (let program := [0x60, 0x02, 0xF0, 0x18, 0x12, 0x00]
      let s := (Machine.fresh (.ofSeed 0) false).withProgram program
      let fs : List Frame := List.replicate 6 ⟨[], []⟩
      let S := run ⟨"p", false⟩ (.ok program) 0 fs
      machine? "p" (.ok program) 0 = some s ∧ S.audio.count .play = S.audio.count .stop ∧
        S.completed = 6 ∧
        (∃ b, Tone.Block (beepsOf s (samples fs) 6) 1 b) ∧
        (∃ b, Tone.Block (beepsOf s (samples fs) 6) 4 b)) := by
  constructor
  · obtain ⟨o, ho⟩ := Tone.exists_openOn_standard
    obtain ⟨-, hmixer, -⟩ := tone_never_left_on.1 .ample (some .standard) none _ _ o ho
      [true, true, false, true]
    obtain ⟨-, hlast⟩ := hmixer (.inr rfl)
    refine ⟨o, ho, hlast.2 ?_⟩
    rw [Tone.active_afterAll]
    rfl
  · intro program s fs S
    have hm : machine? "p" (.ok program) 0 = some s := machine?_of_fits "p" (by decide) (by decide)
    have hruns : s.Runs (samples fs) := by decide +kernel
    have hcompleted : S.completed = 6 := (run_shows_of_runs (r := ⟨"p", false⟩) hm hruns).completed_eq
    have hplays : Tone.requestsOf .play
        (Tone.numbered 0 ⟨true, false⟩ (beepsOf s (samples fs) 6 ++ [false])) = [1, 4] := by
      decide +kernel
    obtain ⟨hcount, -, hmachine⟩ := tone_never_left_on.2 ⟨"p", false⟩ (.ok program) 0 fs
    obtain ⟨-, -, hblocks, -⟩ := hmachine s hm
    obtain ⟨w, hbeep⟩ := beep_eq
    rw [hcompleted, hbeep, hplays] at hblocks
    exact ⟨hm, hcount, hcompleted, (hblocks 1).1 (by decide), (hblocks 4).1 (by decide)⟩

end Session

end Chip8
