/-
Tracing. With `--debug` a session announces every coming tick in its log, from the live machine and
in between the warnings of the ticks. Nothing else depends on it: leave the announcements out, and
the session is that of the same command line without `--debug`, whatever the files hold and however
the session ends. The announcements are those of the ticks, one each and in order, the tick that
halts the machine included.
-/
import Chip8.Proofs.Session.Outcome
import Chip8.Proofs.Tone

namespace Chip8

namespace Session

/-! ## Sessions but for announcements -/

/-- The second session is the first without the messages at debug level. -/
structure Traces (T S : Session) : Prop where
  ending : T.ending = S.ending
  log : T.log.filter (·.level ≠ .debug) = S.log
  draws : T.draws = S.draws
  tone : T.tone = S.tone
  audio : T.audio = S.audio

/-- The messages at debug level. -/
def announced (S : Session) : List LogEntry := S.log.filter (·.level = .debug)

/-- The announcements of the first `q` ticks of a run. -/
def announcements (s : Machine) (ks : List Keypad) (q : Nat) : List LogEntry :=
  (List.range q).map fun i => ⟨.debug, (s.run (ks.take i)).trace⟩

section Traces

variable {S T : Session} {log : List LogEntry}

/-- A session that announces nothing is traced by itself. -/
theorem traces_self (h : S.log.all (·.level ≠ .debug)) : S.Traces S :=
  ⟨rfl, List.filter_eq_self.2 (List.all_eq_true.1 h), rfl, rfl, rfl⟩

theorem Traces.after {log' : List LogEntry} (h : T.Traces S)
    (hl : log'.filter (·.level ≠ .debug) = log) (draws : List (Nat × Screen)) (tone : List Bool)
    (audio : List AudioCall) : (T.after log' draws tone audio).Traces (S.after log draws tone audio) where
  ending := h.ending
  log := by rw [Session.after, Session.after, List.filter_append, hl, h.log]
  draws := by rw [Session.after, Session.after, h.draws]
  tone := by rw [Session.after, Session.after, h.tone]
  audio := by rw [Session.after, Session.after, h.audio]

theorem finish_traces {log' : List LogEntry} (hl : log'.filter (·.level ≠ .debug) = log)
    (ending : Ending) (tone : Tone) : (finish ending log' tone).Traces (finish ending log tone) :=
  ⟨rfl, hl, rfl, rfl, rfl⟩

theorem announced_after (S : Session) (log : List LogEntry) (draws : List (Nat × Screen))
    (tone : List Bool) (audio : List AudioCall) :
    (S.after log draws tone audio).announced = log.filter (·.level = .debug) ++ S.announced :=
  List.filter_append ..

theorem announcements_succ (s : Machine) (k : Keypad) (ks : List Keypad) (q : Nat) :
    announcements s (k :: ks) (q + 1) = ⟨.debug, s.trace⟩ :: announcements (s.tick k) ks q := by
  rw [announcements, List.range_succ_eq_map, List.map_cons, List.map_map]
  rfl

end Traces

/-! ## The frames -/

section Frames

variable {s : Machine} {fs : List Frame}

/-- Tracing puts one message in front of those that a tick gives anyway. -/
theorem filter_tickLog (s : Machine) :
    (tickLog true s).filter (·.level ≠ .debug) = tickLog false s := by
  unfold tickLog
  cases s.notice? <;> rfl

theorem announced_tickLog (s : Machine) :
    (tickLog true s).filter (·.level = .debug) = [⟨.debug, s.trace⟩] := by
  unfold tickLog
  cases s.notice? <;> rfl

theorem filter_halting (s : Machine) (c : Halt) :
    (tickLog true s ++ [halting c]).filter (·.level ≠ .debug) = tickLog false s ++ [halting c] := by
  rw [List.filter_append, filter_tickLog]
  rfl

theorem frames_traces (n : Nat) (s : Machine) (tone : Tone) (fs : List Frame) :
    (frames true n s Keyboard.standard tone fs).Traces
      (frames false n s Keyboard.standard tone fs) := by
  induction s, fs using frames_induction generalizing n tone with
  | closed s fs hs hframes =>
    rw [hframes, hframes]
    exact finish_traces rfl .closed tone
  | halted s f fs c hs hc hf hframes =>
    rw [hframes, hframes]
    exact finish_traces (filter_halting s c) .halted tone
  | completed s f fs hs hf hframes ih =>
    rw [hframes, hframes]
    exact (ih _ _).after (filter_tickLog s) _ _ _

/-- If no tick halts the machine, all ticks are announced. -/
theorem announced_frames_of_runs (n : Nat) (tone : Tone) (h : s.Runs (samples fs)) :
    (frames true n s Keyboard.standard tone fs).announced =
      announcements s (samples fs) (samples fs).length := by
  induction s, fs using frames_induction generalizing n tone with
  | closed s fs hs hframes =>
    rw [hframes, hs]
    rfl
  | halted s f fs c hs hc hf hframes =>
    rw [hs] at h
    exact absurd h.tail.head hf
  | completed s f fs hs hf hframes ih =>
    rw [hs] at h ⊢
    rw [hframes, announced_after, announced_tickLog, ih _ _ h.tail, List.length_cons,
      announcements_succ]
    rfl

/-- Else they are announced up to the tick that halts the machine. -/
theorem announced_frames_of_haltsAt (n : Nat) (tone : Tone) {i : Nat}
    (h : s.HaltsAt (samples fs) (i + 1)) :
    (frames true n s Keyboard.standard tone fs).announced = announcements s (samples fs) (i + 1) := by
  induction s, fs using frames_induction generalizing n tone i with
  | closed s fs hs hframes =>
    rw [hs] at h
    exact absurd h.le_length (Nat.not_succ_le_zero i)
  | halted s f fs c hs hc hf hframes =>
    rw [hs] at h ⊢
    obtain rfl := h.eq_zero hf
    rw [hframes, announced, finish, List.filter_append, announced_tickLog, announcements_succ]
    rfl
  | completed s f fs hs hf hframes ih =>
    rw [hs] at h ⊢
    obtain ⟨i, rfl⟩ := h.tail.exists_succ hf
    rw [hframes, announced_after, announced_tickLog, ih _ _ h.tail, announcements_succ]
    rfl

end Frames

/-! ## Whole sessions -/

section Sessions

variable {name : String} {content : Except ReadError (List UInt8)} {seed : Int} {s : Machine}
  {fs : List Frame}

/-- Nothing is announced before the first frame. -/
theorem filter_opening (name : String) :
    (⟨.info, "Loaded ROM: " ++ name⟩ :: beep.messages).filter (·.level ≠ .debug) =
      ⟨.info, "Loaded ROM: " ++ name⟩ :: beep.messages := by
  obtain ⟨w, hbeep⟩ := beep_eq
  rw [hbeep]
  rfl

theorem play_traces (name : String) (s : Machine) (fs : List Frame) :
    (play true name s fs).Traces (play false name s fs) :=
  (frames_traces 0 s beep.tone fs).after (filter_opening name) [] [] _

theorem announced_play (name : String) (s : Machine) (fs : List Frame) :
    (play true name s fs).announced =
      (frames true 0 s Keyboard.standard beep.tone fs).announced := by
  obtain ⟨w, hbeep⟩ := beep_eq
  rw [play, announced_after, hbeep]
  rfl

theorem failed_traces (e : LoadError) : (failed e).Traces (failed e) := by
  unfold failed
  split <;> exact traces_self rfl

theorem run_traces (name : String) (content : Except ReadError (List UInt8)) (seed : Int)
    (fs : List Frame) :
    (run ⟨name, true⟩ content seed fs).Traces (run ⟨name, false⟩ content seed fs) := by
  unfold run
  cases Random.Key.ofNumber seed with
  | error e => exact traces_self rfl
  | ok key =>
    cases hl : (Machine.fresh key false).loadFile name content with
    | error e =>
      simp only [hl]
      exact failed_traces e
    | ok s =>
      simp only [hl]
      exact play_traces name s fs

theorem announced_of_runs (hm : machine? name content seed = some s) (h : s.Runs (samples fs)) :
    (run ⟨name, true⟩ content seed fs).announced =
      announcements s (samples fs) (samples fs).length := by
  have hplay : run ⟨name, true⟩ content seed fs = play true name s fs := run_of_machine? hm fs
  rw [hplay, announced_play]
  exact announced_frames_of_runs 0 beep.tone h

theorem announced_of_haltsAt (hm : machine? name content seed = some s) {f : Nat}
    (h : s.HaltsAt (samples fs) f) :
    (run ⟨name, true⟩ content seed fs).announced = announcements s (samples fs) f := by
  obtain ⟨i, rfl⟩ := h.exists_succ (machine?_blank hm).2
  have hplay : run ⟨name, true⟩ content seed fs = play true name s fs := run_of_machine? hm fs
  rw [hplay, announced_play]
  exact announced_frames_of_haltsAt 0 beep.tone h

end Sessions

/-- Tracing changes nothing but the log, and there it only adds the announcements: without them the
log is that of the session without tracing, which ends in the same way, draws the same and sounds
the same. Each tick of the session is announced once, in order. -/
theorem tracing_only_announces {name : String} (hname : name.toList.head? ≠ some '-')
    {arguments : List String} (ha : arguments ∈ Command.linesOf name true)
    (read : String → Except ReadError (List UInt8)) (seed : Int) (fs : List Frame) :
    ∃ S T, ofArguments read seed fs [name] = .ok S ∧ ofArguments read seed fs arguments = .ok T ∧
      T.ending = S.ending ∧ T.draws = S.draws ∧ T.tone = S.tone ∧ T.audio = S.audio ∧
      T.log.filter (·.level ≠ .debug) = S.log ∧
      ∀ s, machine? name (read name) seed = some s →
        (s.Runs (samples fs) → T.announced = announcements s (samples fs) (samples fs).length) ∧
        ∀ f, s.HaltsAt (samples fs) f → T.announced = announcements s (samples fs) f := by
  have hplain : Command.parse [name] = .ok ⟨name, false⟩ :=
    Command.parse_of_mem_linesOf hname List.mem_cons_self
  have hdebug : Command.parse arguments = .ok ⟨name, true⟩ := Command.parse_of_mem_linesOf hname ha
  have htraces := run_traces name (read name) seed fs
  refine ⟨run ⟨name, false⟩ (read name) seed fs, run ⟨name, true⟩ (read name) seed fs, ?_, ?_,
    htraces.ending, htraces.draws, htraces.tone, htraces.audio, htraces.log, fun s hm => ?_⟩
  · rw [ofArguments, hplain]
    rfl
  · rw [ofArguments, hdebug]
    rfl
  · exact ⟨announced_of_runs hm, fun f => announced_of_haltsAt hm⟩

/-- An undefined word, over which the machine passes, and a return that halts it. -/
theorem tracing_only_announces_halt :
    let read := fun _ => .ok [0x00, 0x01, 0x00, 0xEE]
    let fs : List Frame := List.replicate 3 ⟨[], []⟩
    ∃ S T, ofArguments read 0 fs ["p"] = .ok S ∧ ofArguments read 0 fs ["p", "--debug"] = .ok T ∧
      T.ending = S.ending ∧ T.log.filter (·.level ≠ .debug) = S.log ∧
      T.announced = [⟨.debug, "0x200  0001  DW 0x0001"⟩, ⟨.debug, "0x202  00EE  RET"⟩] := by
  intro read fs
  have hname : "p".toList.head? ≠ some '-' := by decide
  have ha : ["p", "--debug"] ∈ Command.linesOf "p" true := by decide
  obtain ⟨S, T, hS, hT, hending, -, -, -, hlog, hannounced⟩ :=
    tracing_only_announces hname ha read 0 fs
  have hm : machine? "p" (read "p") 0 =
      some ((Machine.fresh (.ofSeed 0) false).withProgram [0x00, 0x01, 0x00, 0xEE]) :=
    machine?_of_fits "p" (by decide) (by decide)
  refine ⟨S, T, hS, hT, hending, hlog, ?_⟩
  rw [(hannounced _ hm).2 2 (by decide +kernel)]
  decide +kernel

end Session

end Chip8
