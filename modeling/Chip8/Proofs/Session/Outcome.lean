/-
What a command line that names a program comes to. A program that can be loaded is run by the frames
of the session, and the exit code and the last line say how it ended: 2 and the report of the halt
if a tick halted the machine, else 0 and the closing of the window. A program that cannot be loaded
gives exit code 1 and an error, and no window is opened.

Two kinds of command lines get no session at all: with a time that is no seed, and with a name that
is no path name.
-/
import Chip8.Proofs.Session.Ticks

namespace Chip8

/-! ## Command lines -/

namespace Command

/-- The command lines that name a program, with or without `--debug`. -/
def linesOf (name : String) : Bool → List (List String)
  | false => [[name]]
  | true => [["--debug", name], [name, "--debug"]]

variable {name : String}

theorem classify_of_no_dash (h : name.toList.head? ≠ some '-') : classify name = .ok (.word name) := by
  unfold classify
  split
  case h_6 => rfl
  all_goals next hl => exact absurd (congrArg List.head? hl) h

theorem parse_of_mem_linesOf (h : name.toList.head? ≠ some '-') {debug : Bool}
    {arguments : List String} (ha : arguments ∈ linesOf name debug) :
    parse arguments = .ok ⟨name, debug⟩ := by
  have hname := classify_of_no_dash h
  have hdebug : classify "--debug" = .ok .debug := rfl
  have hall : classifyAll [name] = .ok [.word name] ∧
      classifyAll ["--debug", name] = .ok [.debug, .word name] ∧
      classifyAll [name, "--debug"] = .ok [.word name, .debug] := by
    simp [classifyAll, hname, hdebug, bind, Except.bind, pure, Except.pure]
  obtain ⟨hplain, hbefore, hafter⟩ := hall
  cases debug with
  | false =>
    obtain rfl := List.mem_singleton.1 ha
    rw [parse, hplain]
    rfl
  | true =>
    have hcases : arguments = ["--debug", name] ∨ arguments = [name, "--debug"] := by
      simpa [linesOf] using ha
    rcases hcases with rfl | rfl
    · rw [parse, hbefore]
      rfl
    · rw [parse, hafter]
      rfl

end Command

theorem Random.Key.ofNumber_of_fitsWord {seed : Int} (h : fitsWord seed = true) :
    Random.Key.ofNumber seed = .ok (.ofSeed seed) := by
  rw [Random.Key.ofNumber, hostWord, if_pos h]
  rfl

theorem Machine.load_of_fits (s : Machine) {program : List UInt8}
    (h : program.length ≤ programCapacity) : s.load program = .ok (s.withProgram program) :=
  if_neg (Nat.not_lt.2 h)

namespace Session

/-- What a command line comes to where `read` reads the files. -/
def ofArguments (read : String → Except ReadError (List UInt8)) (seed : Int) (fs : List Frame)
    (arguments : List String) : Except Command.Refusal Session :=
  (Command.parse arguments).map fun r => run r (read r.program) seed fs

/-! ## Starting -/

/-- The machine with which a session starts: a fresh one with the program, if the time is a seed and
the program can be loaded. -/
def machine? (name : String) (content : Except ReadError (List UInt8)) (seed : Int) : Option Machine :=
  match Random.Key.ofNumber seed with
  | .error _ => none
  | .ok key => ((Machine.fresh key false).loadFile name content).toOption

section Starting

variable {r : Command.Request} {content : Except ReadError (List UInt8)} {seed : Int} {s : Machine}

theorem machine?_eq_some_iff {name : String} : machine? name content seed = some s ↔
    ∃ key program, Random.Key.ofNumber seed = .ok key ∧ content = .ok program ∧
      program.length ≤ programCapacity ∧ s = (Machine.fresh key false).withProgram program := by
  unfold machine?
  cases Random.Key.ofNumber seed with
  | error e => simp
  | ok key =>
    cases content with
    | error why => simp [Machine.loadFile, Except.toOption]
    | ok program =>
      by_cases hfit : program.length ≤ programCapacity
      · simp [Machine.loadFile, Machine.load_of_fits _ hfit, Except.toOption, hfit, eq_comm]
      · simp [Machine.loadFile, Machine.load, Nat.lt_of_not_le hfit, Except.toOption, hfit]

theorem run_of_machine? (h : machine? r.program content seed = some s) (fs : List Frame) :
    run r content seed fs = play r.debug r.program s fs := by
  obtain ⟨key, program, hkey, rfl, hfit, rfl⟩ := machine?_eq_some_iff.1 h
  rw [run, hkey]
  simp only [Machine.loadFile, Machine.load_of_fits _ hfit]

theorem run_eq_of_no_machine (h : machine? r.program content seed = none) (fs : List Frame) :
    ∃ ending log, run r content seed fs = ⟨ending, log, [], [], []⟩ := by
  unfold machine? at h
  unfold run
  cases hk : Random.Key.ofNumber seed with
  | error e => exact ⟨_, _, rfl⟩
  | ok key =>
    cases hl : (Machine.fresh key false).loadFile r.program content with
    | ok t => simp [hk, hl, Except.toOption] at h
    | error e =>
      simp only [hl]
      unfold failed
      split <;> exact ⟨_, _, rfl⟩

/-- A session without a machine shows nothing. -/
theorem run_of_no_machine (h : machine? r.program content seed = none) (fs : List Frame) :
    (run r content seed fs).draws = [] ∧ (run r content seed fs).tone = [] := by
  obtain ⟨ending, log, hrun⟩ := run_eq_of_no_machine h fs
  rw [hrun]
  exact ⟨rfl, rfl⟩

theorem machine?_of_fits (name : String) (hseed : fitsWord seed = true) {program : List UInt8}
    (h : program.length ≤ programCapacity) : machine? name (.ok program) seed =
      some ((Machine.fresh (.ofSeed seed) false).withProgram program) :=
  machine?_eq_some_iff.2 ⟨_, _, Random.Key.ofNumber_of_fitsWord hseed, rfl, h, rfl⟩

/-- A session starts with a blank screen, on a machine that runs. -/
theorem machine?_blank {name : String} (h : machine? name content seed = some s) :
    s.screen = Screen.blank ∧ s.fault = 0 := by
  obtain ⟨key, program, -, -, -, rfl⟩ := machine?_eq_some_iff.1 h
  exact ⟨rfl, rfl⟩

theorem run_shows_of_runs (h : machine? r.program content seed = some s) {fs : List Frame}
    (hr : s.Runs (samples fs)) :
    (run r content seed fs).Shows .closed closing 0 s (samples fs) (samples fs).length := by
  rw [run_of_machine? h]
  exact (frames_shows_of_runs r.debug 0 beep.tone hr).opened _ _

theorem run_shows_of_haltsAt (h : machine? r.program content seed = some s) {fs : List Frame} {i : Nat}
    (hh : s.HaltsAt (samples fs) (i + 1)) :
    ∃ c, (s.run ((samples fs).take (i + 1))).halt? = some c ∧
      (run r content seed fs).Shows .halted (halting c) 0 s (samples fs) i := by
  rw [run_of_machine? h]
  obtain ⟨c, hc, hshows⟩ := frames_shows_of_haltsAt r.debug 0 beep.tone hh
  exact ⟨c, hc, hshows.opened _ _⟩

/-- A machine that has halted along a run tells of a fault. -/
theorem halt?_run_of_fault (hs : s.fault = 0) {ks : List Keypad} (h : (s.run ks).fault ≠ 0) :
    ∃ cause, (s.run ks).halt? =
      some (.fault cause (s.run ks).pc.toNat (s.run ks).index.toNat) := by
  have hd : s.Diagnosed := fun hne => absurd hs hne
  obtain ⟨cause, hcode, -⟩ := hd.run ks h
  refine ⟨cause, ?_⟩
  rw [Machine.halt?, hcode]
  exact Halt.of?_code cause _ _

end Starting

/-! ## The outcome -/

/-- The session ends with this exit code and this message, and up to its end it shows the first `q`
ticks of a run. -/
structure EndsWith (S : Session) (code : Nat) (last : LogEntry) (s : Machine) (ks : List Keypad)
    (q : Nat) : Prop where
  exitCode : S.ending.exitCode? = some code
  lastLine : S.lines.getLast? = some (Logger.standard.line false last)
  draws : S.draws = drawsOf 0 s ks q
  tone : S.tone = beepsOf s ks q ++ [false]

/-- The session reports an error and does nothing else. -/
structure FailsWith (S : Session) (e : LoadError) : Prop where
  exitCode : S.ending.exitCode? = some 1
  log : S.log = [⟨.error, e.message⟩]
  draws : S.draws = []
  tone : S.tone = []
  audio : S.audio = []

section Outcome

variable {S : Session} {r : Command.Request} {seed : Int} {s : Machine} {program : List UInt8}
  {fs : List Frame}

theorem Shows.endsWith {ending : Ending} {code : Nat} {last : LogEntry} {ks : List Keypad} {q : Nat}
    (h : S.Shows ending last 0 s ks q) (hcode : ending.exitCode? = some code)
    (hb : Lines.isLine last.message.toList = true) : S.EndsWith code last s ks q where
  exitCode := by rw [h.ending, hcode]
  lastLine := getLast?_lines h.last hb
  draws := h.draws
  tone := h.tone

theorem run_endsWith_of_halt (h : machine? r.program (.ok program) seed = some s) {f : Nat}
    (hf : s.HaltsAt (samples fs) f) :
    ∃ cause, let t := s.run ((samples fs).take f)
      let c := Halt.fault cause t.pc.toNat t.index.toNat
      t.halt? = some c ∧
        (run r (.ok program) seed fs).EndsWith 2 (halting c) s (samples fs) (f - 1) := by
  have hs := (machine?_blank h).2
  obtain ⟨q, rfl⟩ := hf.exists_succ hs
  -- the invariant of runs says that the halt is a fault, the frames that it is what is reported
  obtain ⟨cause, hcause⟩ := halt?_run_of_fault hs hf.halted
  obtain ⟨c, hc, hshows⟩ := run_shows_of_haltsAt h hf
  obtain rfl := Option.some.inj (hc.symm.trans hcause)
  exact ⟨cause, hcause, hshows.endsWith rfl (Halt.isLine_message ..)⟩

theorem run_endsWith_of_close (h : machine? r.program (.ok program) seed = some s)
    (hn : ∀ f, ¬ s.HaltsAt (samples fs) f) :
    (run r (.ok program) seed fs).EndsWith 0 closing s (samples fs) (samples fs).length := by
  rcases Machine.runs_or_haltsAt (machine?_blank h).2 (samples fs) with hruns | ⟨f, hf⟩
  · exact (run_shows_of_runs h hruns).endsWith rfl (by decide)
  · exact absurd hf (hn f)

theorem failed_failsWith {e : LoadError} (h : ∀ name, e ≠ .unreadable name .nullInName) :
    (failed e).FailsWith e := by
  unfold failed
  split
  · next name => exact absurd rfl (h name)
  · exact ⟨rfl, rfl, rfl, rfl, rfl⟩

theorem run_eq_failed {content : Except ReadError (List UInt8)} (hseed : fitsWord seed = true)
    {e : LoadError} (hl : (Machine.fresh (.ofSeed seed) false).loadFile r.program content = .error e) :
    run r content seed fs = failed e := by
  rw [run, Random.Key.ofNumber_of_fitsWord hseed]
  simp only [hl]

theorem run_failsWith_of_large (hseed : fitsWord seed = true)
    (hlarge : programCapacity < program.length) :
    (run r (.ok program) seed fs).FailsWith (.tooLarge program.length) := by
  have hl : (Machine.fresh (.ofSeed seed) false).loadFile r.program (.ok program) =
      .error (.tooLarge program.length) := if_pos hlarge
  rw [run_eq_failed hseed hl]
  exact failed_failsWith (by rintro name ⟨⟩)

theorem run_failsWith_of_unreadable (hseed : fitsWord seed = true) {why : ReadError}
    (hwhy : why ≠ .nullInName) :
    (run r (.error why) seed fs).FailsWith (.unreadable r.program why) := by
  rw [run_eq_failed hseed rfl]
  exact failed_failsWith fun name he => hwhy (LoadError.unreadable.inj he).2

end Outcome

/-- A command line that names a program comes to what the ticks of its machine come to, provided
that the time is a seed. -/
theorem ofArguments_follows_ticks {name : String} (hname : name.toList.head? ≠ some '-')
    {debug : Bool} {arguments : List String} (ha : arguments ∈ Command.linesOf name debug)
    {seed : Int} (hseed : fitsWord seed = true) (read : String → Except ReadError (List UInt8))
    (fs : List Frame) :
    ∃ S, ofArguments read seed fs arguments = .ok S ∧
      (∀ program, read name = .ok program → program.length ≤ programCapacity →
        ∃ s, (Machine.fresh (.ofSeed seed) false).load program = .ok s ∧
          (∀ f, s.HaltsAt (samples fs) f → ∃ cause,
            let t := s.run ((samples fs).take f)
            let c := Halt.fault cause t.pc.toNat t.index.toNat
            t.halt? = some c ∧ S.EndsWith 2 (halting c) s (samples fs) (f - 1)) ∧
          ((∀ f, ¬ s.HaltsAt (samples fs) f) →
            S.EndsWith 0 closing s (samples fs) (samples fs).length)) ∧
      (∀ program, read name = .ok program → programCapacity < program.length →
        S.FailsWith (.tooLarge program.length)) ∧
      (∀ why, read name = .error why → why ≠ .nullInName → S.FailsWith (.unreadable name why)) := by
  have hparse := Command.parse_of_mem_linesOf hname ha
  refine ⟨run ⟨name, debug⟩ (read name) seed fs, ?_, fun program hread hfit => ?_,
    fun program hread hlarge => ?_, fun why hread hwhy => ?_⟩
  · rw [ofArguments, hparse]
    rfl
  · have hm := machine?_of_fits name hseed hfit
    rw [hread]
    exact ⟨_, Machine.load_of_fits _ hfit, fun f hf => run_endsWith_of_halt hm hf,
      run_endsWith_of_close hm⟩
  · rw [hread]
    exact run_failsWith_of_large hseed hlarge
  · rw [hread]
    exact run_failsWith_of_unreadable hseed hwhy

/-- A screen is cleared, and the return after it has nowhere to go to. -/
theorem ofArguments_follows_ticks_emptyReturn :
    let read := fun _ => .ok [0x00, 0xE0, 0x00, 0xEE]
    let fs : List Frame := [⟨[], []⟩, ⟨[], []⟩, ⟨[], []⟩]
    ∃ S, ofArguments read 0 fs ["--debug", "p"] = .ok S ∧ S.ending.exitCode? = some 2 ∧
      S.draws = [(0, Screen.blank)] ∧ S.tone = [false, false] ∧
      S.lines.getLast? = some "[chipjax] CRITICAL Stack underflow on RET at 0x202 (I=0x000)" := by
  intro read fs
  have hname : "p".toList.head? ≠ some '-' := by decide
  have ha : ["--debug", "p"] ∈ Command.linesOf "p" true := List.mem_cons_self
  have hseed : fitsWord 0 = true := by decide
  obtain ⟨S, hS, hfits, -⟩ := ofArguments_follows_ticks hname ha hseed read fs
  obtain ⟨s, hs, hhalts, -⟩ := hfits _ rfl (by decide)
  obtain rfl := Except.ok.inj hs
  obtain ⟨cause, hcause, hends⟩ := hhalts 2 (by decide +kernel)
  have hreport : ∀ c, (((Machine.fresh (.ofSeed 0) false).withProgram [0x00, 0xE0, 0x00, 0xEE]).run
      ((samples fs).take 2)).halt? = some c → c = .fault .stackUnderflow 0x202 0 := by
    intro c hc
    exact Option.some.inj (hc.symm.trans (by decide +kernel))
  refine ⟨S, hS, hends.exitCode, ?_, ?_, ?_⟩
  · rw [hends.draws]
    decide +kernel
  · rw [hends.tone]
    decide +kernel
  · rw [hends.lastLine, hreport _ hcause]
    rfl

/-- A program that can be read and fits is not run at a time that is no seed, and a name with the
character 0 in it, which cannot be read, is not reported: neither session gets an exit code. -/
theorem refused_time_and_name :
    (∃ S, ofArguments (fun _ => .ok [0x00, 0xE0]) 0x8000000000000000 [] ["g"] = .ok S ∧
      S.ending.exitCode? = none ∧ S.lines = []) ∧
    ∃ S, ofArguments (fun _ => .error .nullInName) 0 [] ["a\u0000b"] = .ok S ∧
      S.ending.exitCode? = none ∧ S.lines = [] :=
  ⟨⟨_, rfl, rfl, rfl⟩, _, rfl, rfl, rfl⟩

end Session

end Chip8
