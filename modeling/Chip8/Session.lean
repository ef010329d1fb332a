/-
A session: a program runs in a window, one tick per frame, until the window is closed or the machine
halts. Its outcome is a value: the exit code, the log, the screens drawn, what was asked of the tone
and what the tone asked of the mixer.
-/
import Chip8.Command
import Chip8.Host.Keyboard
import Chip8.Host.Tone
import Chip8.Machine.Program
import Chip8.Machine.Report
import Chip8.Text.Lines

namespace Chip8

/-- Why a session cannot even start. -/
inductive StartError where
  /-- The time is no seed. -/
  | seed (e : WordOverflow)
  /-- The program's name is no path name. -/
  | nullInName
  deriving DecidableEq

def StartError.message : StartError → String
  | .seed e => e.message
  | .nullInName => ReadError.nullInName.reason

inductive Ending where
  /-- The window was closed. -/
  | closed
  /-- The program could not be loaded. -/
  | notLoaded
  /-- The machine halted. -/
  | halted
  /-- There was no session. -/
  | refused (why : StartError)
  deriving DecidableEq

/-- The exit code of a session that ends by itself. -/
def Ending.exitCode? : Ending → Option Nat
  | .closed => some 0
  | .notLoaded => some 1
  | .halted => some 2
  | .refused _ => none

/-- What a session shows. Each drawn screen comes with the number of frames completed before. -/
structure Session where
  ending : Ending
  log : List LogEntry
  draws : List (Nat × Screen)
  tone : List Bool
  audio : List AudioCall

namespace Session

/-- What one completed frame adds in front of the rest of a session. -/
def after (rest : Session) (log : List LogEntry) (draws : List (Nat × Screen)) (tone : List Bool)
    (audio : List AudioCall) : Session :=
  { ending := rest.ending
    log := log ++ rest.log
    draws := draws ++ rest.draws
    tone := tone ++ rest.tone
    audio := audio ++ rest.audio }

def finish (ending : Ending) (log : List LogEntry) (tone : Tone) : Session :=
  { ending, log, draws := [], tone := [false], audio := (tone.request false).2 }

/-- The messages of a tick: its announcement when debugging, then the undefined word it met. -/
def tickLog (debug : Bool) (s : Machine) : List LogEntry :=
  (if debug then [⟨.debug, s.trace⟩] else []) ++
    (s.notice?.toList.map fun n => ⟨.warning, n.message⟩)

/-- The screen a tick asks to draw. -/
def drawn (n : Nat) (s : Machine) : List (Nat × Screen) := if s.redraw then [(n, s.screen)] else []

/-- The frames of a session from frame `n` on. After the last one the window is closed. -/
def frames (debug : Bool) (n : Nat) (s : Machine) (keyboard : Keyboard) (tone : Tone) :
    List Frame → Session
  | [] => finish .closed [⟨.info, "Window closed"⟩] tone
  | f :: rest =>
    let polled := keyboard.poll f
    if polled.1.quit then finish .closed [⟨.info, "Window closed"⟩] tone
    else
      let t := s.tick polled.2
      match t.halt? with
      | some h => finish .halted (tickLog debug s ++ [⟨.critical, h.message⟩]) tone
      | none =>
        let asked := tone.request t.beeping
        (frames debug (n + 1) t polled.1 asked.1 rest).after
          (tickLog debug s) (drawn n t) [t.beeping] asked.2

/-- The tone of a session, on a mixer that is open. Its few thousand samples are not refused. -/
def beep : Tone.Opening :=
  match Tone.openOn .ample .standard Tone.standardFrequency Tone.standardVolume with
  | .ok o => o
  | .error _ => Tone.Opening.silent

/-- A session with a program that could be loaded into `s`. -/
def play (debug : Bool) (name : String) (s : Machine) (fs : List Frame) : Session :=
  (frames debug 0 s Keyboard.standard beep.tone fs).after
    (⟨.info, "Loaded ROM: " ++ name⟩ :: beep.messages) [] []
    (.prepare Mixer.standard :: beep.calls)

/-- A session that did not start. -/
def refused (why : StartError) : Session := ⟨.refused why, [], [], [], []⟩

/-- A session whose program could not be loaded. -/
def failed (e : LoadError) : Session :=
  match e with
  | .unreadable _ .nullInName => refused .nullInName
  | e => ⟨.notLoaded, [⟨.error, e.message⟩], [], [], []⟩

/-- The session of a request: `content` is what reading the program's file gave, `seed` the time at
which the session starts. -/
def run (r : Command.Request) (content : Except ReadError (List UInt8)) (seed : Int)
    (fs : List Frame) : Session :=
  match Random.Key.ofNumber seed with
  | .error e => refused (.seed e)
  | .ok key =>
    match (Machine.fresh key false).loadFile r.program content with
    | .ok s => play r.debug r.program s fs
    | .error e => failed e

/-- What a session prints: a line for each entry of its log. -/
def text (s : Session) : String :=
  String.join (s.log.map fun e => Logger.standard.line false e ++ "\n")

/-- The lines that a session prints. A name with line breaks in it adds to them. -/
def lines (s : Session) : List String := Lines.ofString s.text

end Session

end Chip8
