/-
Messages with levels, and loggers that show those at or above a threshold as lines of text, in
colour on a terminal.
-/
import Chip8.Text.Hex
import Chip8.Text.Quoted

namespace Chip8

/-! ## Levels -/

/-- How serious a message is. -/
inductive Level where
  | debug
  | info
  | warning
  | error
  | critical
  deriving DecidableEq

namespace Level

/-- All levels, least serious first. -/
def all : List Level := [.debug, .info, .warning, .error, .critical]

def name : Level → String
  | .debug => "DEBUG"
  | .info => "INFO"
  | .warning => "WARNING"
  | .error => "ERROR"
  | .critical => "CRITICAL"

def rank : Level → Nat
  | .debug => 0
  | .info => 1
  | .warning => 2
  | .error => 3
  | .critical => 4

/-- The terminal's number of a level's colour. -/
def colour? : Level → Option Nat
  | .debug => some 36
  | .info => none
  | .warning => some 33
  | .error => some 31
  | .critical => some 35

/-- The level with exactly this name. -/
def ofName? (s : String) : Option Level := all.find? fun v => v.name == s

/-- The upper case of a letter, as far as the names of levels can tell: beside the basic letters
only the dotless i has one among them. -/
def upper (c : Char) : Char := if c = '\u0131' then 'I' else c.toUpper

/-- The level with this name in letters of either case. -/
def ofNameAnyCase? (s : String) : Option Level := ofName? (s.map upper)

end Level

/-- A name that is not the name of a level. -/
inductive LevelError where
  /-- Offered as a threshold. -/
  | threshold (given : String)
  /-- Asked for as a level. -/
  | level (given : String)
  deriving DecidableEq

def LevelError.message : LevelError → String
  | .threshold given =>
    "Unknown log level '" ++ given ++ "'. Available: " ++ Quoted.list (Level.all.map Level.name)
  | .level given => Quoted.quote given

/-- The level with this name, as a logger's callers must give it. -/
def Level.named (s : String) : Except LevelError Level :=
  match Level.ofName? s with
  | some v => .ok v
  | none => .error (.level s)

/-! ## Messages and loggers -/

structure LogEntry where
  level : Level
  message : String
  deriving DecidableEq

/-- Shows messages from its threshold on. -/
structure Logger where
  name : String
  threshold : Level
  colours : Bool
  deriving DecidableEq

namespace Logger

/-- The logger of the machine and of sessions. -/
def standard : Logger := ⟨"chipjax", .info, true⟩

def shows (l : Logger) (v : Level) : Bool := decide (l.threshold.rank ≤ v.rank)

/-- A level in a field of eight characters, in its colour if `coloured`. -/
def tag (v : Level) (coloured : Bool) : String :=
  let field := String.ofList (v.name.toList.rightpad 8 ' ')
  match coloured, v.colour? with
  | true, some n => "\x1b[" ++ toString n ++ "m" ++ field ++ "\x1b[0m"
  | _, _ => field

/-- The line of a message; `terminal` says whether it goes to one. -/
def line (l : Logger) (terminal : Bool) (e : LogEntry) : String :=
  "[" ++ l.name ++ "] " ++ tag e.level (l.colours && terminal) ++ " " ++ e.message

/-- The line of a message that is shown. -/
def line? (l : Logger) (terminal : Bool) (e : LogEntry) : Option String :=
  if l.shows e.level then some (l.line terminal e) else none

/-- The logger with its threshold at the level of this name. -/
def setThreshold (l : Logger) (s : String) : Except LevelError Logger :=
  match Level.ofNameAnyCase? s with
  | some v => .ok { l with threshold := v }
  | none => .error (.threshold s)

end Logger

end Chip8
