/-
The command line: one path of a program, `--debug` and `-h` or `--help`. Long options may be cut
short as long as they stay unambiguous, `--` ends the options, and numbers below zero, a single dash
and texts with a blank are no options.
-/
import Chip8.Text.CharClass
import Chip8.Text.Lines
import Chip8.Text.Quoted

namespace Chip8.Command

/-- What a command line asks for. -/
structure Request where
  program : String
  debug : Bool
  deriving DecidableEq

/-- Why a command line starts no session. -/
inductive Refusal where
  /-- The help text was asked for. -/
  | help
  /-- A cut option that could be more than one. -/
  | ambiguous (given : String)
  /-- A value for an option that takes none. -/
  | value (option given : String)
  | missingProgram
  /-- Arguments that are left over. -/
  | unrecognized (extras : List String)
  deriving DecidableEq

def programName : String := "chipjax"

def usage : String := "usage: " ++ programName ++ " [-h] [--debug] rom"

namespace Refusal

/-- What is wrong, if anything is. -/
def complaint? : Refusal → Option String
  | .help => none
  | .ambiguous given =>
    some ("ambiguous option: " ++ given ++ " could match --help, --debug")
  | .value option given =>
    some ("argument " ++ option ++ ": ignored explicit argument " ++ Quoted.quote given)
  | .missingProgram => some "the following arguments are required: rom"
  | .unrecognized extras => some ("unrecognized arguments: " ++ " ".intercalate extras)

/-- The text on the error stream, which a line feed ends. -/
def text? (r : Refusal) : Option String :=
  r.complaint?.map fun complaint => programName ++ ": error: " ++ complaint ++ "\n"

/-- The last line on the error stream. A complaint that repeats arguments with line breaks has more
than one. -/
def lastLine? (r : Refusal) : Option String := r.text?.bind fun s => (Lines.ofString s).getLast?

def exitCode : Refusal → Nat
  | .help => 0
  | _ => 2

end Refusal

/-! ## Arguments one by one -/

inductive Argument where
  /-- Not an option. -/
  | word (s : String)
  /-- The end of the options. -/
  | separator
  | debug
  | help
  /-- An option with a value that it does not take. -/
  | valued (option given : String)
  /-- An option that does not exist. -/
  | unknown (s : String)
  deriving DecidableEq

/-- The text is a number below zero: a dash, digits and at most one point, which a digit follows. A
final line break does not count. -/
def isNegativeNumber (s : List Char) : Bool :=
  let s := if s.getLast? = some '\n' then s.dropLast else s
  match s with
  | '-' :: rest =>
    let whole := rest.takeWhile CharClass.isDecimalDigit
    match rest.drop whole.length with
    | [] => !whole.isEmpty
    | '.' :: fraction => !fraction.isEmpty && fraction.all CharClass.isDecimalDigit
    | _ => false
  | _ => false

/-- What the text behind the letter of `-h` makes of it: further letters `h` say the same again, and
anything else is a value, which the option does not take. -/
def afterHelpLetter : List Char → Argument
  | [] => .help
  | 'h' :: rest => afterHelpLetter rest
  | value => .valued "-h/--help" (String.ofList value)

/-- What the whole text behind `-h` makes of it. An `=` at its start only sets off what follows; if
nothing does, the value is empty. -/
def helpCluster : List Char → Argument
  | ['='] => .valued "-h/--help" ""
  | '=' :: rest => afterHelpLetter rest
  | rest => afterHelpLetter rest

/-- The argument of a long option with or without a value. -/
def longOption (option : String) (plain : Argument) : Option String → Argument
  | none => plain
  | some value => .valued option value

/-- The two sides of the first `=`, or the whole and nothing. -/
def splitValue (s : List Char) : List Char × Option String :=
  let name := s.takeWhile (· ≠ '=')
  match s.drop name.length with
  | [] => (name, none)
  | _ :: value => (name, some (String.ofList value))

/-- An argument that no option explains. -/
def unexplained (s : String) : Argument :=
  if isNegativeNumber s.toList ∨ ' ' ∈ s.toList then .word s else .unknown s

/-- An argument that starts with two dashes. -/
def classifyLong (s : String) : Except Refusal Argument :=
  let parts := splitValue s.toList
  let fits (option : String) : Bool := parts.1.isPrefixOf option.toList
  match fits "--help", fits "--debug" with
  | true, true => .error (.ambiguous s)
  | true, false => .ok (longOption "-h/--help" .help parts.2)
  | false, true => .ok (longOption "--debug" .debug parts.2)
  | false, false => .ok (unexplained s)

/-- What an argument before the separator is. -/
def classify (s : String) : Except Refusal Argument :=
  match s.toList with
  | ['-'] => .ok (.word s)
  | ['-', '-'] => .ok .separator
  | '-' :: '-' :: _ => classifyLong s
  | '-' :: 'h' :: rest => .ok (helpCluster rest)
  | '-' :: _ => .ok (unexplained s)
  | _ => .ok (.word s)

/-- What the arguments are. After the separator all are words. -/
def classifyAll : List String → Except Refusal (List Argument)
  | [] => .ok []
  | s :: rest => do
    match ← classify s with
    | .separator => return .separator :: rest.map .word
    | a => return a :: (← classifyAll rest)

/-! ## The whole line -/

/-- What the arguments up to here gave. -/
structure Progress where
  program : Option String
  debug : Bool
  extras : List String
  deriving DecidableEq

namespace Progress

def none : Progress := ⟨.none, false, []⟩

/-- Adds an argument that is left over. -/
def leave (p : Progress) (s : String) : Progress := { p with extras := p.extras ++ [s] }

/-- The request, if the line is complete and nothing is left over. -/
def finish (p : Progress) : Except Refusal Request :=
  match p.program with
  | .none => .error .missingProgram
  | some program =>
    if p.extras.isEmpty then .ok ⟨program, p.debug⟩ else .error (.unrecognized p.extras)

end Progress

/-- Takes the arguments in order. The first word is the program; the separator next to it, before or
after, goes with it. -/
def collect (p : Progress) : List Argument → Except Refusal Request
  | [] => p.finish
  | .debug :: rest => collect { p with debug := true } rest
  | .help :: _ => .error .help
  | .valued option given :: _ => .error (.value option given)
  | .unknown s :: rest => collect (p.leave s) rest
  | .separator :: .word s :: rest =>
    if p.program.isNone then collect { p with program := some s } rest
    else collect ((p.leave "--").leave s) rest
  | .separator :: rest => collect (if p.program.isNone then p else p.leave "--") rest
  | .word s :: .separator :: rest =>
    if p.program.isNone then collect { p with program := some s } rest
    else collect ((p.leave s).leave "--") rest
  | .word s :: rest =>
    if p.program.isNone then collect { p with program := some s } rest
    else collect (p.leave s) rest

def parse (arguments : List String) : Except Refusal Request := do
  collect Progress.none (← classifyAll arguments)

end Chip8.Command
