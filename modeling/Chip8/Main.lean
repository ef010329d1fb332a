/-
The command line program. It reads the program file, takes one frame from each line of standard
input (the host keys held, and the events `quit`, `down:KEY` and `up:KEY`, apart by blanks), prints
the session's log and returns its exit code.
-/
import Chip8.Session

namespace Chip8

/-- The frame that a line stands for. -/
def Frame.ofLine (line : String) : Frame :=
  let words := (line.trimAscii.toString.splitOn " ").filter (· ≠ "")
  Frame.ofNames (words.filterMap HostEvent.ofText?)
    (words.filter fun w => (HostEvent.ofText? w).isNone)

/-- The host's words for an error. -/
def hostReason : IO.Error → String
  | .noFileOrDirectory _ _ reason => reason
  | .inappropriateType _ _ reason => reason
  | .permissionDenied _ _ reason => reason
  | .invalidArgument _ _ reason => reason
  | .otherError _ reason => reason
  | e => toString e

/-- The reason that the host's words stand for, in letters of either case. -/
def ReadError.ofReason (words : String) : ReadError :=
  let known : List ReadError := [.notFound, .isDirectory, .notDirectory, .nameTooLong]
  (known.find? fun e => e.reason.toLower == words.toLower).getD (.other words)

def readProgram (name : String) : IO (Except ReadError (List UInt8)) := do
  try
    return .ok (← IO.FS.readBinFile name).toList
  catch e => return .error (ReadError.ofReason (hostReason e))

/-- All frames that standard input holds. -/
def readFrames : IO (List Frame) := do
  let text ← (← IO.getStdin).readToEnd
  return (text.splitOn "\n").dropLast.map Frame.ofLine

/-- Runs the session of a command line. -/
def runCommand (arguments : List String) : IO UInt32 := do
  match Command.parse arguments with
  | .error r =>
    if r.exitCode = 0 then IO.println Command.usage else IO.eprintln Command.usage
    for text in r.text? do IO.eprint text
    return UInt32.ofNat r.exitCode
  | .ok r =>
    let content ← readProgram r.program
    let seed := (← IO.getRandomBytes 4).toList.foldl (fun (n : Nat) b => 256 * n + b.toNat) 0
    let s := Session.run r content seed (← readFrames)
    IO.print s.text
    return UInt32.ofNat (s.ending.exitCode?.getD 1)

end Chip8

def main (arguments : List String) : IO UInt32 := Chip8.runCommand arguments
