/-
Programs as a machine takes them: bytes that fit above `0x200`, given directly or read from a file.
-/
import Chip8.Machine.State
import Chip8.Text.Hex

namespace Chip8

/-- Why a file cannot be read. -/
inductive ReadError where
  | notFound
  | isDirectory
  | notDirectory
  | nameTooLong
  /-- A path name that holds the character 0. -/
  | nullInName
  /-- Any other reason that the host gives. -/
  | other (reason : String)
  deriving DecidableEq

def ReadError.reason : ReadError → String
  | .notFound => "No such file or directory"
  | .isDirectory => "Is a directory"
  | .notDirectory => "Not a directory"
  | .nameTooLong => "File name too long"
  | .nullInName => "embedded null byte"
  | .other reason => reason

/-- Why a program cannot be loaded. -/
inductive LoadError where
  | tooLarge (size : Nat)
  | unreadable (name : String) (why : ReadError)
  deriving DecidableEq

def LoadError.message : LoadError → String
  | .tooLarge size =>
    "ROM is " ++ toString size ++ " bytes, only " ++ toString programCapacity ++ " fit above 0x" ++
      Hex.padded 3 programStart
  | .unreadable _ .nullInName => ReadError.nullInName.reason
  | .unreadable name why => "Could not read ROM '" ++ name ++ "': " ++ why.reason

/-- Loads a program that fits. -/
def Machine.load (s : Machine) (program : List UInt8) : Except LoadError Machine :=
  if programCapacity < program.length then .error (.tooLarge program.length)
  else .ok (s.withProgram program)

/-- Loads what reading the file `name` gave. -/
def Machine.loadFile (s : Machine) (name : String) (content : Except ReadError (List UInt8)) :
    Except LoadError Machine :=
  match content with
  | .error why => .error (.unreadable name why)
  | .ok program => s.load program

end Chip8
