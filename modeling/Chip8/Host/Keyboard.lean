/-
The host's keyboard: the names of its keys, which of them stand for the machine's, and the events
that close the session. Polling it gives the machine's keypad.
-/
import Chip8.Keypad

namespace Chip8

/-! ## Names of keys -/

namespace KeyName

/-- Second names of host keys, each with the first name of the same key. -/
def aliases : List (String × String) :=
  [("KP0", "KP_0"), ("KP1", "KP_1"), ("KP2", "KP_2"), ("KP3", "KP_3"), ("KP4", "KP_4"),
   ("KP5", "KP_5"), ("KP6", "KP_6"), ("KP7", "KP_7"), ("KP8", "KP_8"), ("KP9", "KP_9"),
   ("NUMLOCKCLEAR", "NUMLOCK"), ("SCROLLOCK", "SCROLLLOCK"), ("PRINTSCREEN", "PRINT"),
   ("BREAK", "PAUSE"), ("EURO", "CURRENCYUNIT"),
   ("LMETA", "LSUPER"), ("LGUI", "LSUPER"), ("RMETA", "RSUPER"), ("RGUI", "RSUPER")]

/-- The first name of a key. -/
def first (name : String) : String := (aliases.lookup name).getD name

end KeyName

/-! ## What the host reports -/

/-- What happens at the window between two polls. -/
inductive HostEvent where
  /-- The window is closed. -/
  | quit
  | down (key : String)
  | up (key : String)
  deriving DecidableEq

/-- What one poll sees: the events since the last one and the keys held now. -/
structure Frame where
  events : List HostEvent
  held : List String
  deriving DecidableEq

/-- What a poll sees where the keys are held that the names stand for. -/
def Frame.ofNames (events : List HostEvent) (held : List String) : Frame :=
  ⟨events, held.map KeyName.first⟩

/-- The event asks for the end of the session. -/
def HostEvent.asksToQuit : HostEvent → Bool
  | .quit => true
  | .down key => key == "ESCAPE"
  | .up _ => false

/-- The event that a text stands for: `quit`, `down:KEY` or `up:KEY`. -/
def HostEvent.ofText? (s : String) : Option HostEvent :=
  if s = "quit" then some .quit
  else match s.splitOn ":" with
    | "down" :: rest@(_ :: _) => some (.down (KeyName.first (":".intercalate rest)))
    | "up" :: rest@(_ :: _) => some (.up (KeyName.first (":".intercalate rest)))
    | _ => none

/-! ## Key maps -/

/-- Host keys, by first names, with the key each stands for, in order, no host key twice. -/
abbrev KeyMap := List (String × Fin 16)

namespace KeyMap

/-- The left-hand block of the keyboard, row by row. -/
def standard : KeyMap :=
  [("1", 0x1), ("2", 0x2), ("3", 0x3), ("4", 0xC),
   ("q", 0x4), ("w", 0x5), ("e", 0x6), ("r", 0xD),
   ("a", 0x7), ("s", 0x8), ("d", 0x9), ("f", 0xE),
   ("z", 0xA), ("x", 0x0), ("c", 0xB), ("v", 0xF)]

/-- Gives a host key a meaning: one that has a meaning already keeps its place. -/
def assign {α : Type} (m : List (String × α)) (host : String) (a : α) : List (String × α) :=
  if m.any (·.1 == host) then m.map fun p => if p.1 == host then (host, a) else p
  else m ++ [(host, a)]

/-- The map of the given pairs, taken in order. -/
def ofPairs (ps : List (String × Int)) : Except PositionError KeyMap :=
  (ps.foldl (fun m p => assign m (KeyName.first p.1) p.2) []).mapM fun p =>
    (Keypad.key p.2).map fun k => (p.1, k)

/-- The keypad while the listed host keys are held. Of host keys that stand for one key, the last
in the map decides. -/
def keypad (m : KeyMap) (held : List String) : Keypad :=
  m.foldl (fun k p => k.set p.2 (held.contains p.1)) Keypad.released

end KeyMap

/-- A keyboard and whether the end of the session was asked for. -/
structure Keyboard where
  map : KeyMap
  quit : Bool
  deriving DecidableEq

namespace Keyboard

/-- A keyboard with the standard map. -/
def standard : Keyboard := ⟨KeyMap.standard, false⟩

/-- Takes notice of the events; a wish to quit stays. -/
def notice (k : Keyboard) (f : Frame) : Keyboard :=
  { k with quit := k.quit || f.events.any HostEvent.asksToQuit }

/-- One poll. -/
def poll (k : Keyboard) (f : Frame) : Keyboard × Keypad := (k.notice f, k.map.keypad f.held)

end Keyboard

end Chip8
