/-
The sixteen keys of the machine, as sampled once per tick.
-/
import Chip8.Position

namespace Chip8

/-- For each key whether it is down. -/
abbrev Keypad := Vector Bool 16

namespace Keypad

def key (i : Int) : Except PositionError (Fin 16) := position 16 i

def released : Keypad := Vector.replicate 16 false

def isDown (k : Keypad) (i : Fin 16) : Bool := k.get i

def ofKeys (ks : List (Fin 16)) : Keypad := Vector.ofFn ks.contains

def lowest? (k : Keypad) : Option (Fin 16) := (List.finRange 16).find? k.isDown

theorem lowest?_eq_none_iff (k : Keypad) : k.lowest? = none ↔ ∀ i, k.isDown i = false := by
  simp [lowest?]

end Keypad

end Chip8
