/-
Arrays of two axes. A `Grid` has its sides in its type and is filled, overwritten under a mask and
enlarged entry by entry. A `Plane` brings its sides along, so that arrays of different sizes are of
one type: it can be turned about and laid on one of equal size.
-/
namespace Chip8

/-- Rows of equal length. Either side may be zero. -/
abbrev Grid (α : Type) (height width : Nat) := Vector (Vector α width) height

/-- Each entry `k` times in a row. -/
def repeatEach {α : Type} {n : Nat} (k : Nat) (v : Vector α n) : Vector α (n * k) :=
  (v.map (Vector.replicate k)).flatten

namespace Grid

variable {α : Type} {h w : Nat}

/-- The grid that has the same entry everywhere. -/
def constant (h w : Nat) (a : α) : Grid α h w := Vector.replicate h (Vector.replicate w a)

/-- Where the numbers are not zero. -/
def lit (g : Grid Int h w) : Grid Bool h w := g.map fun row => row.map (· != 0)

def complement (mask : Grid Bool h w) : Grid Bool h w := mask.map fun row => row.map (! ·)

/-- Writes one entry wherever the mask says so. -/
def write (g : Grid α h w) (mask : Grid Bool h w) (a : α) : Grid α h w :=
  Vector.zipWith (Vector.zipWith fun m old => if m then a else old) mask g

/-- Each row `k` times. -/
def repeatRows (k : Nat) (g : Grid α h w) : Grid α (h * k) w := repeatEach k g

/-- Each entry of each row `k` times. -/
def repeatColumns (k : Nat) (g : Grid α h w) : Grid α h (w * k) := g.map (repeatEach k)

/-- The entry of row `i` and column `j`. -/
def cell? (g : Grid α h w) (i j : Nat) : Option α := g[i]?.bind (·[j]?)

end Grid

/-- An array with sides of its own. -/
structure Plane (α : Type) where
  first : Nat
  second : Nat
  cell : Fin first → Fin second → α

namespace Plane

variable {α : Type}

def ofGrid {h w : Nat} (g : Grid α h w) : Plane α := ⟨h, w, fun i j => (g.get i).get j⟩

/-- The array seen with its axes exchanged. -/
def swapAxes (p : Plane α) : Plane α := ⟨p.second, p.first, fun i j => p.cell j i⟩

def cell? (p : Plane α) (i j : Nat) : Option α :=
  if h : i < p.first ∧ j < p.second then some (p.cell ⟨i, h.1⟩ ⟨j, h.2⟩) else none

end Plane

end Chip8
