/-
The window that shows the screen: its surface holds colours by horizontal and vertical position, and
drawing lays a picture on it, each pixel of the screen a block. A picture goes by row and column, so
its axes are exchanged first.
-/
import Chip8.Host.Number
import Chip8.Picture

namespace Chip8

/-! ## Surfaces -/

/-- Colours by horizontal and vertical position. -/
abbrev Surface := Plane Colour

/-- An array of another size than the surface. -/
structure SizeMismatch where
  deriving DecidableEq

def SizeMismatch.message (_ : SizeMismatch) : String := "array must match surface dimensions"

namespace Surface

def black (width height : Nat) : Surface := ⟨width, height, fun _ _ => ⟨0, 0, 0⟩⟩

/-- Copies an array onto the surface. -/
def blit (s : Surface) (colours : Plane Colour) : Except SizeMismatch Surface :=
  if colours.first = s.first ∧ colours.second = s.second then .ok colours else .error ⟨⟩

end Surface

/-! ## Windows -/

/-- A window that shows screens. -/
structure Window where
  scale : Nat
  palette : Palette
  surface : Surface
  caption : String

/-- Why there is no window. -/
inductive WindowError where
  /-- The scale has no integer part. -/
  | scale (e : Endless)
  | palette (e : Palette.Unknown)
  /-- The host does not open the window or takes no such caption. -/
  | refused (e : HostError)
  deriving DecidableEq

def WindowError.message : WindowError → String
  | .scale e => e.message
  | .palette e => e.message
  | .refused e => e.message

/-- Why a window shows nothing new. -/
inductive DrawError where
  | picture (e : PictureError)
  | surface (e : SizeMismatch)
  deriving DecidableEq

def DrawError.message : DrawError → String
  | .picture e => e.message
  | .surface e => e.message

namespace Window

/-- The scale of a window unless another is asked for. -/
def standardScale : Int := 10

/-- The caption of a window unless another is asked for. -/
def standardCaption : String := "chipjax"

/-- A window of the given scale, of which the integer part counts, in the palette of the given
name. -/
def named (host : Host) (scale : Number) (palette caption : String) : Except WindowError Window := do
  let n ← scale.truncate.mapError .scale
  let k := Picture.side n
  let p ← (Palette.named palette).mapError .palette
  (host.window (64 * k) (32 * k)).mapError .refused
  (host.caption caption).mapError .refused
  return ⟨k, p, .black (64 * k) (32 * k), caption⟩

/-- Width and height. -/
def size (w : Window) : Nat × Nat := (w.surface.first, w.surface.second)

/-- Draws the numbers of a screen. -/
def draw (w : Window) (host : Host) (display : Grid Int 32 64) : Except DrawError Window := do
  let rgb ← (Picture.ofNumbers host display w.scale w.palette.on.components
    w.palette.off.components).mapError .picture
  let surface ← (w.surface.blit rgb.swapAxes).mapError .surface
  return { w with surface }

end Window

end Chip8
