import SuperChip.Frame
import SuperChip.Mode

-- Coloured pictures: what a frame looks like in two colours, and what is drawn on to show it.
namespace SuperChip

structure Colour where
  red : UInt8
  green : UInt8
  blue : UInt8
  deriving DecidableEq, Repr

-- A colour from a number with two hexadecimal digits for each part. Higher digits are ignored.
def Colour.ofCode (code : Int) : Colour :=
  ⟨UInt8.ofInt (code / 65536), UInt8.ofInt (code / 256), UInt8.ofInt code⟩

-- The colours of dark and of lit pixels.
structure Palette where
  background : Colour
  foreground : Colour
  deriving DecidableEq, Repr

namespace Palette

def defaultBackground : Int := 0x1C2841

def defaultForeground : Int := 0xFFFFFF

def ofCodes (background foreground : Int) : Palette := ⟨.ofCode background, .ofCode foreground⟩

def standard : Palette := ofCodes defaultBackground defaultForeground

def colour (p : Palette) (lit : Bool) : Colour := if lit then p.foreground else p.background

end Palette

-- A picture is known by the colour at each column and row.
structure Picture where
  width : Nat
  height : Nat
  pixel : Nat → Nat → Colour

namespace Picture

-- The part of a frame that a mode shows, cut off where the frame ends.
def ofFrame (palette : Palette) (mode : Mode) (frame : Frame) : Picture where
  width := min mode.width frame.width
  height := min mode.height frame.height
  pixel x y := palette.colour (frame.litAt x y)

-- A picture that is to be shown but has not the size that its mode shows.
structure Misfit where
  deriving DecidableEq, Repr

def Misfit.message (_ : Misfit) : String := "array must match surface dimensions"

-- The picture that a mode shows of a frame, which must reach far enough.
def render (palette : Palette) (mode : Mode) (frame : Frame) : Except Misfit Picture :=
  if mode.width ≤ frame.width ∧ mode.height ≤ frame.height then .ok (ofFrame palette mode frame)
  else .error ⟨⟩

-- A surface as it is at first.
def black (width height : Nat) : Picture := ⟨width, height, fun _ _ => ⟨0, 0, 0⟩⟩

end Picture

-- What showing pictures takes: copying an array of colours to a surface of its size, stretching a
-- surface to a size, and putting a picture over another one from the upper left corner on.
structure Drawing where
  copy (surface array : Picture) : Picture
  stretch (surface : Picture) (width height : Nat) : Picture
  cover (below above : Picture) : Picture

namespace Drawing

-- Stretching takes the colour of the nearest pixel. What is covered wholly is forgotten.
def plain : Drawing where
  copy surface array := { surface with pixel := array.pixel }
  stretch surface width height :=
    ⟨width, height, fun x y => surface.pixel (x * surface.width / width) (y * surface.height / height)⟩
  cover below above :=
    if below.width ≤ above.width ∧ below.height ≤ above.height then
      { below with pixel := above.pixel }
    else
      { below with pixel := fun x y =>
          if x < above.width ∧ y < above.height then above.pixel x y else below.pixel x y }

end Drawing

-- Two colours and the surfaces that frames are drawn on, one for each mode. They are used again and
-- again.
structure Painter where
  palette : Palette
  standard : Picture
  super : Picture

namespace Painter

def ofPalette (palette : Palette) : Painter where
  palette
  standard := .black (Mode.width .standard) (Mode.height .standard)
  super := .black (Mode.width .super) (Mode.height .super)

def setColours (p : Painter) (background foreground : Int) : Painter :=
  { p with palette := .ofCodes background foreground }

def surface (p : Painter) : Mode → Picture
  | .standard => p.standard
  | .super => p.super

def setSurface (p : Painter) (surface : Picture) : Mode → Painter
  | .standard => { p with standard := surface }
  | .super => { p with super := surface }

-- A frame drawn on the surface of its mode. One that does not fit it is not drawn.
def render (d : Drawing) (p : Painter) (mode : Mode) (frame : Frame) :
    Except Picture.Misfit (Painter × Picture) := do
  let array ← Picture.render p.palette mode frame
  let surface := d.copy (p.surface mode) array
  return (p.setSurface surface mode, surface)

end Painter

end SuperChip
