import SuperChip.Block
import SuperChip.Canvas

-- Pictures of any size, as they travel between the two loops and to the screen.
namespace SuperChip

structure Frame where
  width : Nat
  height : Nat
  canvas : Canvas width height
  deriving DecidableEq

namespace Frame

-- Outside the frame everything is dark.
def litAt (f : Frame) (x y : Nat) : Bool := f.canvas.litAt x y

-- Why there is no frame of a size: a side that is no positive number of pixels, or no room.
inductive SizeError where
  | width (given : Int)
  | height (given : Int)
  | noRoom (cause : Block.Refusal)
  deriving DecidableEq, Repr

def SizeError.message : SizeError → String
  | .width given => s!"width must be positive, got {given}"
  | .height given => s!"height must be positive, got {given}"
  | .noRoom cause => cause.message

-- A dark frame, which may also be empty. A pixel takes a byte.
def blank? (width height : Int) : Except Block.Refusal Frame := do
  Block.check ⟨[width, height], 1, "bool"⟩
  return ⟨width.toNat, height.toNat, .dark⟩

-- A dark frame that is not empty. A bad width is noticed before a bad height.
def dark? (width height : Int) : Except SizeError Frame :=
  if width ≤ 0 then .error (.width width)
  else if height ≤ 0 then .error (.height height)
  else (blank? width height).mapError .noRoom

end Frame

end SuperChip
