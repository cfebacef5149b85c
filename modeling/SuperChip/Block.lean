import SuperChip.Number.Decimal
import SuperChip.Position
import SuperChip.Text.Tuple

-- Blocks of equal items in memory: the pixels of a canvas, the samples of a tone. Anybody may ask for
-- a block, but not every block can be had.
namespace SuperChip

-- What is asked for: the lengths along the axes, and the bytes and the name of an item.
structure Block where
  shape : List Int
  itemSize : Nat
  itemName : String
  deriving DecidableEq, Repr

namespace Block

-- Why a block cannot be had.
inductive Refusal where
  | longAxis
  | negativeAxis
  -- more bytes than a machine word can count
  | tooBig
  | noMemory (block : Block)
  deriving DecidableEq, Repr

-- Bytes in three significant digits and the largest unit that they fill, once they are rounded.
-- The unit is chosen by the count itself, but the digits are those of the floating-point number
-- nearest to it.
def sizeText (count : Nat) : String :=
  let bytes := Number.nearestWhole count
  let rounded (step : Nat) : Nat := Number.roundHalfEven bytes (Nat.pow 1024 step)
  let step := if rounded (count.log2 / 10) = 1024 then count.log2 / 10 + 1 else count.log2 / 10
  let unit := ["bytes", "KiB", "MiB", "GiB", "TiB", "PiB", "EiB"].getD step "ZiB"
  if step = 0 then s!"{bytes} {unit}"
  else if 1000 ≤ rounded step then s!"{rounded step}. {unit}"
  else
    let top := Number.decimalExponent bytes (Nat.pow 1024 step)
    let d := Number.roundAt bytes (Nat.pow 1024 step) (top - 2)
    let d := if d.digits = 1000 then Number.roundAt bytes (Nat.pow 1024 step) (top - 1) else d
    Number.positional d ++ (if d.place < 0 then " " else ". ") ++ unit

-- The bytes of all items together.
def size (b : Block) : Nat := b.itemSize * (b.shape.map Int.toNat).foldl (· * ·) 1

def Refusal.message : Refusal → String
  | longAxis => "Maximum allowed dimension exceeded"
  | negativeAxis => "negative dimensions are not allowed"
  | tooBig => "array is too big; `arr.size * arr.dtype.itemsize` is larger than the maximum "
      ++ "possible size."
  | noMemory block =>
    let shape := Text.tuple (block.shape.map toString)
    s!"Unable to allocate {sizeText block.size} for an array with shape {shape} and data type "
      ++ block.itemName

-- The bytes that are set aside, going through the axes in order. An empty axis does not count.
def bytesAlong : Nat → List Int → Except Refusal Nat
  | bytes, [] => .ok bytes
  | bytes, length :: rest =>
    if length = 0 then bytesAlong bytes rest
    else if length < 0 then .error .negativeAxis
    else if Nat.pow 2 63 ≤ bytes * length.toNat then .error .tooBig
    else bytesAlong (bytes * length.toNat) rest

-- No block may take more bytes than this.
def memory : Nat := Nat.pow 2 33

-- All axes must be words before it matters how long they are. A block with an empty axis has no
-- items, so that there is always room for it.
def check (b : Block) : Except Refusal Unit := do
  if !b.shape.all fitsWord then throw .longAxis
  let bytes ← bytesAlong b.itemSize b.shape
  if memory < bytes ∧ !b.shape.contains 0 then throw (.noMemory b)

end Block

end SuperChip
