import SuperChip.Position

-- The picture a machine draws on: a grid of pixels that are lit or dark, with scrolling and with the
-- toggling that sprites are made of.
namespace SuperChip

-- A canvas is w pixels across and h down. Pixels are kept row by row.
structure Canvas (w h : Nat) where
  cells : Vector Bool (w * h)
  deriving DecidableEq

namespace Canvas

variable {w h : Nat}

-- Row y starts at cell y * w, and all of it lies before the end of the grid.
theorem cell_lt (x : Fin w) (y : Fin h) : y.val * w + x.val < w * h := by
  have hrow : (y.val + 1) * w ≤ h * w := Nat.mul_le_mul_right w y.isLt
  rw [Nat.add_mul, Nat.one_mul, Nat.mul_comm h w] at hrow
  have := x.isLt
  omega

-- Where the pixel (x, y) is kept.
def cell (x : Fin w) (y : Fin h) : Fin (w * h) := ⟨y.val * w + x.val, cell_lt x y⟩

def lit (c : Canvas w h) (x : Fin w) (y : Fin h) : Bool := c.cells[cell x y]

-- Outside the canvas everything is dark.
def litAt (c : Canvas w h) (x y : Nat) : Bool :=
  if hx : x < w then if hy : y < h then c.lit ⟨x, hx⟩ ⟨y, hy⟩ else false else false

private theorem column_lt {w h i : Nat} (hi : i < w * h) : i % w < w :=
  Nat.mod_lt _ (Nat.pos_of_mul_pos_right (Nat.zero_lt_of_lt hi))

private theorem row_lt {w h i : Nat} (hi : i < w * h) : i / w < h :=
  Nat.div_lt_of_lt_mul hi

-- The canvas whose pixels a function gives.
def ofFn (f : Fin w → Fin h → Bool) : Canvas w h :=
  ⟨Vector.ofFn fun i => f ⟨i.val % w, column_lt i.isLt⟩ ⟨i.val / w, row_lt i.isLt⟩⟩

def dark : Canvas w h := ⟨Vector.replicate (w * h) false⟩

def write (c : Canvas w h) (x : Fin w) (y : Fin h) (on : Bool) : Canvas w h :=
  ⟨c.cells.set (cell x y) on⟩

def toggle (c : Canvas w h) (x : Fin w) (y : Fin h) : Canvas w h := c.write x y (!c.lit x y)

def litCount (c : Canvas w h) : Nat := c.cells.count true

-- Two pixels share a cell only if they are the same pixel.
theorem cell_inj {x x' : Fin w} {y y' : Fin h} : cell x y = cell x' y' ↔ x = x' ∧ y = y' := by
  constructor
  · intro he
    have hv : y.val * w + x.val = y'.val * w + x'.val := congrArg Fin.val he
    have hw : 0 < w := Nat.zero_lt_of_lt x.isLt
    have hx : x.val = x'.val := by
      have := congrArg (· % w) hv
      simpa [Nat.mul_add_mod_self_right, Nat.mod_eq_of_lt x.isLt, Nat.mod_eq_of_lt x'.isLt] using this
    have hy : y.val = y'.val := by
      rw [hx] at hv
      exact Nat.eq_of_mul_eq_mul_right hw (Nat.add_right_cancel hv)
    exact ⟨Fin.ext hx, Fin.ext hy⟩
  · rintro ⟨rfl, rfl⟩; rfl

@[simp] theorem lit_dark (x : Fin w) (y : Fin h) : (dark : Canvas w h).lit x y = false := by
  simp [lit, dark]

theorem lit_write (c : Canvas w h) (x x' : Fin w) (y y' : Fin h) (on : Bool) :
    (c.write x y on).lit x' y' = if x = x' ∧ y = y' then on else c.lit x' y' := by
  have hc : (cell x y).val = (cell x' y').val ↔ x = x' ∧ y = y' := by
    rw [← Fin.ext_iff, cell_inj]
  simp only [lit, write, Fin.getElem_fin, Vector.getElem_set, hc]

@[simp] theorem lit_ofFn (f : Fin w → Fin h → Bool) (x : Fin w) (y : Fin h) :
    (ofFn f).lit x y = f x y := by
  have hw : 0 < w := Nat.zero_lt_of_lt x.isLt
  have hx : (y.val * w + x.val) % w = x.val := by
    rw [Nat.mul_add_mod_self_right, Nat.mod_eq_of_lt x.isLt]
  have hy : (y.val * w + x.val) / w = y.val := by
    rw [Nat.mul_comm, Nat.mul_add_div hw, Nat.div_eq_of_lt x.isLt, Nat.add_zero]
  simp only [lit, ofFn, cell, Fin.getElem_fin, Vector.getElem_ofFn, hx, hy]

-- A canvas is known by its pixels.
theorem ext_lit {c d : Canvas w h} (heq : ∀ x y, c.lit x y = d.lit x y) : c = d := by
  cases c with | mk cs =>
  cases d with | mk ds =>
  congr
  apply Vector.ext
  intro i hi
  have hp := heq ⟨i % w, column_lt hi⟩ ⟨i / w, row_lt hi⟩
  have hcell : i / w * w + i % w = i := by rw [Nat.mul_comm]; exact Nat.div_add_mod i w
  simpa [lit, cell, hcell] using hp

-- A rectangle of pixels, by its left column, its top row, its width and its height.
structure Area where
  left : Nat
  top : Nat
  width : Nat
  height : Nat
  deriving DecidableEq

def Area.Contains (a : Area) (x y : Nat) : Prop :=
  (a.left ≤ x ∧ x < a.left + a.width) ∧ a.top ≤ y ∧ y < a.top + a.height

instance (a : Area) (x y : Nat) : Decidable (a.Contains x y) :=
  inferInstanceAs (Decidable ((_ ∧ _) ∧ _ ∧ _))

def blank (c : Canvas w h) (a : Area) : Canvas w h :=
  ofFn fun x y => if a.Contains x y then false else c.lit x y

-- The pixels of an area put where the area has its corner at another place, as they were before.
def move (c : Canvas w h) (a : Area) (left top : Nat) : Canvas w h :=
  ofFn fun x y =>
    if { a with left, top }.Contains x y then c.litAt (x - left + a.left) (y - top + a.top)
    else c.lit x y

-- Scrolling moves what stays on the canvas and leaves dark what that uncovers. A distance that is
-- not positive moves nothing, and one beyond the canvas counts as the length of the canvas.
def scrollDown (c : Canvas w h) (rows : Int) : Canvas w h :=
  if rows ≤ 0 then c
  else
    let rows := min rows.toNat h
    (c.move ⟨0, 0, w, h - rows⟩ 0 rows).blank ⟨0, 0, w, rows⟩

def scrollRight (c : Canvas w h) (columns : Int) : Canvas w h :=
  if columns ≤ 0 then c
  else
    let columns := min columns.toNat w
    (c.move ⟨0, 0, w - columns, h⟩ columns 0).blank ⟨0, 0, columns, h⟩

def scrollLeft (c : Canvas w h) (columns : Int) : Canvas w h :=
  if columns ≤ 0 then c
  else
    let columns := min columns.toNat w
    (c.move ⟨columns, 0, w - columns, h⟩ 0 0).blank ⟨w - columns, 0, columns, h⟩

-- What toggling a list of pixels leaves: the canvas, and whether any pixel went dark and whether
-- any came on along the way.
structure Toggled (w h : Nat) where
  canvas : Canvas w h
  erased : Bool
  lighted : Bool

def Toggled.touch (t : Toggled w h) (p : Fin w × Fin h) : Toggled w h :=
  if t.canvas.lit p.1 p.2 then
    { t with canvas := t.canvas.write p.1 p.2 false, erased := true }
  else
    { t with canvas := t.canvas.write p.1 p.2 true, lighted := true }

def toggleAll (c : Canvas w h) (pixels : List (Fin w × Fin h)) : Toggled w h :=
  pixels.foldl Toggled.touch ⟨c, false, false⟩

-- Why coordinates name no pixel. Axis 0 runs across and axis 1 down.
inductive BadCoordinate where
  | outside (index : Int) (axis size : Nat)
  -- a number that fits a machine word only without a sign
  | unsignedWord
  -- a number that fits no machine word
  | noWord
  deriving DecidableEq, Repr

def BadCoordinate.message : BadCoordinate → String
  | .outside index axis size => s!"index {index} is out of bounds for axis {axis} with size {size}"
  | .unsignedWord => "Python int too large to convert to C long"
  | .noWord => "only integers, slices (`:`), ellipsis (`...`), numpy.newaxis (`None`) and "
      ++ "integer or boolean arrays are valid indices"

-- Coordinates must be words before it matters where they lie.
def checkWord (i : Int) : Except BadCoordinate Unit :=
  if fitsWord i then .ok ()
  else if 0 ≤ i ∧ i < 0x10000000000000000 then .error .unsignedWord
  else .error .noWord

def position (axis size : Nat) (i : Int) : Except BadCoordinate (Fin size) :=
  match place? size i with
  | some p => .ok p
  | none => .error (.outside i axis size)

-- The pixel at coordinates that count from the near edge, or from the far edge when negative. A bad
-- column is noticed before a bad row.
def locate (w h : Nat) (x y : Int) : Except BadCoordinate (Fin w × Fin h) := do
  checkWord x
  checkWord y
  let column ← position 0 w x
  let row ← position 1 h y
  return (column, row)

def read (c : Canvas w h) (x y : Int) : Except BadCoordinate Bool := do
  let p ← locate w h x y
  return c.lit p.1 p.2

def writeAt (c : Canvas w h) (x y : Int) (on : Bool) : Except BadCoordinate (Canvas w h) := do
  let p ← locate w h x y
  return c.write p.1 p.2 on

-- Toggling also tells the new state of the pixel.
def toggleAt (c : Canvas w h) (x y : Int) : Except BadCoordinate (Canvas w h × Bool) := do
  let p ← locate w h x y
  return (c.toggle p.1 p.2, !c.lit p.1 p.2)

def describe (c : Canvas w h) : String :=
  s!"FrameBuffer(width={w}, height={h}, lit={c.litCount})"

end Canvas

end SuperChip
