import SuperChip.Log
import SuperChip.Number.Decimal
import SuperChip.Picture

-- The window: a display big enough for the whole canvas at a whole scale, and a caption that tells
-- how many pictures a second are shown.
namespace SuperChip

def defaultTitle : String := "SCHIP8"

-- Scales from 1 to 16 are possible.
def clampScale (scale : Int) : Nat := (max 1 (min 16 scale)).toNat

structure Window where
  scale : Nat
  title : String
  caption : String
  painter : Painter
  display : Picture
  -- pictures since the rate was last worked out, and when that was
  shown : Nat
  since : Float
  rate : Float

namespace Window

-- A title must not have a zero character in it.
def isTitle (title : String) : Bool := !title.toList.contains '\x00'

def badTitle : String := "embedded null character"

-- An empty window.
def opened (scale : Int) (title : String) (now : Float) : Window where
  scale := clampScale scale
  title := title
  caption := title
  painter := .ofPalette .standard
  display := .black (128 * clampScale scale) (64 * clampScale scale)
  shown := 0
  since := now
  rate := 0

-- What is noted down about a window that was opened, and about one that is closed.
def openNote (w : Window) : Log.Entry :=
  ⟨.info, .window, s!"Window: 128x64 canvas, {w.display.width}x{w.display.height} display (scale={w.scale})"⟩

def closeNote : Log.Entry := ⟨.info, .window, "Closing window"⟩

def captionText (title : String) (rate : Float) : String :=
  let places := Number.fixedText 1 rate
  s!"{title}  [{places} fps]"

-- Counting a picture. Once a second has passed the rate is worked out and shown.
def count (w : Window) (now : Float) : Window :=
  let w := { w with shown := w.shown + 1 }
  let elapsed := now - w.since
  if 1.0 ≤ elapsed then
    let rate := Number.ofInt w.shown / elapsed
    { w with rate, shown := 0, since := now, caption := captionText w.title rate }
  else w

-- The surface that a frame was drawn on is stretched to the size of the display and put over what was
-- there before.
def presentBy (d : Drawing) (w : Window) (mode : Mode) (frame : Frame) (now : Float) :
    Except Picture.Misfit Window := do
  let (painter, surface) ← w.painter.render d mode frame
  let scaled := d.stretch surface w.display.width w.display.height
  return { w with painter, display := d.cover w.display scaled }.count now

def present (w : Window) (mode : Mode) (frame : Frame) (now : Float) :
    Except Picture.Misfit Window :=
  w.presentBy .plain mode frame now

end Window

end SuperChip
