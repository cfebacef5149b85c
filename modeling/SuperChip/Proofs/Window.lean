import SuperChip.Window
import SuperChip.Proofs.Canvas
import Mathlib.Algebra.Group.Int.Defs

-- What is to be seen on the display. Frames go through a surface that is used again and again, and
-- through a stretching to the size of the display; what is there in the end are blocks in the two
-- colours, one for each pixel of the part of the frame that its mode shows.
namespace SuperChip

namespace Colour

-- The number of a colour, with two hexadecimal digits for each part.
def code (c : Colour) : Nat := (c.red.toNat * 256 + c.green.toNat) * 256 + c.blue.toNat

theorem toNat_ofInt (n : Int) : (UInt8.ofInt n).toNat = (n % 256).toNat := by
  have hmod := Int.emod_lt_of_pos n (b := 256) (by decide)
  have hpow : (2 ^ 8 : Int) = 256 := by decide
  rw [UInt8.ofInt, hpow, UInt8.toNat_ofNat_of_lt']
  simp only [UInt8.size]
  omega

theorem code_ofCode (n : Int) : ((ofCode n).code : Int) = n % 2 ^ 24 := by
  simp only [code, ofCode, toNat_ofInt]
  omega

theorem code_inj {c d : Colour} (hcode : c.code = d.code) : c = d := by
  obtain ⟨r, g, b⟩ := c
  obtain ⟨r', g', b'⟩ := d
  have hg := g.toNat_lt
  have hb := b.toNat_lt
  have hg' := g'.toNat_lt
  have hb' := b'.toNat_lt
  simp only [code] at hcode
  have hred : r = r' := UInt8.toNat_inj.mp (by omega)
  have hgreen : g = g' := UInt8.toNat_inj.mp (by omega)
  have hblue : b = b' := UInt8.toNat_inj.mp (by omega)
  rw [hred, hgreen, hblue]

end Colour

-- What drawing is relied on for. An array goes pixel by pixel to a surface of its size, stretching by
-- a whole factor makes a block of each pixel, and what is put over a picture hides it.
structure Drawing.Faithful (d : Drawing) : Prop where
  copy_size : ∀ surface array,
    (d.copy surface array).width = surface.width ∧ (d.copy surface array).height = surface.height
  copy_pixel : ∀ surface array, array.width = surface.width → array.height = surface.height →
    ∀ x < array.width, ∀ y < array.height, (d.copy surface array).pixel x y = array.pixel x y
  stretch_size : ∀ surface width height,
    (d.stretch surface width height).width = width ∧
      (d.stretch surface width height).height = height
  stretch_pixel : ∀ (surface : Picture) (factor : Nat),
    ∀ x < surface.width * factor, ∀ y < surface.height * factor,
      (d.stretch surface (surface.width * factor) (surface.height * factor)).pixel x y =
        surface.pixel (x / factor) (y / factor)
  cover_size : ∀ below above,
    (d.cover below above).width = below.width ∧ (d.cover below above).height = below.height
  cover_pixel : ∀ below above, ∀ x < min below.width above.width,
    ∀ y < min below.height above.height, (d.cover below above).pixel x y = above.pixel x y

theorem Drawing.plain_faithful : Drawing.plain.Faithful where
  copy_size := fun _ _ => ⟨rfl, rfl⟩
  copy_pixel := fun _ _ _ _ _ _ _ _ => rfl
  stretch_size := fun _ _ _ => ⟨rfl, rfl⟩
  stretch_pixel := by
    intro surface factor x hx y hy
    have hw : 0 < surface.width := Nat.pos_of_mul_pos_right (Nat.zero_lt_of_lt hx)
    have hh : 0 < surface.height := Nat.pos_of_mul_pos_right (Nat.zero_lt_of_lt hy)
    simp only [plain, Nat.mul_comm x, Nat.mul_comm y, Nat.mul_div_mul_left _ _ hw,
      Nat.mul_div_mul_left _ _ hh]
  cover_size := by
    intro below above
    simp only [plain]
    split <;> exact ⟨rfl, rfl⟩
  cover_pixel := by
    intro below above x hx y hy
    have hin : x < above.width ∧ y < above.height := by omega
    simp only [plain]
    split
    · rfl
    · simp only [hin, and_self, if_true]

-- Pixels of a frame are so many pixels of the display wide and high.
def blockSize (s : Nat) : Mode → Nat
  | .standard => 2 * s
  | .super => s

section Block

variable {s x y : Nat} (mode : Mode)

theorem width_mul_blockSize (s : Nat) : mode.width * blockSize s mode = 128 * s := by
  cases mode with
  | standard => rw [Mode.width, blockSize]; omega
  | super => rfl

theorem height_mul_blockSize (s : Nat) : mode.height * blockSize s mode = 64 * s := by
  cases mode with
  | standard => rw [Mode.height, blockSize]; omega
  | super => rfl

theorem blockSize_pos (hs : 0 < s) : 0 < blockSize s mode := by
  cases mode with
  | standard => rw [blockSize]; omega
  | super => exact hs

theorem div_blockSize_lt_width (hx : x < 128 * s) : x / blockSize s mode < mode.width := by
  rw [← width_mul_blockSize mode, Nat.mul_comm] at hx
  exact Nat.div_lt_of_lt_mul hx

theorem div_blockSize_lt_height (hy : y < 64 * s) : y / blockSize s mode < mode.height := by
  rw [← height_mul_blockSize mode, Nat.mul_comm] at hy
  exact Nat.div_lt_of_lt_mul hy

theorem mul_blockSize_lt_width (hs : 0 < s) (hx : x < mode.width) :
    x * blockSize s mode < 128 * s := by
  rw [← width_mul_blockSize mode]
  exact Nat.mul_lt_mul_of_pos_right hx (blockSize_pos mode hs)

theorem mul_blockSize_lt_height (hs : 0 < s) (hy : y < mode.height) :
    y * blockSize s mode < 64 * s := by
  rw [← height_mul_blockSize mode]
  exact Nat.mul_lt_mul_of_pos_right hy (blockSize_pos mode hs)

-- The display is a whole number of times as large as the surface of a mode.
theorem Drawing.Faithful.stretch_block {d : Drawing} (hd : d.Faithful) {mode : Mode}
    {surface : Picture} (hwidth : surface.width = mode.width) (hheight : surface.height = mode.height)
    (hx : x < 128 * s) (hy : y < 64 * s) :
    (d.stretch surface (128 * s) (64 * s)).pixel x y =
      surface.pixel (x / blockSize s mode) (y / blockSize s mode) := by
  rw [← width_mul_blockSize mode, ← hwidth] at hx ⊢
  rw [← height_mul_blockSize mode, ← hheight] at hy ⊢
  exact hd.stretch_pixel surface _ x hx y hy

end Block

namespace Painter

variable {d : Drawing} {p : Painter}

-- The surfaces have the sizes of what they are for.
def Fits (p : Painter) : Prop :=
  ∀ mode, (p.surface mode).width = mode.width ∧ (p.surface mode).height = mode.height

theorem ofPalette_fits (palette : Palette) : (ofPalette palette).Fits := by
  intro mode
  cases mode <;> exact ⟨rfl, rfl⟩

theorem surface_setSurface (p : Painter) (surface : Picture) (mode other : Mode) :
    (p.setSurface surface mode).surface other =
      if other = mode then surface else p.surface other := by
  cases mode <;> cases other <;> rfl

theorem Fits.setSurface (h : p.Fits) {surface : Picture} {mode : Mode}
    (hwidth : surface.width = mode.width) (hheight : surface.height = mode.height) :
    (p.setSurface surface mode).Fits := by
  intro other
  rw [surface_setSurface]
  by_cases hother : other = mode
  · rw [if_pos hother, hother]
    exact ⟨hwidth, hheight⟩
  · rw [if_neg hother]
    exact h other

theorem palette_setSurface (p : Painter) (surface : Picture) (mode : Mode) :
    (p.setSurface surface mode).palette = p.palette := by
  cases mode <;> rfl

-- Whatever was on the surface before, all of it is drawn on.
theorem exists_render (hd : d.Faithful) (h : p.Fits) (mode : Mode) (canvas : Canvas 128 64) :
    ∃ p' surface, p.render d mode ⟨128, 64, canvas⟩ = .ok (p', surface) ∧ p'.Fits ∧
      p'.palette = p.palette ∧ surface.width = mode.width ∧ surface.height = mode.height ∧
      ∀ x < mode.width, ∀ y < mode.height,
        surface.pixel x y = p.palette.colour (canvas.litAt x y) := by
  obtain ⟨hwidth, hheight⟩ := h mode
  let array := Picture.ofFrame p.palette mode ⟨128, 64, canvas⟩
  have harray : Picture.render p.palette mode ⟨128, 64, canvas⟩ = .ok array :=
    if_pos ⟨mode.width_le, mode.height_le⟩
  have hacross : array.width = mode.width := Nat.min_eq_left mode.width_le
  have hdown : array.height = mode.height := Nat.min_eq_left mode.height_le
  obtain ⟨hw, hh⟩ := hd.copy_size (p.surface mode) array
  refine ⟨p.setSurface (d.copy (p.surface mode) array) mode, d.copy (p.surface mode) array,
    ?_, ?_, palette_setSurface p _ mode, hw.trans hwidth, hh.trans hheight, ?_⟩
  · simp only [render, harray]
    rfl
  · exact h.setSurface (hw.trans hwidth) (hh.trans hheight)
  · intro x hx y hy
    exact hd.copy_pixel _ _ (hacross.trans hwidth.symm) (hdown.trans hheight.symm) x
      (by rwa [hacross]) y (by rwa [hdown])

end Painter

namespace Window

variable {d : Drawing} {w : Window} {s : Nat}

-- What a window keeps, whatever is shown on it.
structure Framed (s : Nat) (w : Window) : Prop where
  width : w.display.width = 128 * s
  height : w.display.height = 64 * s
  fits : w.painter.Fits

theorem opened_framed (scale : Int) (title : String) (now : Float) :
    Framed (clampScale scale) (opened scale title now) :=
  ⟨rfl, rfl, Painter.ofPalette_fits _⟩

theorem display_count (w : Window) (now : Float) : (w.count now).display = w.display := by
  simp only [count]
  split <;> rfl

theorem painter_count (w : Window) (now : Float) : (w.count now).painter = w.painter := by
  simp only [count]
  split <;> rfl

-- A frame that is presented fills the display.
theorem exists_present (hd : d.Faithful) (h : w.Framed s) (mode : Mode) (canvas : Canvas 128 64)
    (now : Float) :
    ∃ w', w.presentBy d mode ⟨128, 64, canvas⟩ now = .ok w' ∧ w'.Framed s ∧
      w'.painter.palette = w.painter.palette ∧
      ∀ x < 128 * s, ∀ y < 64 * s, w'.display.pixel x y =
        w.painter.palette.colour (canvas.litAt (x / blockSize s mode) (y / blockSize s mode)) := by
  obtain ⟨painter, surface, hrender, hfits, hpalette, hwidth, hheight, hpixel⟩ :=
    Painter.exists_render hd h.fits mode canvas
  let scaled := d.stretch surface w.display.width w.display.height
  obtain ⟨hsw, hsh⟩ := hd.stretch_size surface w.display.width w.display.height
  obtain ⟨hcw, hch⟩ := hd.cover_size w.display scaled
  refine ⟨{ w with painter, display := d.cover w.display scaled }.count now, ?_, ?_, ?_, ?_⟩
  · simp only [presentBy, hrender]
    rfl
  · refine ⟨?_, ?_, ?_⟩
    · rw [display_count, hcw, h.width]
    · rw [display_count, hch, h.height]
    · rwa [painter_count]
  · rw [painter_count]
    exact hpalette
  · intro x hx y hy
    have hcover : (d.cover w.display scaled).pixel x y = scaled.pixel x y := by
      refine hd.cover_pixel w.display scaled x ?_ y ?_
      · rwa [hsw, Nat.min_self, h.width]
      · rwa [hsh, Nat.min_self, h.height]
    rw [display_count, hcover]
    simp only [scaled, h.width, h.height, hd.stretch_block hwidth hheight hx hy]
    exact hpixel _ (div_blockSize_lt_width mode hx) _ (div_blockSize_lt_height mode hy)

-- What is done with a window once it is open. Frames come from machines, and have their size.
inductive Use where
  | recolour (background foreground : Int)
  | present (mode : Mode) (canvas : Canvas 128 64) (now : Float)

def use (d : Drawing) (w : Window) : Use → Except Picture.Misfit Window
  | .recolour background foreground =>
    .ok { w with painter := w.painter.setColours background foreground }
  | .present mode canvas now => w.presentBy d mode ⟨128, 64, canvas⟩ now

def useAll (d : Drawing) (w : Window) (uses : List Use) : Except Picture.Misfit Window :=
  uses.foldlM (use d) w

-- The numbers of the two colours, background first.
def Use.codesAfter (codes : Int × Int) : Use → Int × Int
  | .recolour background foreground => (background, foreground)
  | .present _ _ _ => codes

def codesHeld (uses : List Use) : Int × Int := uses.foldl Use.codesAfter (0x1C2841, 0xFFFFFF)

theorem exists_use (hd : d.Faithful) (h : w.Framed s) {codes : Int × Int}
    (hcodes : w.painter.palette = .ofCodes codes.1 codes.2) (u : Use) :
    ∃ w', w.use d u = .ok w' ∧ w'.Framed s ∧
      w'.painter.palette = .ofCodes (u.codesAfter codes).1 (u.codesAfter codes).2 := by
  cases u with
  | recolour background foreground => exact ⟨_, rfl, ⟨h.width, h.height, h.fits⟩, rfl⟩
  | present mode canvas now =>
    obtain ⟨w', hpresent, hframed, hpalette, -⟩ := exists_present hd h mode canvas now
    exact ⟨w', hpresent, hframed, hpalette.trans hcodes⟩

theorem exists_useAll (hd : d.Faithful) (h : w.Framed s) (codes : Int × Int)
    (hcodes : w.painter.palette = .ofCodes codes.1 codes.2) (uses : List Use) :
    ∃ w', w.useAll d uses = .ok w' ∧ w'.Framed s ∧
      w'.painter.palette = .ofCodes (uses.foldl Use.codesAfter codes).1
        (uses.foldl Use.codesAfter codes).2 := by
  induction uses generalizing w codes with
  | nil => exact ⟨w, rfl, h, hcodes⟩
  | cons u rest ih =>
    obtain ⟨between, huse, hbetween, hcodes'⟩ := exists_use hd h hcodes u
    obtain ⟨w', hrest, hframed, hpalette⟩ := ih hbetween (u.codesAfter codes) hcodes'
    refine ⟨w', ?_, hframed, hpalette⟩
    rw [useAll, List.foldlM_cons, huse]
    exact hrest

-- New colours are for pictures to come.
theorem exists_useAll_recolour (d : Drawing) (w : Window) (later : List (Int × Int)) :
    ∃ w', w.useAll d (later.map fun codes => .recolour codes.1 codes.2) = .ok w' ∧
      w'.display = w.display := by
  induction later generalizing w with
  | nil => exact ⟨w, rfl, rfl⟩
  | cons codes rest ih => exact ih { w with painter := w.painter.setColours codes.1 codes.2 }

-- A history of a window that ends with a picture, and perhaps with colours for more of them.
structure Showing where
  scale : Int
  title : String
  opened : Float
  before : List Use
  mode : Mode
  canvas : Canvas 128 64
  now : Float
  later : List (Int × Int)

namespace Showing

def window (d : Drawing) (h : Showing) : Except Picture.Misfit Window :=
  (Window.opened h.scale h.title h.opened).useAll d
    (h.before ++ .present h.mode h.canvas h.now ::
      h.later.map fun codes => .recolour codes.1 codes.2)

-- Of a number the low twenty-four bits are the colour.
def background (h : Showing) : Int := (codesHeld h.before).1 % 2 ^ 24

def foreground (h : Showing) : Int := (codesHeld h.before).2 % 2 ^ 24

-- The colour that is to be seen at a place of the display.
def codeAt (h : Showing) (x y : Nat) : Int :=
  let q := blockSize (clampScale h.scale) h.mode
  if h.canvas.litAt (x / q) (y / q) then h.foreground else h.background

-- Two histories that have all in common that the last picture is made of, but perhaps its frame.
structure Alike (h h' : Showing) : Prop where
  scale : clampScale h'.scale = clampScale h.scale
  mode : h'.mode = h.mode
  background : h'.background = h.background
  foreground : h'.foreground = h.foreground

def SameRegion (h h' : Showing) : Prop :=
  ∀ x < h.mode.width, ∀ y < h.mode.height, h'.canvas.litAt x y = h.canvas.litAt x y

end Showing

-- The picture on the display of a window is that of a history.
structure Shows (w : Window) (h : Showing) : Prop where
  width : w.display.width = 128 * clampScale h.scale
  height : w.display.height = 64 * clampScale h.scale
  code : ∀ x < 128 * clampScale h.scale, ∀ y < 64 * clampScale h.scale,
    ((w.display.pixel x y).code : Int) = h.codeAt x y

theorem clampScale_pos (scale : Int) : 0 < clampScale scale := by
  simp only [clampScale]
  omega

theorem exists_shows (hd : d.Faithful) (h : Showing) : ∃ w, h.window d = .ok w ∧ w.Shows h := by
  have hopened := opened_framed h.scale h.title h.opened
  obtain ⟨before, hbefore, hframed, hpalette⟩ :=
    exists_useAll hd hopened (0x1C2841, 0xFFFFFF) rfl h.before
  obtain ⟨shown, hpresent, hshown, -, hpixel⟩ :=
    exists_present hd hframed h.mode h.canvas h.now
  obtain ⟨w, hlater, hdisplay⟩ := exists_useAll_recolour d shown h.later
  refine ⟨w, ?_, ?_, ?_, ?_⟩
  · have huse : before.use d (.present h.mode h.canvas h.now) = .ok shown := hpresent
    rw [Showing.window, useAll, List.foldlM_append, ← useAll, hbefore]
    change (Use.present h.mode h.canvas h.now :: _).foldlM (use d) before = _
    rw [List.foldlM_cons, huse]
    exact hlater
  · rw [hdisplay, hshown.width]
  · rw [hdisplay, hshown.height]
  · intro x hx y hy
    rw [hdisplay, hpixel x hx y hy, hpalette, Palette.colour, Showing.codeAt]
    split
    · exact Colour.code_ofCode _
    · exact Colour.code_ofCode _

-- Two windows of one size show the same.
def SamePicture (w w' : Window) : Prop :=
  w'.display.width = w.display.width ∧ w'.display.height = w.display.height ∧
    ∀ x < w.display.width, ∀ y < w.display.height, w'.display.pixel x y = w.display.pixel x y

theorem Shows.samePicture_iff {w' : Window} {h h' : Showing} (hw : w.Shows h) (hw' : w'.Shows h')
    (hscale : clampScale h'.scale = clampScale h.scale) :
    w.SamePicture w' ↔ ∀ x < 128 * clampScale h.scale, ∀ y < 64 * clampScale h.scale,
      h'.codeAt x y = h.codeAt x y := by
  have hcode' := hw'.code
  rw [hscale] at hcode'
  constructor
  · rintro ⟨-, -, hpixel⟩ x hx y hy
    rw [← hw.code x hx y hy, ← hcode' x hx y hy, hpixel x (hw.width ▸ hx) y (hw.height ▸ hy)]
  · intro hcode
    refine ⟨by rw [hw'.width, hscale, hw.width], by rw [hw'.height, hscale, hw.height], ?_⟩
    intro x hx y hy
    rw [hw.width] at hx
    rw [hw.height] at hy
    have heq := hcode x hx y hy
    rw [← hw.code x hx y hy, ← hcode' x hx y hy] at heq
    exact Colour.code_inj (Int.ofNat_inj.mp heq)

theorem Showing.Alike.codeAt_of_sameRegion {h h' : Showing} (halike : h.Alike h')
    (hregion : h.SameRegion h') {x y : Nat} (hx : x < 128 * clampScale h.scale)
    (hy : y < 64 * clampScale h.scale) : h'.codeAt x y = h.codeAt x y := by
  have hlit := hregion _ (div_blockSize_lt_width h.mode hx) _ (div_blockSize_lt_height h.mode hy)
  simp only [Showing.codeAt, halike.scale, halike.mode, halike.background, halike.foreground, hlit]

-- Two different colours tell what is lit.
theorem eq_of_ite_eq {a b : Bool} {dark lit : Int} (hdiffer : lit ≠ dark)
    (heq : (if a then lit else dark) = if b then lit else dark) : a = b := by
  cases a with
  | false => cases b with
    | false => rfl
    | true => exact absurd heq.symm hdiffer
  | true => cases b with
    | false => exact absurd heq hdiffer
    | true => rfl

-- Each pixel of the region has a block of its own on the display.
theorem Showing.Alike.sameRegion_of_codeAt {h h' : Showing} (halike : h.Alike h')
    (hdiffer : h.background ≠ h.foreground)
    (hcode : ∀ x < 128 * clampScale h.scale, ∀ y < 64 * clampScale h.scale,
      h'.codeAt x y = h.codeAt x y) : h.SameRegion h' := by
  intro x hx y hy
  have hs := clampScale_pos h.scale
  have heq := hcode _ (mul_blockSize_lt_width h.mode hs hx) _ (mul_blockSize_lt_height h.mode hs hy)
  simp only [Showing.codeAt, halike.scale, halike.mode, halike.background, halike.foreground,
    Nat.mul_div_cancel _ (blockSize_pos h.mode hs)] at heq
  exact eq_of_ite_eq hdiffer.symm heq

-- The last picture is all there is to be seen, in the colours that were held when it was presented,
-- and of its frame just the part that its mode shows.
theorem display_shows_last (hd : d.Faithful) (h : Showing) :
    (clampScale h.scale : Int) = max 1 (min 16 h.scale) ∧
      ∃ w, h.window d = .ok w ∧ w.Shows h ∧
        ∀ h' : Showing, h.Alike h' → ∃ w', h'.window d = .ok w' ∧
          (h.SameRegion h' → w.SamePicture w') ∧
          (h.background ≠ h.foreground → w.SamePicture w' → h.SameRegion h') := by
  refine ⟨by simp only [clampScale]; omega, ?_⟩
  obtain ⟨w, hwindow, hshows⟩ := exists_shows hd h
  refine ⟨w, hwindow, hshows, ?_⟩
  intro h' halike
  obtain ⟨w', hwindow', hshows'⟩ := exists_shows hd h'
  have hsame := hshows.samePicture_iff hshows' halike.scale
  refine ⟨w', hwindow', ?_, ?_⟩
  · intro hregion
    exact hsame.mpr fun x hx y hy => halike.codeAt_of_sameRegion hregion hx hy
  · intro hdiffer hpicture
    exact halike.sameRegion_of_codeAt hdiffer (hsame.mp hpicture)

-- A canvas in standard mode, on a display of 256 by 128 that was all lit in super mode before. The
-- colours are black and green, and red is for the next picture.
def Showing.overSuper (canvas : Canvas 128 64) : Showing where
  scale := 2
  title := defaultTitle
  opened := 0
  before := [.recolour 0 0x00FF00, .present .super (.ofFn fun _ _ => true) 0]
  mode := .standard
  canvas
  now := 0
  later := [(0, 0xFF0000)]

theorem Showing.overSuper_alike (c c' : Canvas 128 64) : (overSuper c).Alike (overSuper c') :=
  ⟨rfl, rfl, rfl, rfl⟩

-- The last corner of what standard mode shows is green as far as the end of the display. The pixel on
-- its right is not to be seen.
theorem display_shows_last_corner :
    Drawing.plain.Faithful ∧
      ∃ w w' w'', (Showing.overSuper (Canvas.dark.write 63 31 true)).window .plain = .ok w ∧
        (w.display.pixel 252 124).code = 0x00FF00 ∧ (w.display.pixel 255 127).code = 0x00FF00 ∧
        (w.display.pixel 255 0).code = 0 ∧
        (Showing.overSuper ((Canvas.dark.write 63 31 true).write 64 31 true)).window .plain =
          .ok w' ∧ w.SamePicture w' ∧
        (Showing.overSuper Canvas.dark).window .plain = .ok w'' ∧ ¬ w.SamePicture w'' := by
  obtain ⟨-, w, hwindow, hshows, hthen⟩ :=
    display_shows_last Drawing.plain_faithful (Showing.overSuper (Canvas.dark.write 63 31 true))
  obtain ⟨w', hwindow', hsame, -⟩ := hthen _
    (Showing.overSuper_alike _ ((Canvas.dark.write 63 31 true).write 64 31 true))
  obtain ⟨w'', hwindow'', -, hregion⟩ := hthen _ (Showing.overSuper_alike _ Canvas.dark)
  have hcode : ∀ x < 256, ∀ y < 128, ((w.display.pixel x y).code : Int) =
      if (Canvas.dark.write 63 31 true : Canvas 128 64).litAt (x / 4) (y / 4) then 0x00FF00 else 0 :=
    hshows.code
  simp only [Canvas.litAt_write, Canvas.litAt_dark] at hcode
  refine ⟨Drawing.plain_faithful, w, w', w'', hwindow, ?_, ?_, ?_, hwindow', hsame ?_, hwindow'', ?_⟩
  · exact Int.ofNat_inj.mp (hcode 252 (by decide) 124 (by decide))
  · exact Int.ofNat_inj.mp (hcode 255 (by decide) 127 (by decide))
  · exact Int.ofNat_inj.mp (hcode 255 (by decide) 0 (by decide))
  · intro x hx y _
    have hleft : x < 64 := hx
    exact (Canvas.litAt_write _ 64 31 true x y).trans (if_neg fun h => Nat.ne_of_gt hleft h.1)
  · intro hpicture
    have hcorner : (Canvas.dark : Canvas 128 64).litAt 63 31 =
        (Canvas.dark.write 63 31 true).litAt 63 31 :=
      hregion (by decide) hpicture 63 (by decide) 31 (by decide)
    rw [Canvas.litAt_dark, Canvas.litAt_write] at hcorner
    exact absurd hcorner (by decide)

end Window

end SuperChip
