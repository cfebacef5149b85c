import SuperChip.Proofs.Machine.Picture
import SuperChip.Proofs.Machine.Words

-- What it comes to that a sprite is drawn pixel by pixel, each time on the canvas that the pixels
-- before have left: the sprite as a picture of its own is laid over the canvas as it was at first.
namespace SuperChip

-- A small picture: how large it is, and which pixels are set, by column and row.
structure Sprite where
  width : Nat
  height : Nat
  set : Nat → Nat → Bool

-- The sprite that begins at the index register. Its rows are one byte wide, or two bytes if it is
-- one of the large sprites of super mode; the highest bit of a byte is its leftmost pixel.
def Machine.sprite (m : Machine) (n : Nibble) : Sprite :=
  let bytes := if n = 0 ∧ m.mode = .super then 2 else 1
  { width := 8 * bytes
    height := if n = 0 then 16 else n.val
    set := fun c r =>
      let byte := m.ram.read ((m.index + (r * bytes + c / 8 : Nat)) % 4096)
      decide (byte.toNat / 2 ^ (7 - c % 8) % 2 = 1) }

namespace Sprite

variable {s : Sprite} {mode : Mode} {left top : Nat} {p : Fin 128 × Fin 64} {c r c' r' : Nat}

-- A set pixel of the sprite and the pixel of the canvas that it is drawn to. The part of the canvas
-- that the mode can reach is a torus.
def Hits (s : Sprite) (mode : Mode) (left top : Nat) (p : Fin 128 × Fin 64) (c r : Nat) : Prop :=
  c < s.width ∧ r < s.height ∧ s.set c r = true ∧
    p.1.val = (left + c) % mode.width ∧ p.2.val = (top + r) % mode.height

def Covers (s : Sprite) (mode : Mode) (left top : Nat) (p : Fin 128 × Fin 64) : Prop :=
  ∃ c r, s.Hits mode left top p c r

instance : Decidable (s.Hits mode left top p c r) := inferInstanceAs (Decidable (_ ∧ _))

instance : Decidable (s.Covers mode left top p) :=
  decidable_of_iff (∃ c < s.width, ∃ r < s.height, s.Hits mode left top p c r) (by
    constructor
    · rintro ⟨c, -, r, -, hhits⟩
      exact ⟨c, r, hhits⟩
    · rintro ⟨c, r, hhits⟩
      exact ⟨c, hhits.1, r, hhits.2.1, hhits⟩)

theorem Covers.column_lt (hcovers : s.Covers mode left top p) : p.1.val < mode.width := by
  obtain ⟨c, r, -, -, -, hcolumn, -⟩ := hcovers
  rw [hcolumn]
  exact Nat.mod_lt _ mode.width_pos

theorem Covers.row_lt (hcovers : s.Covers mode left top p) : p.2.val < mode.height := by
  obtain ⟨c, r, -, -, -, -, hrow⟩ := hcovers
  rw [hrow]
  exact Nat.mod_lt _ mode.height_pos

-- On a torus as large as the sprite at least, its pixels keep apart.
theorem Hits.unique (hwidth : s.width ≤ mode.width) (hheight : s.height ≤ mode.height)
    (h : s.Hits mode left top p c r) (h' : s.Hits mode left top p c' r') : c = c' ∧ r = r' := by
  obtain ⟨hc, hr, -, hcolumn, hrow⟩ := h
  obtain ⟨hc', hr', -, hcolumn', hrow'⟩ := h'
  constructor
  · exact Machine.eq_of_add_mod (by omega) (by omega) (hcolumn.symm.trans hcolumn')
  · exact Machine.eq_of_add_mod (by omega) (by omega) (hrow.symm.trans hrow')

end Sprite

namespace Machine

variable {m : Machine}

theorem width_sprite_le (m : Machine) (n : Nibble) : (m.sprite n).width ≤ m.mode.width := by
  have hbytes := spriteBytes_le m.mode n
  have hwidth : 64 ≤ m.mode.width := by cases m.mode <;> decide
  have heq : (m.sprite n).width = 8 * spriteBytes m.mode n := rfl
  omega

theorem height_sprite_le (m : Machine) (n : Nibble) : (m.sprite n).height ≤ m.mode.height := by
  have hrows := spriteRows_le n
  have hheight : 32 ≤ m.mode.height := by cases m.mode <;> decide
  have heq : (m.sprite n).height = spriteRows n := rfl
  omega

theorem set_sprite (m : Machine) (n : Nibble) (c r : Nat) :
    (m.sprite n).set c r = m.spriteBit (spriteBytes m.mode n) c r := by
  have haddress (bytes : Nat) :
      m.index + (r * bytes + c / 8 : Nat) = m.index + r * bytes + c / 8 := by
    push_cast
    rw [Int.add_assoc]
  simp only [sprite, spriteBit, Memory.read_emod, Nat.testBit_eq_decide_div_mod_eq, haddress]
  rfl

theorem place_eq_iff {mode : Mode} {a b : Nat} {p : Fin 128 × Fin 64} :
    place mode a b = p ↔ p.1.val = a % mode.width ∧ p.2.val = b % mode.height := by
  rw [Prod.ext_iff, Fin.ext_iff, Fin.ext_iff]
  exact and_congr eq_comm eq_comm

theorem mem_spritePixels (m : Machine) (x y : Register) (n : Nibble) (p : Fin 128 × Fin 64) :
    p ∈ m.spritePixels x y n ↔
      (m.sprite n).Covers m.mode (m.v.get x).toNat (m.v.get y).toNat p := by
  simp only [spritePixels, List.mem_flatMap, List.mem_map, List.mem_filter, List.mem_range,
    place_eq_iff, Sprite.Covers, Sprite.Hits, set_sprite]
  constructor
  · rintro ⟨r, hr, c, ⟨hc, hset⟩, hplace⟩
    exact ⟨c, r, hc, hr, hset, hplace⟩
  · rintro ⟨c, r, hc, hr, hset, hplace⟩
    exact ⟨r, hr, c, ⟨hc, hset⟩, hplace⟩

-- What has become of a machine that has drawn a sprite at a place. No pixel of the canvas is hit
-- twice, and what the flag register and the mark of a changed picture tell is about the canvas as
-- it was.
structure Drew (m : Machine) (s : Sprite) (left top : Nat) (m' : Machine) : Prop where
  lit_eq : ∀ p : Fin 128 × Fin 64,
    m'.canvas.lit p.1 p.2 = (m.canvas.lit p.1 p.2 ^^ decide (s.Covers m.mode left top p))
  once : ∀ p c r c' r', s.Hits m.mode left top p c r → s.Hits m.mode left top p c' r' →
    c = c' ∧ r = r'
  corner : ∀ p : Fin 128 × Fin 64, m.mode.width ≤ p.1.val ∨ m.mode.height ≤ p.2.val →
    m'.canvas.lit p.1 p.2 = m.canvas.lit p.1 p.2
  flag_one : m'.v.get flag = 1 ↔
    ∃ p, s.Covers m.mode left top p ∧ m.canvas.lit p.1 p.2 = true
  flag_zero : m'.v.get flag = 0 ↔
    ∀ p, s.Covers m.mode left top p → m.canvas.lit p.1 p.2 = false
  redraw_iff : m'.redraw = true ↔
    m.redraw = true ∨ ∃ p, s.Covers m.mode left top p ∧ m.canvas.lit p.1 p.2 = false

theorem Drew.lit_of_covers {s : Sprite} {left top : Nat} {m' : Machine} {p : Fin 128 × Fin 64}
    (h : Drew m s left top m') (hcovers : s.Covers m.mode left top p) :
    m'.canvas.lit p.1 p.2 = !m.canvas.lit p.1 p.2 := by
  rw [h.lit_eq, decide_eq_true hcovers, Bool.xor_true]

-- The machine that executing the word of a sprite leaves.
def drawn (m : Machine) (x y : Register) (n : Nibble) : Machine :=
  (draw { m with word := Word.ofDigits 0xD x y n } x y n).next.wrapPc

theorem execute_draw (dice : Dice) (h : m.WellFormed) (x y : Register) (n : Nibble) :
    m.execute dice (Word.ofDigits 0xD x y n) = done (m.drawn x y n) :=
  execute_word dice h (.draw x y n)

section Drawn

variable (m : Machine) (x y : Register) (n : Nibble)

theorem canvas_drawn :
    (m.drawn x y n).canvas = (m.canvas.toggleAll (m.spritePixels x y n)).canvas := rfl

theorem flag_drawn : (m.drawn x y n).v.get flag =
    bit (m.canvas.toggleAll (m.spritePixels x y n)).erased :=
  Vector.getElem_set_self flag.isLt

theorem get_v_drawn {r : Register} (hr : r ≠ flag) : (m.drawn x y n).v.get r = m.v.get r :=
  Vector.getElem_set_ne flag.isLt r.isLt fun heq => hr (Fin.ext heq).symm

theorem redraw_drawn : (m.drawn x y n).redraw =
    (m.redraw || (m.canvas.toggleAll (m.spritePixels x y n)).lighted) := rfl

theorem lit_drawn (p : Fin 128 × Fin 64) :
    (m.drawn x y n).canvas.lit p.1 p.2 = (m.canvas.lit p.1 p.2 ^^
      decide ((m.sprite n).Covers m.mode (m.v.get x).toNat (m.v.get y).toNat p)) := by
  rw [canvas_drawn, Canvas.lit_toggleAll (nodup_spritePixels m x y n)]
  simp only [mem_spritePixels]

end Drawn

theorem bit_eq_one_iff (b : Bool) : bit b = 1 ↔ b = true := by cases b <;> decide

theorem bit_eq_zero_iff (b : Bool) : bit b = 0 ↔ ¬ b = true := by cases b <;> decide

theorem drawn_drew (m : Machine) (x y : Register) (n : Nibble) :
    Drew m (m.sprite n) (m.v.get x).toNat (m.v.get y).toNat (m.drawn x y n) := by
  have hnodup := nodup_spritePixels m x y n
  have herased := Canvas.erased_toggleAll (c := m.canvas) hnodup
  have hlighted := Canvas.lighted_toggleAll (c := m.canvas) hnodup
  simp only [mem_spritePixels] at herased hlighted
  refine ⟨lit_drawn m x y n, ?_, ?_, ?_, ?_, ?_⟩
  · intro p c r c' r'
    exact Sprite.Hits.unique (width_sprite_le m n) (height_sprite_le m n)
  · intro p hout
    rw [lit_drawn, decide_eq_false, Bool.xor_false]
    intro hcovers
    have hcolumn := hcovers.column_lt
    have hrow := hcovers.row_lt
    omega
  · rw [flag_drawn, bit_eq_one_iff, herased]
  · rw [flag_drawn, bit_eq_zero_iff, herased]
    simp only [not_exists, not_and, Bool.not_eq_true]
  · rw [redraw_drawn, Bool.or_eq_true, hlighted]

-- The coordinates are those of before, also when the flag register holds one of them.
theorem draw_overlays_sprite (dice : Dice) (h : m.WellFormed) (x y : Register) (n : Nibble) :
    ∃ m', m.execute dice (Word.ofDigits 0xD x y n) = done m' ∧
      Drew m (m.sprite n) (m.v.get x).toNat (m.v.get y).toNat m' :=
  ⟨m.drawn x y n, execute_draw dice h x y n, drawn_drew m x y n⟩

-- Three rows from the last address on, the first two rows of the glyph zero among them, at the
-- lower right corner of the canvas, where one pixel is lit. Both coordinates are in the flag
-- register.
theorem draw_overlays_sprite_wrapped :
    let m := { powerOn.setV 15 126 with
      mode := .super, index := 0xFFF, canvas := Canvas.dark.write 0 63 true }
    m.WellFormed ∧ ∃ m', m.execute (fun _ => 0) 0xDFF3 = done m' ∧
      m'.canvas.lit 127 63 = true ∧ m'.canvas.lit 0 63 = false ∧ m'.canvas.lit 1 0 = true ∧
      m'.v.get flag = 1 ∧ m'.redraw = true := by
  intro m
  have hwell : m.WellFormed := { powerOn_wellFormed with index_mem := by decide }
  have hlit (a : Fin 128) (b : Fin 64) : m.canvas.lit a b = decide (0 = a ∧ 63 = b) := by
    simp [m, Canvas.lit_write]
  let covers := (m.sprite 3).Covers m.mode (m.v.get 15).toNat (m.v.get 15).toNat
  have hcorner : covers (127, 63) := ⟨1, 1, by decide +kernel⟩
  have hacross : covers (0, 63) := ⟨2, 1, by decide +kernel⟩
  have hdown : covers (1, 0) := ⟨3, 2, by decide +kernel⟩
  obtain ⟨m', hexecute, hdrew⟩ := draw_overlays_sprite (fun _ => 0) hwell 15 15 3
  refine ⟨hwell, m', hexecute, ?_, ?_, ?_, ?_, ?_⟩
  · rw [hdrew.lit_of_covers hcorner, hlit]
    rfl
  · rw [hdrew.lit_of_covers hacross, hlit]
    rfl
  · rw [hdrew.lit_of_covers hdown, hlit]
    rfl
  · exact hdrew.flag_one.mpr ⟨(0, 63), hacross, hlit 0 63⟩
  · exact hdrew.redraw_iff.mpr (.inr ⟨(127, 63), hcorner, hlit 127 63⟩)

end Machine

end SuperChip
