import SuperChip.Proofs.Machine.Calls
import SuperChip.Proofs.Machine.Sprite

-- A sprite that is drawn a second time is taken away again, and two sprites leave the same picture
-- whichever is drawn first, however they overlap.
namespace SuperChip

-- Something is dark on the first canvas and lit on the second.
def Canvas.Lights {w h : Nat} (c d : Canvas w h) : Prop :=
  ∃ x y, c.lit x y = false ∧ d.lit x y = true

-- A sprite by the address of its bytes, the registers that hold its place, and its height.
structure Stamp where
  address : Address
  x : Register
  y : Register
  n : Nibble

-- The words that draw it, wherever the index register has been before.
def Stamp.words (s : Stamp) : List UInt16 :=
  [UInt16.ofNat (0xA000 + s.address), Word.ofDigits 0xD s.x s.y s.n]

-- Every drawing writes the flag register, so that no place can be kept there.
def Stamp.Kept (s : Stamp) : Prop := s.x ≠ Machine.flag ∧ s.y ≠ Machine.flag

instance (s : Stamp) : Decidable s.Kept := inferInstanceAs (Decidable (_ ∧ _))

namespace Machine

variable {m m' m₁ m₂ : Machine} {s t : Sprite} {left top left' top' : Nat}

namespace Drew

theorem lights_iff (h : Drew m s left top m') :
    m.canvas.Lights m'.canvas ↔
      ∃ p, s.Covers m.mode left top p ∧ m.canvas.lit p.1 p.2 = false := by
  simp only [Canvas.Lights, Prod.exists]
  refine exists_congr fun x => exists_congr fun y => ?_
  rw [h.lit_eq (x, y)]
  cases m.canvas.lit x y <;> simp

-- Of the pixels that are covered, those that are lit were dark, and the other way round.
theorem exists_covers_iff (h : Drew m s left top m') (on : Bool) :
    (∃ p, s.Covers m.mode left top p ∧ m'.canvas.lit p.1 p.2 = on) ↔
      ∃ p, s.Covers m.mode left top p ∧ m.canvas.lit p.1 p.2 = !on := by
  refine exists_congr fun p => and_congr_right fun hcovers => ?_
  rw [h.lit_of_covers hcovers, Bool.not_eq_eq_eq_not]

-- The second time the canvas and the mode are those that the first time has left.
section Again

variable (h : Drew m s left top m₁) (h' : Drew m' s left top m₂) (hmode : m'.mode = m.mode)
  (hcanvas : m'.canvas = m₁.canvas)

include h h' hmode hcanvas

theorem canvas_again : m₂.canvas = m.canvas := by
  apply Canvas.ext_lit
  intro x y
  rw [h'.lit_eq (x, y), hcanvas, h.lit_eq (x, y), hmode, Bool.xor_assoc, Bool.xor_self,
    Bool.xor_false]

theorem flag_again : m₂.v.get flag = 1 ↔ m.canvas.Lights m₁.canvas := by
  rw [h'.flag_one, hmode, hcanvas, h.exists_covers_iff true, h.lights_iff, Bool.not_true]

theorem lights_again : m₁.canvas.Lights m₂.canvas ↔ m₁.v.get flag = 1 := by
  rw [← hcanvas, h'.lights_iff, hmode, hcanvas, h.exists_covers_iff false, h.flag_one,
    Bool.not_false]

theorem redraw_again : m₂.redraw = true ↔ m'.redraw = true ∨ m₁.v.get flag = 1 := by
  rw [h'.redraw_iff, ← h'.lights_iff, hcanvas, h.lights_again h' hmode hcanvas]

end Again

-- Each sprite toggles what it covers, before the other one or after it.
theorem canvas_comm {n₁ n₂ : Machine} (hs : Drew m s left top m₁) (ht : Drew m₁ t left' top' m₂)
    (ht' : Drew m t left' top' n₁) (hs' : Drew n₁ s left top n₂) (hmode : m₁.mode = m.mode)
    (hmode' : n₁.mode = m.mode) : m₂.canvas = n₂.canvas := by
  apply Canvas.ext_lit
  intro x y
  rw [ht.lit_eq (x, y), hs.lit_eq (x, y), hs'.lit_eq (x, y), ht'.lit_eq (x, y), hmode, hmode',
    Bool.xor_right_comm]

end Drew

theorem drawn_again_drew (m : Machine) {x y : Register} (hx : x ≠ flag) (hy : y ≠ flag)
    (n : Nibble) (redraw : Bool) :
    Drew { m.drawn x y n with redraw } (m.sprite n) (m.v.get x).toNat (m.v.get y).toNat
      (drawn { m.drawn x y n with redraw } x y n) := by
  have hdrew := drawn_drew { m.drawn x y n with redraw } x y n
  rw [get_v_drawn m x y n hx, get_v_drawn m x y n hy] at hdrew
  exact hdrew

-- The machine with the index register at a sprite, and the machine that has drawn it.
def pointed (m : Machine) (target : Address) : Machine :=
  { m with word := (Instruction.point target).word, index := target.val }.next.wrapPc

def stamped (m : Machine) (s : Stamp) : Machine := (m.pointed s.address).drawn s.x s.y s.n

theorem execute_point (dice : Dice) (h : m.WellFormed) (target : Address) :
    m.execute dice (UInt16.ofNat (0xA000 + target)) = done (m.pointed target) :=
  execute_word dice h (.point target)

theorem executeAll_stamp (dice : Dice) (h : m.WellFormed) (s : Stamp) :
    m.executeAll dice s.words = done (m.stamped s) ∧ (m.stamped s).WellFormed := by
  have hpoint := execute_point dice h s.address
  have hdraw := execute_draw dice (h.of_execute hpoint) s.x s.y s.n
  refine ⟨?_, (h.of_execute hpoint).of_execute hdraw⟩
  rw [Stamp.words, executeAll, hpoint]
  exact (executeAll_singleton dice _ _).trans hdraw

-- The picture of a stamp.
def shape (m : Machine) (s : Stamp) : Sprite := sprite { m with index := s.address.val } s.n

theorem stamped_drew (m : Machine) (s : Stamp) :
    Drew m (m.shape s) (m.v.get s.x).toNat (m.v.get s.y).toNat (m.stamped s) := by
  have hdrew := drawn_drew (m.pointed s.address) s.x s.y s.n
  exact ⟨hdrew.lit_eq, hdrew.once, hdrew.corner, hdrew.flag_one, hdrew.flag_zero, hdrew.redraw_iff⟩

theorem stamped_after_drew (m : Machine) (s : Stamp) {t : Stamp} (ht : t.Kept) :
    Drew (m.stamped s) (m.shape t) (m.v.get t.x).toNat (m.v.get t.y).toNat
      ((m.stamped s).stamped t) := by
  have hdrew := stamped_drew (m.stamped s) t
  have hget (r : Register) (hr : r ≠ flag) : (m.stamped s).v.get r = m.v.get r :=
    get_v_drawn (m.pointed s.address) s.x s.y s.n hr
  rw [hget t.x ht.1, hget t.y ht.2] at hdrew
  exact hdrew

theorem canvas_stamped_comm (m : Machine) {s t : Stamp} (hs : s.Kept) (ht : t.Kept) :
    ((m.stamped s).stamped t).canvas = ((m.stamped t).stamped s).canvas :=
  (stamped_drew m s).canvas_comm (stamped_after_drew m s ht) (stamped_drew m t)
    (stamped_after_drew m t hs) rfl rfl

theorem draws_undo_and_commute (dice : Dice) (h : m.WellFormed) :
    (∀ (x y : Register) (n : Nibble), x ≠ flag → y ≠ flag →
      ∃ m₁, m.execute dice (Word.ofDigits 0xD x y n) = done m₁ ∧
        ∀ redraw, ∃ m₂, execute dice { m₁ with redraw } (Word.ofDigits 0xD x y n) = done m₂ ∧
          m₂.canvas = m.canvas ∧
          (m₂.v.get flag = 1 ↔ m.canvas.Lights m₁.canvas) ∧
          (m₁.canvas.Lights m₂.canvas ↔ m₁.v.get flag = 1) ∧
          (m₂.redraw = true ↔ redraw = true ∨ m₁.v.get flag = 1)) ∧
    (∀ s t : Stamp, s.Kept → t.Kept →
      ∃ m₁ m₂, m.executeAll dice (s.words ++ t.words) = done m₁ ∧
        m.executeAll dice (t.words ++ s.words) = done m₂ ∧ m₁.canvas = m₂.canvas) := by
  constructor
  · intro x y n hx hy
    have hfirst := execute_draw dice h x y n
    have hdrew := drawn_drew m x y n
    refine ⟨m.drawn x y n, hfirst, ?_⟩
    intro redraw
    have hwell : WellFormed { m.drawn x y n with redraw } := { h.of_execute hfirst with }
    have hagain := drawn_again_drew m hx hy n redraw
    exact ⟨_, execute_draw dice hwell x y n, hdrew.canvas_again hagain rfl rfl,
      hdrew.flag_again hagain rfl rfl, hdrew.lights_again hagain rfl rfl,
      hdrew.redraw_again hagain rfl rfl⟩
  · intro s t hs ht
    obtain ⟨hexecute, hwell⟩ := executeAll_stamp dice h s
    obtain ⟨hexecute', hwell'⟩ := executeAll_stamp dice h t
    refine ⟨(m.stamped s).stamped t, (m.stamped t).stamped s, ?_, ?_, canvas_stamped_comm m hs ht⟩
    · rw [executeAll_append hexecute]
      exact (executeAll_stamp dice hwell t).1
    · rw [executeAll_append hexecute']
      exact (executeAll_stamp dice hwell' s).1

-- The top row of the glyph zero where its leftmost pixel is lit already, so that each time a pixel
-- goes dark and others come on. The other sprite is the glyph one at the same place.
theorem draws_undo_and_commute_overlapping :
    let m := { powerOn with canvas := Canvas.dark.write 0 0 true }
    m.WellFormed ∧
      (∃ m₁ m₂, m.execute (fun _ => 0) 0xD011 = done m₁ ∧
        execute (fun _ => 0) { m₁ with redraw := false } 0xD011 = done m₂ ∧
        m₂.canvas = m.canvas ∧ m₁.v.get flag = 1 ∧ m₂.v.get flag = 1 ∧ m₂.redraw = true) ∧
      ∃ m₁ m₂, m.executeAll (fun _ => 0) [0xA000, 0xD011, 0xA005, 0xD015] = done m₁ ∧
        m.executeAll (fun _ => 0) [0xA005, 0xD015, 0xA000, 0xD011] = done m₂ ∧
        m₁.canvas = m₂.canvas := by
  intro m
  have hwell : m.WellFormed := { powerOn_wellFormed with }
  obtain ⟨hundo, hcomm⟩ := draws_undo_and_commute (fun _ => 0) hwell
  have hdrew := drawn_drew m 0 1 1
  have hlit : m.canvas.lit 0 0 = true := by simp [m, Canvas.lit_write]
  have hdark : m.canvas.lit 1 0 = false := by simp [m, Canvas.lit_write]
  let covers := (m.sprite 1).Covers m.mode (m.v.get 0).toNat (m.v.get 1).toNat
  have hleft : covers (0, 0) := ⟨0, 0, by decide +kernel⟩
  have hright : covers (1, 0) := ⟨1, 0, by decide +kernel⟩
  have hflag : (m.drawn 0 1 1).v.get flag = 1 := hdrew.flag_one.mpr ⟨(0, 0), hleft, hlit⟩
  have hlights : m.canvas.Lights (m.drawn 0 1 1).canvas :=
    hdrew.lights_iff.mpr ⟨(1, 0), hright, hdark⟩
  refine ⟨hwell, ?_, ?_⟩
  · obtain ⟨m₁, hfirst, hagain⟩ := hundo 0 1 1 (by decide) (by decide)
    obtain ⟨m₂, hsecond, hcanvas, hflag', -, hredraw⟩ := hagain false
    obtain rfl : m.drawn 0 1 1 = m₁ :=
      congrArg Prod.fst ((execute_draw _ hwell 0 1 1).symm.trans hfirst)
    exact ⟨_, m₂, hfirst, hsecond, hcanvas, hflag, hflag'.mpr hlights, hredraw.mpr (.inr hflag)⟩
  · exact hcomm ⟨0x000, 0, 1, 1⟩ ⟨0x005, 0, 1, 5⟩ (by decide) (by decide)

end Machine

end SuperChip
