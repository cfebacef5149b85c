import SuperChip.Proofs.Canvas

-- Scrolling as a movement of the plane. What a canvas shows is moved by a distance across and a
-- distance down, and what comes in over the edge is dark.
namespace SuperChip.Canvas

variable {w h : Nat}

-- The pixel at any coordinates. Off the canvas there is nothing lit.
def shows (c : Canvas w h) (x y : Int) : Bool :=
  if 0 ≤ x ∧ 0 ≤ y then c.litAt x.toNat y.toNat else false

def moved (c : Canvas w h) (dx dy : Int) : Canvas w h :=
  ofFn fun x y => c.shows (x.val - dx) (y.val - dy)

theorem shows_natCast (c : Canvas w h) (x y : Nat) : c.shows x y = c.litAt x y := by
  simp [shows]

theorem shows_of_outside (c : Canvas w h) {x y : Int}
    (hout : ¬ ((0 ≤ x ∧ x < w) ∧ 0 ≤ y ∧ y < h)) : c.shows x y = false := by
  unfold shows
  split
  · exact litAt_of_outside c (by omega)
  · rfl

theorem lit_moved (c : Canvas w h) (dx dy : Int) (x : Fin w) (y : Fin h) :
    (c.moved dx dy).lit x y = c.shows (x.val - dx) (y.val - dy) :=
  lit_ofFn _ x y

-- On the canvas the pixel of what was moved is the one that lies as far back.
theorem shows_moved (c : Canvas w h) {x y : Int} (dx dy : Int)
    (hin : (0 ≤ x ∧ x < w) ∧ 0 ≤ y ∧ y < h) :
    (c.moved dx dy).shows x y = c.shows (x - dx) (y - dy) := by
  obtain ⟨⟨hx, hxw⟩, hy, hyh⟩ := hin
  obtain ⟨x, rfl⟩ := Int.eq_ofNat_of_zero_le hx
  obtain ⟨y, rfl⟩ := Int.eq_ofNat_of_zero_le hy
  rw [shows_natCast, litAt_of_lt _ (by omega) (by omega), lit_moved]

theorem moved_zero (c : Canvas w h) : c.moved 0 0 = c := by
  apply ext_lit
  intro x y
  rw [lit_moved, Int.sub_zero, Int.sub_zero, shows_natCast, litAt_val]

theorem moved_of_beyond (c : Canvas w h) {dx dy : Int}
    (hbeyond : (w ≤ dx ∨ dx ≤ -w) ∨ h ≤ dy ∨ dy ≤ -h) : c.moved dx dy = dark := by
  apply ext_lit
  intro x y
  have hx := x.isLt
  have hy := y.isLt
  rw [lit_moved, lit_dark, shows_of_outside]
  omega

-- Two movements in one direction come to one. A pixel that the first takes over the edge is not
-- brought back by the second, and both together would have taken it over the edge.
theorem moved_moved (c : Canvas w h) {dx dy dx' dy' : Int}
    (hx : 0 ≤ dx ∧ 0 ≤ dx' ∨ dx ≤ 0 ∧ dx' ≤ 0) (hy : 0 ≤ dy ∧ 0 ≤ dy' ∨ dy ≤ 0 ∧ dy' ≤ 0) :
    (c.moved dx dy).moved dx' dy' = c.moved (dx + dx') (dy + dy') := by
  apply ext_lit
  intro x y
  have hxw := x.isLt
  have hyh := y.isLt
  rw [lit_moved, lit_moved]
  by_cases hin : (0 ≤ (x.val : Int) - dx' ∧ (x.val : Int) - dx' < w) ∧
      0 ≤ (y.val : Int) - dy' ∧ (y.val : Int) - dy' < h
  · rw [shows_moved c dx dy hin]
    congr 1 <;> omega
  · rw [shows_of_outside _ hin, shows_of_outside]
    omega

-- There and back again. What was taken over the edge is lost.
theorem lit_moved_back (c : Canvas w h) (dx dy : Int) (x : Fin w) (y : Fin h) :
    ((c.moved dx dy).moved (-dx) (-dy)).lit x y =
      if (0 ≤ x.val + dx ∧ x.val + dx < w) ∧ 0 ≤ y.val + dy ∧ y.val + dy < h then c.lit x y
      else false := by
  rw [lit_moved, Int.sub_neg, Int.sub_neg]
  split
  · next hin =>
    rw [shows_moved c dx dy hin, Int.add_sub_cancel, Int.add_sub_cancel, shows_natCast, litAt_val]
  · next hout => exact shows_of_outside _ hout

theorem lit_blank (c : Canvas w h) (a : Area) (x : Fin w) (y : Fin h) :
    (c.blank a).lit x y = if a.Contains x y then false else c.lit x y :=
  lit_ofFn _ x y

theorem lit_move (c : Canvas w h) (a : Area) (left top : Nat) (x : Fin w) (y : Fin h) :
    (c.move a left top).lit x y =
      if { a with left, top }.Contains x y then c.litAt (x - left + a.left) (y - top + a.top)
      else c.lit x y :=
  lit_ofFn _ x y

-- A block that is moved and the area it leaves, which is blanked, make a movement together if every
-- pixel that is blanked would have come from off the canvas and all the others are in the block.
theorem blank_move_eq_moved (c : Canvas w h) {a b : Area} {left top : Nat} {dx dy : Int}
    (hblank : ∀ (x : Fin w) (y : Fin h), b.Contains x y →
      ¬ ((0 ≤ x.val - dx ∧ x.val - dx < w) ∧ 0 ≤ y.val - dy ∧ y.val - dy < h))
    (hblock : ∀ (x : Fin w) (y : Fin h), ¬ b.Contains x y → { a with left, top }.Contains x y ∧
      (left : Int) - a.left = dx ∧ (top : Int) - a.top = dy) :
    (c.move a left top).blank b = c.moved dx dy := by
  apply ext_lit
  intro x y
  rw [lit_blank, lit_moved]
  by_cases hb : b.Contains x y
  · rw [if_pos hb, shows_of_outside c (hblank x y hb)]
  · obtain ⟨hin, rfl, rfl⟩ := hblock x y hb
    rw [if_neg hb, lit_move, if_pos hin, ← shows_natCast]
    obtain ⟨⟨hx, -⟩, hy, -⟩ := hin
    simp only at hx hy
    congr 1 <;> omega

theorem scrollDown_eq_moved (c : Canvas w h) (rows : Int) :
    c.scrollDown rows = c.moved 0 rows.toNat := by
  unfold scrollDown
  split
  · next hrows => rw [Int.toNat_of_nonpos hrows, Int.natCast_zero, moved_zero]
  · apply blank_move_eq_moved
    · intro x y hblank
      simp only [Area.Contains] at hblank
      omega
    · intro x y hblock
      simp only [Area.Contains] at hblock ⊢
      omega

theorem scrollRight_eq_moved (c : Canvas w h) (columns : Int) :
    c.scrollRight columns = c.moved columns.toNat 0 := by
  unfold scrollRight
  split
  · next hcolumns => rw [Int.toNat_of_nonpos hcolumns, Int.natCast_zero, moved_zero]
  · apply blank_move_eq_moved
    · intro x y hblank
      simp only [Area.Contains] at hblank
      omega
    · intro x y hblock
      simp only [Area.Contains] at hblock ⊢
      omega

theorem scrollLeft_eq_moved (c : Canvas w h) (columns : Int) :
    c.scrollLeft columns = c.moved (-columns.toNat) 0 := by
  unfold scrollLeft
  split
  · next hcolumns => rw [Int.toNat_of_nonpos hcolumns, Int.natCast_zero, Int.neg_zero, moved_zero]
  · apply blank_move_eq_moved
    · intro x y hblank
      simp only [Area.Contains] at hblank
      omega
    · intro x y hblock
      simp only [Area.Contains] at hblock ⊢
      omega

-- What it is to scroll one way, where (dx, dy) is a step that way and the canvas is so many steps
-- long. The pixel that comes to some place was before as many steps back.
structure Scrolls (scroll : Canvas w h → Int → Canvas w h) (dx dy : Int) (steps : Nat) : Prop where
  unmoved : ∀ c n, n ≤ 0 → scroll c n = c
  lit_eq : ∀ c n, 0 < n → ∀ x y, (scroll c n).lit x y = c.shows (x.val - n * dx) (y.val - n * dy)
  cleared : ∀ c n, (steps : Int) ≤ n → scroll c n = dark
  added : ∀ c a b, 0 ≤ a → 0 ≤ b → scroll (scroll c a) b = scroll c (a + b)

-- As many steps back or forth, both of the same sign.
theorem mul_same_sign {a b : Int} (ha : 0 ≤ a) (hb : 0 ≤ b) (d : Int) :
    0 ≤ a * d ∧ 0 ≤ b * d ∨ a * d ≤ 0 ∧ b * d ≤ 0 := by
  rcases Int.le_total 0 d with hd | hd
  · exact .inl ⟨Int.mul_nonneg ha hd, Int.mul_nonneg hb hd⟩
  · exact .inr ⟨Int.mul_nonpos_of_nonneg_of_nonpos ha hd, Int.mul_nonpos_of_nonneg_of_nonpos hb hd⟩

theorem scrolls_of_moved {scroll : Canvas w h → Int → Canvas w h} {dx dy : Int} {steps : Nat}
    (hscroll : ∀ c n, scroll c n = c.moved (n.toNat * dx) (n.toNat * dy))
    (hsteps : ∀ n : Nat, steps ≤ n →
      (w ≤ n * dx ∨ n * dx ≤ -w) ∨ h ≤ n * dy ∨ n * dy ≤ -h) :
    Scrolls scroll dx dy steps where
  unmoved := by
    intro c n hn
    rw [hscroll, Int.toNat_of_nonpos hn, Int.natCast_zero, Int.zero_mul, Int.zero_mul, moved_zero]
  lit_eq := by
    intro c n hn x y
    rw [hscroll, lit_moved, Int.toNat_of_nonneg (Int.le_of_lt hn)]
  cleared := by
    intro c n hn
    rw [hscroll, moved_of_beyond c (hsteps n.toNat (by omega))]
  added := by
    intro c a b ha hb
    have hsum : ((a + b).toNat : Int) = a.toNat + b.toNat := by omega
    have ha' : 0 ≤ (a.toNat : Int) := Int.natCast_nonneg _
    have hb' : 0 ≤ (b.toNat : Int) := Int.natCast_nonneg _
    rw [hscroll, hscroll, hscroll, moved_moved c (mul_same_sign ha' hb' dx)
      (mul_same_sign ha' hb' dy), hsum, Int.add_mul, Int.add_mul]

-- Scrolling there and back again loses the columns that were taken over the edge, and no others.
theorem scrolls_move_pixels :
    Scrolls (scrollDown (w := w) (h := h)) 0 1 h ∧ Scrolls (scrollRight (w := w) (h := h)) 1 0 w ∧
      Scrolls (scrollLeft (w := w) (h := h)) (-1) 0 w ∧
      ∀ (c : Canvas w h) (n : Int) x y,
        ((c.scrollRight n).scrollLeft n).lit x y = (if x.val < w - n then c.lit x y else false) ∧
        ((c.scrollLeft n).scrollRight n).lit x y = (if n ≤ x.val then c.lit x y else false) := by
  refine ⟨scrolls_of_moved ?_ ?_, scrolls_of_moved ?_ ?_, scrolls_of_moved ?_ ?_, ?_⟩
  · intro c n
    rw [scrollDown_eq_moved, Int.mul_zero, Int.mul_one]
  · omega
  · intro c n
    rw [scrollRight_eq_moved, Int.mul_zero, Int.mul_one]
  · omega
  · intro c n
    rw [scrollLeft_eq_moved, Int.mul_zero, Int.mul_neg_one]
  · omega
  · intro c n x y
    have hx := x.isLt
    have hy := y.isLt
    constructor
    · have hback := lit_moved_back c n.toNat 0 x y
      rw [Int.neg_zero] at hback
      rw [scrollRight_eq_moved, scrollLeft_eq_moved, hback]
      congr 1
      simp only [eq_iff_iff]
      omega
    · have hback := lit_moved_back c (-n.toNat) 0 x y
      rw [Int.neg_zero, Int.neg_neg] at hback
      rw [scrollLeft_eq_moved, scrollRight_eq_moved, hback]
      congr 1
      simp only [eq_iff_iff]
      omega

end SuperChip.Canvas
