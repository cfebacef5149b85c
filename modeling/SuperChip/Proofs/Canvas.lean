import SuperChip.Canvas

-- What toggling a list of pixels does to a canvas.
namespace SuperChip.Canvas

variable {w h : Nat} {c d e : Canvas w h}

-- Nothing is lit on the first canvas that is dark on the second.
def Within (c d : Canvas w h) : Prop := ∀ x y, c.lit x y = true → d.lit x y = true

theorem Within.refl (c : Canvas w h) : c.Within c := fun _ _ hlit => hlit

theorem Within.trans (hcd : c.Within d) (hde : d.Within e) : c.Within e :=
  fun x y hlit => hde x y (hcd x y hlit)

theorem dark_within (c : Canvas w h) : (dark : Canvas w h).Within c := by
  intro x y hlit
  rw [lit_dark] at hlit
  cases hlit

theorem litAt_val (c : Canvas w h) (x : Fin w) (y : Fin h) : c.litAt x.val y.val = c.lit x y := by
  simp only [litAt, x.isLt, y.isLt, dif_pos]

theorem litAt_of_lt (c : Canvas w h) {x y : Nat} (hx : x < w) (hy : y < h) :
    c.litAt x y = c.lit ⟨x, hx⟩ ⟨y, hy⟩ := by
  simp only [litAt, hx, hy, dif_pos]

theorem litAt_of_outside (c : Canvas w h) {x y : Nat} (hout : ¬ (x < w ∧ y < h)) :
    c.litAt x y = false := by
  unfold litAt
  split
  · split
    · next hx hy => exact absurd ⟨hx, hy⟩ hout
    · rfl
  · rfl

@[simp] theorem litAt_dark (x y : Nat) : (dark : Canvas w h).litAt x y = false := by
  simp only [litAt, lit_dark, dite_eq_ite, ite_self]

theorem litAt_write (c : Canvas w h) (x : Fin w) (y : Fin h) (on : Bool) (x' y' : Nat) :
    (c.write x y on).litAt x' y' = if x.val = x' ∧ y.val = y' then on else c.litAt x' y' := by
  by_cases hin : x' < w ∧ y' < h
  · obtain ⟨hx, hy⟩ := hin
    simp only [litAt_of_lt _ hx hy, lit_write, Fin.ext_iff]
  · have hother : ¬ (x.val = x' ∧ y.val = y') := by
      rintro ⟨rfl, rfl⟩
      exact hin ⟨x.isLt, y.isLt⟩
    rw [if_neg hother, litAt_of_outside _ hin, litAt_of_outside _ hin]

namespace Toggled

variable {t : Toggled w h} {p : Fin w × Fin h} {pixels : List (Fin w × Fin h)}

theorem lit_touch (t : Toggled w h) (p : Fin w × Fin h) (x : Fin w) (y : Fin h) :
    (t.touch p).canvas.lit x y =
      if p = (x, y) then !t.canvas.lit x y else t.canvas.lit x y := by
  obtain ⟨x', y'⟩ := p
  simp only [Prod.mk.injEq]
  by_cases hp : x' = x ∧ y' = y
  · obtain ⟨rfl, rfl⟩ := hp
    cases hlit : t.canvas.lit x' y' <;> simp [touch, hlit, lit_write]
  · cases hlit : t.canvas.lit x' y' <;> simp [touch, hlit, lit_write, hp]

theorem lighted_touch (t : Toggled w h) (p : Fin w × Fin h) :
    (t.touch p).lighted = (t.lighted || !t.canvas.lit p.1 p.2) := by
  cases hlit : t.canvas.lit p.1 p.2 <;> simp [touch, hlit]

theorem touch_within (hdark : (t.touch p).lighted = false) :
    (t.touch p).canvas.Within t.canvas := by
  intro x y hlit
  rw [lighted_touch, Bool.or_eq_false_iff, Bool.not_eq_false'] at hdark
  by_cases hp : p = (x, y)
  · subst hp
    exact hdark.2
  · rw [lit_touch, if_neg hp] at hlit
    exact hlit

theorem lighted_of_lighted (pixels : List (Fin w × Fin h)) (ht : t.lighted = true) :
    (pixels.foldl touch t).lighted = true := by
  induction pixels generalizing t with
  | nil => exact ht
  | cons p rest ih => exact ih (by rw [lighted_touch, ht, Bool.true_or])

theorem foldl_within (pixels : List (Fin w × Fin h))
    (hdark : (pixels.foldl touch t).lighted = false) :
    (pixels.foldl touch t).canvas.Within t.canvas := by
  induction pixels generalizing t with
  | nil => exact .refl _
  | cons p rest ih =>
    have htouch : (t.touch p).lighted = false := by
      rw [Bool.eq_false_iff]
      intro hlighted
      rw [List.foldl_cons, lighted_of_lighted rest hlighted] at hdark
      cases hdark
    exact (ih hdark).trans (touch_within htouch)

theorem erased_touch (t : Toggled w h) (p : Fin w × Fin h) :
    (t.touch p).erased = (t.erased || t.canvas.lit p.1 p.2) := by
  cases hlit : t.canvas.lit p.1 p.2 <;> simp [touch, hlit]

-- Toggling a pixel does not change which of the others are lit.
theorem exists_touch_iff (on : Bool) (hp : p ∉ pixels) :
    (∃ q ∈ pixels, (t.touch p).canvas.lit q.1 q.2 = on) ↔
      ∃ q ∈ pixels, t.canvas.lit q.1 q.2 = on := by
  refine exists_congr fun q => and_congr_right fun hq => ?_
  have hne : p ≠ q := by
    rintro rfl
    exact hp hq
  rw [lit_touch, if_neg hne]

-- From here on no pixel comes twice, so that what one of them finds is as it was at the start.
theorem lit_foldl (hn : pixels.Nodup) (t : Toggled w h) (x : Fin w) (y : Fin h) :
    ∀ [Decidable ((x, y) ∈ pixels)],
      (pixels.foldl touch t).canvas.lit x y =
        (t.canvas.lit x y ^^ decide ((x, y) ∈ pixels)) := by
  induction pixels generalizing t with
  | nil => simp
  | cons p rest ih =>
    intro _
    obtain ⟨hp, hrest⟩ := List.nodup_cons.mp hn
    rw [List.foldl_cons, ih hrest, lit_touch]
    by_cases heq : p = (x, y)
    · subst heq
      simp [hp]
    · simp [heq, Ne.symm heq]

theorem erased_foldl_iff (hn : pixels.Nodup) (t : Toggled w h) :
    (pixels.foldl touch t).erased = true ↔
      t.erased = true ∨ ∃ p ∈ pixels, t.canvas.lit p.1 p.2 = true := by
  induction pixels generalizing t with
  | nil => simp
  | cons p rest ih =>
    obtain ⟨hp, hrest⟩ := List.nodup_cons.mp hn
    rw [List.foldl_cons, ih hrest, exists_touch_iff true hp, erased_touch, Bool.or_eq_true,
      or_assoc]
    simp only [List.mem_cons, exists_eq_or_imp]

theorem lighted_foldl_iff (hn : pixels.Nodup) (t : Toggled w h) :
    (pixels.foldl touch t).lighted = true ↔
      t.lighted = true ∨ ∃ p ∈ pixels, t.canvas.lit p.1 p.2 = false := by
  induction pixels generalizing t with
  | nil => simp
  | cons p rest ih =>
    obtain ⟨hp, hrest⟩ := List.nodup_cons.mp hn
    rw [List.foldl_cons, ih hrest, exists_touch_iff false hp, lighted_touch, Bool.or_eq_true,
      Bool.not_eq_true', or_assoc]
    simp only [List.mem_cons, exists_eq_or_imp]

end Toggled

variable {pixels : List (Fin w × Fin h)}

theorem toggleAll_within (hdark : (c.toggleAll pixels).lighted = false) :
    (c.toggleAll pixels).canvas.Within c :=
  Toggled.foldl_within pixels hdark

theorem lit_toggleAll (hn : pixels.Nodup) (c : Canvas w h) (x : Fin w) (y : Fin h)
    [Decidable ((x, y) ∈ pixels)] :
    (c.toggleAll pixels).canvas.lit x y = (c.lit x y ^^ decide ((x, y) ∈ pixels)) :=
  Toggled.lit_foldl hn _ x y

theorem erased_toggleAll (hn : pixels.Nodup) :
    (c.toggleAll pixels).erased = true ↔ ∃ p ∈ pixels, c.lit p.1 p.2 = true := by
  rw [toggleAll, Toggled.erased_foldl_iff hn, Bool.false_eq_true, false_or]

theorem lighted_toggleAll (hn : pixels.Nodup) :
    (c.toggleAll pixels).lighted = true ↔ ∃ p ∈ pixels, c.lit p.1 p.2 = false := by
  rw [toggleAll, Toggled.lighted_foldl_iff hn, Bool.false_eq_true, false_or]

-- The pixels of the list are those that differ before and after.
theorem exists_mem_iff (hn : pixels.Nodup) (on : Bool) :
    (∃ p ∈ pixels, c.lit p.1 p.2 = on) ↔
      ∃ x y, c.lit x y = on ∧ (c.toggleAll pixels).canvas.lit x y = !on := by
  simp only [Prod.exists, lit_toggleAll hn]
  refine exists_congr fun x => exists_congr fun y => ?_
  cases on <;> cases c.lit x y <;> simp

theorem lighted_toggleAll_iff (hn : pixels.Nodup) :
    (c.toggleAll pixels).lighted = true ↔
      ∃ x y, c.lit x y = false ∧ (c.toggleAll pixels).canvas.lit x y = true :=
  (lighted_toggleAll hn).trans (exists_mem_iff hn false)

end SuperChip.Canvas
