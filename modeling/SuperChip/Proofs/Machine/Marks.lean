import SuperChip.Proofs.Machine.Footprint
import SuperChip.Proofs.Machine.Run

-- The mark of a changed picture: what is done to a machine and changes its picture marks it, and the
-- mark then stays. The exception is a machine that begins anew: it is blank and without a mark,
-- whatever was to be seen before.
namespace SuperChip.Machine

-- The mark tells of the changes from one machine to another. What was turned off by a sprite does
-- not count.
structure Marked (sprite : Prop) (m m' : Machine) : Prop where
  kept : m.redraw = true → m'.redraw = true
  lighted : (∃ x y, m.canvas.lit x y = false ∧ m'.canvas.lit x y = true) → m'.redraw = true
  changed : ¬ sprite → (∃ x y, m'.canvas.lit x y ≠ m.canvas.lit x y) → m'.redraw = true

-- The word that an action makes a machine execute.
def Action.word? (m : Machine) : Action → Option UInt16
  | .execute code => some (UInt16.ofInt code)
  | .cycle => some m.nextWord
  | _ => none

-- 00FD begins anew as a reset does.
def Action.Restarts (m : Machine) (action : Action) : Prop :=
  action = .reset ∨ action.word? m = some 0x00FD

def Action.DrawsSprite (m : Machine) (action : Action) : Prop :=
  ∃ word, action.word? m = some word ∧ word.toNat / 4096 = 0xD

variable {m m' m'' : Machine} {p q : Prop}

namespace Marked

theorem of_same (hcanvas : m'.canvas = m.canvas) (hredraw : m'.redraw = m.redraw) :
    Marked p m m' := by
  refine ⟨hredraw.trans, ?_, ?_⟩
  · rintro ⟨x, y, hdark, hlit⟩
    rw [hcanvas, hdark] at hlit
    cases hlit
  · rintro - ⟨x, y, hne⟩
    exact absurd (congrArg (Canvas.lit · x y) hcanvas) hne

theorem of_redraw (hredraw : m'.redraw = true) : Marked p m m' :=
  ⟨fun _ => hredraw, fun _ => hredraw, fun _ _ => hredraw⟩

theorem refl (m : Machine) : Marked p m m := of_same rfl rfl

-- Only the picture and the mark count.
theorem congr_right (h : Marked p m m') (hcanvas : m''.canvas = m'.canvas)
    (hredraw : m''.redraw = m'.redraw) : Marked p m m'' := by
  refine ⟨?_, ?_, ?_⟩ <;> simp only [hcanvas, hredraw]
  · exact h.kept
  · exact h.lighted
  · exact h.changed

theorem mono (h : Marked p m m') (hpq : p → q) : Marked q m m' :=
  ⟨h.kept, h.lighted, fun hq => h.changed (mt hpq hq)⟩

-- A pixel that has changed has done so in one of two steps, and the second keeps the mark of the
-- first.
theorem trans (h : Marked p m m') (h' : Marked q m' m'') : Marked (p ∨ q) m m'' := by
  refine ⟨h'.kept ∘ h.kept, ?_, ?_⟩
  · rintro ⟨x, y, hdark, hlit⟩
    cases hbetween : m'.canvas.lit x y with
    | true => exact h'.kept (h.lighted ⟨x, y, hdark, hbetween⟩)
    | false => exact h'.lighted ⟨x, y, hbetween, hlit⟩
  · rintro hsprite ⟨x, y, hne⟩
    obtain ⟨hp, hq⟩ := not_or.mp hsprite
    by_cases hsame : m'.canvas.lit x y = m.canvas.lit x y
    · exact h'.changed hq ⟨x, y, hsame ▸ hne⟩
    · exact h'.kept (h.changed hp ⟨x, y, hsame⟩)

end Marked

theorem perform_marked (dice : Dice) (m : Machine) {i : Instruction} (hexit : i ≠ .exit) :
    Marked (i.draws = true) m (m.perform dice i).1 := by
  cases hr : i.repaints with
  | true => exact .of_redraw (perform_repaint dice m hr).1
  | false =>
    cases hd : i.draws with
    | false =>
      have hview := sameView_perform dice m hexit hr hd
      exact .of_same hview.canvas hview.redraw
    | true =>
      refine ⟨fun hm => redraw_perform dice hm hexit, ?_, fun hnone => absurd rfl hnone⟩
      rintro ⟨x, y, hdark, hlit⟩
      by_contra hunmarked
      have hwithin := perform_within dice m (Bool.eq_false_iff.mpr hunmarked)
      rw [hwithin x y hlit] at hdark
      cases hdark

theorem execute_marked (dice : Dice) (m : Machine) {word : UInt16} (hword : word ≠ 0x00FD) :
    Marked (word.toNat / 4096 = 0xD) m (m.execute dice word).1 := by
  cases hi : Instruction.ofWord? word with
  | none =>
    have hview := sameView_execute_of_unknown dice m hi
    exact .of_same hview.canvas hview.redraw
  | some i =>
    have hexit : i ≠ .exit := by
      rintro rfl
      exact hword (Instruction.word_of_exit hi)
    have hview := sameView_execute dice m hi
    have hmarked : Marked (i.draws = true) m (perform dice { m with word } i).1 := by
      have hfetched := perform_marked dice { m with word } hexit
      exact ⟨hfetched.kept, hfetched.lighted, hfetched.changed⟩
    have hdraws : i.draws = true → word.toNat / 4096 = 0xD :=
      fun hd => (Instruction.draws_iff word).mp ⟨i, hi, hd⟩
    exact (hmarked.congr_right hview.canvas hview.redraw).mono hdraws

-- What begins anew is blank and has nothing to tell.
structure Blank (m : Machine) : Prop where
  canvas : m.canvas = .dark
  redraw : m.redraw = false

theorem reset_blank (m : Machine) : Blank m.reset := ⟨rfl, rfl⟩

theorem execute_exit_blank (dice : Dice) (m : Machine) : Blank (m.execute dice 0x00FD).1 :=
  reset_blank { m with word := 0x00FD }

theorem act_of_word (dice : Dice) {action : Action} {word : UInt16}
    (hword : action.word? m = some word) :
    m.act dice action = ofOutcome (m.execute dice word) := by
  cases action with
  | execute code =>
    obtain rfl := Option.some.inj hword
    rfl
  | cycle =>
    obtain rfl := Option.some.inj hword
    rfl
  | _ => cases hword

-- Actions that execute no word leave the picture alone.
theorem act_marked (dice : Dice) {action : Action} (hon : ¬ action.Restarts m) :
    Marked (action.DrawsSprite m) m (m.act dice action).1 := by
  obtain ⟨hreset, hexit⟩ := not_or.mp hon
  cases hword : action.word? m with
  | some word =>
    have hne : word ≠ 0x00FD := by
      rintro rfl
      exact hexit hword
    rw [act_of_word dice hword]
    exact (execute_marked dice m hne).mono fun hsprite => ⟨word, hword, hsprite⟩
  | none =>
    cases action with
    | load rom =>
      by_cases hrom : rom.size ≤ maxRomSize
      · simp only [act, load_of_fits hrom]
        exact .of_same rfl rfl
      · simp only [act, load_of_large (Nat.lt_of_not_le hrom)]
        exact .refl m
    | execute code => cases hword
    | cycle => cases hword
    | tick => exact .of_same rfl rfl
    | reset => exact absurd rfl hreset
    | shiftRight x y =>
      obtain ⟨carry, byte, hact⟩ := act_shiftRight dice m x y
      rw [hact]
      exact .of_same rfl rfl
    | shiftLeft x y =>
      obtain ⟨carry, byte, hact⟩ := act_shiftLeft dice m x y
      rw [hact]
      exact .of_same rfl rfl
    | hold keys => exact .of_same rfl rfl

theorem act_blank (dice : Dice) {action : Action} (hanew : action.Restarts m) :
    Blank (m.act dice action).1 := by
  rcases hanew with rfl | hword
  · exact reset_blank m
  · rw [act_of_word dice hword]
    exact execute_exit_blank dice m

-- Whatever is done to a machine, what it changes of the picture is marked, unless the machine begins
-- anew. Then everything lit goes dark and no mark tells of it.
theorem act_marks_changes (dice : Dice) (m : Machine) (action : Action) :
    (¬ action.Restarts m → Marked (action.DrawsSprite m) m (m.act dice action).1) ∧
      (action.Restarts m → (∀ x y, (m.act dice action).1.canvas.lit x y = false) ∧
        (m.act dice action).1.redraw = false) := by
  refine ⟨act_marked dice, ?_⟩
  intro hanew
  have hblank := act_blank dice hanew
  refine ⟨?_, hblank.redraw⟩
  intro x y
  rw [hblank.canvas, Canvas.lit_dark]

theorem unmarked_wellFormed (h : m.WellFormed) : WellFormed { m with redraw := false } :=
  { h with }

-- The glyph of zero is drawn and the mark taken away once that is shown. Both ways to begin anew
-- turn its first pixel off.
theorem restart_unmarked :
    let dice : Dice := fun _ => 0
    let m := { (powerOn.executeCode dice 0xD005).1 with redraw := false }
    m.WellFormed ∧ m.canvas.lit 0 0 = true ∧
      (m.reset.canvas.lit 0 0 = false ∧ m.reset.redraw = false) ∧
      (m.executeCode dice 0x00FD).1.canvas.lit 0 0 = false ∧
      (m.executeCode dice 0x00FD).1.redraw = false := by
  intro dice m
  have hdrawn : (powerOn.executeCode dice 0xD005).1.WellFormed :=
    execute_wellFormed dice powerOn_wellFormed _
  have hwell : m.WellFormed := unmarked_wellFormed hdrawn
  have hreset := reset_blank m
  have hexit : Blank (m.executeCode dice 0x00FD).1 := execute_exit_blank dice m
  refine ⟨hwell, by decide +kernel, ⟨?_, hreset.redraw⟩, ?_, hexit.redraw⟩
  · rw [hreset.canvas, Canvas.lit_dark]
  · rw [hexit.canvas, Canvas.lit_dark]

-- No action begins anew, each taken of the machine that those before it leave.
def GoesOn (dice : Dice) : Machine → List Action → Prop
  | _, [] => True
  | m, action :: rest => ¬ action.Restarts m ∧ GoesOn dice (m.act dice action).1 rest

def DrawsSprites (dice : Dice) : Machine → List Action → Prop
  | _, [] => False
  | m, action :: rest => action.DrawsSprite m ∨ DrawsSprites dice (m.act dice action).1 rest

-- However long nobody takes the mark away.
theorem run_marks_changes (dice : Dice) {actions : List Action} (hon : GoesOn dice m actions) :
    Marked (DrawsSprites dice m actions) m (m.run dice actions) := by
  induction actions generalizing m with
  | nil => exact .refl m
  | cons action rest ih =>
    obtain ⟨hfirst, hrest⟩ := hon
    exact (act_marked dice hfirst).trans (ih hrest)

end SuperChip.Machine
