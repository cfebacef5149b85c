import SuperChip.Machine.Execute
import SuperChip.Proofs.Canvas
import Mathlib.Data.List.Nodup
import Mathlib.Data.Nat.ModEq

-- What instructions do to the picture, and which of them count as a change of it.
namespace SuperChip

namespace Instruction

-- Instructions that scroll or clear the whole canvas.
def repaints : Instruction → Bool
  | .scrollDown _ => true
  | .clear => true
  | .scrollRight => true
  | .scrollLeft => true
  | _ => false

def draws : Instruction → Bool
  | .draw _ _ _ => true
  | _ => false

theorem family_eq_zero_of_repaints {w : UInt16} {i : Instruction} (hi : ofWord? w = some i)
    (hr : i.repaints = true) : Word.family w = 0 := by
  unfold ofWord? ofRegisterWord? ofKeyWord? ofDeviceWord? at hi
  grind [repaints]

-- The words of these instructions.
theorem repaints_iff (w : UInt16) :
    (∃ i, ofWord? w = some i ∧ i.repaints = true) ↔
      w.toNat / 16 = 0x00C ∨ w.toNat = 0x00E0 ∨ w.toNat = 0x00FB ∨ w.toNat = 0x00FC := by
  by_cases h : Word.family w = 0
  · have hw : ofWord? w = ofScreenWord? w := by simp only [ofWord?, h]
    rw [hw]
    unfold ofScreenWord?
    split
    · next hscroll => simp [repaints, hscroll]
    · next hscroll => split <;> simp_all [repaints]
  · constructor
    · rintro ⟨i, hi, hr⟩
      exact absurd (family_eq_zero_of_repaints hi hr) h
    · simp only [Word.family] at h
      omega

theorem draws_iff (w : UInt16) :
    (∃ i, ofWord? w = some i ∧ i.draws = true) ↔ w.toNat / 4096 = 0xD := by
  constructor
  · rintro ⟨i, hi, hd⟩
    unfold ofWord? ofScreenWord? ofRegisterWord? ofKeyWord? ofDeviceWord? at hi
    grind [draws, Word.family]
  · intro h
    have hf : Word.family w = 0xD := h
    exact ⟨.draw (Word.x w) (Word.y w) (Word.n w), by simp only [ofWord?, hf], rfl⟩

theorem word_of_exit {w : UInt16} (hi : ofWord? w = some .exit) : w = 0x00FD := by
  have hw : w.toNat = 0x00FD := by
    unfold ofWord? ofScreenWord? ofRegisterWord? ofKeyWord? ofDeviceWord? at hi
    grind
  exact UInt16.toNat_inj.mp hw

end Instruction

namespace Machine

variable {m : Machine}

-- What most instructions leave as it is, whether they succeed or not.
structure SameView (m m' : Machine) : Prop where
  keys : m'.keys = m.keys
  canvas : m'.canvas = m.canvas
  redraw : m'.redraw = m.redraw

theorem sameView_skipOnKey (m : Machine) (x : Register) (wanted : Bool) :
    SameView m (m.skipOnKey x wanted).1 := by
  unfold skipOnKey
  split <;> exact ⟨rfl, rfl, rfl⟩

theorem sameView_loadNumber (m : Machine) (x : Register) (n : Int) :
    SameView m (m.loadNumber x n).1 := by
  unfold loadNumber
  split <;> exact ⟨rfl, rfl, rfl⟩

theorem sameView_waitKey (m : Machine) (x : Register) : SameView m (m.waitKey x).1 := by
  unfold waitKey
  split
  · exact ⟨rfl, rfl, rfl⟩
  · exact sameView_loadNumber m x _

theorem sameView_call (m : Machine) (target : Address) : SameView m (m.call target).1 := by
  unfold call
  split <;> exact ⟨rfl, rfl, rfl⟩

theorem SameView.withFlags {m' : Machine} (h : SameView m m') (x : Register) :
    SameView m (m'.withFlags x).1 := by
  unfold Machine.withFlags
  split <;> exact ⟨h.keys, h.canvas, h.redraw⟩

theorem sameView_saveFlags (m : Machine) (x : Register) : SameView m (m.saveFlags x).1 := by
  cases m
  simp only [saveFlags]
  apply SameView.withFlags
  exact ⟨rfl, rfl, rfl⟩

theorem sameView_loadFlags (m : Machine) (x : Register) : SameView m (m.loadFlags x).1 := by
  cases m
  simp only [loadFlags]
  apply SameView.withFlags
  exact ⟨rfl, rfl, rfl⟩

theorem sameView_perform (dice : Dice) (m : Machine) {i : Instruction} (he : i ≠ .exit)
    (hr : i.repaints = false) (hd : i.draws = false) : SameView m (m.perform dice i).1 := by
  cases i with
  | exit => exact absurd rfl he
  | scrollDown rows => cases hr
  | clear => cases hr
  | scrollRight => cases hr
  | scrollLeft => cases hr
  | draw x y n => cases hd
  | call target => exact sameView_call m target
  | skipHeld x => exact sameView_skipOnKey m x true
  | skipFree x => exact sameView_skipOnKey m x false
  | readDelay x => exact sameView_loadNumber m x m.delay
  | waitKey x => exact sameView_waitKey m x
  | saveFlags x => exact sameView_saveFlags m x
  | loadFlags x => exact sameView_loadFlags m x
  | _ =>
    cases m
    exact ⟨rfl, rfl, rfl⟩

theorem keys_perform (dice : Dice) (m : Machine) {i : Instruction} (he : i ≠ .exit) :
    (m.perform dice i).1.keys = m.keys := by
  cases m
  cases i with
  | exit => exact absurd rfl he
  | scrollDown rows => rfl
  | clear => rfl
  | scrollRight => rfl
  | scrollLeft => rfl
  | draw x y n => rfl
  | _ => exact (sameView_perform dice _ he rfl rfl).keys

theorem spriteRows_le (n : Nibble) : spriteRows n ≤ 16 := by
  unfold spriteRows
  split <;> omega

theorem spriteBytes_le (mode : Mode) (n : Nibble) : spriteBytes mode n ≤ 2 := by
  unfold spriteBytes
  split <;> omega

-- A sprite is no wider and no higher than what the modes can reach, so that it does not wrap round
-- onto itself.
theorem eq_of_add_mod {a b c size : Nat} (hb : b < size) (hc : c < size)
    (h : (a + b) % size = (a + c) % size) : b = c := by
  have hmod : b % size = c % size := Nat.ModEq.add_left_cancel' a h
  rwa [Nat.mod_eq_of_lt hb, Nat.mod_eq_of_lt hc] at hmod

theorem nodup_spritePixels (m : Machine) (x y : Register) (n : Nibble) :
    (m.spritePixels x y n).Nodup := by
  have hwidth : 64 ≤ m.mode.width := by cases m.mode <;> decide
  have hheight : 32 ≤ m.mode.height := by cases m.mode <;> decide
  have hrows := spriteRows_le n
  have hbytes := spriteBytes_le m.mode n
  unfold spritePixels
  refine List.nodup_flatMap.mpr ⟨?_, ?_⟩
  · intro row hrow
    refine List.Nodup.map_on ?_ (List.nodup_range.filter _)
    intro a ha b hb hab
    have ha' := List.mem_range.mp (List.mem_filter.mp ha).1
    have hb' := List.mem_range.mp (List.mem_filter.mp hb).1
    have hcolumn := congrArg (fun p => p.1.val) hab
    exact eq_of_add_mod (by omega) (by omega) hcolumn
  · refine (List.pairwise_lt_range).imp_of_mem ?_
    intro a b ha hb hlt p hpa hpb
    have ha' := List.mem_range.mp ha
    have hb' := List.mem_range.mp hb
    obtain ⟨i, -, rfl⟩ := List.mem_map.mp hpa
    obtain ⟨j, -, hij⟩ := List.mem_map.mp hpb
    have hrow := congrArg (fun p => p.2.val) hij
    have heq : b = a := eq_of_add_mod (by omega) (by omega) hrow
    omega

theorem reset_redraw (m : Machine) : m.reset.redraw = false := rfl

theorem perform_repaint (dice : Dice) (m : Machine) {i : Instruction} (hr : i.repaints = true) :
    (m.perform dice i).1.redraw = true ∧ (m.perform dice i).2 = none := by
  cases i with
  | scrollDown rows => exact ⟨rfl, rfl⟩
  | clear => exact ⟨rfl, rfl⟩
  | scrollRight => exact ⟨rfl, rfl⟩
  | scrollLeft => exact ⟨rfl, rfl⟩
  | _ => cases hr

-- What is lit after an instruction that reports no change was lit before.
theorem perform_within (dice : Dice) (m : Machine) {i : Instruction}
    (hunchanged : (m.perform dice i).1.redraw = false) :
    (m.perform dice i).1.canvas.Within m.canvas := by
  by_cases he : i = .exit
  · subst he
    exact Canvas.dark_within m.canvas
  cases hr : i.repaints with
  | true =>
    rw [(perform_repaint dice m hr).1] at hunchanged
    cases hunchanged
  | false =>
    cases hd : i.draws with
    | true =>
      cases i with
      | draw x y n => exact Canvas.toggleAll_within (Bool.or_eq_false_iff.mp hunchanged).2
      | _ => cases hd
    | false =>
      rw [(sameView_perform dice m he hr hd).canvas]
      exact .refl _

theorem redraw_perform_iff (dice : Dice) (hm : m.redraw = false) (i : Instruction) :
    (m.perform dice i).1.redraw = true ↔
      i.repaints = true ∨ i.draws = true ∧
        ∃ x y, m.canvas.lit x y = false ∧ (m.perform dice i).1.canvas.lit x y = true := by
  by_cases he : i = .exit
  · subst he
    simp [perform, done, reset_redraw, Instruction.repaints, Instruction.draws]
  cases hr : i.repaints with
  | true => simp [(perform_repaint dice m hr).1]
  | false =>
    cases hd : i.draws with
    | true =>
      cases i with
      | draw x y n =>
        have hlighted := Canvas.lighted_toggleAll_iff (c := m.canvas) (nodup_spritePixels m x y n)
        simp only [perform, draw, next, done, hm, Bool.false_or, Bool.false_eq_true, false_or,
          true_and]
        exact hlighted
      | _ => cases hd
    | false =>
      rw [(sameView_perform dice m he hr hd).redraw, hm]
      simp

theorem sameView_execute_of_unknown (dice : Dice) (m : Machine) {word : UInt16}
    (hi : Instruction.ofWord? word = none) : SameView m (m.execute dice word).1 := by
  simp only [execute, hi, failed]
  exact ⟨rfl, rfl, rfl⟩

theorem sameView_execute (dice : Dice) (m : Machine) {word : UInt16} {i : Instruction}
    (hi : Instruction.ofWord? word = some i) :
    SameView (perform dice { m with word } i).1 (m.execute dice word).1 := by
  simp only [execute, hi]
  split
  · next m' hdone =>
    rw [hdone]
    exact ⟨rfl, rfl, rfl⟩
  · next m' fault hfailed =>
    rw [hfailed]
    exact ⟨rfl, rfl, rfl⟩

-- Whether the next word changes the picture: those that scroll or clear always do, a sprite does
-- if it turns a pixel on.
def ChangesPicture (dice : Dice) (m : Machine) : Prop :=
  let word := m.nextWord.toNat
  word / 16 = 0x00C ∨ word = 0x00E0 ∨ word = 0x00FB ∨ word = 0x00FC ∨
    word / 4096 = 0xD ∧
      ∃ x y, m.canvas.lit x y = false ∧ (m.cycle dice).1.canvas.lit x y = true

instance (dice : Dice) (m : Machine) : Decidable (m.ChangesPicture dice) := by
  delta ChangesPicture
  infer_instance

theorem cycle_within (dice : Dice) (m : Machine) (hunchanged : (m.cycle dice).1.redraw = false) :
    (m.cycle dice).1.canvas.Within m.canvas := by
  unfold cycle at hunchanged ⊢
  cases hi : Instruction.ofWord? m.nextWord with
  | none =>
    rw [(sameView_execute_of_unknown dice m hi).canvas]
    exact .refl _
  | some i =>
    have hview := sameView_execute dice m hi
    rw [hview.redraw] at hunchanged
    rw [hview.canvas]
    exact perform_within dice { m with word := m.nextWord } hunchanged

theorem changesPicture_iff (dice : Dice) (m : Machine) :
    m.ChangesPicture dice ↔
      (∃ i, Instruction.ofWord? m.nextWord = some i ∧ i.repaints = true) ∨
        (∃ i, Instruction.ofWord? m.nextWord = some i ∧ i.draws = true) ∧
          ∃ x y, m.canvas.lit x y = false ∧ (m.cycle dice).1.canvas.lit x y = true := by
  rw [Instruction.repaints_iff, Instruction.draws_iff]
  simp only [ChangesPicture, or_assoc]

theorem redraw_cycle_iff (dice : Dice) (hm : m.redraw = false) :
    (m.cycle dice).1.redraw = true ↔ m.ChangesPicture dice := by
  rw [changesPicture_iff]
  unfold cycle
  cases hi : Instruction.ofWord? m.nextWord with
  | none =>
    rw [(sameView_execute_of_unknown dice m hi).redraw, hm]
    simp
  | some i =>
    have hview := sameView_execute dice m hi
    have hperform := redraw_perform_iff dice (m := { m with word := m.nextWord }) hm i
    rw [hview.redraw, hview.canvas, hperform]
    simp

-- Instructions that change the picture succeed.
theorem redraw_of_fault (dice : Dice) (m : Machine) {fault : Fault}
    (hf : (m.cycle dice).2 = some fault) : (m.cycle dice).1.redraw = m.redraw := by
  unfold cycle at hf ⊢
  cases hi : Instruction.ofWord? m.nextWord with
  | none => exact (sameView_execute_of_unknown dice m hi).redraw
  | some i =>
    have hfailed : (perform dice { m with word := m.nextWord } i).2 ≠ none := by
      intro hdone
      simp only [execute, hi] at hf
      split at hf
      · cases hf
      · next heq =>
        rw [heq] at hdone
        cases hdone
    have he : i ≠ .exit := by
      rintro rfl
      exact hfailed rfl
    have hr : i.repaints = false := by
      rw [Bool.eq_false_iff]
      intro hr
      exact hfailed (perform_repaint dice _ hr).2
    have hd : i.draws = false := by
      cases i with
      | draw x y n => exact absurd rfl hfailed
      | _ => rfl
    rw [(sameView_execute dice m hi).redraw]
    exact (sameView_perform dice { m with word := m.nextWord } he hr hd).redraw

theorem keys_cycle (dice : Dice) (m : Machine) (he : Instruction.ofWord? m.nextWord ≠ some .exit) :
    (m.cycle dice).1.keys = m.keys := by
  unfold cycle
  cases hi : Instruction.ofWord? m.nextWord with
  | none => exact (sameView_execute_of_unknown dice m hi).keys
  | some i =>
    have hne : i ≠ .exit := by
      rintro rfl
      exact he hi
    rw [(sameView_execute dice m hi).keys]
    exact keys_perform dice { m with word := m.nextWord } hne

end Machine

end SuperChip
