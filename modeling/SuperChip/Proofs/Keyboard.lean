import SuperChip.Keyboard
import Mathlib.Data.List.DropRight

-- The keyboard and the keypad that is held on it. Sixteen of its keys stand for one key of the keypad
-- each, and whether that is held depends on what was done to the one key last.
namespace SuperChip

namespace Keyboard

-- The key that stands for each key of the keypad.
def keyFor (pad : Fin 16) : Int :=
  let letters : Vector Char 16 :=
    #v['x', '1', '2', '3', 'q', 'w', 'e', 'a', 's', 'd', 'z', 'c', '4', 'r', 'f', 'v']
  (letters.get pad).toNat

theorem padKey?_keyFor (pad : Fin 16) : padKey? (keyFor pad) = some pad := by
  decide +revert

theorem order?_keyFor (pad : Fin 16) : order? (keyFor pad) = none := by
  decide +revert

theorem padKey?_eq_some_iff {key : Int} {pad : Fin 16} :
    padKey? key = some pad ↔ key = keyFor pad := by
  constructor
  · intro hkey
    obtain ⟨p, hfind, rfl⟩ := Option.map_eq_some_iff.mp hkey
    have hlisted : ∀ p ∈ padKeys, (p.1.toNat : Int) = keyFor p.2 := by decide
    have hkey : (p.1.toNat : Int) = key := by simpa using List.find?_some hfind
    rw [← hkey]
    exact hlisted p (List.mem_of_find?_eq_some hfind)
  · rintro rfl
    exact padKey?_keyFor pad

namespace Action

-- Whether an action is on the key that stands for a key of the keypad.
def concerns (pad : Fin 16) (action : Action) : Bool :=
  action = .down (keyFor pad) ∨ action = .up (keyFor pad)

-- What is asked for besides: closing the window and Escape quit, Return pauses and resumes, and
-- Backspace resets.
def order : Action → Option InputEvent
  | .close => some .quit
  | .down 27 => some .quit
  | .down 13 => some .togglePause
  | .down 8 => some .reset
  | _ => none

def isDown : Action → Bool
  | .down _ => true
  | _ => false

-- Changes of the keypad.
def isPad : Action → Bool
  | .down key => (order? key).isNone && (padKey? key).isSome
  | .up key => (padKey? key).isSome
  | _ => false

theorem isPad_iff {action : Action} :
    action.isPad = true ↔ ∃ pad, action.concerns pad = true := by
  cases action with
  | down key =>
    simp only [isPad, Bool.and_eq_true, Option.isSome_iff_exists, padKey?_eq_some_iff, concerns,
      decide_eq_true_eq, down.injEq, reduceCtorEq, or_false]
    constructor
    · exact And.right
    · rintro ⟨pad, rfl⟩
      exact ⟨by rw [order?_keyFor, Option.isNone_none], pad, rfl⟩
  | up key =>
    simp only [isPad, Option.isSome_iff_exists, padKey?_eq_some_iff, concerns, decide_eq_true_eq,
      up.injEq, reduceCtorEq, false_or]
  | close => simp [isPad, concerns]
  | other => simp [isPad, concerns]

end Action

end Keyboard

namespace Keypad

open Keyboard (Action order? padKey? keyFor padKey?_keyFor order?_keyFor padKey?_eq_some_iff)

variable {pad : Fin 16} {action : Action}

-- The keypad with one of its keys held, or let go of.
def put (k : Keypad) (pad : Fin 16) (down : Bool) : Keypad := ⟨k.held.setIfInBounds pad down⟩

theorem held_put (k : Keypad) (pad other : Fin 16) (down : Bool) :
    (k.put pad down).held.get other = if pad = other then down else k.held.get other := by
  have hset : (k.put pad down).held.get other =
      if pad.val = other.val then down else k.held.get other :=
    Vector.getElem_setIfInBounds other.isLt
  simp only [hset, Fin.val_inj]

theorem held_released (pad : Fin 16) : released.held.get pad = false :=
  Vector.getElem_replicate pad.isLt

theorem eq_of_concerns {other : Fin 16} (hother : action.concerns other = true)
    (hpad : action.concerns pad = true) : other = pad := by
  have hkeys : keyFor other = keyFor pad := by
    rcases of_decide_eq_true hother with rfl | rfl <;>
      simpa [Action.concerns] using of_decide_eq_true hpad
  exact Option.some.inj ((padKey?_keyFor other).symm.trans (hkeys ▸ padKey?_keyFor pad))

theorem concerns_eq_false (hnone : ¬ ∃ pad, action.concerns pad = true) (pad : Fin 16) :
    action.concerns pad = false :=
  Bool.eq_false_iff.mpr fun hconcerns => hnone ⟨pad, hconcerns⟩

theorem handle_of_concerns (k : Keypad) (hconcerns : action.concerns pad = true) :
    k.handle action =
      (k.put pad action.isDown, some (.keypad (k.put pad action.isDown).toList)) := by
  rcases of_decide_eq_true hconcerns with rfl | rfl
  · simp only [handle, set, order?_keyFor, padKey?_keyFor]
    rfl
  · simp only [handle, set, padKey?_keyFor]
    rfl

theorem set_of_unmapped (k : Keypad) {key : Int} (down : Bool) (hkey : ∀ pad, key ≠ keyFor pad) :
    k.set key down = (k, none) := by
  have hnone : padKey? key = none := by
    rw [Option.eq_none_iff_forall_ne_some]
    intro pad hpad
    exact hkey pad (padKey?_eq_some_iff.mp hpad)
  simp only [set, hnone]

theorem handle_of_other (k : Keypad) (hother : ∀ pad, action.concerns pad = false) :
    k.handle action = (k, action.order) := by
  cases action with
  | down key =>
    have hkey (pad : Fin 16) : key ≠ keyFor pad := by
      rintro rfl
      simpa [Action.concerns] using hother pad
    have horder : order? key = (Action.down key).order := by
      unfold order? Action.order
      grind
    simp only [handle, horder, set_of_unmapped k true hkey]
    cases (Action.down key).order <;> rfl
  | up key =>
    have hkey (pad : Fin 16) : key ≠ keyFor pad := by
      rintro rfl
      simpa [Action.concerns] using hother pad
    exact set_of_unmapped k false hkey
  | close => rfl
  | other => rfl

def after (k : Keypad) (actions : List Action) : Keypad :=
  actions.foldl (fun k action => (k.handle action).1) k

theorem after_concat (k : Keypad) (actions : List Action) (last : Action) :
    k.after (actions ++ [last]) = ((k.after actions).handle last).1 :=
  List.foldl_concat _ _ _ _

theorem handle_of_isPad (k : Keypad) (ha : action.isPad = true) :
    (k.handle action).2 = some (.keypad (k.handle action).1.toList) := by
  obtain ⟨pad, hconcerns⟩ := Action.isPad_iff.mp ha
  rw [handle_of_concerns k hconcerns]

-- Other actions leave the keypad as it is, and all that they tell is an order.
theorem handle_of_not_isPad (k : Keypad) (ha : action.isPad = false) :
    (k.handle action).1 = k ∧ ∀ held, (k.handle action).2 ≠ some (.keypad held) := by
  have hnone := mt Action.isPad_iff.mpr (Bool.eq_false_iff.mp ha)
  rw [handle_of_other k (concerns_eq_false hnone)]
  refine ⟨rfl, ?_⟩
  intro held
  unfold Action.order
  split <;> exact nofun

theorem after_of_not_isPad (k : Keypad) {actions : List Action}
    (ha : ∀ action ∈ actions, action.isPad = false) : k.after actions = k := by
  induction actions with
  | nil => rfl
  | cons action rest ih =>
    obtain ⟨hfirst, hrest⟩ := List.forall_mem_cons.mp ha
    have hsame := (k.handle_of_not_isPad hfirst).1
    rw [after, List.foldl_cons, hsame]
    exact ih hrest

-- What a keypad goes through: the actions that it sees, and times when all of it is let go of.
inductive Use where
  | see (action : Action)
  | clear
  deriving DecidableEq

def use (k : Keypad) : Use → Keypad
  | .see action => (k.handle action).1
  | .clear => k.clear

def used (history : List Use) : Keypad := history.foldl use released

def Use.action? : Use → Option Action
  | .see action => some action
  | .clear => none

-- The actions since all of the keypad was let go of.
def sinceClear (history : List Use) : List Action :=
  (history.rtakeWhile (· ≠ .clear)).filterMap Use.action?

-- The last action on the key of the keyboard that stands for a key of the keypad.
def lastOn? (pad : Fin 16) (actions : List Action) : Option Action :=
  (actions.filter (·.concerns pad)).getLast?

theorem sinceClear_see (history : List Use) (action : Action) :
    sinceClear (history ++ [.see action]) = sinceClear history ++ [action] := by
  rw [sinceClear, List.rtakeWhile_concat_pos _ _ _ (by simp), List.filterMap_append]
  rfl

theorem sinceClear_clear (history : List Use) : sinceClear (history ++ [.clear]) = [] := by
  rw [sinceClear, List.rtakeWhile_concat_neg _ _ _ (by decide)]
  rfl

theorem lastOn?_concat (pad : Fin 16) (actions : List Action) (last : Action) :
    lastOn? pad (actions ++ [last]) =
      if last.concerns pad then some last else lastOn? pad actions := by
  rw [lastOn?, List.filter_append]
  cases hlast : last.concerns pad <;> simp [hlast, lastOn?]

theorem used_concat (history : List Use) (last : Use) :
    used (history ++ [last]) = (used history).use last :=
  List.foldl_concat _ _ _ _

theorem held_handle (k : Keypad) (action : Action) (pad : Fin 16) :
    (k.handle action).1.held.get pad =
      if action.concerns pad then action.isDown else k.held.get pad := by
  by_cases hany : ∃ other, action.concerns other = true
  · obtain ⟨other, hother⟩ := hany
    rw [handle_of_concerns k hother, held_put]
    by_cases heq : other = pad
    · subst heq
      rw [if_pos rfl, if_pos hother]
    · rw [if_neg heq, if_neg]
      exact fun hpad => heq (eq_of_concerns hother hpad)
  · rw [handle_of_other k (concerns_eq_false hany), concerns_eq_false hany pad]
    rfl

-- A key of the keypad is held if the last action on its key since all were let go of pressed it.
theorem held_used (history : List Use) (pad : Fin 16) :
    (used history).held.get pad = true ↔
      lastOn? pad (sinceClear history) = some (.down (keyFor pad)) := by
  induction history using List.reverseRecOn with
  | nil => simp [used, held_released, sinceClear, lastOn?]
  | append_singleton history last ih =>
    rw [used_concat]
    cases last with
    | clear =>
      rw [sinceClear_clear]
      simp [use, clear, held_released, lastOn?]
    | see action =>
      rw [use, held_handle, sinceClear_see, lastOn?_concat]
      by_cases hconcerns : action.concerns pad = true
      · simp only [hconcerns, if_true, Option.some.injEq]
        rcases of_decide_eq_true hconcerns with rfl | rfl <;> simp [Action.isDown]
      · simp only [hconcerns, if_false, Bool.false_eq_true]
        exact ih

-- After any history the keypad is what was last done to each of its keys, and an action tells all of
-- it just if it is on one of them.
theorem held_keys_told (history : List Use) (action : Action) :
    let k := used history
    let k' := (k.handle action).1
    (∀ pad, k.held.get pad = true ↔
      lastOn? pad (sinceClear history) = some (.down (keyFor pad))) ∧
    (∀ pad, k'.held.get pad = true ↔
      lastOn? pad (sinceClear history ++ [action]) = some (.down (keyFor pad))) ∧
    (if ∃ pad, action.concerns pad then k.handle action = (k', some (.keypad k'.held.toList))
      else k.handle action = (k, action.order)) ∧
    (∀ key pad, padKey? key = some pad ↔ key = keyFor pad) ∧
    ∀ pad, order? (keyFor pad) = none := by
  intro k k'
  refine ⟨held_used history, ?_, ?_, fun _ _ => padKey?_eq_some_iff, order?_keyFor⟩
  · intro pad
    have hafter := held_used (history ++ [.see action]) pad
    rwa [used_concat, sinceClear_see] at hafter
  · by_cases hany : ∃ pad, action.concerns pad = true
    · rw [if_pos hany]
      exact Prod.ext rfl (handle_of_isPad k (Action.isPad_iff.mpr hany))
    · rw [if_neg hany]
      exact handle_of_other k (concerns_eq_false hany)

end Keypad

end SuperChip
