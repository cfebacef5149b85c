import SuperChip.RateLimiter
import Mathlib.Algebra.Order.Field.Rat
import Mathlib.Algebra.Order.Field.Basic
import Mathlib.Data.List.Chain
import Mathlib.Tactic.Linarith
import Mathlib.Tactic.NormNum

-- How often a limiter lets an action run, with exact times. It is asked at any times whatever, and
-- the actions do what they like, or fail.
namespace SuperChip.RateLimiter

-- A time at which the limiter is asked, and the action that is at hand then.
structure Asking (α σ ε : Type) where
  now : α
  action : σ → σ × Option ε

-- Whether the action was run, by the answer. An action that has failed has been run.
def wasRun {ε : Type} : Except ε Bool → Bool
  | .ok ran => ran
  | .error _ => true

-- A limiter, what its actions work on, and the times at which one of them was run.
structure Record (α σ : Type) where
  limiter : RateLimiter α
  world : σ
  runs : List α

namespace Record

variable {α σ ε : Type} [Sub α] [LT α] [DecidableLT α]

def after (r : Record α σ) (a : Asking α σ ε) : Record α σ :=
  let (limiter, world, answer) := r.limiter.tick a.now a.action r.world
  { limiter, world, runs := r.runs ++ if wasRun answer then [a.now] else [] }

def run (r : Record α σ) (askings : List (Asking α σ ε)) : Record α σ := askings.foldl after r

end Record

-- The times of a list that are due: the first that is a period after the start, the first that is a
-- period after that one, and so on.
def due (period last : ℚ) : List ℚ → List ℚ
  | [] => []
  | now :: rest =>
    if period ≤ now - last then now :: due period now rest else due period last rest

section Spacing

variable {period last : ℚ} {times : List ℚ}

theorem due_apart (times : List ℚ) :
    (last :: due period last times).IsChain fun a b => period ≤ b - a := by
  induction times generalizing last with
  | nil => exact .singleton last
  | cons now rest ih =>
    unfold due
    split
    · next hdue => exact List.isChain_cons_cons.mpr ⟨hdue, ih⟩
    · exact ih

-- Of times that are apart no more than one comes into each period. Behind the time in question
-- there are none, as they only get later.
theorem countP_mul_le {t : ℚ} (hperiod : 0 < period)
    (hapart : (last :: times).IsChain fun a b => period ≤ b - a) :
    (times.countP (· ≤ t) : ℚ) * period ≤ max (t - last) 0 := by
  induction times generalizing last with
  | nil => simp
  | cons now rest ih =>
    obtain ⟨hgap, hrest⟩ := List.isChain_cons_cons.mp hapart
    have hcount := ih hrest
    by_cases hnow : now ≤ t
    · rw [max_eq_left (by linarith)] at hcount ⊢
      rw [List.countP_cons_of_pos (by simpa using hnow)]
      push_cast
      linarith
    · rw [max_eq_right (by linarith)] at hcount
      rw [List.countP_cons_of_neg (by simpa using hnow)]
      exact hcount.trans (le_max_right _ _)

-- Before each asking less than a period had passed since the last due time. So the next one is late
-- by less than the gap between two askings.
theorem due_close {asked d : ℚ} (hperiod : 0 < period) (hasked : asked - last < period)
    (hclose : (asked :: times).IsChain fun a b => b - a ≤ d) :
    (last :: due period last times).IsChain fun a b => b - a < period + d := by
  induction times generalizing last asked with
  | nil => exact .singleton last
  | cons now rest ih =>
    obtain ⟨hgap, hrest⟩ := List.isChain_cons_cons.mp hclose
    unfold due
    split
    · refine List.isChain_cons_cons.mpr ⟨by linarith, ih ?_ hrest⟩
      rw [sub_self]
      exact hperiod
    · next hearly => exact ih (not_le.mp hearly) hrest

end Spacing

variable {σ ε : Type}

theorem tick_eq (r : RateLimiter ℚ) (now : ℚ) (action : σ → σ × Option ε) (s : σ) :
    r.tick now action s =
      if r.period ≤ now - r.tickedAt then
        ({ r with tickedAt := now }, (action s).1, (action s).2.elim (.ok true) .error)
      else (r, s, .ok false) := by
  by_cases hdue : r.period ≤ now - r.tickedAt
  · simp only [tick, poll, not_lt.mpr hdue, if_false, if_true, hdue]
  · simp only [tick, poll, not_le.mp hdue, if_false, if_true, hdue, Bool.false_eq_true]

theorem wasRun_elim (failure : Option ε) : wasRun (failure.elim (.ok true) .error) = true := by
  cases failure <;> rfl

namespace Record

variable {r : Record ℚ σ} {a : Asking ℚ σ ε}

theorem after_of_due (hdue : r.limiter.period ≤ a.now - r.limiter.tickedAt) :
    r.after a = ⟨⟨r.limiter.period, a.now⟩, (a.action r.world).1, r.runs ++ [a.now]⟩ := by
  simp only [after, tick_eq, hdue, if_true, wasRun_elim]

theorem after_of_early (hearly : ¬ r.limiter.period ≤ a.now - r.limiter.tickedAt) :
    r.after a = r := by
  simp only [after, tick_eq, hearly, if_false, wasRun, Bool.false_eq_true, List.append_nil]

-- The times of the runs are a matter of the times of the askings alone.
theorem run_eq (r : Record ℚ σ) (askings : List (Asking ℚ σ ε)) :
    (r.run askings).runs =
        r.runs ++ due r.limiter.period r.limiter.tickedAt (askings.map Asking.now) ∧
      (r.run askings).limiter = ⟨r.limiter.period,
        (due r.limiter.period r.limiter.tickedAt (askings.map Asking.now)).getLastD
          r.limiter.tickedAt⟩ := by
  induction askings generalizing r with
  | nil => exact ⟨(List.append_nil _).symm, rfl⟩
  | cons a rest ih =>
    have hcons : r.run (a :: rest) = (r.after a).run rest := rfl
    obtain ⟨hruns, hlimiter⟩ := ih (r.after a)
    rw [hcons, hruns, hlimiter, List.map_cons, due]
    by_cases hdue : r.limiter.period ≤ a.now - r.limiter.tickedAt
    · rw [after_of_due hdue, if_pos hdue, List.getLastD_cons]
      exact ⟨List.append_assoc _ _ _, rfl⟩
    · rw [after_of_early hdue, if_neg hdue]
      exact ⟨rfl, rfl⟩

end Record

-- An action is run when a period has passed since the last run, and only then, however the actions
-- end and however late the limiter is asked. The clock may even go back.
theorem runs_when_due {hz : ℚ} (hhz : 0 < hz) (t₀ : ℚ) (s : σ) (askings : List (Asking ℚ σ ε)) :
    let period := 1 / hz
    let times := askings.map Asking.now
    let r := Record.run ⟨perSecond hz t₀, s, []⟩ askings
    let last := r.runs.getLastD t₀
    r.runs = due period t₀ times ∧ r.limiter = ⟨period, last⟩ ∧
      (∀ a : Asking ℚ σ ε,
        r.after a = (if period ≤ a.now - last then
          ⟨⟨period, a.now⟩, (a.action r.world).1, r.runs ++ [a.now]⟩ else r) ∧
        (r.limiter.tick a.now a.action r.world).2.2 = if period ≤ a.now - last then
          (a.action r.world).2.elim (.ok true) .error else .ok false) ∧
      ((t₀ :: r.runs).IsChain fun a b => period ≤ b - a) ∧
      (∀ t, t₀ ≤ t → (r.runs.countP (· ≤ t) : ℚ) ≤ (t - t₀) * hz) ∧
      ∀ d, ((t₀ :: times).IsChain fun a b => b - a ≤ d) →
        (t₀ :: r.runs).IsChain fun a b => b - a < period + d := by
  intro period times r last
  have hperiod : 0 < period := one_div_pos.mpr hhz
  obtain ⟨hruns, hlimiter⟩ := Record.run_eq ⟨perSecond hz t₀, s, []⟩ askings
  replace hruns : r.runs = due period t₀ times := hruns
  replace hlimiter : r.limiter = ⟨period, last⟩ := by
    rw [show last = (due period t₀ times).getLastD t₀ from congrArg (List.getLastD · t₀) hruns]
    exact hlimiter
  have hapart : (t₀ :: r.runs).IsChain fun a b => period ≤ b - a := hruns ▸ due_apart times
  refine ⟨hruns, hlimiter, ?_, hapart, ?_, ?_⟩
  · intro a
    rw [tick_eq, hlimiter]
    by_cases hdue : period ≤ a.now - last
    · rw [Record.after_of_due (by rw [hlimiter]; exact hdue), hlimiter]
      simp only [hdue, if_true, and_self]
    · rw [Record.after_of_early (by rw [hlimiter]; exact hdue)]
      simp only [hdue, if_false, and_self]
  · intro t ht
    have hcount := countP_mul_le (t := t) hperiod hapart
    rw [max_eq_left (by linarith)] at hcount
    rwa [← div_le_iff₀ hhz, div_eq_mul_one_div]
  · intro d hclose
    rw [hruns]
    exact due_close hperiod (by rw [sub_self]; exact hperiod) hclose

-- Twice a second: asked too early, in time for an action that fails, again at once, and twice after
-- a wait of five periods.
theorem runs_when_due_failing :
    let asked (now : ℚ) (failure : Option String) : Asking ℚ Nat String :=
      ⟨now, fun count => (count + 1, failure)⟩
    let askings :=
      [asked (1 / 4) none, asked (1 / 2) (some "boom"), asked (1 / 2) none, asked 3 none,
        asked 3 none]
    let r := Record.run ⟨perSecond 2 0, 0, []⟩ askings
    (0 : ℚ) < 2 ∧ r.runs = [1 / 2, 3] ∧ r.limiter = ⟨1 / 2, 3⟩ ∧ r.world = 2 ∧
      (r.runs.countP (· ≤ 3) : ℚ) ≤ 6 ∧ (0 :: r.runs).IsChain fun a b => b - a < 1 / 2 + 5 / 2 := by
  intro asked askings r
  have hhz : (0 : ℚ) < 2 := by decide
  obtain ⟨hruns, hlimiter, -, -, hcount, hclose⟩ := runs_when_due hhz 0 0 askings
  have hdue : due (1 / 2) 0 (askings.map Asking.now) = [1 / 2, 3] := by decide +kernel
  have hr : r.runs = [1 / 2, 3] := hruns.trans hdue
  refine ⟨hhz, hr, ?_, by decide +kernel, ?_, hclose (5 / 2) (by decide +kernel)⟩
  · rw [hr] at hlimiter
    exact hlimiter
  · refine (hcount 3 (by decide)).trans ?_
    norm_num

end SuperChip.RateLimiter
