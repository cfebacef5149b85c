import SuperChip.Number.Quantity

-- Letting an action happen at most once in a period. Periods that pass without a poll are not made
-- up for: the next period counts from the poll that was let through.
namespace SuperChip

-- Readings of the clock can be any numbers that can be subtracted and compared.
structure RateLimiter (α : Type) where
  period : α
  tickedAt : α
  deriving DecidableEq

namespace RateLimiter

inductive Error where
  | notPositive (rate : Number.Quantity)
  | tooLarge
  -- a limiter without a period has no rate to show
  | unlimited

def Error.message : Error → String
  | .notPositive rate => s!"hz must be positive, got {rate.text}"
  | .tooLarge => "int too large to convert to float"
  | .unlimited => "float division by zero"

-- A limiter for a number of times a second, with its first period starting now.
def perSecond {α : Type} [Div α] [OfNat α 1] (rate now : α) : RateLimiter α := ⟨1 / rate, now⟩

-- There is one for every rate above zero.
def start (rate : Number.Quantity) (now : Float) : Except Error (RateLimiter Float) :=
  if !rate.isPositive then .error (.notPositive rate)
  else match rate.toFloat? with
    | none => .error .tooLarge
    | some rate => .ok (perSecond rate now)

-- Asking whether the action may happen now. If a period has passed it may, and a new period
-- starts, whatever becomes of the action.
def poll {α : Type} [Sub α] [LT α] [DecidableLT α] (r : RateLimiter α) (now : α) :
    RateLimiter α × Bool :=
  if now - r.tickedAt < r.period then (r, false) else ({ r with tickedAt := now }, true)

-- Asking with the action at hand, which works on something and may fail on the way. The answer is
-- whether the action was run. By then the new period has started, so that an action that fails was
-- let through like any other.
def tick {α σ ε : Type} [Sub α] [LT α] [DecidableLT α] (r : RateLimiter α) (now : α)
    (action : σ → σ × Option ε) (s : σ) : RateLimiter α × σ × Except ε Bool :=
  let (r, due) := r.poll now
  if due then
    let (s, failure) := action s
    (r, s, failure.elim (.ok true) .error)
  else (r, s, .ok false)

def describe (r : RateLimiter Float) : Except Error String :=
  if r.period == 0 then .error .unlimited
  else
    let rate := Number.generalText (1.0 / r.period)
    .ok s!"RateLimiter(hz={rate})"

end RateLimiter

end SuperChip
