import SuperChip.Number.Decimal

-- Numbers as they were given: whole numbers of any size are told apart from floating-point ones.
namespace SuperChip.Number

inductive Quantity where
  | whole (n : Int)
  | real (f : Float)

namespace Quantity

def text : Quantity → String
  | whole n => toString n
  | real f => shortestText f

-- Not zero and not below. What is no number at all passes.
def isPositive : Quantity → Bool
  | whole n => 0 < n
  | real f => !(f ≤ 0)

-- As a floating-point number. Whole numbers beyond all of those are refused.
def toFloat? : Quantity → Option Float
  | whole n => let f := ofInt n; if f.isInf then none else some f
  | real f => some f

end Quantity

end SuperChip.Number
