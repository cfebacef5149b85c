import SuperChip.Channel
import SuperChip.Machine.Basic

-- What can go wrong in a turn of either loop.
namespace SuperChip

inductive Failure where
  | machine (fault : Fault)
  | channel (closed : Channel.Closed)
  deriving DecidableEq, Repr

namespace Failure

def message : Failure → String
  | machine fault => fault.message
  | channel closed => closed.message

-- A loop ends in order on an unknown word and on a closed channel. The rest it lets through.
def isExpected : Failure → Bool
  | machine (.unknownWord _ _) => true
  | machine _ => false
  | channel _ => true

end Failure

end SuperChip
