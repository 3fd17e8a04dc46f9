import Dataflow.Operation.Application
import Dataflow.Resolution

/-! Building the variable that a resolved expression describes. Nothing is written: constants become
modules, variables are copied, and operations are applied to what their arguments became. -/

namespace Dataflow.Node

mutual

def execute (h : Host) : Node → Action Variable
  | .constant value t => Variable.constant h value t
  | .reference _ x => x.copy h
  | .application op arguments => do op.apply h (← executeAll h arguments)

/-- Arguments from left to right. -/
def executeAll (h : Host) : List Node → Action (List Variable)
  | [] => return []
  | n :: ns => do
    let x ← execute h n
    let xs ← executeAll h ns
    return x :: xs

end

end Dataflow.Node
