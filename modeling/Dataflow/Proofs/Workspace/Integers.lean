import Dataflow.Proofs.Expr.Integers
import Dataflow.Proofs.Workspace.Accounts

/-! Texts of whole numbers, from the statement to the store. What such a text has as its value is one
literal below the variables root, and what the variable is known to come from. -/

namespace Dataflow.Workspace

variable {w : Workspace} {name : String}

end Dataflow.Workspace
