import Dataflow.Constant
import Dataflow.OrderedMap
import Dataflow.Text.Quoted

/-! Where a variable came from: a literal, a loader with its parameters, or an operation on arguments
that may have no record of their own. -/

namespace Dataflow

/-- An operation as a record names it; a parameter is written with all the types it accepts. -/
structure OperationRef where
  name : String
  package : String
  signature : List String
deriving DecidableEq

inductive Provenance
  | constant (value : Constant)
  | operation (operation : OperationRef) (arguments : List (Option Provenance))
  | loader (name : String) (parameters : OrderedMap String String)

namespace Provenance

mutual

/-- The number of operations in a record. -/
def operationCount : Provenance → Nat
  | .operation _ arguments => operationCounts arguments + 1
  | _ => 0

def operationCounts : List (Option Provenance) → Nat
  | [] => 0
  | none :: rest => operationCounts rest
  | some p :: rest => operationCount p + operationCounts rest

end

mutual

def text : Provenance → String
  | .constant (.string s) => Text.quoted s
  | .constant c => c.text
  | .operation op arguments => op.name ++ "(" ++ String.intercalate ", " (texts arguments) ++ ")"
  | .loader name parameters =>
    name ++ "[" ++
      String.intercalate ", " (parameters.entries.map fun e => e.1 ++ "=" ++ e.2) ++ "]"

/-- The texts of arguments; one without a record is a question mark. -/
def texts : List (Option Provenance) → List String
  | [] => []
  | none :: rest => "?" :: texts rest
  | some p :: rest => text p :: texts rest

end

end Provenance

end Dataflow
