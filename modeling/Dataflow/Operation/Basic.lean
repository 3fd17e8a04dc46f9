import Dataflow.Assembly
import Dataflow.Callback

/-! Operations derive a variable from others. Each parameter accepts some types and all below them;
an operation of a package may be hidden from expressions. -/

namespace Dataflow

structure Parameter where
  name : String
  types : List TypeName
deriving DecidableEq

/-- How an operation makes its result. -/
inductive Implementation
  | failing (message : String)
  | nothing
  | argument (index : Nat)
  | assembly (steps : List Assembly.Step)
  | callback (code : Callback)
  | arithmetic (op : Arithmetic)
  | concatenation
  | template (pipeline : Pipeline)

structure Operation where
  name : String
  package : String
  parameters : List Parameter
  returns : TypeName
  isUsable : Bool
  implementation : Implementation

/-- More than one operation fitted a call equally well, and the first was taken. -/
structure Ambiguity where
  name : String
  arity : Nat
  candidates : Nat
  chosen : String
deriving DecidableEq

def Ambiguity.text (w : Ambiguity) : String :=
  "Ambiguous operation " ++ Text.quoted w.name ++ " with " ++ toString w.arity ++ " args: " ++
    toString w.candidates ++ " candidates matched, using " ++ w.chosen

namespace Operation

def arity (op : Operation) : Nat := op.parameters.length

/-- An operation as provenance names it. -/
def reference (op : Operation) : OperationRef :=
  ⟨op.name, op.package, op.parameters.map fun p => "|".intercalate (p.types.map TypeName.text)⟩

def text (op : Operation) : String :=
  let parameter (p : Parameter) : String :=
    p.name ++ ": " ++ " | ".intercalate (p.types.map TypeName.text)
  op.name ++ "(" ++ ", ".intercalate (op.parameters.map parameter) ++ ") -> " ++ op.returns.text

end Operation

end Dataflow
