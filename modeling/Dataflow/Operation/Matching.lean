import Dataflow.Lattice
import Dataflow.Operation.Catalogue

/-! Choosing an operation for a call. The arguments are looked at from left to right: of the
candidates left, those stay whose parameter is nearest above the argument's type. If several stay to
the end, the first of them is taken, with a warning. -/

namespace Dataflow

namespace Parameter

/-- The distance from a type to the nearest one a parameter accepts. -/
def score? (ds : Distances) (p : Parameter) : Option Nat :=
  (p.types.filterMap ds.distance?).min?

end Parameter

namespace Catalogue

/-- The distance of a candidate's parameter at a place from the argument there. -/
def scoreAt? (ds : Distances) (place : Nat) (op : Operation) : Option Nat :=
  op.parameters[place]?.bind (Parameter.score? ds)

/-- The candidates with the best score; none if none has a score. -/
def nearest (score? : Operation → Option Nat) (ops : List Operation) : List Operation :=
  match (ops.filterMap score?).min? with
  | some best => ops.filter fun op => score? op == some best
  | none => []

/-- The candidates left after the arguments from a place on. -/
def narrow (types : TypeRegistry) (place : Nat) : List TypeName → List Operation → List Operation
  | [], ops => ops
  | t :: ts, ops =>
    narrow types (place + 1) ts (nearest (scoreAt? (types.distances t) place) ops)

def findOperation (c : Catalogue) (types : TypeRegistry) (name : String)
    (arguments : List TypeName) : Except Error (Operation × Option Ambiguity) :=
  let named := c.candidates name
  let arity := arguments.length
  let fitting := named.filter fun op => op.arity == arity
  if named.isEmpty then .error (.noSuchOperation name)
  else if fitting.isEmpty then .error (.arityMismatch name arity)
  else match narrow types 0 arguments fitting with
    | [] => .error (.noMatchingOperation name arity)
    | [op] => .ok (op, none)
    | op :: others => .ok (op, some ⟨name, arity, others.length + 1, op.text⟩)

end Catalogue

end Dataflow
