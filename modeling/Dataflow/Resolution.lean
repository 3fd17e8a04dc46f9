import Dataflow.Expr.Parser
import Dataflow.Operation.Matching
import Dataflow.Variable

/-! What an expression means among given variables and operations: symbols are variables, operators
on two constants are folded where the result is a constant, and all other calls are operations that
fit the types of their arguments. -/

namespace Dataflow

/-- An expression whose names have been found. -/
inductive Node
  | constant (value : Constant) (type : TypeName)
  | reference (name : String) (target : Variable)
  | application (op : Operation) (arguments : List Node)

/-- What names can mean, and the types of literals. -/
structure Scope where
  named : OrderedMap String Variable
  catalogue : Catalogue
  types : TypeRegistry
  numeric : TypeName
  string : TypeName

namespace Scope

/-- The scope of a host, where the types of literals have to be known. -/
def of (h : Host) (c : Catalogue) (named : OrderedMap String Variable) : Except Error Scope := do
  return ⟨named, c, h.types, ← h.basic "Float", ← h.basic "String"⟩

def literal (s : Scope) (value : Constant) : Node :=
  .constant value (if value.isNumeric then s.numeric else s.string)

end Scope

namespace Node

def type : Node → TypeName
  | .constant _ t => t
  | .reference _ x => x.type
  | .application op _ => op.returns

def isConstant : Node → Bool
  | .constant .. => true
  | _ => false

mutual

def applicationCount : Node → Nat
  | .application _ arguments => applicationCounts arguments + 1
  | _ => 0

def applicationCounts : List Node → Nat
  | [] => 0
  | n :: ns => applicationCount n + applicationCounts ns

end

/-- An operator on two constants, if it makes a constant of them. -/
def fold (s : Scope) (name : String) : List Node → Except Error (Option Node)
  | [.constant left _, .constant right _] =>
    match Arithmetic.ofSymbol? name with
    | none => .ok none
    | some op =>
      match Constant.combine op left right with
      | .value c => .ok (some (s.literal c))
      | .undefined => .ok none
      | .divisionByZero => .error .divisionByZero
  | _ => .ok none

/-- A call of arguments that are resolved, with the warning of its choice. -/
def call (s : Scope) (name : String) (arguments : List Node) :
    Except Error (Node × List Ambiguity) := do
  match ← fold s name arguments with
  | some n => return (n, [])
  | none =>
    let (op, warning) ← s.catalogue.findOperation s.types name (arguments.map type)
    return (.application op arguments, warning.toList)

end Node

namespace Expr

mutual

/-- Resolve an expression, its arguments from left to right before itself. -/
def resolve (s : Scope) : Expr → Except Error (Node × List Ambiguity)
  | .symbol name =>
    match s.named.get? name with
    | some x => .ok (.reference name x, [])
    | none => .error (.unknownVariable name)
  | .literal value => .ok (s.literal value, [])
  | .apply name arguments => do
    let (nodes, before) ← resolveAll s arguments
    let (node, warnings) ← Node.call s name nodes
    return (node, before ++ warnings)

def resolveAll (s : Scope) : List Expr → Except Error (List Node × List Ambiguity)
  | [] => .ok ([], [])
  | e :: es => do
    let (n, first) ← resolve s e
    let (ns, others) ← resolveAll s es
    return (n :: ns, first ++ others)

end

end Expr

end Dataflow
