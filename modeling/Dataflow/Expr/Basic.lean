import Dataflow.Constant
import Dataflow.Text.Quoted

/-! Expressions name variables, hold constants and apply operations by name; an operator is an
operation of two arguments whose name is its sign. -/

namespace Dataflow

inductive Expr
  | symbol (name : String)
  | literal (value : Constant)
  | apply (name : String) (arguments : List Expr)

namespace Expr

mutual

/-- An expression in prefix form, as messages show it. -/
def text : Expr → String
  | .symbol name => name
  | .literal (.string s) => Text.quoted s
  | .literal c => c.text
  | .apply name arguments => name ++ "(" ++ String.intercalate ", " (texts arguments) ++ ")"

def texts : List Expr → List String
  | [] => []
  | e :: es => text e :: texts es

end

/-- The negation of an operand: a number is negated in place, anything else is subtracted from
zero. The least integer has no integer negation and becomes a float. -/
def negate : Expr → Expr
  | .literal (.integer i) =>
    .literal ((Constant.ofInt? (-i.toInt)).getD (.float (.neg (.ofInt i.toInt))))
  | .literal (.float x) => .literal (.float x.neg)
  | e => .apply Arithmetic.sub.symbol [.literal (.integer 0), e]

/-- An operator on two operands. -/
def binary (op : Arithmetic) (left right : Expr) : Expr := .apply op.symbol [left, right]

end Expr

end Dataflow
