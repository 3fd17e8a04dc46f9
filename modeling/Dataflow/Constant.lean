import Dataflow.Binary64.Layout

/-! Literals and the arithmetic that folds them. Whole numbers are exact in 64 bits and become
floating point only when a result does not fit; a result that has no literal form (infinite, or no
number at all) is left for an operation to compute. -/

namespace Dataflow

inductive Arithmetic
  | add
  | sub
  | mul
  | div
deriving DecidableEq

namespace Arithmetic

def all : List Arithmetic := [.add, .sub, .mul, .div]

def mark : Arithmetic → Char
  | .add => '+'
  | .sub => '-'
  | .mul => '*'
  | .div => '/'

def symbol (op : Arithmetic) : String := op.mark.toString

def ofSymbol? (name : String) : Option Arithmetic := all.find? fun op => op.symbol == name

theorem ofSymbol?_symbol (op : Arithmetic) : ofSymbol? op.symbol = some op := by
  cases op <;> decide +kernel

end Arithmetic

inductive Constant
  | integer (value : Int64)
  | float (value : Binary64)
  | string (text : String)
deriving DecidableEq

/-- What an operator makes of two constants. -/
inductive Combination
  | value (result : Constant)
  | undefined
  | divisionByZero
deriving DecidableEq

namespace Constant

/-- The integer constant of a number that fits 64 bits. -/
def ofInt? (i : Int) : Option Constant :=
  if Int64.minValue.toInt ≤ i ∧ i ≤ Int64.maxValue.toInt then some (.integer (.ofInt i)) else none

def isNumeric : Constant → Bool
  | .string _ => false
  | _ => true

def toFloat? : Constant → Option Binary64
  | .integer i => some (.ofInt i.toInt)
  | .float x => some x
  | .string _ => none

def ofFinite (x : Binary64) : Combination := if x.isFinite then .value (.float x) else .undefined

def combineFloats : Arithmetic → Binary64 → Binary64 → Combination
  | .add, x, y => ofFinite (x.add y)
  | .sub, x, y => ofFinite (x.sub y)
  | .mul, x, y => ofFinite (x.mul y)
  | .div, x, y => if y.isZero then .divisionByZero else ofFinite (x.div y)

/-- A whole-number operation that stays whole; division never does. -/
def combineInts? : Arithmetic → Int → Int → Option Int
  | .add, i, j => some (i + j)
  | .sub, i, j => some (i - j)
  | .mul, i, j => some (i * j)
  | .div, _, _ => none

def combine (op : Arithmetic) : Constant → Constant → Combination
  | .string s, .string t => if op = .add then .value (.string (s ++ t)) else .undefined
  | .string _, _ | _, .string _ => .undefined
  | .integer i, .integer j =>
    match (combineInts? op i.toInt j.toInt).bind ofInt? with
    | some c => .value c
    | none => combineFloats op (.ofInt i.toInt) (.ofInt j.toInt)
  | .integer i, .float y => combineFloats op (.ofInt i.toInt) y
  | .float x, .integer j => combineFloats op x (.ofInt j.toInt)
  | .float x, .float y => combineFloats op x y

/-- The text that a constant is stored and shown as. -/
def text : Constant → String
  | .integer i => toString i.toInt
  | .float x => x.render
  | .string s => s

theorem combine_integers_of_fits {op : Arithmetic} {i j : Int64} {k : Int}
    (exact : combineInts? op i.toInt j.toInt = some k) (lower : Int64.minValue.toInt ≤ k)
    (upper : k ≤ Int64.maxValue.toInt) :
    combine op (.integer i) (.integer j) = .value (.integer (.ofInt k)) := by
  simp only [combine, exact, ofInt?, Option.bind_some, lower, upper, and_self, ↓reduceIte]

end Constant

end Dataflow
