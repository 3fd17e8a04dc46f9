import Dataflow.Expr.Parser

/-! The sequences of lexemes that make an expression. Operators group to the left, those of products
bind tighter than those of sums, and parentheses leave nothing behind. -/

namespace Dataflow

/-- A lexeme that a primary expression can start with. -/
def Lexeme.startsPrimary : Lexeme → Bool
  | .literal _ | .symbol _ | .opening => true
  | _ => false

/-- A lexeme that a unary expression can start with, and so a sum. -/
def Lexeme.startsUnary (l : Lexeme) : Bool := l = .operator .sub || l.startsPrimary

namespace Expr

/-- What a minus makes of its operand. A number is negated, the least integer as a float; anything
else is subtracted from zero. -/
inductive Negates : Expr → Expr → Prop
  | integer {i j : Int64} (exact : j.toInt = -i.toInt) :
    Negates (.literal (.integer i)) (.literal (.integer j))
  | least : Negates (.literal (.integer Int64.minValue))
      (.literal (.float (.neg (.ofInt Int64.minValue.toInt))))
  | float (x : Binary64) : Negates (.literal (.float x)) (.literal (.float x.neg))
  | other {e : Expr} (plain : ∀ c, e = .literal c → c.isNumeric = false) :
    Negates e (binary .sub (.literal (.integer 0)) e)

theorem negate_integer {i j : Int64} (exact : j.toInt = -i.toInt) :
    negate (.literal (.integer i)) = .literal (.integer j) := by
  rw [negate, ← exact, Constant.ofInt?, if_pos ⟨j.minValue_le_toInt, j.toInt_le⟩, Int64.ofInt_toInt]
  rfl

theorem negates_negate (e : Expr) : Negates e (negate e) := by
  cases e with
  | symbol name => exact .other fun c same => by cases same
  | apply name arguments => exact .other fun c same => by cases same
  | literal c =>
    cases c with
    | float x => exact .float x
    | string text =>
      refine .other fun c same => ?_
      cases same
      rfl
    | integer i =>
      by_cases least : i = Int64.minValue
      · subst least
        exact .least
      · have ne : i.toInt ≠ -2 ^ 63 := fun same => least (Int64.toInt_inj.1 same)
        have lower := i.le_toInt
        have upper := i.toInt_lt
        have exact : (Int64.ofInt (-i.toInt)).toInt = -i.toInt :=
          Int64.toInt_ofInt_of_le (by omega) (by omega)
        rw [negate_integer exact]
        exact .integer exact

/-- Every operand has one negation. -/
theorem negates_iff {e negated : Expr} : Negates e negated ↔ negate e = negated := by
  constructor
  · intro negates
    cases negates with
    | integer exact => exact negate_integer exact
    | least => rfl
    | float x => rfl
    | other plain =>
      cases e with
      | symbol name => rfl
      | apply name arguments => rfl
      | literal c =>
        cases c with
        | string text => rfl
        | integer i => cases plain _ rfl
        | float x => cases plain _ rfl
  · rintro rfl
    exact negates_negate e

mutual

/-- A product, or a sum with one more product after it. -/
inductive IsSum : List Lexeme → Expr → Prop
  | product {ls : List Lexeme} {e : Expr} (product : IsProduct ls e) : IsSum ls e
  | further {ls rs : List Lexeme} {left right : Expr} {op : Arithmetic} (sum : IsSum ls left)
      (additive : op = .add ∨ op = .sub) (product : IsProduct rs right) :
    IsSum (ls ++ .operator op :: rs) (binary op left right)

/-- A unary expression, or a product with one more after it. -/
inductive IsProduct : List Lexeme → Expr → Prop
  | unary {ls : List Lexeme} {e : Expr} (unary : IsUnary ls e) : IsProduct ls e
  | further {ls rs : List Lexeme} {left right : Expr} {op : Arithmetic} (product : IsProduct ls left)
      (multiplicative : op = .mul ∨ op = .div) (unary : IsUnary rs right) :
    IsProduct (ls ++ .operator op :: rs) (binary op left right)

/-- A primary expression with any number of minus signs before it. -/
inductive IsUnary : List Lexeme → Expr → Prop
  | minus {ls : List Lexeme} {e negated : Expr} (unary : IsUnary ls e) (negates : Negates e negated) :
    IsUnary (.operator .sub :: ls) negated
  | primary {ls : List Lexeme} {e : Expr} (primary : IsPrimary ls e) : IsUnary ls e

inductive IsPrimary : List Lexeme → Expr → Prop
  | literal (value : Constant) : IsPrimary [.literal value] (.literal value)
  | symbol (name : String) : IsPrimary [.symbol name] (.symbol name)
  | call (name : String) : IsPrimary [.symbol name, .opening, .closing] (.apply name [])
  | callWith (name : String) {ls : List Lexeme} {arguments : List Expr}
      (given : AreArguments ls arguments) :
    IsPrimary (.symbol name :: .opening :: (ls ++ [.closing])) (.apply name arguments)
  | group {ls : List Lexeme} {e : Expr} (sum : IsSum ls e) :
    IsPrimary (.opening :: (ls ++ [.closing])) e

/-- One or more sums with commas between them. -/
inductive AreArguments : List Lexeme → List Expr → Prop
  | last {ls : List Lexeme} {e : Expr} (sum : IsSum ls e) : AreArguments ls [e]
  | more {ls rs : List Lexeme} {e : Expr} {es : List Expr} (sum : IsSum ls e)
      (given : AreArguments rs es) : AreArguments (ls ++ .comma :: rs) (e :: es)

end

theorem IsPrimary.head {ls : List Lexeme} {e : Expr} (primary : IsPrimary ls e) :
    ∃ l rest, ls = l :: rest ∧ l.startsPrimary = true := by
  cases primary
  all_goals exact ⟨_, _, rfl, rfl⟩

theorem IsUnary.head {ls : List Lexeme} {e : Expr} (unary : IsUnary ls e) :
    ∃ l rest, ls = l :: rest ∧ l.startsUnary = true := by
  cases unary with
  | minus unary negates => exact ⟨_, _, rfl, rfl⟩
  | primary primary =>
    obtain ⟨l, rest, rfl, starts⟩ := primary.head
    exact ⟨l, rest, rfl, by rw [Lexeme.startsUnary, starts, Bool.or_true]⟩

theorem IsProduct.head {ls : List Lexeme} {e : Expr} : IsProduct ls e →
    ∃ l rest, ls = l :: rest ∧ l.startsUnary = true
  | .unary first => first.head
  | .further first _ _ => by
    obtain ⟨l, rest, rfl, starts⟩ := first.head
    exact ⟨l, _, rfl, starts⟩

theorem IsSum.head {ls : List Lexeme} {e : Expr} : IsSum ls e →
    ∃ l rest, ls = l :: rest ∧ l.startsUnary = true
  | .product first => first.head
  | .further first _ _ => by
    obtain ⟨l, rest, rfl, starts⟩ := first.head
    exact ⟨l, _, rfl, starts⟩

/-- A list of arguments does not start with the parenthesis that closes it. -/
theorem AreArguments.head {ls : List Lexeme} {es : List Expr} (given : AreArguments ls es) :
    ∃ l rest, ls = l :: rest ∧ l ≠ .closing := by
  have ne : ∀ {l : Lexeme}, l.startsUnary = true → l ≠ .closing := by
    rintro l starts rfl
    cases starts
  cases given with
  | last sum =>
    obtain ⟨l, rest, rfl, starts⟩ := sum.head
    exact ⟨l, rest, rfl, ne starts⟩
  | more sum given =>
    obtain ⟨l, rest, rfl, starts⟩ := sum.head
    exact ⟨l, _, rfl, ne starts⟩

end Expr

end Dataflow
