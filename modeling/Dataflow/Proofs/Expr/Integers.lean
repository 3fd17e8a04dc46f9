import Dataflow.Proofs.Expr.Exactness
import Dataflow.Proofs.Expr.Scanning
import Dataflow.Proofs.Resolution

/-! Texts of whole numbers: decimal digits, sums, differences, products, signs and parentheses, with
blanks anywhere between. Where every part of such a text has a value that fits 64 bits, the text reads as
an expression that folds to its value. -/

namespace Dataflow.Expr

/-- The number fits 64 bits. -/
def Fits (i : Int) : Prop := Int64.minValue.toInt ≤ i ∧ i ≤ Int64.maxValue.toInt

variable {i j k : Int}

theorem Fits.toInt_ofInt (fits : Fits i) : (Int64.ofInt i).toInt = i :=
  Int64.toInt_ofInt_of_le fits.1 (Int.lt_add_one_of_le fits.2)

theorem Fits.ofInt? (fits : Fits i) : Constant.ofInt? i = some (.integer (.ofInt i)) := if_pos fits

/-- What a text is derived as. Operators of products bind tighter than those of sums, and minus signs
tighter than both. -/
inductive Level
  | primary
  | unary
  | product
  | sum

/-- A text has a value: decimal digits have the number they spell, signs and operators compute, and
parentheses and blanks change nothing. Every part of the text has a value that fits 64 bits. -/
inductive Spells : Level → List Char → Int → Prop
  | digits {ds : List Char} (filled : ds ≠ []) (digits : ∀ d ∈ ds, d.isDigit = true)
    (fits : Fits (Nat.ofDigitChars 10 ds 0)) : Spells .primary ds (Nat.ofDigitChars 10 ds 0)
  | group {cs : List Char} {i : Int} (inner : Spells .sum cs i) :
    Spells .primary ('(' :: (cs ++ [')'])) i
  | minus {cs : List Char} {i : Int} (operand : Spells .unary cs i) (fits : Fits (-i)) :
    Spells .unary ('-' :: cs) (-i)
  | times {cs ds : List Char} {i j : Int} (left : Spells .product cs i) (right : Spells .unary ds j)
    (fits : Fits (i * j)) : Spells .product (cs ++ '*' :: ds) (i * j)
  | plus {cs ds : List Char} {i j : Int} (left : Spells .sum cs i) (right : Spells .product ds j)
    (fits : Fits (i + j)) : Spells .sum (cs ++ '+' :: ds) (i + j)
  | less {cs ds : List Char} {i j : Int} (left : Spells .sum cs i) (right : Spells .product ds j)
    (fits : Fits (i - j)) : Spells .sum (cs ++ '-' :: ds) (i - j)
  | unary {cs : List Char} {i : Int} (only : Spells .primary cs i) : Spells .unary cs i
  | product {cs : List Char} {i : Int} (only : Spells .unary cs i) : Spells .product cs i
  | sum {cs : List Char} {i : Int} (only : Spells .product cs i) : Spells .sum cs i
  | after {l : Level} {c : Char} {cs : List Char} {i : Int} (blank : Text.isBlank c = true)
    (rest : Spells l cs i) : Spells l (c :: cs) i
  | before {l : Level} {c : Char} {cs : List Char} {i : Int} (blank : Text.isBlank c = true)
    (rest : Spells l cs i) : Spells l (cs ++ [c]) i

/-- The value is one that the grammar derives the lexemes as. -/
def Derives : Level → List Lexeme → Expr → Prop
  | .primary => IsPrimary
  | .unary => IsUnary
  | .product => IsProduct
  | .sum => IsSum

theorem Spells.fits {l : Level} {cs : List Char} (spells : Spells l cs i) : Fits i := by
  induction spells with
  | digits _ _ fits => exact fits
  | group _ ih => exact ih
  | minus _ fits => exact fits
  | times _ _ fits => exact fits
  | plus _ _ fits => exact fits
  | less _ _ fits => exact fits
  | unary _ ih => exact ih
  | product _ ih => exact ih
  | sum _ ih => exact ih
  | after _ _ ih => exact ih
  | before _ _ ih => exact ih

/-- The expression folds to the whole number. -/
def FoldsTo (e : Expr) (i : Int) : Prop := e.value? = some (.integer (.ofInt i))

theorem foldsTo_literal (i : Int) : FoldsTo (.literal (.integer (.ofInt i))) i := rfl

/-- Operands that fold to numbers are computed exactly where the result fits. -/
theorem FoldsTo.binary {op : Arithmetic} {left right : Expr} (first : FoldsTo left i)
    (second : FoldsTo right j) (fits : Fits i) (fits' : Fits j)
    (exact : Constant.combineInts? op i j = some k) (fits'' : Fits k) :
    FoldsTo (binary op left right) k := by
  have combined : Constant.combine op (.integer (.ofInt i)) (.integer (.ofInt j)) =
      .value (.integer (.ofInt k)) := by
    refine Constant.combine_integers_of_fits ?_ fits''.1 fits''.2
    rw [fits.toInt_ofInt, fits'.toInt_ofInt, exact]
  unfold FoldsTo at first second ⊢
  simp only [Expr.binary, value?, Arithmetic.ofSymbol?_symbol, first, second, combined]

/-- A minus negates a literal in place and subtracts anything else from zero, which is the same. -/
theorem FoldsTo.negate {e : Expr} (folds : FoldsTo e i) (fits : Fits i) (fits' : Fits (-i)) :
    FoldsTo (negate e) (-i) := by
  cases e with
  | symbol name => cases folds
  | literal c =>
    cases folds
    have exact : (Int64.ofInt (-i)).toInt = -(Int64.ofInt i).toInt := by
      rw [fits.toInt_ofInt, fits'.toInt_ofInt]
    rw [negate_integer exact]
    exact foldsTo_literal (-i)
  | apply name arguments =>
    have zero : Fits 0 := ⟨by decide, by decide⟩
    exact (foldsTo_literal 0).binary folds zero fits (congrArg some (Int.zero_sub i)) fits'

/-- A text that has a value reads as an expression that folds to it. -/
theorem Spells.reads {l : Level} {cs : List Char} (spells : Spells l cs i) :
    ∃ ls e, Token.Lexes cs ls ∧ Derives l ls e ∧ FoldsTo e i := by
  induction spells with
  | @digits ds filled digits fits =>
    exact ⟨_, _, Token.lexes_digits filled digits fits.ofInt?, .literal _, foldsTo_literal _⟩
  | group _ ih =>
    obtain ⟨ls, e, lexes, derives, folds⟩ := ih
    have closed : Token.Lexes (_ ++ [')']) (ls ++ [.closing]) :=
      lexes.around_mark rfl Token.lexes_nil
    exact ⟨_, e, closed.after_mark rfl, .group derives, folds⟩
  | minus operand fits ih =>
    obtain ⟨ls, e, lexes, derives, folds⟩ := ih
    exact ⟨_, negate e, lexes.after_mark rfl, .minus derives (negates_negate e),
      folds.negate operand.fits fits⟩
  | times left right fits ih ih' =>
    obtain ⟨ls, e, lexes, derives, folds⟩ := ih
    obtain ⟨rs, f, lexes', derives', folds'⟩ := ih'
    exact ⟨_, _, lexes.around_mark rfl lexes', .further derives (.inl rfl) derives',
      folds.binary folds' left.fits right.fits rfl fits⟩
  | plus left right fits ih ih' =>
    obtain ⟨ls, e, lexes, derives, folds⟩ := ih
    obtain ⟨rs, f, lexes', derives', folds'⟩ := ih'
    exact ⟨_, _, lexes.around_mark rfl lexes', .further derives (.inl rfl) derives',
      folds.binary folds' left.fits right.fits rfl fits⟩
  | less left right fits ih ih' =>
    obtain ⟨ls, e, lexes, derives, folds⟩ := ih
    obtain ⟨rs, f, lexes', derives', folds'⟩ := ih'
    exact ⟨_, _, lexes.around_mark rfl lexes', .further derives (.inr rfl) derives',
      folds.binary folds' left.fits right.fits rfl fits⟩
  | unary _ ih =>
    obtain ⟨ls, e, lexes, derives, folds⟩ := ih
    exact ⟨ls, e, lexes, .primary derives, folds⟩
  | product _ ih =>
    obtain ⟨ls, e, lexes, derives, folds⟩ := ih
    exact ⟨ls, e, lexes, .unary derives, folds⟩
  | sum _ ih =>
    obtain ⟨ls, e, lexes, derives, folds⟩ := ih
    exact ⟨ls, e, lexes, .product derives, folds⟩
  | after blank _ ih =>
    obtain ⟨ls, e, lexes, derives, folds⟩ := ih
    exact ⟨ls, e, lexes.after_blank blank, derives, folds⟩
  | before blank _ ih =>
    obtain ⟨ls, e, lexes, derives, folds⟩ := ih
    exact ⟨ls, e, lexes.before_blank blank, derives, folds⟩

end Dataflow.Expr
