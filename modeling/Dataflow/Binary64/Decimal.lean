import Dataflow.Binary64.Basic

/-! Reading decimal notation. The digits are taken exactly and rounded once, however many there
are; an exponent so large that the result is zero or infinite anyway is never raised to. -/

namespace Dataflow.Binary64

/-- The value of a run of decimal digits. -/
def digitsValue (digits : List Char) : Nat :=
  digits.foldl (fun n c => 10 * n + (c.toNat - '0'.toNat)) 0

/-- The number nearest to `digits * 10 ^ exponent`. The two guards rest on
`2 ^ log2 ≤ digits < 2 ^ (log2 + 1)` and `2 ^ 3 < 10 < 2 ^ 4`. -/
def ofDecimal (negative : Bool) (digits : Nat) (exponent : Int) : Binary64 :=
  if digits = 0 then zero negative
  else if 310 < exponent + (digits.log2 / 4 : Nat) then .infinite negative
  else if exponent + (digits.log2 / 3 : Nat) < -332 then zero negative
  else match exponent with
    | .ofNat e => ofQuotient negative (digits * Nat.pow 10 e * one) 1
    | .negSucc e => ofQuotient negative (digits * one) (Nat.pow 10 (e + 1))

/-- A decimal exponent: digits after an optional sign. -/
def exponent? (cs : List Char) : Option Int :=
  let digits := match cs with
    | '+' :: r | '-' :: r => r
    | r => r
  if digits.isEmpty || !digits.all Char.isDigit then none
  else if cs.head? = some '-' then some (-digitsValue digits) else some (digitsValue digits)

/-- Unsigned decimal notation: digits with at most one point among or around them, at least one
digit, and an optional exponent. -/
def unsigned? (negative : Bool) (cs : List Char) : Option Binary64 :=
  let whole := cs.takeWhile Char.isDigit
  let (fraction, rest) := match cs.dropWhile Char.isDigit with
    | '.' :: r => (r.takeWhile Char.isDigit, r.dropWhile Char.isDigit)
    | r => ([], r)
  if whole.isEmpty && fraction.isEmpty then none
  else
    let exponent := match rest with
      | [] => some 0
      | 'e' :: r | 'E' :: r => exponent? r
      | _ => none
    exponent.map fun e => ofDecimal negative (digitsValue (whole ++ fraction)) (e - fraction.length)

/-- A number in decimal notation, or one of the words for infinity and for no number, in any
case, after an optional sign. -/
def ofText? (s : String) : Option Binary64 :=
  let cs := s.toList
  let negative := cs.head? = some '-'
  let rest := match cs with
    | '+' :: r | '-' :: r => r
    | r => r
  let word := rest.map Char.toLower
  if word = "inf".toList || word = "infinity".toList then some (.infinite negative)
  else if word = "nan".toList then some .nan
  else unsigned? negative rest

example : ofText? "2e-324" = some (zero false) := by decide +kernel
example : ofText? "1e309" = some (.infinite false) := by decide +kernel
example : ofText? ".e5" = none := by decide +kernel

end Dataflow.Binary64
