import Dataflow.Binary64.Basic

/-! The fewest digits that read back. All reals between the midpoints to a number's two neighbours
round to it, the midpoints included exactly if its rank is even. The digits are those of a point of
the coarsest decimal grid that has one in that interval, and of two such points the nearer one. -/

namespace Dataflow.Binary64

/-- What to do when two decimals are equally near. -/
inductive Tie
  | upward
  | toEven
deriving DecidableEq

/-- Significant digits, the first not zero and the last not zero, and the power of ten of the first:
`⟨[1, 5], -3⟩` is 0.0015. Zero has the single digit 0. -/
structure Digits where
  digits : List Char
  exponent : Int
deriving DecidableEq

/-- The first `n` from `start` for which `den ≤ num * 10 ^ n`, looking at no more than `fuel`. -/
def leadingZeros (num den : Nat) : Nat → Nat → Nat
  | start, 0 => start
  | start, fuel + 1 =>
    if den ≤ num then start else leadingZeros (num * 10) den (start + 1) fuel

/-- The power of ten of the leading digit of `num / den`. -/
def leadingPower (num den : Nat) : Int :=
  if den ≤ num then (Nat.toDigits 10 (num / den)).length - 1
  else -(leadingZeros num den 0 400 : Nat)

/-- The better of the two neighbours of a magnitude on the grid of `n` digits, if one of them is in
the interval. `low`, `mid` and `high` are the interval's ends and the magnitude itself over the
common denominator `den`; `power` is the power of ten of the leading digit. -/
def onGrid? (tie : Tie) (closed : Bool) (low mid high den : Nat) (power : Int) (n : Nat) :
    Option Nat :=
  let place := power + 1 - n
  let up := Nat.pow 10 (-place).toNat
  let step := den * Nat.pow 10 place.toNat
  let floor := mid * up / step
  let reaches (limit point : Nat) : Bool := limit < point || closed && limit == point
  let below := reaches (low * up) (floor * step)
  let above := reaches ((floor + 1) * step) (high * up)
  let rest := 2 * (mid * up % step)
  match below, above with
  | false, false => none
  | true, false => some floor
  | false, true => some (floor + 1)
  | true, true =>
    if rest < step then some floor
    else if step < rest then some (floor + 1)
    else match tie with
      | .upward => some (floor + 1)
      | .toEven => some (floor + floor % 2)

/-- Digits of a grid point whose last digit has the power of ten `place`. -/
def digitsAt (point : Nat) (place : Int) : Digits :=
  let all := Nat.toDigits 10 point
  ⟨(all.reverse.dropWhile (· == '0')).reverse, place + (all.length - 1 : Nat)⟩

/-- The grids of `n` and more digits in turn. The interval is wider than the spacing of the grid of
17 digits, so that one always has a point, and the whole part stands in for no digits at all. -/
def shortestFrom (tie : Tie) (closed : Bool) (low mid high den : Nat) (power : Int) :
    Nat → Nat → Digits
  | _, 0 => digitsAt (mid / den) 0
  | n, fuel + 1 =>
    match onGrid? tie closed low mid high den power n with
    | some point => digitsAt point (power + 1 - n)
    | none => shortestFrom tie closed low mid high den power (n + 1) fuel

/-- The shortest digits of a magnitude. -/
def shortest (tie : Tie) (rank : Nat) : Digits :=
  if rank = 0 then ⟨['0'], 0⟩
  else
    let low := units (rank - 1) + units rank
    let mid := 2 * units rank
    let high := units rank + units (rank + 1)
    let den := 2 * one
    shortestFrom tie (rank % 2 == 0) low mid high den (leadingPower mid den) 1 17

example : shortest .toEven 1 = ⟨['5'], -324⟩ := by decide +kernel

end Dataflow.Binary64
