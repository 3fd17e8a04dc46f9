import Dataflow.Binary64.Shortest

/-! From digits to text. Positional notation has no exponent; what else a text format decides is in
its own printer. -/

namespace Dataflow.Binary64

/-- Digits with the point put in, zeros filled in on either side of them. -/
def positional (d : Digits) : List Char × List Char :=
  match d.exponent with
  | .ofNat e =>
    (d.digits.take (e + 1) ++ List.replicate (e + 1 - d.digits.length) '0', d.digits.drop (e + 1))
  | .negSucc e => (['0'], List.replicate e '0' ++ d.digits)

def signText (negative : Bool) : List Char := if negative then ['-'] else []

/-- Positional text with the fewest digits, exact ties upward; a whole number has no point. -/
def render : Binary64 → String
  | .nan => "NaN"
  | .infinite s => String.ofList (signText s ++ "inf".toList)
  | .finite s rank =>
    let (whole, fraction) := positional (shortest .upward rank)
    String.ofList (signText s ++ whole ++ if fraction.isEmpty then [] else '.' :: fraction)

example : render (div (ofInt 1) (ofInt 10)) = "0.1" := by decide +kernel
example : render (zero true) = "-0" := by decide +kernel
example : render (ofInt (10 ^ 21)) = "1000000000000000000000" := by decide +kernel
example : render (div (ofInt (-5)) (ofInt 4000)) = "-0.00125" := by decide +kernel

end Dataflow.Binary64
