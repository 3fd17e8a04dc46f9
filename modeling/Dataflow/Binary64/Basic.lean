/-! Floating point numbers of 64 bits, as exact integers. Every finite number is a whole multiple of
the smallest positive one, 2^-1074, so a sum, product or quotient is integer arithmetic followed by
one rounding to the nearest number, ties to even. Nothing here depends on the machine's floats. -/

namespace Dataflow

/-- The number of magnitudes with one spacing, 2^52. -/
def Binary64.run : Nat := 4503599627370496

/-- How many finite magnitudes there are, zero included. -/
def Binary64.magnitudes : Nat := 2047 * run

/-- A finite number is its sign and the rank of its magnitude among all finite magnitudes. -/
inductive Binary64
  | finite (negative : Bool) (rank : Fin Binary64.magnitudes)
  | infinite (negative : Bool)
  | nan
deriving DecidableEq

namespace Binary64

/-- The magnitude of a rank, in units of 2^-1074. Ranks below 2^52 are subnormal; above them each
run of 2^52 ranks has twice the spacing of the run before. -/
def units (rank : Nat) : Nat :=
  if rank < run then rank else (run + rank % run) * Nat.pow 2 (rank / run - 1)

/-- The number 1, in units of 2^-1074. -/
def one : Nat := Nat.pow 2 1074

def zero (negative : Bool) : Binary64 := .finite negative ⟨0, by decide⟩

instance : Inhabited Binary64 := ⟨zero false⟩

/-- The whole number nearest to a quotient; of two equally near ones the even one. -/
def nearestQuotient (num den : Nat) : Nat :=
  let rest := 2 * (num % den)
  if rest < den then num / den
  else if den < rest then num / den + 1
  else num / den + num / den % 2

/-- The rank nearest to a quotient of units. The spacing around the quotient is 2^shift units, and
ranks above that spacing's run continue into the next one. -/
def nearestRank (num den : Nat) : Nat :=
  let shift := (num / den).log2 - 52
  shift * run + nearestQuotient num (den * Nat.pow 2 shift)

/-- The number of a rank; ranks that no finite number has stand for infinity. -/
def ofRank (negative : Bool) (rank : Nat) : Binary64 :=
  if h : rank < magnitudes then .finite negative ⟨rank, h⟩ else .infinite negative

/-- The number nearest to a quotient of units. -/
def ofQuotient (negative : Bool) (num den : Nat) : Binary64 :=
  ofRank negative (nearestRank num den)

def ofInt (i : Int) : Binary64 := ofQuotient (i < 0) (i.natAbs * one) 1

def isFinite : Binary64 → Bool
  | .finite .. => true
  | _ => false

/-- Either zero. -/
def isZero : Binary64 → Bool
  | .finite _ rank => rank.val == 0
  | _ => false

def neg : Binary64 → Binary64
  | .finite s m => .finite (!s) m
  | .infinite s => .infinite (!s)
  | .nan => .nan

/-- A signed amount of units. -/
def signed (negative : Bool) (amount : Nat) : Int := if negative then -amount else amount

/-- A sum that vanishes is negative zero only if both terms are negative. -/
def add : Binary64 → Binary64 → Binary64
  | .nan, _ | _, .nan => .nan
  | .infinite s, .infinite t => if s = t then .infinite s else .nan
  | .infinite s, .finite .. => .infinite s
  | .finite .., .infinite t => .infinite t
  | .finite s m, .finite t n =>
    let sum := signed s (units m) + signed t (units n)
    if sum = 0 then zero (s && t) else ofQuotient (sum < 0) sum.natAbs 1

def sub (x y : Binary64) : Binary64 := add x (neg y)

def mul : Binary64 → Binary64 → Binary64
  | .nan, _ | _, .nan => .nan
  | .infinite s, .infinite t => .infinite (s != t)
  | .infinite s, .finite t n => if n.val = 0 then .nan else .infinite (s != t)
  | .finite s m, .infinite t => if m.val = 0 then .nan else .infinite (s != t)
  | .finite s m, .finite t n => ofQuotient (s != t) (units m * units n) one

def div : Binary64 → Binary64 → Binary64
  | .nan, _ | _, .nan => .nan
  | .infinite _, .infinite _ => .nan
  | .infinite s, .finite t _ => .infinite (s != t)
  | .finite s _, .infinite t => zero (s != t)
  | .finite s m, .finite t n =>
    if n.val = 0 then (if m.val = 0 then .nan else .infinite (s != t))
    else ofQuotient (s != t) (units m * one) (units n)

theorem units_lt_units_succ (rank : Nat) : units rank < units (rank + 1) := by
  have positive (n : Nat) : 0 < Nat.pow 2 n := Nat.two_pow_pos n
  have twice (n : Nat) : Nat.pow 2 (n + 1) = 2 * Nat.pow 2 n := Nat.pow_succ'
  unfold units run
  by_cases small : rank + 1 < 4503599627370496
  · simp only [show rank < 4503599627370496 by omega, small, ↓reduceIte]
    omega
  by_cases edge : rank < 4503599627370496
  · have top : rank = 4503599627370495 := by omega
    subst top
    decide
  simp only [edge, small, ↓reduceIte]
  by_cases carry : rank % 4503599627370496 + 1 < 4503599627370496
  · have m : (rank + 1) % 4503599627370496 = rank % 4503599627370496 + 1 := by omega
    have d : (rank + 1) / 4503599627370496 = rank / 4503599627370496 := by omega
    rw [m, d]
    exact Nat.mul_lt_mul_of_pos_right (by omega) (positive _)
  · have m : (rank + 1) % 4503599627370496 = 0 := by omega
    have d : (rank + 1) / 4503599627370496 - 1 = rank / 4503599627370496 - 1 + 1 := by omega
    rw [m, d, twice, ← Nat.mul_assoc]
    exact Nat.mul_lt_mul_of_pos_right (by omega) (positive _)

example : ofInt (2 ^ 53 + 1) = ofInt (2 ^ 53) := by decide +kernel
example : div (ofInt 1) (ofInt 2) = add (div (ofInt 1) (ofInt 4)) (div (ofInt 1) (ofInt 4)) := by
  decide +kernel

end Binary64

end Dataflow
