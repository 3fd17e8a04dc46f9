import Dataflow.Binary64.Decimal
import Dataflow.Binary64.Layout

/-! JSON documents as they are spelled: numbers keep their digits and objects the order of their
members, so what a reader makes of a number is decided where the number is used. Two leaves stand
for what has no value: a string with half of a surrogate pair, which only matters if its text is
asked for, and the place where a document stops being one. -/

namespace Dataflow

/-- A number's parts; `fraction` holds the digits after the point. -/
structure Json.Number where
  negative : Bool
  whole : Nat
  fraction : List Char
  exponent : Option Int
deriving DecidableEq

inductive Json
  | null
  | bool (value : Bool)
  | number (value : Json.Number)
  | string (text : String)
  | unpaired
  | fault
  | array (items : List Json)
  | object (members : List (String × Json))

namespace Json

instance : Inhabited Json := ⟨.null⟩

/-- A number without point and exponent. Negative zero is not one: it has no integer value. -/
def Number.integer? (n : Number) : Option Int :=
  if !n.fraction.isEmpty || n.exponent.isSome || n.negative && n.whole == 0 then none
  else some (if n.negative then -n.whole else n.whole)

def Number.ofInt (i : Int) : Number := ⟨decide (i < 0), i.natAbs, [], none⟩

/-- Take digits into a number of 64 bits up to the first that does not fit. -/
def takeDigits (taken : Nat) : List Char → Nat × List Char
  | [] => (taken, [])
  | c :: cs =>
    let more := 10 * taken + (c.toNat - '0'.toNat)
    if more < UInt64.size then takeDigits more cs else (taken, c :: cs)

/-- `x / 10 ^ power`, in steps that have a power of ten to divide by; after three of them even the
largest number of 64 bits has become zero. -/
def scaleDown : Nat → Binary64 → Nat → Binary64
  | 0, x, _ => x
  | fuel + 1, x, power =>
    if power ≤ 308 then x.div (.ofDecimal false 1 power)
    else scaleDown fuel (x.div (.ofDecimal false 1 308)) (power - 308)

/-- A number's floating point value, if it has one: the leading digits, as many as fit 64 bits, are
rounded, and scaled by one power of ten. Digits of the whole part that do not fit count as powers of
ten; those of the fraction are dropped. -/
def Number.toFloat? (n : Number) : Option Binary64 :=
  let (leading, unused) := takeDigits 0 (Nat.toDigits 10 n.whole)
  let (significand, dropped) := takeDigits leading n.fraction
  let used := n.fraction.length - dropped.length
  let power := n.exponent.getD 0 + unused.length - used
  let start := Binary64.ofInt significand
  let magnitude := match power with
    | .ofNat e =>
      if significand = 0 then start
      else if 308 < e then .infinite false
      else start.mul (.ofDecimal false 1 e)
    | .negSucc e => scaleDown 3 start (e + 1)
  if magnitude.isFinite then some (if n.negative then magnitude.neg else magnitude) else none

/-- The shortest digits of a finite number, positional from 0.00001 up to 16 digits before the
point, and with an exponent outside that range. -/
def Number.ofFloat? : Binary64 → Option Number
  | .finite negative rank =>
    let d := Binary64.shortest .toEven rank
    if -5 ≤ d.exponent ∧ d.exponent ≤ 15 then
      let (whole, fraction) := Binary64.positional d
      let fraction := if fraction.isEmpty then ['0'] else fraction
      some ⟨negative, Binary64.digitsValue whole, fraction, none⟩
    else some ⟨negative, Binary64.digitsValue (d.digits.take 1), d.digits.drop 1, some d.exponent⟩
  | _ => none

def nat (n : Nat) : Json := .number (.ofInt n)

def int (i : Int) : Json := .number (.ofInt i)

/-- A floating point number; what is not finite has no number and is written as null. -/
def float (x : Binary64) : Json := ((Number.ofFloat? x).map .number).getD .null

mutual

/-- How many arrays and objects are around the innermost value. -/
def depth : Json → Nat
  | .array items => depthOfItems items + 1
  | .object members => depthOfMembers members + 1
  | _ => 0

def depthOfItems : List Json → Nat
  | [] => 0
  | v :: vs => max (depth v) (depthOfItems vs)

def depthOfMembers : List (String × Json) → Nat
  | [] => 0
  | m :: ms => max (depth m.2) (depthOfMembers ms)

end

mutual

/-- Whether every number has a value and every string a text. -/
def isReadable : Json → Bool
  | .number n => n.toFloat?.isSome
  | .unpaired | .fault => false
  | .array items => areReadableItems items
  | .object members => areReadableMembers members
  | _ => true

def areReadableItems : List Json → Bool
  | [] => true
  | v :: vs => isReadable v && areReadableItems vs

def areReadableMembers : List (String × Json) → Bool
  | [] => true
  | m :: ms => isReadable m.2 && areReadableMembers ms

end

theorem Number.integer?_ofInt (i : Int) : (Number.ofInt i).integer? = some i := by
  have nonzero : (decide (i < 0) && i.natAbs == 0) = false := by
    rw [Bool.and_eq_false_iff, decide_eq_false_iff_not, beq_eq_false_iff_ne]
    omega
  simp only [integer?, ofInt, List.isEmpty_nil, Bool.not_true, Option.isSome_none, Bool.or_self,
    nonzero, Bool.false_eq_true, if_false, Option.some.injEq, decide_eq_true_eq]
  split <;> omega

end Json

end Dataflow
