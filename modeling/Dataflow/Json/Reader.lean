import Dataflow.Json.Basic

/-! Reading JSON. The reader goes as far as it can: it gives the tree of what it has read, with a
fault where reading stopped, and the text after the value if the value is whole. A fault in the text
is thus seen by a decoder at its place among the faults of the content. -/

namespace Dataflow.Json

def isSpace (c : Char) : Bool := c == ' ' || c == '\n' || c == '\t' || c == '\r'

def skipSpace (cs : List Char) : List Char := cs.dropWhile isSpace

def hexValue? (c : Char) : Option Nat :=
  if c.isDigit then some (c.toNat - '0'.toNat)
  else if 'a' ≤ c ∧ c ≤ 'f' then some (c.toNat - 'a'.toNat + 10)
  else if 'A' ≤ c ∧ c ≤ 'F' then some (c.toNat - 'A'.toNat + 10)
  else none

/-- A unit of UTF-16 in four hexadecimal digits. -/
def unit? : List Char → Option (Nat × List Char)
  | a :: b :: c :: d :: rest => do
    let a ← hexValue? a
    let b ← hexValue? b
    let c ← hexValue? c
    let d ← hexValue? d
    return (((a * 16 + b) * 16 + c) * 16 + d, rest)
  | _ => none

/-- The character of a short escape. -/
def escape? : Char → Option Char
  | '"' => some '"'
  | '\\' => some '\\'
  | '/' => some '/'
  | 'b' => some '\x08'
  | 'f' => some '\x0c'
  | 'n' => some '\n'
  | 'r' => some '\r'
  | 't' => some '\t'
  | _ => none

/-- The parts of a string's body: characters and units of UTF-16. -/
inductive Piece
  | char (c : Char)
  | unit (code : Nat)
deriving DecidableEq

/-- The pieces of a string up to its closing quote, and the text after that. Every step uses up a
character. -/
def pieces : Nat → List Char → Option (List Piece × List Char)
  | 0, _ | _, [] => none
  | fuel + 1, c :: cs =>
    if c = '"' then some ([], cs)
    else if c = '\\' then
      match cs with
      | 'u' :: cs => do
        let (code, rest) ← unit? cs
        let (more, rest) ← pieces fuel rest
        return (.unit code :: more, rest)
      | e :: cs => do
        let c ← escape? e
        let (more, rest) ← pieces fuel cs
        return (.char c :: more, rest)
      | [] => none
    else if c.toNat < 0x20 then none
    else do
      let (more, rest) ← pieces fuel cs
      return (.char c :: more, rest)

/-- The text of pieces; a high surrogate must be followed by a low one, and stands with it for one
character. -/
def text? : List Piece → Option (List Char)
  | [] => some []
  | .char c :: rest => (text? rest).map (c :: ·)
  | .unit high :: .unit low :: rest =>
    if 0xD800 ≤ high ∧ high < 0xDC00 then
      if 0xDC00 ≤ low ∧ low < 0xE000 then
        (text? rest).map (Char.ofNat (0x10000 + (high - 0xD800) * 0x400 + (low - 0xDC00)) :: ·)
      else none
    else if 0xDC00 ≤ high ∧ high < 0xE000 then none
    else (text? (.unit low :: rest)).map (Char.ofNat high :: ·)
  | .unit code :: rest =>
    if 0xD800 ≤ code ∧ code < 0xE000 then none else (text? rest).map (Char.ofNat code :: ·)

/-- A string after its opening quote. -/
def readString (cs : List Char) : Json × Option (List Char) :=
  match pieces (cs.length + 1) cs with
  | some (ps, rest) =>
    (match text? ps with
      | some text => .string (.ofList text)
      | none => .unpaired,
      some rest)
  | none => (.fault, none)

/-- Digits at the front of a text, at least one. -/
def digits? (cs : List Char) : Option (List Char × List Char) :=
  let digits := cs.takeWhile Char.isDigit
  if digits.isEmpty then none else some (digits, cs.dropWhile Char.isDigit)

def fraction? : List Char → Option (List Char × List Char)
  | '.' :: cs => digits? cs
  | cs => some ([], cs)

def exponent? : List Char → Option (Option Int × List Char)
  | [] => some (none, [])
  | c :: cs =>
    if c = 'e' || c = 'E' then
      let negative := cs.head? = some '-'
      let unsigned := match cs with
        | '+' :: r | '-' :: r => r
        | r => r
      (digits? unsigned).map fun (digits, rest) =>
        let value := Binary64.digitsValue digits
        (some (if negative then -value else value), rest)
    else some (none, c :: cs)

def number? (cs : List Char) : Option (Number × List Char) := do
  let negative := cs.head? = some '-'
  let (whole, rest) ← digits? (if negative then cs.tail else cs)
  if whole.head? = some '0' ∧ whole.length ≠ 1 then none
  let (fraction, rest) ← fraction? rest
  let (exponent, rest) ← exponent? rest
  return (⟨negative, Binary64.digitsValue whole, fraction, exponent⟩, rest)

/-- A word with a meaning, or a number. -/
def readPlain (cs : List Char) : Json × Option (List Char) :=
  match cs with
  | 'n' :: 'u' :: 'l' :: 'l' :: rest => (.null, some rest)
  | 't' :: 'r' :: 'u' :: 'e' :: rest => (.bool true, some rest)
  | 'f' :: 'a' :: 'l' :: 's' :: 'e' :: rest => (.bool false, some rest)
  | cs =>
    match number? cs with
    | some (n, rest) => (.number n, some rest)
    | none => (.fault, none)

mutual

def readValue : Nat → List Char → Json × Option (List Char)
  | 0, _ => (.fault, none)
  | fuel + 1, cs =>
    match skipSpace cs with
    | '"' :: rest => readString rest
    | '[' :: rest =>
      match skipSpace rest with
      | ']' :: rest => (.array [], some rest)
      | rest => match readItems fuel rest with
        | (items, rest) => (.array items, rest)
    | '\x7b' :: rest =>
      match skipSpace rest with
      | '\x7d' :: rest => (.object [], some rest)
      | rest => match readMembers fuel rest with
        | (members, rest) => (.object members, rest)
    | rest => readPlain rest

/-- The items of an array up to its closing bracket. -/
def readItems : Nat → List Char → List Json × Option (List Char)
  | 0, _ => ([.fault], none)
  | fuel + 1, cs =>
    match readValue fuel cs with
    | (item, none) => ([item], none)
    | (item, some rest) =>
      match skipSpace rest with
      | ',' :: rest => match readItems fuel rest with
        | (items, rest) => (item :: items, rest)
      | ']' :: rest => ([item], some rest)
      | _ => ([item], none)

/-- The members of an object up to its closing brace. A name without a text is a fault of the
object's content, after which reading goes on. -/
def readMembers : Nat → List Char → List (String × Json) × Option (List Char)
  | 0, _ => ([("", .fault)], none)
  | fuel + 1, cs =>
    match skipSpace cs with
    | '"' :: rest =>
      match readString rest with
      | (_, none) => ([("", .fault)], none)
      | (name, some rest) =>
        match skipSpace rest with
        | ':' :: rest =>
          let (value, rest) := readValue fuel rest
          let member := match name with
            | .string text => (text, value)
            | _ => ("", .fault)
          match rest with
          | none => ([member], none)
          | some rest =>
            match skipSpace rest with
            | ',' :: rest => match readMembers fuel rest with
              | (members, rest) => (member :: members, rest)
            | '\x7d' :: rest => ([member], some rest)
            | _ => ([member], none)
        | _ => ([("", .fault)], none)
    | _ => ([("", .fault)], none)

end

/-- The first value of a text, and what follows it. A level of nesting takes two calls and at least
one character, as does going on to the next item. -/
def read (text : String) : Json × Option (List Char) :=
  readValue (2 * text.toList.length + 2) text.toList

/-- Whether nothing but space follows a value that was read to its end. -/
def isFinished : Option (List Char) → Bool
  | some rest => (skipSpace rest).isEmpty
  | none => false

/-- The value that a whole text spells. -/
def ofText? (text : String) : Option Json :=
  let (value, rest) := read text
  if isFinished rest then some value else none

end Dataflow.Json
