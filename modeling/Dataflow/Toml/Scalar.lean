import Dataflow.Binary64.Decimal
import Dataflow.Json.Reader
import Dataflow.Toml.Basic

/-! The values of TOML that hold no others. Every function takes what it reads off the front of a
text and returns the rest; a text that only starts well is refused by what comes after it. -/

namespace Dataflow.Toml

/-- What comments and strings may hold: anything but control characters, and tabs. -/
def isTextual (c : Char) : Bool := c = '\t' || 0x20 ≤ c.toNat && c.toNat ≠ 0x7F

def skipBlanks (cs : List Char) : List Char := cs.dropWhile fun c => c = ' ' || c = '\t'

def newline? : List Char → Option (List Char)
  | '\n' :: rest | '\r' :: '\n' :: rest => some rest
  | _ => none

/-- Blanks and new lines, by a fuel that covers the text. -/
def skipLines : Nat → List Char → List Char
  | 0, cs => cs
  | fuel + 1, cs =>
    let cs := skipBlanks cs
    match newline? cs with
    | some rest => skipLines fuel rest
    | none => cs

/-- The code point of a run of hexadecimal digits, if it is a character's. -/
def codePoint? (digits : List Char) : Option Char := do
  let code ← digits.foldlM (fun n c => (Json.hexValue? c).map (16 * n + ·)) 0
  if 0xD800 ≤ code ∧ code < 0xE000 ∨ 0x110000 ≤ code then none else some (Char.ofNat code)

/-- The character of an escape, after its backslash. -/
def escape? : List Char → Option (Char × List Char)
  | 'b' :: rest => some ('\x08', rest)
  | 't' :: rest => some ('\t', rest)
  | 'n' :: rest => some ('\n', rest)
  | 'f' :: rest => some ('\x0c', rest)
  | 'r' :: rest => some ('\r', rest)
  | '"' :: rest => some ('"', rest)
  | '\\' :: rest => some ('\\', rest)
  | 'u' :: rest =>
    if rest.length < 4 then none else (codePoint? (rest.take 4)).map (·, rest.drop 4)
  | 'U' :: rest =>
    if rest.length < 8 then none else (codePoint? (rest.take 8)).map (·, rest.drop 8)
  | _ => none

/-- The rest of a string on one line; without `escapes` a backslash stands for itself. -/
def lineString (quote : Char) (escapes : Bool) : Nat → List Char → Option (List Char × List Char)
  | 0, _ | _, [] => none
  | fuel + 1, c :: cs =>
    if c = quote then some ([], cs)
    else if c = '\\' && escapes then do
      let (c, rest) ← escape? cs
      let (more, rest) ← lineString quote escapes fuel rest
      return (c :: more, rest)
    else if isTextual c then do
      let (more, rest) ← lineString quote escapes fuel cs
      return (c :: more, rest)
    else none

/-- The rest of a string over several lines. It ends with three quotes, and up to two more before
them belong to it. A line feed ends each line however it was written, and a backslash at the end of
a line joins it to the next text. -/
def linesString (quote : Char) (escapes : Bool) : Nat → List Char → Option (List Char × List Char)
  | 0, _ | _, [] => none
  | fuel + 1, c :: cs =>
    if c = quote then
      let run := ((c :: cs).takeWhile (· = quote)).length
      if run < 3 then do
        let (more, rest) ← linesString quote escapes fuel ((c :: cs).drop run)
        return (List.replicate run quote ++ more, rest)
      else
        let own := min (run - 3) 2
        some (List.replicate own quote, (c :: cs).drop (own + 3))
    else if c = '\\' && escapes then
      match newline? (skipBlanks cs) with
      | some rest => linesString quote escapes fuel (skipLines rest.length rest)
      | none => do
        let (c, rest) ← escape? cs
        let (more, rest) ← linesString quote escapes fuel rest
        return (c :: more, rest)
    else match newline? (c :: cs) with
      | some rest => do
        let (more, rest) ← linesString quote escapes fuel rest
        return ('\n' :: more, rest)
      | none =>
        if isTextual c then do
          let (more, rest) ← linesString quote escapes fuel cs
          return (c :: more, rest)
        else none

def string? (cs : List Char) : Option (String × List Char) :=
  let several (quote : Char) (escapes : Bool) (rest : List Char) :=
    linesString quote escapes (rest.length + 1) ((newline? rest).getD rest)
  let found := match cs with
    | '"' :: '"' :: '"' :: rest => several '"' true rest
    | '\'' :: '\'' :: '\'' :: rest => several '\'' false rest
    | '"' :: rest => lineString '"' true (rest.length + 1) rest
    | '\'' :: rest => lineString '\'' false (rest.length + 1) rest
    | _ => none
  found.map fun (text, rest) => (.ofList text, rest)

/-- Digits of a kind with single underscores between them. -/
def digitRun (isDigit : Char → Bool) : List Char → List Char × List Char
  | '_' :: c :: cs =>
    if isDigit c then (c :: (digitRun isDigit cs).1, (digitRun isDigit cs).2)
    else ([], '_' :: c :: cs)
  | c :: cs =>
    if isDigit c then (c :: (digitRun isDigit cs).1, (digitRun isDigit cs).2) else ([], c :: cs)
  | [] => ([], [])

/-- At least one digit; the first has no underscore before it. -/
def digits? (isDigit : Char → Bool) : List Char → Option (List Char × List Char)
  | [] => none
  | c :: cs =>
    if isDigit c then
      let (more, rest) := digitRun isDigit cs
      some (c :: more, rest)
    else none

/-- Digits without a zero before others. -/
def decimal? : List Char → Option (List Char × List Char)
  | '0' :: rest => some (['0'], rest)
  | cs => digits? Char.isDigit cs

def sign : List Char → Bool × List Char
  | '-' :: rest => (true, rest)
  | '+' :: rest => (false, rest)
  | cs => (false, cs)

/-- The point and the digits after it, if there is a point. -/
def fraction? : List Char → Option (List Char × List Char)
  | '.' :: rest => digits? Char.isDigit rest
  | cs => some ([], cs)

/-- The value of an exponent, if there is one. -/
def exponent? : List Char → Option (Option Int × List Char)
  | [] => some (none, [])
  | c :: cs =>
    if c = 'e' || c = 'E' then
      let (negative, rest) := sign cs
      (digits? Char.isDigit rest).map fun (digits, rest) =>
        let value := Binary64.digitsValue digits
        (some (if negative then -value else value), rest)
    else some (none, c :: cs)

/-- An integer has 64 bits. -/
def integer? (i : Int) : Option Toml :=
  if Int64.minValue.toInt ≤ i ∧ i ≤ Int64.maxValue.toInt then some (.integer i) else none

/-- A number of another base, after its mark. -/
def based? (base : Nat) (cs : List Char) : Option (Toml × List Char) := do
  let isDigit (c : Char) : Bool := (Json.hexValue? c).any (· < base)
  let (digits, rest) ← digits? isDigit cs
  let value := digits.foldl (fun n c => base * n + (Json.hexValue? c).getD 0) 0
  return (← integer? value, rest)

/-- A number in decimal notation: with a point or an exponent it is a float, which may not be
beyond the largest one. -/
def plainNumber? (cs : List Char) : Option (Toml × List Char) := do
  let (negative, unsigned) := sign cs
  let (whole, rest) ← decimal? unsigned
  let (fraction, rest) ← fraction? rest
  let (exponent, rest) ← exponent? rest
  if fraction.isEmpty && exponent.isNone then
    let value := Binary64.digitsValue whole
    return (← integer? (if negative then -value else value), rest)
  else
    let value := Binary64.ofDecimal negative (Binary64.digitsValue (whole ++ fraction))
      (exponent.getD 0 - fraction.length)
    if value = .infinite false then none else return (.float value, rest)

/-- Exactly `n` digits, with a value in a range. -/
def field? (n low high : Nat) (cs : List Char) : Option (Nat × List Char) :=
  let digits := cs.take n
  let value := Binary64.digitsValue digits
  if digits.length = n ∧ digits.all Char.isDigit ∧ low ≤ value ∧ value ≤ high then
    some (value, cs.drop n)
  else none

def mark? (c : Char) : List Char → Option (List Char)
  | d :: rest => if d = c then some rest else none
  | [] => none

def daysIn (year month : Nat) : Nat :=
  if month = 2 then
    if year % 4 = 0 ∧ (year % 100 ≠ 0 ∨ year % 400 = 0) then 29 else 28
  else if [4, 6, 9, 11].contains month then 30 else 31

/-- The text after a date. -/
def date? (cs : List Char) : Option (List Char) := do
  let (year, rest) ← field? 4 0 9999 cs
  let (month, rest) ← field? 2 1 12 (← mark? '-' rest)
  let (_, rest) ← field? 2 1 (daysIn year month) (← mark? '-' rest)
  return rest

/-- The text after a time of day. -/
def time? (cs : List Char) : Option (List Char) := do
  let (_, rest) ← field? 2 0 23 cs
  let (_, rest) ← field? 2 0 59 (← mark? ':' rest)
  let (_, rest) ← field? 2 0 60 (← mark? ':' rest)
  match rest with
  | '.' :: rest =>
    if rest.head?.any Char.isDigit then some (rest.dropWhile Char.isDigit) else none
  | rest => some rest

/-- The text after the offset of a time, if there is one. -/
def offset? : List Char → Option (List Char)
  | 'Z' :: rest | 'z' :: rest => some rest
  | '+' :: rest | '-' :: rest => do
    let (_, rest) ← field? 2 0 23 rest
    let (_, rest) ← field? 2 0 59 (← mark? ':' rest)
    return rest
  | rest => some rest

/-- A date, a time, or a date with a time after it. -/
def datetime? (cs : List Char) : Option (Toml × List Char) := do
  let rest ← match date? cs with
    | some (c :: rest) =>
      if c = 'T' || c = 't' then (time? rest).bind offset?
      else if c = ' ' then
        if rest.head?.any Char.isDigit then (time? rest).bind offset? else some (c :: rest)
      else some (c :: rest)
    | some [] => some []
    | none => time? cs
  return (.datetime (.ofList (cs.take (cs.length - rest.length))), rest)

def word? (cs : List Char) : Option (Toml × List Char) :=
  let (negative, unsigned) := sign cs
  match cs, unsigned with
  | 't' :: 'r' :: 'u' :: 'e' :: rest, _ => some (.boolean true, rest)
  | 'f' :: 'a' :: 'l' :: 's' :: 'e' :: rest, _ => some (.boolean false, rest)
  | _, 'i' :: 'n' :: 'f' :: rest => some (.float (.infinite negative), rest)
  | _, 'n' :: 'a' :: 'n' :: rest => some (.float .nan, rest)
  | _, _ => none

/-- Any value that holds no others. -/
def scalar? (cs : List Char) : Option (Toml × List Char) :=
  match cs with
  | '"' :: _ | '\'' :: _ => (string? cs).map fun (text, rest) => (.string text, rest)
  | '0' :: 'x' :: rest => based? 16 rest
  | '0' :: 'o' :: rest => based? 8 rest
  | '0' :: 'b' :: rest => based? 2 rest
  | _ => (datetime? cs).or ((word? cs).or (plainNumber? cs))

end Dataflow.Toml
