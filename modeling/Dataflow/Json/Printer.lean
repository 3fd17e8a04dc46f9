import Dataflow.Json.Basic

/-! Writing JSON, on one line or with a line per item. -/

namespace Dataflow.Json

/-- One character inside a string. Only quotes, backslashes and control characters are escaped. -/
def escapeChar (c : Char) : List Char :=
  if c = '"' then ['\\', '"']
  else if c = '\\' then ['\\', '\\']
  else if c = '\x08' then ['\\', 'b']
  else if c = '\x0c' then ['\\', 'f']
  else if c = '\n' then ['\\', 'n']
  else if c = '\r' then ['\\', 'r']
  else if c = '\t' then ['\\', 't']
  else if c.toNat < 0x20 then
    ['\\', 'u', '0', '0', Nat.digitChar (c.toNat / 16), Nat.digitChar (c.toNat % 16)]
  else [c]

def stringText (s : String) : List Char := '"' :: s.toList.flatMap escapeChar ++ ['"']

/-- A positive exponent keeps its sign. -/
def exponentText : Option Int → List Char
  | none => []
  | some (.ofNat e) => 'e' :: '+' :: Nat.toDigits 10 e
  | some (.negSucc e) => 'e' :: '-' :: Nat.toDigits 10 (e + 1)

def Number.text (n : Number) : List Char :=
  Binary64.signText n.negative ++ Nat.toDigits 10 n.whole ++
    (if n.fraction.isEmpty then [] else '.' :: n.fraction) ++ exponentText n.exponent

/-- The text of a leaf; those without a value have none. -/
def plainText : Json → List Char
  | .bool true => "true".toList
  | .bool false => "false".toList
  | .number n => n.text
  | .string s => stringText s
  | _ => "null".toList

mutual

/-- A value on one line, before the text `rest`. -/
def compactBefore : Json → List Char → List Char
  | .array [], rest => '[' :: ']' :: rest
  | .array (v :: vs), rest => '[' :: compactBefore v (itemsBefore vs rest)
  | .object [], rest => '\x7b' :: '\x7d' :: rest
  | .object ((name, v) :: ms), rest =>
    '\x7b' :: (stringText name ++ ':' :: compactBefore v (membersBefore ms rest))
  | v, rest => plainText v ++ rest

/-- The further items of an array, with its end. -/
def itemsBefore : List Json → List Char → List Char
  | [], rest => ']' :: rest
  | v :: vs, rest => ',' :: compactBefore v (itemsBefore vs rest)

/-- The further members of an object, with its end. -/
def membersBefore : List (String × Json) → List Char → List Char
  | [], rest => '\x7d' :: rest
  | (name, v) :: ms, rest =>
    ',' :: (stringText name ++ ':' :: compactBefore v (membersBefore ms rest))

end

def compact (v : Json) : String := .ofList (compactBefore v [])

/-- A new line with two spaces per level. -/
def newLine (level : Nat) : List Char := '\n' :: List.replicate (2 * level) ' '

mutual

/-- A value with a line per item, `level` deep, before the text `rest`. -/
def prettyBefore (level : Nat) : Json → List Char → List Char
  | .array [], rest => '[' :: ']' :: rest
  | .array (v :: vs), rest =>
    '[' :: (newLine (level + 1) ++ prettyBefore (level + 1) v (prettyItemsBefore level vs rest))
  | .object [], rest => '\x7b' :: '\x7d' :: rest
  | .object ((name, v) :: ms), rest =>
    '\x7b' :: (newLine (level + 1) ++ stringText name ++ ':' :: ' ' ::
      prettyBefore (level + 1) v (prettyMembersBefore level ms rest))
  | v, rest => plainText v ++ rest

def prettyItemsBefore (level : Nat) : List Json → List Char → List Char
  | [], rest => newLine level ++ ']' :: rest
  | v :: vs, rest =>
    ',' :: (newLine (level + 1) ++ prettyBefore (level + 1) v (prettyItemsBefore level vs rest))

def prettyMembersBefore (level : Nat) : List (String × Json) → List Char → List Char
  | [], rest => newLine level ++ '\x7d' :: rest
  | (name, v) :: ms, rest =>
    ',' :: (newLine (level + 1) ++ stringText name ++ ':' :: ' ' ::
      prettyBefore (level + 1) v (prettyMembersBefore level ms rest))

end

def pretty (v : Json) : String := .ofList (prettyBefore 0 v [])

end Dataflow.Json
