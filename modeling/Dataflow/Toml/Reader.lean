import Dataflow.Toml.Scalar

/-! Reading TOML: statements line by line, each of which opens a table or gives a value to a key.
Nesting and dotted keys may go 79 levels deep. -/

namespace Dataflow.Toml

/-- The deepest nesting of values, and the most parts of a key. -/
def levels : Nat := 79

def isBare (c : Char) : Bool := c.isAlphanum || c = '-' || c = '_'

/-- One part of a key: a word, or a string on one line. -/
def keyPart? (cs : List Char) : Option (String × List Char) :=
  match cs with
  | '"' :: rest => (lineString '"' true (rest.length + 1) rest).map fun (k, r) => (.ofList k, r)
  | '\'' :: rest => (lineString '\'' false (rest.length + 1) rest).map fun (k, r) => (.ofList k, r)
  | cs =>
    if cs.head?.any isBare then some (.ofList (cs.takeWhile isBare), cs.dropWhile isBare) else none

/-- The parts of a dotted key, with blanks around each. -/
def keyParts? : Nat → List Char → Option (List String × List Char)
  | 0, _ => none
  | fuel + 1, cs => do
    let (part, rest) ← keyPart? (skipBlanks cs)
    match skipBlanks rest with
    | '.' :: rest => do
      let (more, rest) ← keyParts? fuel rest
      return (part :: more, rest)
    | rest => return ([part], rest)

/-- A dotted key as the path to its last part, and that part. -/
def key? (cs : List Char) : Option ((List String × String) × List Char) := do
  let (parts, rest) ← keyParts? levels cs
  return ((parts.dropLast, ← parts.getLast?), rest)

/-- A comment up to the end of its line, or nothing. -/
def skipComment : List Char → List Char
  | '#' :: rest => rest.dropWhile isTextual
  | cs => cs

/-- Blanks, new lines and comments. -/
def skipRemarks : Nat → List Char → List Char
  | 0, cs => cs
  | fuel + 1, cs =>
    let cs := skipBlanks cs
    match newline? (skipComment cs) with
    | some rest => skipRemarks fuel rest
    | none => cs

mutual

/-- A value at most `depth` levels deep. -/
def value? (depth : Nat) : Nat → List Char → Option (Toml × List Char)
  | 0, _ => none
  | fuel + 1, cs =>
    match depth, cs with
    | 0, '[' :: _ | 0, '\x7b' :: _ => none
    | depth + 1, '[' :: rest => do
      let (items, rest) ← items? depth fuel rest
      return (.array items, rest)
    | depth + 1, '\x7b' :: rest =>
      match skipBlanks rest with
      | '\x7d' :: rest => some (.table .braces [], rest)
      | rest => do
        let (t, rest) ← pairs? depth fuel (.header, []) rest
        return (.table .braces t.2, rest)
    | _, cs => scalar? cs

/-- The items of an array and its closing bracket; a comma may follow the last item. -/
def items? (depth : Nat) : Nat → List Char → Option (List Toml × List Char)
  | 0, _ => none
  | fuel + 1, cs =>
    match skipRemarks cs.length cs with
    | ']' :: rest => some ([], rest)
    | cs => do
      let (item, rest) ← value? depth fuel cs
      match skipRemarks rest.length rest with
      | ',' :: rest => do
        let (items, rest) ← items? depth fuel rest
        return (item :: items, rest)
      | ']' :: rest => return ([item], rest)
      | _ => none

/-- The pairs of a table in braces and its closing brace, all on one line. -/
def pairs? (depth : Nat) : Nat → Table → List Char → Option (Table × List Char)
  | 0, _, _ => none
  | fuel + 1, t, cs => do
    let ((path, key), rest) ← key? cs
    let (value, rest) ← value? depth fuel (skipBlanks (← mark? '=' rest))
    let t ← t.assign path key value
    match skipBlanks rest with
    | ',' :: rest => pairs? depth fuel t rest
    | '\x7d' :: rest => return (t, rest)
    | _ => none

end

/-- The text after the end of a line, which may be the end of the text. -/
def lineEnd? (cs : List Char) : Option (List Char) :=
  match skipComment (skipBlanks cs) with
  | [] => some []
  | cs => newline? cs

/-- A document under construction, with the path of the table that its keys go into. -/
structure Draft where
  root : Table
  path : List String

/-- One line with something on it. -/
def statement? (d : Draft) (cs : List Char) : Option (Draft × List Char) :=
  match cs with
  | '[' :: '[' :: rest => do
    let ((path, key), rest) ← key? rest
    let rest ← mark? ']' (← mark? ']' rest)
    return (⟨← d.root.addTable path key, path ++ [key]⟩, rest)
  | '[' :: rest => do
    let ((path, key), rest) ← key? rest
    return (⟨← d.root.openTable path key, path ++ [key]⟩, ← mark? ']' rest)
  | cs => do
    let ((path, key), rest) ← key? cs
    let rest := skipBlanks (← mark? '=' rest)
    let (value, rest) ← value? levels (2 * rest.length + 2) rest
    return (⟨← d.root.descend false (·.assign path key value) d.path, d.path⟩, rest)

/-- The lines of a document; each uses up at least one character. -/
def lines? : Nat → Draft → List Char → Option Draft
  | 0, d, _ => some d
  | fuel + 1, d, cs =>
    match skipRemarks cs.length cs with
    | [] => some d
    | cs =>
      if cs.head? = some '#' then (lineEnd? cs).bind (lines? fuel d)
      else do
        let (d, rest) ← statement? d cs
        lines? fuel d (← lineEnd? rest)

/-- The table that a text spells. A byte order mark in front is passed over. -/
def ofText? (text : String) : Option Entries :=
  let cs := match text.toList with
    | '\ufeff' :: rest => rest
    | cs => cs
  (lines? (cs.length + 1) ⟨(.header, []), []⟩ cs).map fun d => d.root.2

end Dataflow.Toml
