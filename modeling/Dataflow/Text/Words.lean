import Dataflow.Text.Blank

/-! Cutting a text into lines and words. All cuts are functions on lists of characters, so that
laws about them are inductions on the text. -/

namespace Dataflow.Text

/-- The text without leading and trailing blanks. -/
def trim (cs : List Char) : List Char :=
  ((cs.dropWhile isBlank).reverse.dropWhile isBlank).reverse

/-- The part before the first blank and the part after that blank; all of it and nothing if there
is none. -/
def cutAtBlank : List Char → List Char × List Char
  | [] => ([], [])
  | c :: cs => if isBlank c then ([], cs) else ((cutAtBlank cs).1.cons c, (cutAtBlank cs).2)

/-- Words with the one being read, which is empty between words. -/
def wordsFrom (word : List Char) : List Char → List (List Char)
  | [] => if word.isEmpty then [] else [word]
  | c :: cs =>
    if isBlank c then
      if word.isEmpty then wordsFrom [] cs else word :: wordsFrom [] cs
    else wordsFrom (word ++ [c]) cs

/-- The maximal runs of characters that are not blank. -/
def words (cs : List Char) : List (List Char) := wordsFrom [] cs

/-- A carriage return before a line feed belongs to the line's end. -/
def withoutReturn (line : List Char) : List Char :=
  if line.getLast? = some '\r' then line.dropLast else line

/-- Lines with the one being read. A line feed ends a line; what follows the last one is a line
only if it is not empty. -/
def linesFrom (line : List Char) : List Char → List (List Char)
  | [] => if line.isEmpty then [] else [line]
  | c :: cs =>
    if c = '\n' then withoutReturn line :: linesFrom [] cs else linesFrom (line ++ [c]) cs

def lines (s : String) : List String := (linesFrom [] s.toList).map String.ofList

/-- The text with every occurrence of `pattern` replaced, found from left to right; `skip` counts
the characters of an occurrence that are still to be passed over. -/
def replaceFrom (pattern replacement : List Char) (skip : Nat) : List Char → List Char
  | [] => []
  | c :: cs =>
    match skip with
    | n + 1 => replaceFrom pattern replacement n cs
    | 0 =>
      if pattern.isPrefixOf (c :: cs) then
        replacement ++ replaceFrom pattern replacement (pattern.length - 1) cs
      else c :: replaceFrom pattern replacement 0 cs

def replace (s pattern replacement : String) : String :=
  String.ofList (replaceFrom pattern.toList replacement.toList 0 s.toList)

/-- The part before the first occurrence of `pattern`; all of it if there is none. -/
def before (pattern : List Char) : List Char → List Char
  | [] => []
  | c :: cs => if pattern.isPrefixOf (c :: cs) then [] else c :: before pattern cs

/-- The parts between the occurrences of a character, one more than there are occurrences. -/
def fields (mark : Char) : List Char → List (List Char)
  | [] => [[]]
  | c :: cs =>
    if c = mark then [] :: fields mark cs
    else match fields mark cs with
      | part :: parts => (c :: part) :: parts
      | [] => [[c]]

/-- The parts before and after the last occurrence of a character. -/
def cutAtLast (mark : Char) : List Char → Option (List Char × List Char)
  | [] => none
  | c :: cs =>
    match cutAtLast mark cs with
    | some (a, b) => some (c :: a, b)
    | none => if c = mark then some ([], cs) else none

/-- The parts before and after the first occurrence of a character. -/
def cutAtFirst (mark : Char) : List Char → Option (List Char × List Char)
  | [] => none
  | c :: cs =>
    if c = mark then some ([], cs) else (cutAtFirst mark cs).map fun p => (c :: p.1, p.2)

end Dataflow.Text
