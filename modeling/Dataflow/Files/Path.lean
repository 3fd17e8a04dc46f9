import Dataflow.Text.Words

/-! File paths as text. Repeated separators and single dots inside a path name nothing; a dot at the
start of a path is a part of it. -/

namespace Dataflow.Path

/-- A part that names nothing. -/
def isTrivial (part : List Char) : Bool := part.isEmpty || part == ['.']

/-- The root or the dot that a path starts with, and the rest. -/
def start : List Char → List Char × List Char
  | '/' :: rest => (['/'], rest)
  | ['.'] => (['.'], [])
  | '.' :: '/' :: rest => (['.'], '/' :: rest)
  | cs => ([], cs)

/-- The path without its last part; the root and the empty path have none. -/
def parent? (path : String) : Option String :=
  let (first, body) := start path.toList
  match (Text.fields '/' body).reverse.dropWhile isTrivial with
  | _ :: above =>
    let kept := (above.dropWhile isTrivial).reverse
    some (.ofList (first ++ ['/'].intercalate kept))
  | [] => if first = ['.'] then some "" else none

/-- A path taken from a directory; one that starts at the root stays as it is. -/
def join (directory path : String) : String :=
  if path.toList.head? = some '/' then path
  else if directory.isEmpty || directory.toList.getLast? = some '/' then directory ++ path
  else directory ++ "/" ++ path

/-- The mark that stands for the directory of the package a path belongs to. -/
def packageMark : String := "\x7bpackage_dir\x7d"

/-- A path with the mark of its package replaced. -/
def expand (template packageDir : String) : String := Text.replace template packageMark packageDir

example : parent? "plots//h.json/" = some "plots" := by decide +kernel
example : parent? "h.json" = some "" := by decide +kernel
example : parent? "./h" = some "." := by decide +kernel
example : parent? "/" = none := by decide +kernel
example : expand "\x7bpackage_dir\x7d/t.json" "p" = "p/t.json" := by decide +kernel

end Dataflow.Path
