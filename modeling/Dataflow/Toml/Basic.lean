import Dataflow.Binary64.Basic

/-! TOML documents. A table remembers how it came about, because that decides what may still be
added to it. -/

namespace Dataflow

/-- How a table came about: by a header, on the way to the table of a header, by a dotted key, or
between braces. -/
inductive Toml.Origin
  | header
  | passed
  | dotted
  | braces
deriving DecidableEq

inductive Toml
  | string (text : String)
  | integer (value : Int)
  | float (value : Binary64)
  | boolean (value : Bool)
  | datetime (text : String)
  | array (items : List Toml)
  | table (origin : Toml.Origin) (entries : List (String × Toml))
  | tables (items : List (List (String × Toml)))

namespace Toml

instance : Inhabited Toml := ⟨.table .header []⟩

/-- The entries of a table. -/
abbrev Entries := List (String × Toml)

def Entries.get? (entries : Entries) (key : String) : Option Toml :=
  (entries.find? fun e => e.1 == key).map Prod.snd

def Entries.set (entries : Entries) (key : String) (value : Toml) : Entries :=
  (entries.filter fun e => e.1 != key) ++ [(key, value)]

/-- A table with how it came about. -/
abbrev Table := Origin × Entries

/-- Change the table at the end of a path. Tables that are missing on the way are made, and of a
list of tables the last one is meant. A dotted key may not pass through a table with a header of its
own, and nothing passes through a table in braces. -/
def Table.descend (dotted : Bool) (change : Table → Option Table) :
    List String → Table → Option Table
  | [], t => change t
  | key :: path, (origin, entries) =>
    let next := descend dotted change path
    match entries.get? key with
    | none => do
      let (o, es) ← next (if dotted then .dotted else .passed, [])
      return (origin, entries.set key (.table o es))
    | some (.table o es) =>
      if o = .braces || dotted && o = .header then none
      else do
        let (o, es) ← next (o, es)
        return (origin, entries.set key (.table o es))
    | some (.tables items) =>
      match items.getLast? with
      | none => none
      | some es => do
        let (_, es) ← next (.header, es)
        return (origin, entries.set key (.tables (items.dropLast ++ [es])))
    | some _ => none

/-- Give a value to a dotted key. The table it goes into must be the one the key starts from, or
one that dotted keys made. -/
def Table.assign (path : List String) (key : String) (value : Toml) (t : Table) : Option Table :=
  t.descend true (fun (origin, entries) =>
    if (origin = .dotted) = path.isEmpty || (Entries.get? entries key).isSome then none
    else some (origin, entries ++ [(key, value)])) path

/-- Open the table of a header. It may only have been passed through so far. -/
def Table.openTable (path : List String) (key : String) (t : Table) : Option Table :=
  t.descend false (fun (origin, entries) =>
    match Entries.get? entries key with
    | none => some (origin, entries ++ [(key, .table .header [])])
    | some (.table .passed es) => some (origin, Entries.set entries key (.table .header es))
    | some _ => none) path

/-- Add a table to a list of tables. -/
def Table.addTable (path : List String) (key : String) (t : Table) : Option Table :=
  t.descend false (fun (origin, entries) =>
    match Entries.get? entries key with
    | none => some (origin, entries ++ [(key, .tables [[]])])
    | some (.tables items) => some (origin, Entries.set entries key (.tables (items ++ [[]])))
    | some _ => none) path

end Toml

end Dataflow
