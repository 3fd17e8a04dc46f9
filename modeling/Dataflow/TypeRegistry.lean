import Dataflow.Settings

/-! Module types with their parents. A type is added below types that are there already, or below
the root; nothing is ever taken out. -/

namespace Dataflow

structure TypeRegistry where
  root : TypeName
  entries : List (TypeName × List TypeName)
deriving DecidableEq

namespace TypeRegistry

def new (root : TypeName) : TypeRegistry := ⟨root, [(root, [])]⟩

def parents? (r : TypeRegistry) (t : TypeName) : Option (List TypeName) :=
  (r.entries.find? fun e => e.1 == t).map Prod.snd

/-- The parents of a type; a type that is not known has none. -/
def parents (r : TypeRegistry) (t : TypeName) : List TypeName := (r.parents? t).getD []

def contains (r : TypeRegistry) (t : TypeName) : Bool := (r.parents? t).isSome

def insert (r : TypeRegistry) (t : TypeName) (parents : List TypeName) : TypeRegistry :=
  { r with entries := (t, parents) :: r.entries }

def add (r : TypeRegistry) (t : TypeName) (parents : List TypeName) : Except Error TypeRegistry :=
  if r.contains t then .error (.registry (.duplicateType t))
  else match parents.find? fun p => !r.contains p with
    | some missing => .error (.unknownType missing.text)
    | none => .ok (r.insert t (if parents.isEmpty then [r.root] else parents))

def resolve? (r : TypeRegistry) (t : TypeName) : Option TypeName :=
  if r.contains t then some t else none

/-- A type that has to be known. -/
def resolve (r : TypeRegistry) (t : TypeName) : Except Error TypeName :=
  match r.resolve? t with
  | some t => .ok t
  | none => .error (.unknownType t.text)

/-- The types of the basic package below its root, each with its parent. -/
def basicTypes : List (String × String) :=
  [("Constant", "Module"), ("String", "Constant"), ("Float", "Constant"), ("Integer", "Float"),
    ("Boolean", "Constant"), ("List", "Constant"), ("InputPort", "Module"),
    ("OutputPort", "Module"), ("ConcatenateString", "Module")]

def withBasics (s : Settings) : TypeRegistry :=
  let basics := basicTypes.foldl (fun r (name, parent) => r.insert (s.basic name) [s.basic parent])
    (new (s.basic "Module"))
  basics.insert ⟨s.packages.pythoncalc, "PythonCalc"⟩ [s.basic "Module"]

@[simp] theorem root_insert (r : TypeRegistry) (t : TypeName) (ps : List TypeName) :
    (r.insert t ps).root = r.root := rfl

theorem parents?_insert (r : TypeRegistry) (t u : TypeName) (ps : List TypeName) :
    (r.insert t ps).parents? u = if u = t then some ps else r.parents? u := by
  by_cases h : t = u
  · simp [parents?, insert, h]
  · simp [parents?, insert, h, Ne.symm h]

theorem contains_insert (r : TypeRegistry) (t u : TypeName) (ps : List TypeName) :
    (r.insert t ps).contains u = (u == t || r.contains u) := by
  by_cases h : u = t <;> simp [contains, parents?_insert, h]

end TypeRegistry

end Dataflow
