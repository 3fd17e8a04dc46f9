import Dataflow.Json.Basic

/-! Taking records out of JSON. A record is an object, or an array of its fields in their order; its
fields are taken in the order of the text, so the first of several faults is the one reported. -/

namespace Dataflow.Json

/-- Why a value is not of the expected kind: its form is wrong, or it is a text of the right form
that names nothing. -/
inductive Fault
  | malformed
  | refused (text : String)
deriving DecidableEq

abbrev Decoded (α : Type) := Except Fault α

/-- A field of a record with what it does to a record under construction. -/
structure Field (σ : Type) where
  name : String
  take : Json → σ → Decoded σ

/-- A field whose value is read first and then put in its place. -/
def Field.of (name : String) (read : Json → Decoded α) (put : α → σ → σ) : Field σ :=
  ⟨name, fun v s => (read v).map fun a => put a s⟩

/-- Members in order; `seen` holds the names of fields met before. -/
def takeMembers (fields : List (Field σ)) (seen : List String) :
    List (String × Json) → σ → Decoded σ
  | [], s => .ok s
  | (_, .fault) :: _, _ => .error .malformed
  | (name, v) :: rest, s =>
    match fields.find? fun f => f.name == name with
    | none => takeMembers fields seen rest s
    | some field =>
      if seen.contains name then .error .malformed
      else do takeMembers fields (name :: seen) rest (← field.take v s)

/-- Items in the order of the fields; fields at the end may be missing. -/
def takeItems : List (Field σ) → List Json → σ → Decoded σ
  | _, [], s => .ok s
  | [], _ :: _, _ => .error .malformed
  | field :: fields, v :: rest, s => do takeItems fields rest (← field.take v s)

/-- The fields of a record, taken into `start`. -/
def record (fields : List (Field σ)) (start : σ) : Json → Decoded σ
  | .object members => takeMembers fields [] members start
  | .array items => takeItems fields items start
  | _ => .error .malformed

/-- A field that must have been there. -/
def required : Option α → Decoded α
  | some a => .ok a
  | none => .error .malformed

def asString : Json → Decoded String
  | .string s => .ok s
  | _ => .error .malformed

def asBool : Json → Decoded Bool
  | .bool b => .ok b
  | _ => .error .malformed

/-- A whole number below a bound. -/
def asNat (bound : Nat) : Json → Decoded Nat
  | .number n =>
    match n.integer? with
    | some (.ofNat k) => if k < bound then .ok k else .error .malformed
    | _ => .error .malformed
  | _ => .error .malformed

/-- An identifier has 64 bits. -/
def asId : Json → Decoded Nat := asNat UInt64.size

def asList (read : Json → Decoded α) : Json → Decoded (List α)
  | .array items => items.mapM read
  | _ => .error .malformed

def asOption (read : Json → Decoded α) : Json → Decoded (Option α)
  | .null => .ok none
  | v => (read v).map some

/-- The tag of a tagged record and the record without it: the tag is a member of an object, wherever
it stands, or the first item of an array. -/
def tagged (tag : String) : Json → Decoded (Json × Json)
  | .object members =>
    match members.filter fun m => m.1 == tag with
    | [m] => .ok (m.2, .object (members.filter fun m => m.1 != tag))
    | _ => .error .malformed
  | .array (first :: rest) => .ok (first, .array rest)
  | _ => .error .malformed

def ofStrings (texts : List String) : Json := .array (texts.map .string)

end Dataflow.Json
