import Dataflow.Json.Printer
import Dataflow.Json.Reader
import Dataflow.Json.Record
import Dataflow.Provenance.Basic

/-! Provenance records as JSON, tagged by their kind. Constants have no tag of their own: an integer
that fits 64 bits is an integer, any other number a float. -/

namespace Dataflow

open Json (Decoded Fault asList asOption asString ofStrings record required tagged)

def Constant.toJson : Constant → Json
  | .integer i => .int i.toInt
  | .float x => .float x
  | .string s => .string s

def Constant.ofJson : Json → Decoded Constant
  | .string s => .ok (.string s)
  | .number n =>
    match n.integer?.bind Constant.ofInt? with
    | some c => .ok c
    | none =>
      match n.toFloat? with
      | some x => .ok (.float x)
      | none => .error .malformed
  | _ => .error .malformed

def OperationRef.toJson (r : OperationRef) : Json :=
  .object [("name", .string r.name), ("package", .string r.package),
    ("signature", ofStrings r.signature)]

def OperationRef.ofJson (v : Json) : Decoded OperationRef := do
  let (name, package, signature) ← record
    [.of "name" asString fun a s => (some a, s.2),
      .of "package" asString fun a s => (s.1, some a, s.2.2),
      .of "signature" (asList asString) fun a s => (s.1, s.2.1, some a)]
    ((none, none, none) : Option String × Option String × Option (List String)) v
  return ⟨← required name, ← required package, ← required signature⟩

namespace Provenance

mutual

def toJson : Provenance → Json
  | .constant value => .object [("kind", .string "constant"), ("value", value.toJson)]
  | .operation op arguments =>
    .object [("kind", .string "operation"), ("operation", op.toJson),
      ("arguments", .array (toJsons arguments))]
  | .loader name parameters =>
    .object [("kind", .string "loader"), ("loader", .string name),
      ("parameters", .object (parameters.entries.map fun e => (e.1, .string e.2)))]

def toJsons : List (Option Provenance) → List Json
  | [] => []
  | none :: rest => .null :: toJsons rest
  | some p :: rest => toJson p :: toJsons rest

end

inductive Kind
  | constant
  | operation
  | loader
deriving DecidableEq

/-- The kind that a tag names. Inside another record the kinds are also known by number. -/
def Kind.ofTag? (isNested : Bool) : Json → Option Kind
  | .string "constant" => some .constant
  | .string "operation" => some .operation
  | .string "loader" => some .loader
  | .number n =>
    if isNested then
      match n.integer? with
      | some 0 => some .constant
      | some 1 => some .operation
      | some 2 => some .loader
      | _ => none
    else none
  | _ => none

/-- Parameters are an object of strings; of two with the same name the later counts. -/
def parametersOfJson : Json → Decoded (OrderedMap String String)
  | .object members => do
    let entries ← members.mapM fun m => (asString m.2).map (m.1, ·)
    return .ofList entries
  | _ => .error .malformed

def constantOfJson (v : Json) : Decoded Provenance := do
  let value ← record [.of "value" Constant.ofJson fun a _ => some a] none v
  return .constant (← required value)

def loaderOfJson (v : Json) : Decoded Provenance := do
  let (name, parameters) ← record
    [.of "loader" asString fun a s => (some a, s.2),
      .of "parameters" parametersOfJson fun a s => (s.1, some a)]
    ((none, none) : Option String × Option (OrderedMap String String)) v
  return .loader (← required name) (parameters.getD ∅)

/-- An operation whose arguments are read by `argument`. -/
def operationOfJson (argument : Json → Decoded Provenance) (v : Json) : Decoded Provenance := do
  let (op, arguments) ← record
    [.of "operation" OperationRef.ofJson fun a s => (some a, s.2),
      .of "arguments" (asList (asOption argument)) fun a s => (s.1, some a)]
    ((none, none) : Option OperationRef × Option (List (Option Provenance))) v
  return .operation (← required op) (← required arguments)

/-- Read a record; the fuel has to be greater than the depth of the value. -/
def ofJsonWithin : Nat → Bool → Json → Decoded Provenance
  | 0, _, _ => .error .malformed
  | fuel + 1, isNested, v => do
    let (tag, v) ← tagged "kind" v
    match Kind.ofTag? isNested tag with
    | some .constant => constantOfJson v
    | some .operation => operationOfJson (ofJsonWithin fuel true) v
    | some .loader => loaderOfJson v
    | none => .error .malformed

def ofJson (v : Json) : Decoded Provenance := ofJsonWithin (v.depth + 1) false v

/-- The deepest nesting of a text that is read back. -/
def levels : Nat := 127

/-- The record of a text, all of which has to be readable, also what the record does not use. -/
def ofText? (text : String) : Option Provenance :=
  match Json.ofText? text with
  | some v => if v.isReadable && v.depth ≤ levels then (ofJson v).toOption else none
  | none => none

/-- The text of a record in an annotation. -/
def document (p : Provenance) : String := p.toJson.compact

end Provenance

end Dataflow
