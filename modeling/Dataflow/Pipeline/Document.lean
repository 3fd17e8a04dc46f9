import Dataflow.Json.Printer
import Dataflow.Json.Reader
import Dataflow.Json.Record
import Dataflow.Pipeline.Basic

/-! Pipelines as JSON: the list of their modules and the list of their connections, by identifier.
A document is a pipeline if its connections are between modules it lists and no identifier comes
twice, in whatever order it lists them. -/

namespace Dataflow

open Json (Decoded asId asList asString ofStrings record required tagged)

def TypeName.toJson (t : TypeName) : Json :=
  .object [("package", .string t.package), ("name", .string t.name)]

def TypeName.ofJson (v : Json) : Decoded TypeName := do
  let (package, name) ← record
    [.of "package" asString fun a s => (some a, s.2), .of "name" asString fun a s => (s.1, some a)]
    ((none, none) : Option String × Option String) v
  return ⟨← required package, ← required name⟩

def Module.Function.toJson (f : Module.Function) : Json :=
  .object [("name", .string f.name), ("params", ofStrings f.params)]

def Module.Function.ofJson (v : Json) : Decoded Module.Function := do
  let (name, params) ← record
    [.of "name" asString fun a s => (some a, s.2),
      .of "params" (asList asString) fun a s => (s.1, some a)]
    ((none, none) : Option String × Option (List String)) v
  return ⟨← required name, params.getD []⟩

/-- The members of a module's object. -/
def Module.members (m : Module) : List (String × Json) :=
  [("id", .nat m.id), ("descriptor", m.type.toJson),
    ("functions", .array (m.functions.map Function.toJson))]

def Module.toJson (m : Module) : Json := .object m.members

def Module.ofJson (v : Json) : Decoded Module := do
  let (id, type, functions) ← record
    [.of "id" asId fun a s => (some a, s.2),
      .of "descriptor" TypeName.ofJson fun a s => (s.1, some a, s.2.2),
      .of "functions" (asList Function.ofJson) fun a s => (s.1, s.2.1, some a)]
    ((none, none, none) : Option ModuleId × Option TypeName × Option (List Function)) v
  return ⟨← required id, ← required type, functions.getD []⟩

def PortRef.toJson (r : PortRef) : Json :=
  .object [("module", .nat r.module), ("port", .string r.port)]

def PortRef.ofJson (v : Json) : Decoded PortRef := do
  let (module, port) ← record
    [.of "module" asId fun a s => (some a, s.2), .of "port" asString fun a s => (s.1, some a)]
    ((none, none) : Option ModuleId × Option String) v
  return ⟨← required module, ← required port⟩

/-- The members of a connection's object. -/
def Connection.members (c : Connection) : List (String × Json) :=
  [("id", .nat c.id), ("source", c.source.toJson), ("destination", c.destination.toJson)]

def Connection.toJson (c : Connection) : Json := .object c.members

def Connection.ofJson (v : Json) : Decoded Connection := do
  let (id, source, destination) ← record
    [.of "id" asId fun a s => (some a, s.2),
      .of "source" PortRef.ofJson fun a s => (s.1, some a, s.2.2),
      .of "destination" PortRef.ofJson fun a s => (s.1, s.2.1, some a)]
    ((none, none, none) : Option ConnectionId × Option PortRef × Option PortRef) v
  return ⟨← required id, ← required source, ← required destination⟩

def Edit.toJson : Edit → Json
  | .addModule m => .object (("op", .string "add_module") :: m.members)
  | .setFunction module name params =>
    .object [("op", .string "set_function"), ("module", .nat module), ("name", .string name),
      ("params", ofStrings params)]
  | .addConnection c => .object (("op", .string "add_connection") :: c.members)

/-- The change of one function; its values have to be given, if only as an empty list. -/
def Edit.functionOfJson (v : Json) : Decoded Edit := do
  let (module, name, params) ← record
    [.of "module" asId fun a s => (some a, s.2),
      .of "name" asString fun a s => (s.1, some a, s.2.2),
      .of "params" (asList asString) fun a s => (s.1, s.2.1, some a)]
    ((none, none, none) : Option ModuleId × Option String × Option (List String)) v
  return .setFunction (← required module) (← required name) (← required params)

def Edit.ofJson (v : Json) : Decoded Edit := do
  let (tag, v) ← tagged "op" v
  match tag with
  | .string "add_module" => return .addModule (← Module.ofJson v)
  | .string "set_function" => functionOfJson v
  | .string "add_connection" => return .addConnection (← Connection.ofJson v)
  | _ => .error .malformed

namespace Pipeline

def toJson (p : Pipeline) : Json :=
  .object [("modules", .array (p.modules.values.map Module.toJson)),
    ("connections", .array (p.connections.values.map Connection.toJson))]

/-- The two lists of a document. -/
def partsOfJson (v : Json) : Decoded (List Module × List Connection) := do
  let (modules, connections) ← record
    [.of "modules" (asList Module.ofJson) fun a s => (some a, s.2),
      .of "connections" (asList Connection.ofJson) fun a s => (s.1, some a)]
    ((none, none) : Option (List Module) × Option (List Connection)) v
  return (modules.getD [], connections.getD [])

def ofJson (v : Json) : Except DocumentFault Pipeline :=
  match partsOfJson v with
  | .ok (modules, connections) => (ofParts modules connections).mapError .host
  | .error _ => .error .malformed

/-- The pipeline of a document's text. A document that is whole but not a pipeline is refused as
such, whatever follows it. -/
def ofText (text : String) : Except DocumentFault Pipeline :=
  match Json.read text with
  | (_, none) => .error .malformed
  | (v, some rest) => do
    let p ← ofJson v
    if Json.isFinished (some rest) then .ok p else .error .malformed

def load (files : Files) (path : String) : Except Error Pipeline :=
  match files.read path with
  | .error fault => .error (.file fault)
  | .ok text => (ofText text).mapError fun f => .serialization (.document (.pipeline path) f)

/-- The text of a pipeline's file. -/
def text (p : Pipeline) : String := Json.pretty p.toJson

end Pipeline

end Dataflow
