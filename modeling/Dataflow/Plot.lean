import Dataflow.Pipeline.Document

/-! Plots: pipeline templates with named ports that stand for variables. An input module of the
template stands for the port that its name function gives. -/

namespace Dataflow

structure PlotPort where
  name : String
  type : TypeName
  isOptional : Bool
deriving DecidableEq

structure Plot where
  name : String
  description : Option String
  template : Pipeline
  ports : List PlotPort
deriving DecidableEq

/-- A plot as its file describes it, with the path of its template. -/
structure Plot.Description where
  name : String
  description : Option String
  template : String
  ports : List PlotPort

namespace Plot

open Json (Decoded asBool asList asOption asString record required)

/-- A type by its text. -/
def typeOfJson : Json → Decoded TypeName
  | .string text =>
    match TypeName.ofText? text with
    | some t => .ok t
    | none => .error (.refused text)
  | _ => .error .malformed

def portOfJson (v : Json) : Decoded PlotPort := do
  let (name, type, isOptional) ← record
    [.of "name" asString fun a s => (some a, s.2),
      .of "type" typeOfJson fun a s => (s.1, some a, s.2.2),
      .of "optional" asBool fun a s => (s.1, s.2.1, some a)]
    ((none, none, none) : Option String × Option TypeName × Option Bool) v
  return ⟨← required name, ← required type, isOptional.getD false⟩

def Description.ofJson (v : Json) : Decoded Description := do
  let (name, description, template, ports) ← record
    [.of "name" asString fun a s => (some a, s.2),
      .of "description" (asOption asString) fun a s => (s.1, a, s.2.2),
      .of "subworkflow" asString fun a s => (s.1, s.2.1, some a, s.2.2.2),
      .of "ports" (asList portOfJson) fun a s => (s.1, s.2.1, s.2.2.1, some a)]
    ((none, none, none, none) :
      Option String × Option String × Option String × Option (List PlotPort)) v
  return ⟨← required name, description, ← required template, ports.getD []⟩

/-- The description of a document's text. Faults of the content are found in the order of the text,
and before any fault of the text after them. -/
def Description.ofText (text : String) : Except DocumentFault Description :=
  let (v, rest) := Json.read text
  match ofJson v with
  | .ok d => if Json.isFinished rest then .ok d else .error .malformed
  | .error .malformed => .error .malformed
  | .error (.refused text) => .error (.unknownType text)

/-- A plot from its file and that of its template. -/
def load (files : Files) (path packageDir : String) : Except Error Plot := do
  let text ← (files.read path).mapError .file
  let d ← (Description.ofText text).mapError fun f => .serialization (.document (.plot path) f)
  let template ← Pipeline.load files (Path.expand d.template packageDir)
  return ⟨d.name, d.description, template, d.ports⟩

/-- The first port of a name. -/
def port? (p : Plot) (name : String) : Option PlotPort := p.ports.find? fun q => q.name == name

end Plot

end Dataflow
