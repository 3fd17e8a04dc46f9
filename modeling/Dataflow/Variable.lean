import Dataflow.Draft
import Dataflow.Host
import Dataflow.Provenance.Document

/-! A variable is a typed value that a subgraph produces at one of its ports. It starts as a draft,
is written to the store as a version of its own, and from then on is only copied. -/

namespace Dataflow

structure Variable where
  type : TypeName
  draft : Draft := .empty
  output : Option PortRef := none
  provenance : Option Provenance := none
  version : Option VersionId := none

namespace Variable

/-- The annotations that a variable's version keeps its type and its provenance in. -/
def typeKey : String := "dat.type"

def provenanceKey : String := "dat.provenance"

def isMaterialized (x : Variable) : Bool := x.version.isSome

/-- The version of a variable that has to be written; `subject` is what an error calls it. -/
def written (x : Variable) (subject : String) : Except Error VersionId :=
  match x.version with
  | some v => .ok v
  | none => .error (.notMaterialized subject)

/-- Designate the output, which has to be on a module of the draft and can be done once. -/
def selectOutput (x : Variable) (m : ModuleId) (port : String) : Except Error Variable :=
  if x.output.isSome then .error .outputAlreadyDesignated
  else if x.draft.contains m then .ok { x with output := some ⟨m, port⟩ }
  else .error (.foreignModule m)

def addModule (x : Variable) (t : TypeName) : Action (ModuleId × Variable) := do
  let m ← Action.createModule t
  return (m.id, { x with draft := x.draft.addModule m })

def setFunction (x : Variable) (m : ModuleId) (name : String) (params : List String) :
    Except Error Variable :=
  (x.draft.setFunction m name params).map fun d => { x with draft := d }

def connect (x : Variable) (source destination : PortRef) : Action Variable := do
  let (_, d) ← x.draft.connect source destination
  return { x with draft := d }

/-- Take over the edits of a variable that was not written yet, and give its output. -/
def absorb (x other : Variable) : Except Error (PortRef × Variable) :=
  if other.isMaterialized then .error (.host .absorbedMaterialized)
  else match other.output with
    | some output => .ok (output, { x with draft := x.draft.append other.draft })
    | none => .error .outputNotDesignated

/-- A literal: one module whose value is set. -/
def constant (h : Host) (value : Constant) (t : TypeName) : Action Variable := do
  let port := h.settings.ports.value
  let (m, x) ← ({ type := t } : Variable).addModule t
  let x ← Action.ofExcept (x.setFunction m port [value.text])
  let x ← Action.ofExcept (x.selectOutput m port)
  return { x with provenance := some (.constant value) }

/-- The port that feeds a module which has to have exactly one input. -/
def feed (p : Pipeline) (m : ModuleId) : Except Error PortRef :=
  match p.connectionsInto m with
  | [c] => .ok c.source
  | [] => .error .outputNotDesignated
  | _ => .error (.host (.severalFeeds m))

/-- A draft with fresh copies of all modules and connections of a written variable. -/
def copy (h : Host) (x : Variable) : Action Variable := do
  let version ← Action.ofExcept (x.written x.type.text)
  let root ← h.variablesRoot
  let pipeline ← Action.query (·.pipeline version)
  let output ← Action.ofExcept (feed pipeline root.module)
  let (ids, d) ← Draft.empty.copy pipeline fun m => m.id != root.module
  let inner := pipeline.connections.values.filter fun c => c.destination.module != root.module
  let d ← d.copyConnections ids inner
  match ids.get? output.module with
  | some m =>
    return { type := x.type, draft := d, output := some ⟨m, output.port⟩, provenance := x.provenance }
  | none => throw (.host (.outputNotCopied output.module))

/-- The type of a written variable: the one it was annotated with, or that of its output module. -/
def writtenType (s : Store) (v : VersionId) (p : Pipeline) (output : PortRef) :
    Except Error TypeName :=
  match s.annotation v typeKey with
  | some text => TypeName.parse text
  | none =>
    match p.modules.get? output.module with
    | some m => .ok m.type
    | none => .error (.host (.missingOutput output.module))

/-- The variable that a version was written from. Provenance that cannot be read is left out. -/
def restore (h : Host) (v : VersionId) : Action Variable := do
  let root ← h.variablesRoot
  let pipeline ← Action.query (·.pipeline v)
  let output ← Action.ofExcept (feed pipeline root.module)
  let s ← get
  let type ← Action.ofExcept (writtenType s v pipeline output)
  let provenance := (s.annotation v provenanceKey).bind Provenance.ofText?
  return { type, output := some output, provenance, version := some v }

/-- Tag a new version with the variable's name, and note the variable's type and provenance. -/
def record (h : Host) (x : Variable) (v : VersionId) (name : String) (s : Store) :
    Except HostFault Store := do
  let s ← s.tag v (h.settings.variableTag name)
  let s ← s.annotate v typeKey x.type.text
  match x.provenance with
  | some p => s.annotate v provenanceKey p.document
  | none => return s

/-- Write a variable as a version below the variables root, with its output fed into the root's
module. A version that cannot be recorded is pruned. -/
def materialize (h : Host) (x : Variable) (name : String) : Action (VersionId × Variable) := do
  if x.isMaterialized then throw (.host (.alreadyMaterialized name))
  let some output := x.output | throw .outputNotDesignated
  let root ← h.variablesRoot
  Action.change (·.select root.version)
  let pipe : PortRef := ⟨root.module, h.settings.ports.pipe⟩
  let connection ← Action.createConnection output pipe
  let version ← Action.commit (x.draft.edits ++ [.addConnection connection])
  match record h x version name (← get) with
  | .ok s => set s
  | .error fault =>
    Action.change (·.prune version)
    throw (.host fault)
  return (version, { x with version := some version, draft := .empty })

def remove (x : Variable) : Action Unit := do
  let version ← Action.ofExcept (x.written x.type.text)
  Action.change (·.prune version)

def rename (h : Host) (x : Variable) (name : String) : Action Unit := do
  let version ← Action.ofExcept (x.written name)
  Action.change (·.tag version (h.settings.variableTag name))

/-- The pipeline of a written variable. -/
def pipeline (x : Variable) : Action Pipeline := do
  let version ← Action.ofExcept (x.written x.type.text)
  Action.query (·.pipeline version)

end Variable

end Dataflow
