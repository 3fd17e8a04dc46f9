import Dataflow.Error
import Dataflow.OrderedMap

/-! Pipelines: modules with the values of their functions, and connections between ports. A pipeline
is changed by edits only, and an edit that refers to what is not there is refused. -/

namespace Dataflow

/-- A function of a module with the values it is set to. -/
structure Module.Function where
  name : String
  params : List String
deriving DecidableEq

structure Module where
  id : ModuleId
  type : TypeName
  functions : List Module.Function
deriving DecidableEq

structure PortRef where
  module : ModuleId
  port : String
deriving DecidableEq

structure Connection where
  id : ConnectionId
  source : PortRef
  destination : PortRef
deriving DecidableEq

inductive Edit
  | addModule (module : Module)
  | setFunction (module : ModuleId) (name : String) (params : List String)
  | addConnection (connection : Connection)
deriving DecidableEq

namespace Module

/-- The first value of a function. -/
def value? (m : Module) (name : String) : Option String :=
  match m.functions.find? fun f => f.name == name with
  | some f => f.params.head?
  | none => none

/-- Set a function in its place in the list, or at the end if it was not set before. -/
def setFunctions (name : String) (params : List String) : List Function → List Function
  | [] => [⟨name, params⟩]
  | f :: fs =>
    if f.name = name then ⟨f.name, params⟩ :: fs else f :: setFunctions name params fs

def setFunction (m : Module) (name : String) (params : List String) : Module :=
  { m with functions := setFunctions name params m.functions }

theorem setFunctions_of_fresh {name : String} {params : List String} {fs : List Function}
    (fresh : ∀ f ∈ fs, f.name ≠ name) :
    setFunctions name params fs = fs ++ [⟨name, params⟩] := by
  induction fs with
  | nil => rfl
  | cons f fs ih =>
    simp [setFunctions, fresh f (List.mem_cons_self ..),
      ih fun g hg => fresh g (List.mem_cons_of_mem _ hg)]

end Module

structure Pipeline where
  modules : OrderedMap ModuleId Module
  connections : OrderedMap ConnectionId Connection
deriving DecidableEq

namespace Pipeline

def empty : Pipeline := ⟨∅, ∅⟩

instance : Inhabited Pipeline := ⟨empty⟩

/-- The first end of a connection whose module is not there. -/
def missingEnd? (p : Pipeline) (c : Connection) : Option ModuleId :=
  [c.source.module, c.destination.module].find? fun m => !p.modules.contains m

def apply (p : Pipeline) : Edit → Except HostFault Pipeline
  | .addModule m =>
    if p.modules.contains m.id then .error (.duplicateModule m.id)
    else .ok { p with modules := p.modules.insert m.id m }
  | .setFunction id name params =>
    match p.modules.get? id with
    | some m => .ok { p with modules := p.modules.insert id (m.setFunction name params) }
    | none => .error (.functionOnMissing id)
  | .addConnection c =>
    if p.connections.contains c.id then .error (.duplicateConnection c.id)
    else match p.missingEnd? c with
      | some m => .error (.danglingConnection c.id m)
      | none => .ok { p with connections := p.connections.insert c.id c }

/-- Edits in order; the first that is refused refuses them all. -/
def applyAll (p : Pipeline) : List Edit → Except HostFault Pipeline
  | [] => .ok p
  | e :: es =>
    match p.apply e with
    | .ok q => q.applyAll es
    | .error fault => .error fault

theorem applyAll_append (p : Pipeline) (es fs : List Edit) :
    p.applyAll (es ++ fs) = (p.applyAll es).bind fun q => q.applyAll fs := by
  induction es generalizing p with
  | nil => rfl
  | cons e es ih =>
    simp only [List.cons_append, applyAll]
    cases p.apply e with
    | ok q => exact ih q
    | error fault => rfl

/-- The pipeline of a list of modules and a list of connections. -/
def ofParts (modules : List Module) (connections : List Connection) : Except HostFault Pipeline :=
  empty.applyAll (modules.map .addModule ++ connections.map .addConnection)

def modulesOfType (p : Pipeline) (t : TypeName) : List Module :=
  p.modules.values.filter fun m => m.type == t

def connectionsInto (p : Pipeline) (m : ModuleId) : List Connection :=
  p.connections.values.filter fun c => c.destination.module == m

end Pipeline

end Dataflow
