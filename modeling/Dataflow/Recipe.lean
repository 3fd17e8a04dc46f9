import Dataflow.Plot
import Dataflow.Variable

/-! Recipes bind variables to the ports of a plot. Compiled, a recipe is one version below the root:
a copy of the template without its input modules, and a copy of each bound variable whose output is
connected to all that the port's input modules fed. -/

namespace Dataflow

structure Recipe where
  plot : Plot
  bound : OrderedMap String Variable

/-- The inputs that the input modules of a name feed. -/
abbrev Sockets := OrderedMap String (List PortRef)

namespace Recipe

def bind (r : Recipe) (port : String) (x : Variable) : Recipe :=
  { r with bound := r.bound.insert port x }

/-- Only ports of the plot may be bound, and all that are not optional must be. -/
def validate (r : Recipe) : Except Error Unit :=
  match r.bound.keys.find? fun name => (r.plot.port? name).isNone with
  | some name => .error (.recipe (.unknownPort r.plot.name name))
  | none =>
    match r.plot.ports.find? fun p => !p.isOptional && !r.bound.contains p.name with
    | some p => .error (.recipe (.unboundPort r.plot.name p.name))
    | none => .ok ()

/-- Copy the connections of a template; those that leave an input module are noted as sockets. -/
def copyTemplate (input : TypeName) (template : Pipeline) (ids : Renaming) (d : Draft)
    (sockets : Sockets) : List Connection → Action (Sockets × Draft)
  | [] => return (sockets, d)
  | c :: cs =>
    match template.modules.get? c.source.module with
    | none => throw (.recipe (.missingModule c.source.module))
    | some source =>
      if source.type = input then
        match source.value? "name", ids.get? c.destination.module with
        | none, _ => throw (.recipe (.namelessInput source.id))
        | some name, none => throw (.recipe (.chainedInput name))
        | some name, some m =>
          let socket : PortRef := ⟨m, c.destination.port⟩
          let sockets := sockets.insert name ((sockets.get? name).getD [] ++ [socket])
          copyTemplate input template ids d sockets cs
      else do
        let (_, d) ← d.copyConnection ids c
        copyTemplate input template ids d sockets cs

/-- Connect one output to every socket. -/
def feedAll (source : PortRef) (d : Draft) : List PortRef → Action Draft
  | [] => return d
  | target :: rest => do
    let (_, d) ← d.connect source target
    feedAll source d rest

/-- Copy the connections of a variable; instead of the variables root they feed the sockets. -/
def copyVariable (output : ModuleId) (ids : Renaming) (targets : List PortRef) (d : Draft) :
    List Connection → Action Draft
  | [] => return d
  | c :: cs => do
    if c.destination.module = output then
      match ids.get? c.source.module with
      | none => throw (.host (.sourceNotCopied c.source.module))
      | some m =>
        let d ← feedAll ⟨m, c.source.port⟩ d targets
        copyVariable output ids targets d cs
    else
      let (_, d) ← d.copyConnection ids c
      copyVariable output ids targets d cs

/-- Add the copy of a bound variable, connected to the sockets of its port. -/
def splice (output : ModuleId) (sockets : Sockets) (d : Draft) (port : String) (x : Variable) :
    Action Draft := do
  let version ← Action.ofExcept (x.written port)
  let p ← Action.query (·.pipeline version)
  let (ids, d) ← d.copy p fun m => m.id != output
  copyVariable output ids ((sockets.get? port).getD []) d p.connections.values

def spliceAll (output : ModuleId) (sockets : Sockets) (d : Draft) :
    List (String × Variable) → Action Draft
  | [] => return d
  | (port, x) :: rest => do
    let d ← splice output sockets d port x
    spliceAll output sockets d rest

/-- The edits of a recipe. -/
def draft (h : Host) (r : Recipe) : Action Draft := do
  let input ← Action.ofExcept (h.basic "InputPort")
  let template := r.plot.template
  let (ids, d) ← Draft.empty.copy template fun m => m.type != input
  let (sockets, d) ← copyTemplate input template ids d ∅ template.connections.values
  if r.bound.isEmpty then return d
  else
    let root ← h.variablesRoot
    spliceAll root.module sockets d r.bound.entries

/-- Write a recipe as a version below the root. -/
def compile (h : Host) (r : Recipe) : Action VersionId := do
  Action.ofExcept r.validate
  let d ← r.draft h
  Action.change (·.select VersionId.root)
  Action.commit d.edits

end Recipe

end Dataflow
