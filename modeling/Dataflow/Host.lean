import Dataflow.Store.Action
import Dataflow.TypeRegistry

/-! What variables and plots are built on besides the store: the known types and the settings. All
variables are children of one version, the variables root, whose only module receives a variable's
output. -/

namespace Dataflow

structure Host where
  types : TypeRegistry
  settings : Settings

/-- The variables root and its module. -/
structure VariablesRoot where
  version : VersionId
  module : ModuleId
deriving DecidableEq

namespace Host

def resolve (h : Host) (t : TypeName) : Except Error TypeName := h.types.resolve t

/-- A type of the basic package that has to be known. -/
def basic (h : Host) (name : String) : Except Error TypeName := h.resolve (h.settings.basic name)

/-- Commit the variables root below the root version. -/
def createVariablesRoot (h : Host) : Action VersionId := do
  let type ← Action.ofExcept (h.basic "OutputPort")
  Action.change (·.select VersionId.root)
  let module ← Action.createModule type
  let version ← Action.commit
    [.addModule module, .setFunction module.id "name" [h.settings.ports.output]]
  Action.change (·.tag version h.settings.tags.variablesRoot)
  return version

/-- The version with the tag of the variables root, made if there is none. -/
def variablesRoot (h : Host) : Action VariablesRoot := do
  let tag := h.settings.tags.variablesRoot
  let version ← match (← get).resolveTag tag with
    | some version => pure version
    | none => h.createVariablesRoot
  let pipeline ← Action.query (·.pipeline version)
  match pipeline.modules.keys with
  | [module] => return ⟨version, module⟩
  | modules => throw (.host (.malformedRoot tag modules.length))

end Host

end Dataflow
