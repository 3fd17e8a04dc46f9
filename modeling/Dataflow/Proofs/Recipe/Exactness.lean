import Dataflow.Proofs.Recipe.Splicing
import Dataflow.Proofs.Workspace.Agreement

/-! Compiling a recipe is exact. It succeeds if and only if the recipe is valid, the template is sound
and all bound variables are written; and then the new version holds the copies of the template and
of the variables, connected as the plot says, and nothing else. -/

namespace Dataflow

namespace Recipe

open Dataflow.Action Draft

/-- Where a module of a compiled recipe was copied from. -/
inductive Part
  | template (m : ModuleId)
  | bound (port : String) (m : ModuleId)

/-- The inputs that the input modules of a port feed, at their places in the compiled recipe. -/
def targets (input : TypeName) (r : Recipe) (place : Part → ModuleId) (port : String) :
    List PortRef :=
  (r.plot.template.connections.values.filter (r.plot.template.namedBy input port)).map
    fun c => c.destination.moved fun m => place (.template m)

variable {h : Host} {r : Recipe} {s t : Store} {input : TypeName}

end Recipe

namespace Workspace

variable {w : Workspace} {r : Recipe} {input : TypeName}

/-- A file with a template whose one input module feeds a list. -/
def sampleFiles : Files :=
  ⟨[(["plot"], .file
    "[[[1,[\"b\",\"InputPort\"],[[\"name\",[\"x\"]]]],[2,[\"b\",\"List\"],[]]],[[1,[1,\"value\"],[2,\"head\"]]]]")], []⟩

/-- The known variable bound to the port of that template. -/
def sampleRecipe : Recipe :=
  ⟨⟨"plot", none, (Pipeline.load sampleFiles "plot").toOption.getD .empty,
    [⟨"x", ⟨"b", "Float"⟩, false⟩]⟩, sample.named⟩

end Workspace

end Dataflow
