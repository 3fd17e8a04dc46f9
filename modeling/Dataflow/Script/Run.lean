import Dataflow.Script.Report
import Dataflow.Script.Statement

/-! Running scripts on a workspace. A line that fails is reported, and the next one is run. -/

namespace Dataflow

/-- Where a script finds its files: paths of plots are taken from the base directory. -/
structure Surroundings where
  files : Files
  base : String

namespace Surroundings

/-- A plot of the catalogue, or else one from a file; its directory is that of its package. -/
def plot (env : Surroundings) (descriptor : String) : Work Plot := do
  match (← get).catalogue.plot? descriptor with
  | some p => return p
  | none =>
    let path := Path.join env.base descriptor
    Workspace.ofExcept (Plot.load env.files path ((Path.parent? path).getD "."))

end Surroundings

namespace Statement

/-- Bind known variables to ports. -/
def bindAll (r : Recipe) : List (String × String) → Work Recipe
  | [] => return r
  | (port, name) :: rest => do bindAll (r.bind port (← Workspace.known name)) rest

/-- Run the statement of a line. -/
def run (env : Surroundings) (line : Nat) : Statement → Work Report
  | .assign text => do
    let warnings ← Workspace.performOperation text
    return { warnings := warnings.map fun w => ⟨line, w.text⟩ }
  | .remove name => do
    Workspace.removeVariable name
    return {}
  | .rename old new => do
    Workspace.renameVariable old new
    return {}
  | .plot descriptor bindings => do
    let plot ← env.plot descriptor
    let recipe ← bindAll ⟨plot, ∅⟩ bindings
    let version ← Workspace.createPipeline recipe
    let pipeline ← Workspace.pipeline version
    return { pipelines := [⟨line, plot.name, version, pipeline⟩] }

/-- Run a line; its error becomes its report. -/
def runLine (env : Surroundings) (number : Nat) (line : String) (w : Workspace) :
    Report × Workspace :=
  match ofLine? line with
  | none => ({}, w)
  | some (.error e) => ({ errors := [⟨number, e.message⟩] }, w)
  | some (.ok s) =>
    match Workspace.on (s.run env number) w with
    | (.ok r, w) => (r, w)
    | (.error e, w) => ({ errors := [⟨number, e.message⟩] }, w)

/-- Run lines from a number on. -/
def runLines (env : Surroundings) (number : Nat) : List String → Workspace → Report × Workspace
  | [], w => (.ofVariables w.named, w)
  | line :: rest, w =>
    let (r, w) := runLine env number line w
    let (later, w) := runLines env (number + 1) rest w
    (r.append later, w)

/-- Run a script. -/
def runScript (env : Surroundings) (text : String) (w : Workspace) : Report × Workspace :=
  runLines env 1 (Text.lines text) w

end Statement

end Dataflow
