import Dataflow.Workspace

/-! What a script did: messages and pipelines with the numbers of their lines, and the variables that
were there at the end. -/

namespace Dataflow

structure Report.Variable where
  name : String
  type : TypeName
  version : Option VersionId
  provenance : Option Provenance

structure Report.Plot where
  line : Nat
  name : String
  version : VersionId
  pipeline : Pipeline

structure Report.Message where
  line : Nat
  text : String
deriving DecidableEq

structure Report where
  named : List Report.Variable := []
  pipelines : List Report.Plot := []
  warnings : List Report.Message := []
  errors : List Report.Message := []

namespace Report

def isSuccess (r : Report) : Bool := r.errors.isEmpty

/-- Both reports, one after the other; the variables are those of the later one. -/
def append (r later : Report) : Report :=
  ⟨later.named, r.pipelines ++ later.pipelines, r.warnings ++ later.warnings,
    r.errors ++ later.errors⟩

/-- The report of all that a workspace knows. -/
def ofVariables (named : OrderedMap String Dataflow.Variable) : Report :=
  { named := named.entries.map fun (name, x) => ⟨name, x.type, x.version, x.provenance⟩ }

def Variable.toJson (x : Variable) : Json :=
  .object [("name", .string x.name), ("type", .string x.type.text),
    ("version", (x.version.map Json.nat).getD .null),
    ("provenance", (x.provenance.map Provenance.toJson).getD .null)]

def Plot.toJson (p : Plot) : Json :=
  .object [("line", .nat p.line), ("plot", .string p.name), ("version", .nat p.version),
    ("pipeline", p.pipeline.toJson)]

def Message.toJson (m : Message) : Json :=
  .object [("line", .nat m.line), ("message", .string m.text)]

def toJson (r : Report) : Json :=
  .object [("variables", .array (r.named.map Variable.toJson)),
    ("pipelines", .array (r.pipelines.map Plot.toJson)),
    ("warnings", .array (r.warnings.map Message.toJson)),
    ("errors", .array (r.errors.map Message.toJson))]

end Report

end Dataflow
