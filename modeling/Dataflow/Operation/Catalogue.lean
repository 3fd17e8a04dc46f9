import Dataflow.Operation.Builtin
import Dataflow.Plot

/-! The operations and plots that packages provide, in the order in which they came, before the
operations that are always there. -/

namespace Dataflow

structure Catalogue where
  provided : List Operation
  builtins : List Operation
  plots : List Plot

/-- What a package provides. -/
structure Provider where
  package : String
  operations : List Operation
  plots : List Plot

namespace Catalogue

def empty : Catalogue := ⟨[], [], []⟩

instance : Inhabited Catalogue := ⟨empty⟩

def withBuiltins (s : Settings) : Catalogue := { empty with builtins := Operation.builtins s }

def register (c : Catalogue) (op : Operation) : Catalogue :=
  { c with provided := c.provided ++ [op] }

/-- The operation with a package's name, if it has none of its own. -/
def stamped (package : String) (op : Operation) : Operation :=
  if op.package.isEmpty then { op with package } else op

def install (c : Catalogue) (p : Provider) : Catalogue :=
  { c with
    provided := c.provided ++ p.operations.map (stamped p.package)
    plots := c.plots ++ p.plots }

def operations (c : Catalogue) : List Operation := c.provided ++ c.builtins

def size (c : Catalogue) : Nat := c.operations.length

/-- The operations that a name can mean in an expression. -/
def candidates (c : Catalogue) (name : String) : List Operation :=
  c.operations.filter fun op => op.name == name && op.isUsable

def plot? (c : Catalogue) (name : String) : Option Plot := c.plots.find? fun p => p.name == name

end Catalogue

end Dataflow
