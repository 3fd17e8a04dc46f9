import Dataflow.Variable

/-! Building a variable step by step, with the steps as data. Modules and absorbed outputs are
numbered in the order in which they arise, and later steps refer to them by number. A step either
happens or leaves everything it refers to as it was. -/

namespace Dataflow

/-- A step on a variable under construction. A type or a record that was given as a text is held
with the error that the text led to, if it did. -/
inductive Assembly.Step
  | module (type : Except Error TypeName)
  | moduleNamed (package name : String)
  | function (module : Nat) (port : String) (values : List String)
  | connect (source : Nat) (output : String) (target : Nat) (input : String)
  | output (module : Nat) (port : String)
  | constant (value : Constant) (type : Except Error TypeName)
  | connectOutput (source target : Nat) (input : String)
  | connectOutputs (target : Nat) (inputs : List String)
  | absorbArguments
  | connectArgument (argument target : Nat) (input : String)
  | provenance (record : Except Error Provenance)

/-- A variable under construction, the modules and outputs to refer to, and the arguments that can
be taken over. -/
structure Assembly where
  built : Variable
  modules : List ModuleId := []
  outputs : List PortRef := []
  arguments : List Variable := []

namespace Assembly

/-- The module of a number. -/
def module (a : Assembly) (n : Nat) : ModuleId := a.modules.getD n 0

/-- The output of a number. -/
def output (a : Assembly) (n : Nat) : PortRef := a.outputs.getD n ⟨0, ""⟩

def addModule (a : Assembly) (t : TypeName) : Action Assembly := do
  let (m, x) ← a.built.addModule t
  return { a with built := x, modules := a.modules ++ [m] }

/-- Take over variables in order, each with an output to refer to. -/
def absorbAll (a : Assembly) : List Variable → Except Error Assembly
  | [] => .ok a
  | y :: ys => do
    let (output, x) ← a.built.absorb y
    absorbAll { a with built := x, outputs := a.outputs ++ [output] } ys

/-- Connect outputs to the inputs of a module, each to its own. -/
def connectAll (a : Assembly) (m : ModuleId) : List (PortRef × String) → Action Assembly
  | [] => return a
  | (source, input) :: rest => do
    let x ← a.built.connect source ⟨m, input⟩
    connectAll { a with built := x } m rest

def step (h : Host) (a : Assembly) : Step → Action Assembly
  | .module type => do a.addModule (← Action.ofExcept type)
  | .moduleNamed package name => do a.addModule (← Action.ofExcept (h.resolve ⟨package, name⟩))
  | .function m port values => do
    return { a with built := ← Action.ofExcept (a.built.setFunction (a.module m) port values) }
  | .connect source output target input => do
    let x ← a.built.connect ⟨a.module source, output⟩ ⟨a.module target, input⟩
    return { a with built := x }
  | .output m port => do
    return { a with built := ← Action.ofExcept (a.built.selectOutput (a.module m) port) }
  | .constant value type => do
    let y ← Variable.constant h value (← Action.ofExcept type)
    Action.ofExcept (a.absorbAll [y])
  | .connectOutput source target input =>
    a.connectAll (a.module target) [(a.output source, input)]
  | .connectOutputs target inputs => a.connectAll (a.module target) (a.outputs.zip inputs)
  | .absorbArguments => do
    return { ← Action.ofExcept (a.absorbAll a.arguments) with arguments := [] }
  | .connectArgument n target input => do
    match a.arguments[n]?.bind (·.output) with
    | some source => a.connectAll (a.module target) [(source, input)]
    | none => throw .outputNotDesignated
  | .provenance record => do
    return { a with built := { a.built with provenance := some (← Action.ofExcept record) } }

/-- Take steps up to the first that fails, and tell what was built by then. -/
def run (h : Host) (a : Assembly) : List Step → StateM Store (Except Error Unit × Assembly)
  | [] => return (.ok (), a)
  | s :: rest => do
    match ← (a.step h s).run with
    | .ok b => run h b rest
    | .error e => return (.error e, a)

/-- The variable that steps build, if they all succeed. -/
def build (h : Host) (a : Assembly) (steps : List Step) : Action Variable := do
  let (result, b) ← a.run h steps
  Action.ofExcept result
  return b.built

end Assembly

end Dataflow
