import Dataflow.Operation.Basic

/-! Applying an operation to variables that were not written yet. The result takes over the drafts
of its arguments; unless it has a record of its own it is recorded as the operation on the records
of its arguments. -/

namespace Dataflow.Operation

/-- The two arguments of an operation that needs two. -/
def pair (op : Operation) : List Variable → Except Error (Variable × Variable)
  | [x, y] => .ok (x, y)
  | xs => .error (.implementation op.name (.wrongCount xs.length))

/-- A module with two inputs that are fed by the arguments. -/
def combine (x : Variable) (type : TypeName) (functions : List (String × String))
    (left right : Variable) (leftPort rightPort : String) : Action Variable := do
  let (first, x) ← Action.ofExcept (x.absorb left)
  let (second, x) ← Action.ofExcept (x.absorb right)
  let (m, x) ← x.addModule type
  let x ← functions.foldlM (fun x (name, value) => Action.ofExcept (x.setFunction m name [value])) x
  let x ← x.connect first ⟨m, leftPort⟩
  let x ← x.connect second ⟨m, rightPort⟩
  Action.ofExcept (x.selectOutput m "value")

/-- The output that an input module of a template stands for. -/
def inputOf (op : Operation) (inputs : List (String × PortRef)) (m : Module) :
    Except Error PortRef :=
  match m.value? "name" with
  | none => .error (.implementation op.name .namelessInput)
  | some name =>
    match inputs.reverse.find? fun e => e.1 == name with
    | some e => .ok e.2
    | none => .error (.implementation op.name (.unknownInput name))

/-- The copy of a template's module. -/
def copied (op : Operation) (ids : Renaming) (m : ModuleId) : Except Error ModuleId :=
  match ids.get? m with
  | some m => .ok m
  | none => .error (.implementation op.name (.notCopied m))

/-- A module of a template. -/
def moduleOf (op : Operation) (template : Pipeline) (m : ModuleId) : Except Error Module :=
  match template.modules.get? m with
  | some m => .ok m
  | none => .error (.implementation op.name (.missingModule m))

/-- The types of a template's modules that stand for something else. -/
structure Placeholders where
  input : TypeName
  output : TypeName

/-- Copy the connections of a template. Those from an input module start at an argument's output,
and the one into an output module tells the result's output. -/
def copyTemplate (op : Operation) (template : Pipeline) (types : Placeholders) (ids : Renaming)
    (inputs : List (String × PortRef)) (x : Variable) (output : Option PortRef) :
    List Connection → Action (Variable × Option PortRef)
  | [] => return (x, output)
  | c :: cs => do
    let source ← Action.ofExcept (op.moduleOf template c.source.module)
    let target ← Action.ofExcept (op.moduleOf template c.destination.module)
    let feed ←
      if source.type = types.input then Action.ofExcept (op.inputOf inputs source)
      else do
        let m ← Action.ofExcept (op.copied ids source.id)
        pure ⟨m, c.source.port⟩
    if target.type = types.output then
      if output.isSome then throw (.implementation op.name .severalOutputs)
      copyTemplate op template types ids inputs x (some feed) cs
    else do
      let m ← Action.ofExcept (op.copied ids target.id)
      let x ← x.connect feed ⟨m, c.destination.port⟩
      copyTemplate op template types ids inputs x output cs

/-- Take over arguments, each under the name of its parameter. -/
def absorbNamed (x : Variable) :
    List (Parameter × Variable) → Except Error (List (String × PortRef) × Variable)
  | [] => .ok ([], x)
  | (p, y) :: rest => do
    let (output, x) ← x.absorb y
    let (inputs, x) ← absorbNamed x rest
    return ((p.name, output) :: inputs, x)

/-- The result of a template whose input modules stand for the arguments. -/
def applyTemplate (h : Host) (op : Operation) (template : Pipeline) (arguments : List Variable) :
    Action Variable := do
  let input ← Action.ofExcept (h.basic "InputPort")
  let output ← Action.ofExcept (h.basic "OutputPort")
  let (inputs, x) ← Action.ofExcept
    (absorbNamed { type := op.returns } (op.parameters.zip arguments))
  let (ids, d) ← x.draft.copy template fun m => m.type != input && m.type != output
  let (x, found) ← op.copyTemplate template ⟨input, output⟩ ids inputs { x with draft := d } none
    template.connections.values
  match found with
  | some port => return { x with output := some port }
  | none => throw (.implementation op.name .noOutput)

/-- What the implementation makes of the arguments, if it makes anything. -/
def implement (h : Host) (op : Operation) (arguments : List Variable) :
    Action (Option Variable) :=
  match op.implementation with
  | .failing message => throw (.implementation op.name (.other message))
  | .nothing => return none
  | .argument n => return arguments[n]?
  | .assembly steps => do
    let start : Assembly := { built := { type := op.returns }, arguments }
    return some (← start.build h steps)
  | .callback code => code.run h (.of arguments)
  | .arithmetic symbol => do
    let (left, right) ← Action.ofExcept (op.pair arguments)
    let float ← Action.ofExcept (h.basic "Float")
    let calculator ← Action.ofExcept (h.resolve ⟨h.settings.packages.pythoncalc, "PythonCalc"⟩)
    combine { type := float } calculator [("op", symbol.symbol)] left right "value1" "value2"
  | .concatenation => do
    let (left, right) ← Action.ofExcept (op.pair arguments)
    let string ← Action.ofExcept (h.basic "String")
    let join ← Action.ofExcept (h.basic "ConcatenateString")
    combine { type := string } join [] left right "str1" "str2"
  | .template pipeline => do return some (← op.applyTemplate h pipeline arguments)

def apply (h : Host) (op : Operation) (arguments : List Variable) : Action Variable := do
  match ← op.implement h arguments with
  | none => throw (.implementation op.name .noResult)
  | some x =>
    if x.provenance.isSome then return x
    else return { x with
      provenance := some (.operation op.reference (arguments.map (·.provenance))) }

end Dataflow.Operation
