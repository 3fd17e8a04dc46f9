import Dataflow.Error
import Dataflow.Text.Words

/-! Lines of a script. Whatever has an equals sign after its first word is an assignment, also if
that word is a command's. -/

namespace Dataflow

inductive Statement
  | assign (text : String)
  | plot (descriptor : String) (bindings : List (String × String))
  | remove (name : String)
  | rename (old new : String)
deriving DecidableEq

namespace Statement

/-- A binding of a port to a variable, neither of which may be empty. -/
def binding (word : List Char) : Except UsageFault (String × String) :=
  match Text.cutAtFirst '=' word with
  | some (port, name) =>
    if port.isEmpty || name.isEmpty then .error (.binding (.ofList word))
    else .ok (.ofList port, .ofList name)
  | none => .error (.binding (.ofList word))

def plotOf : List (List Char) → Except UsageFault Statement
  | [] => .error .plot
  | descriptor :: words => (words.mapM binding).map (.plot (.ofList descriptor))

/-- The statement of the words of a line that is no plain assignment. -/
def ofWords (line : List Char) : List (List Char) → Except UsageFault Statement
  | word :: rest =>
    if word = "plot".toList then plotOf rest
    else if word = "del".toList then
      match rest with
      | [name] => .ok (.remove (.ofList name))
      | _ => .error .remove
    else if word = "rename".toList then
      match rest with
      | [old, new] => .ok (.rename (.ofList old) (.ofList new))
      | _ => .error .rename
    else .ok (.assign (.ofList line))
  | [] => .ok (.assign (.ofList line))

/-- The statement of a line; none of a line that is blank or a comment. -/
def ofLine? (line : String) : Option (Except Error Statement) :=
  let line := Text.trim line.toList
  if line.isEmpty || line.head? = some '#' then none
  else if ((Text.cutAtBlank line).2.dropWhile Text.isBlank).head? = some '=' then
    some (.ok (.assign (.ofList line)))
  else some ((ofWords line (Text.words line)).mapError .scriptUsage)

example : (ofLine? " plot = 1").map (·.toOption) = some (some (.assign "plot = 1")) := by
  decide +kernel
example : (ofLine? "plot h x=a=b").map (·.toOption) = some (some (.plot "h" [("x", "a=b")])) := by
  decide +kernel
example : (ofLine? "del a b").map (·.toOption) = some none := by decide +kernel
example : (ofLine? "\t# del a").isNone := by decide +kernel

end Statement

end Dataflow
