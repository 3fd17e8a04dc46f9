import Dataflow.Assembly
import Dataflow.Callback

/-! Loaders build variables from outside data. A loader is reset after what it built was accepted. -/

namespace Dataflow

/-- How a loader builds. -/
inductive Loader.Source
  | failing (message : String)
  | constant (value : Constant) (type : Except Error TypeName)
  | assembly (type : Except Error TypeName) (steps : List Assembly.Step)
  | callback (code : Callback)

structure Loader where
  name : String
  defaultName : Option String := none
  source : Loader.Source
  resets : Nat := 0

namespace Loader

def load (h : Host) (l : Loader) : Action Variable :=
  match l.source with
  | .failing message => throw (.host (.other message))
  | .constant value type => do Variable.constant h value (← Action.ofExcept type)
  | .assembly type steps => do
    Assembly.build h { built := { type := ← Action.ofExcept type } } steps
  | .callback code => do
    match ← code.run h (.of []) with
    | some x => return x
    | none => throw .outputNotDesignated

def reset (l : Loader) : Loader := { l with resets := l.resets + 1 }

end Loader

/-- A loader for files, with the endings of the paths it takes. -/
structure FileLoader where
  name : String
  suffixes : List String
  defaultName : Option String := none

namespace FileLoader

def canLoad (l : FileLoader) (path : String) : Bool :=
  l.suffixes.any fun s => s.toList.isSuffixOf path.toList

/-- The loaders that take a file, in their order. -/
def forFile (loaders : List FileLoader) (path : String) : List FileLoader :=
  loaders.filter (·.canLoad path)

end FileLoader

end Dataflow
