import Dataflow.Operation.Basic

/-! The operations that are always there: arithmetic on numbers and joining of strings. -/

namespace Dataflow.Operation

def builtinPackage : String := "dat.builtins"

def arithmetic (s : Settings) (op : Arithmetic) : Operation :=
  { name := op.symbol
    package := builtinPackage
    parameters := [⟨"value1", [s.basic "Float"]⟩, ⟨"value2", [s.basic "Float"]⟩]
    returns := s.basic "Float"
    isUsable := true
    implementation := .arithmetic op }

def concatenation (s : Settings) : Operation :=
  { name := Arithmetic.add.symbol
    package := builtinPackage
    parameters := [⟨"str1", [s.basic "String"]⟩, ⟨"str2", [s.basic "String"]⟩]
    returns := s.basic "String"
    isUsable := true
    implementation := .concatenation }

def builtins (s : Settings) : List Operation :=
  Arithmetic.all.map (arithmetic s) ++ [concatenation s]

end Dataflow.Operation
