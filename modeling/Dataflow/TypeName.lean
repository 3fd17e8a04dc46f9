import Dataflow.Text.Words

/-! Module types are named within packages, and written `package:Name`. A package may itself hold
colons, a name may not, so the written form is cut at its last colon. -/

namespace Dataflow

structure TypeName where
  package : String
  name : String
deriving DecidableEq

namespace TypeName

def text (t : TypeName) : String := t.package ++ ":" ++ t.name

def ofText? (s : String) : Option TypeName :=
  match Text.cutAtLast ':' s.toList with
  | some (package, name) =>
    if package.isEmpty || name.isEmpty then none
    else some ⟨.ofList package, .ofList name⟩
  | none => none

end TypeName

end Dataflow
