/-! Modules, connections and versions are numbered by their store, each kind from its own counter.
Version 0 is the empty pipeline that every store starts from. -/

namespace Dataflow

abbrev ModuleId := Nat

abbrev ConnectionId := Nat

abbrev VersionId := Nat

def ModuleId.text (id : ModuleId) : String := "ModuleId(" ++ toString id ++ ")"

def ConnectionId.text (id : ConnectionId) : String := "ConnectionId(" ++ toString id ++ ")"

def VersionId.root : VersionId := 0

def VersionId.text (id : VersionId) : String :=
  if id = VersionId.root then "VersionId(ROOT)" else "VersionId(" ++ toString id ++ ")"

end Dataflow
