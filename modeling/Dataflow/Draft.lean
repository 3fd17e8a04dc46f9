import Dataflow.Store.Action

/-! Edits that wait to be committed as one version. A draft knows the modules it adds, and refuses
edits of modules that are not its own; a refused edit leaves it as it was. -/

namespace Dataflow

structure Draft where
  edits : List Edit
  modules : List ModuleId
deriving DecidableEq

/-- Which module of a draft stands for which module of a pipeline that was copied. -/
abbrev Renaming := OrderedMap ModuleId ModuleId

namespace Draft

def empty : Draft := ⟨[], []⟩

instance : Inhabited Draft := ⟨empty⟩

def contains (d : Draft) (m : ModuleId) : Bool := d.modules.contains m

def push (d : Draft) (e : Edit) : Draft := { d with edits := d.edits ++ [e] }

def addModule (d : Draft) (m : Module) : Draft :=
  ⟨d.edits ++ [.addModule m], d.modules.insert m.id⟩

def setFunction (d : Draft) (m : ModuleId) (name : String) (params : List String) :
    Except Error Draft :=
  if d.contains m then .ok (d.push (.setFunction m name params)) else .error (.foreignModule m)

@[simp] theorem contains_addModule (d : Draft) (m : Module) (k : ModuleId) :
    (d.addModule m).contains k = (k == m.id || d.contains k) := by
  rw [Bool.eq_iff_iff]
  simp [contains, addModule]

/-- The first end of a connection that is not in the draft. -/
def foreignEnd? (d : Draft) (source destination : PortRef) : Option ModuleId :=
  [source.module, destination.module].find? fun m => !d.contains m

def connect (d : Draft) (source destination : PortRef) : Action (ConnectionId × Draft) :=
  match d.foreignEnd? source destination with
  | some m => throw (.foreignModule m)
  | none => do
    let c ← Action.createConnection source destination
    return (c.id, d.push (.addConnection c))

/-- All edits of both drafts, the other one's last. -/
def append (d other : Draft) : Draft :=
  ⟨d.edits ++ other.edits, other.modules.foldl (fun ms m => ms.insert m) d.modules⟩

/-- A fresh copy of one module, with its functions set one by one. -/
def copyModule (d : Draft) (m : Module) : Action (ModuleId × Draft) := do
  let copy ← Action.createModule m.type
  let settings := m.functions.map fun f => Edit.setFunction copy.id f.name f.params
  let d := d.addModule copy
  return (copy.id, { d with edits := d.edits ++ settings })

/-- Fresh copies of modules in their order. -/
def copyModules (d : Draft) (done : Renaming) : List Module → Action (Renaming × Draft)
  | [] => return (done, d)
  | m :: ms => do
    let (id, d) ← d.copyModule m
    copyModules d (done.insert m.id id) ms

/-- Fresh copies of those modules of a pipeline that are to be kept. -/
def copy (d : Draft) (p : Pipeline) (keep : Module → Bool) : Action (Renaming × Draft) :=
  d.copyModules ∅ (p.modules.values.filter keep)

/-- The copy of a connection's end. -/
def renamed (ids : Renaming) (c : Connection) (r : PortRef) : Except Error PortRef :=
  match ids.get? r.module with
  | some m => .ok ⟨m, r.port⟩
  | none => .error (.host (.strayConnection c.id r.module))

def copyConnection (d : Draft) (ids : Renaming) (c : Connection) :
    Action (ConnectionId × Draft) := do
  let source ← Action.ofExcept (renamed ids c c.source)
  let destination ← Action.ofExcept (renamed ids c c.destination)
  d.connect source destination

/-- Copies of connections in their order. -/
def copyConnections (d : Draft) (ids : Renaming) : List Connection → Action Draft
  | [] => return d
  | c :: cs => do
    let (_, d) ← d.copyConnection ids c
    copyConnections d ids cs

end Draft

end Dataflow
