import Dataflow.Operation.Catalogue

/-! A catalogue is opened, filled while packages load, and sealed; it can be read only after that. -/

namespace Dataflow

inductive Lifecycle
  | absent
  | filling (catalogue : Catalogue)
  | sealed (catalogue : Catalogue)

namespace Lifecycle

instance : Inhabited Lifecycle := ⟨.absent⟩

def init (s : Settings) : Lifecycle → Except Error Lifecycle
  | .absent => .ok (.filling (.withBuiltins s))
  | _ => .error (.registry .alreadyInitialized)

/-- Install a provider, and count its operations. -/
def install (p : Provider) : Lifecycle → Except Error (Nat × Lifecycle)
  | .filling c => .ok (p.operations.length, .filling (c.install p))
  | .absent => .error (.registry .notInitialized)
  | .sealed _ => .error (.registry (.installAfterSeal p.package))

def register (op : Operation) : Lifecycle → Except Error Lifecycle
  | .filling c => .ok (.filling (c.register op))
  | .absent => .error (.registry .notInitialized)
  | .sealed _ => .error (.registry (.registerAfterSeal op.name))

/-- Seal the catalogue; sealing it again gives it again. -/
def finish : Lifecycle → Except Error (Catalogue × Lifecycle)
  | .absent => .error (.registry .notInitialized)
  | .filling c | .sealed c => .ok (c, .sealed c)

def snapshot : Lifecycle → Except Error Catalogue
  | .sealed c => .ok c
  | _ => .error (.registry .notSealed)

end Lifecycle

end Dataflow
