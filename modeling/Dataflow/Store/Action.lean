import Dataflow.Store.Basic

/-! Work on a store that can fail. What was done to the store before a failure stays done, so that an
action which must not leave traces has to fail before it changes anything. -/

namespace Dataflow

abbrev Action := ExceptT Error (StateM Store)

namespace Action

def ofHost (r : Except HostFault α) : Action α :=
  match r with
  | .ok a => pure a
  | .error fault => throw (.host fault)

def ofExcept (r : Except Error α) : Action α :=
  match r with
  | .ok a => pure a
  | .error e => throw e

/-- Look at the store. -/
def query (f : Store → Except HostFault α) : Action α := do ofHost (f (← get))

/-- Replace the store, if the change succeeds. -/
def change (f : Store → Except HostFault Store) : Action Unit := do set (← ofHost (f (← get)))

def createModule (t : TypeName) : Action Module := modifyGet fun s => s.createModule t

def createConnection (source destination : PortRef) : Action Connection :=
  modifyGet fun s => s.createConnection source destination

def commit (edits : List Edit) : Action VersionId := do
  let (v, s) ← ofHost ((← get).commit edits)
  set s
  return v

/-- The action with a context around its error. -/
def within (context : String) (a : Action α) : Action α := ExceptT.adapt (Error.within context) a

/-- What an action answers on a store, and the store after it. -/
def on (a : Action α) (s : Store) : Except Error α × Store := Id.run (StateT.run (ExceptT.run a) s)

@[simp] theorem on_pure (x : α) (s : Store) : (pure x : Action α).on s = (.ok x, s) := rfl

@[simp] theorem on_throw (e : Error) (s : Store) : (throw e : Action α).on s = (.error e, s) := rfl

@[simp] theorem on_get (s : Store) : (get : Action Store).on s = (.ok s, s) := rfl

@[simp] theorem on_set (s t : Store) : (set t : Action PUnit).on s = (.ok ⟨⟩, t) := rfl

/-- The second of two actions starts from the store that the first one left. -/
theorem on_bind (a : Action α) (f : α → Action β) (s : Store) :
    (a >>= f).on s = match a.on s with
      | (.ok x, t) => (f x).on t
      | (.error e, t) => (.error e, t) := by
  simp only [on, ExceptT.run_bind, StateT.run_bind, Id.run_bind]
  rcases Id.run (a.run.run s) with ⟨r, t⟩
  cases r <;> rfl

theorem on_ofExcept (r : Except Error α) (s : Store) : (ofExcept r).on s = (r, s) := by
  cases r <;> rfl

theorem on_ofHost (r : Except HostFault α) (s : Store) :
    (ofHost r).on s = (r.mapError .host, s) := by
  cases r <;> rfl

/-- A look at the store leaves it alone. -/
theorem on_query (f : Store → Except HostFault α) (s : Store) :
    (query f).on s = ((f s).mapError .host, s) := by
  simp [query, on_bind, on_ofHost]

/-- A change that fails leaves the store alone. -/
theorem on_change (f : Store → Except HostFault Store) (s : Store) :
    (change f).on s = match f s with
      | .ok t => (.ok (), t)
      | .error fault => (.error (.host fault), s) := by
  simp only [change, on_bind, on_get, on_ofHost]
  cases f s <;> rfl

@[simp] theorem on_createModule (t : TypeName) (s : Store) :
    (createModule t).on s = (.ok (s.createModule t).1, (s.createModule t).2) := rfl

@[simp] theorem on_createConnection (source destination : PortRef) (s : Store) :
    (createConnection source destination).on s =
      (.ok (s.createConnection source destination).1,
        (s.createConnection source destination).2) := rfl

/-- A commit that fails leaves the store alone. -/
theorem on_commit (edits : List Edit) (s : Store) :
    (commit edits).on s = match s.commit edits with
      | .ok (v, t) => (.ok v, t)
      | .error fault => (.error (.host fault), s) := by
  simp only [commit, on_bind, on_get, on_ofHost]
  cases s.commit edits <;> rfl

theorem on_within (context : String) (a : Action α) (s : Store) :
    (a.within context).on s = ((a.on s).1.mapError (.within context), (a.on s).2) := by
  show Id.run ((Except.mapError (Error.within context) <$> a.run).run s) = _
  rfl

end Action

end Dataflow
