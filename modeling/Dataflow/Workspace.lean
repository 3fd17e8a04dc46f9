import Dataflow.Execution
import Dataflow.Loader
import Dataflow.Recipe

/-! A workspace is a store with its known variables by name. Each call works on the store first and
changes the names last, so that a call that fails knows the same variables as before. -/

namespace Dataflow

structure Workspace where
  host : Host
  catalogue : Catalogue
  store : Store
  named : OrderedMap String Variable

/-- Calls of a workspace. What a call did to the store before it failed stays done. -/
abbrev Work := ExceptT Error (StateM Workspace)

namespace Workspace

/-- A workspace that knows no variables yet. -/
def new (host : Host) (catalogue : Catalogue) (store : Store) : Workspace :=
  ⟨host, catalogue, store, ∅⟩

/-- Work on the store of the workspace. -/
def act (a : Host → Action α) : Work α := do
  let w ← get
  let (r, s) := (a w.host).on w.store
  set { w with store := s }
  match r with
  | .ok x => return x
  | .error e => throw e

def ofExcept (r : Except Error α) : Work α :=
  match r with
  | .ok a => return a
  | .error e => throw e

/-- What a call answers, and the workspace after it. -/
def on (call : Work α) (w : Workspace) : Except Error α × Workspace :=
  Id.run (StateT.run (ExceptT.run call) w)

@[simp] theorem on_pure (x : α) (w : Workspace) : on (pure x) w = (.ok x, w) := rfl

@[simp] theorem on_throw (e : Error) (w : Workspace) :
    on (throw e : Work α) w = (.error e, w) := rfl

/-- The second of two calls finds the workspace that the first one left. -/
theorem on_bind (a : Work α) (f : α → Work β) (w : Workspace) :
    on (a >>= f) w = match on a w with
      | (.ok x, w) => on (f x) w
      | (.error e, w) => (.error e, w) := by
  simp only [on, ExceptT.run_bind, StateT.run_bind, Id.run_bind]
  rcases Id.run (a.run.run w) with ⟨r, v⟩
  cases r <;> rfl

theorem on_ofExcept (r : Except Error α) (w : Workspace) : on (ofExcept r) w = (r, w) := by
  cases r <;> rfl

/-- Work on the store changes nothing but the store. -/
theorem on_act (a : Host → Action α) (w : Workspace) :
    on (act a) w = (((a w.host).on w.store).1, { w with store := ((a w.host).on w.store).2 }) := by
  show on (do
    set { w with store := ((a w.host).on w.store).2 }
    match ((a w.host).on w.store).1 with
      | .ok x => return x
      | .error e => throw e) w = _
  cases ((a w.host).on w.store).1 <;> rfl

def scope (w : Workspace) : Except Error Scope := Scope.of w.host w.catalogue w.named

/-- Write a variable under a name that is valid and free. -/
def register (name : String) (x : Variable) : Work Variable := do
  if !isValidName name then throw (.invalidVariableName name)
  if (← get).named.contains name then throw (.duplicateVariable name)
  let (_, x) ← act fun h => x.materialize h name
  modify fun w => { w with named := w.named.insert name x }
  return x

/-- A statement with its expression resolved. -/
structure Resolved where
  target : String
  node : Node
  warnings : List Ambiguity

/-- Resolve a statement without doing anything. -/
def resolve (text : String) : Work Resolved := do
  let (target, e) ← ofExcept ((Expr.ofText text).mapError .parse)
  let scope ← ofExcept (← get).scope
  let (node, warnings) ← ofExcept (e.resolve scope)
  return { target, node, warnings }

/-- Register the value of a statement's expression under its target. -/
def performOperation (text : String) : Work (List Ambiguity) := do
  let (target, e) ← ofExcept ((Expr.ofText text).mapError .parse)
  if (← get).named.contains target then throw (.duplicateVariable target)
  let scope ← ofExcept (← get).scope
  let (node, warnings) ← ofExcept (e.resolve scope)
  let x ← act fun h => node.execute h
  let _ ← register target x
  return warnings

def addVariable (name : String) (x : Variable) : Work Variable := register name x

/-- A name with a number. -/
def numbered (base : String) (n : Nat) : String := base ++ "_" ++ toString n

/-- The first free one of the names with numbers from `n` on. -/
def firstFree (w : Workspace) (base : String) : Nat → Nat → String
  | n, 0 => numbered base n
  | n, fuel + 1 =>
    if w.named.contains (numbered base n) then firstFree w base (n + 1) fuel
    else numbered base n

/-- The base itself if it is free, else the first free of the base with 2, 3 and so on. One of as
many names as there are variables, and one more, is free. -/
def uniqueName (w : Workspace) (base : String) : String :=
  if w.named.contains base then w.firstFree base 2 w.named.size else base

/-- Build a variable with a loader and register it, by default under a free name. Gives the name,
and the loader as it is afterwards. -/
def loadVariable (loader : Loader) (name : Option String) : Work (String × Loader) := do
  let w ← get
  let name := name.getD (w.uniqueName (loader.defaultName.getD w.host.settings.defaultVariableName))
  if w.named.contains name then throw (.duplicateVariable name)
  let x ← act fun h => (loader.load h).within ("Loader " ++ loader.name ++ " failed")
  let x := if x.provenance.isSome then x
    else { x with provenance := some (.loader loader.name ∅) }
  let _ ← register name x
  return (name, loader.reset)

/-- A known variable. -/
def known (name : String) : Work Variable := do
  match (← get).named.get? name with
  | some x => return x
  | none => throw (.unknownVariable name)

/-- Forget a variable and prune its version. -/
def removeVariable (name : String) : Work Unit := do
  let x ← known name
  act fun _ => x.remove
  modify fun w => { w with named := w.named.erase name }

/-- Give a variable another name, which has to be free unless it is its own. -/
def renameVariable (old new : String) : Work Unit := do
  if !isValidName new then throw (.invalidVariableName new)
  let x ← known old
  if old ≠ new ∧ (← get).named.contains new then throw (.duplicateVariable new)
  act fun h => x.rename h new
  modify fun w => { w with named := (w.named.erase old).insert new x }

/-- Register the variable of a tagged version, unless its name is known or it cannot be read. -/
def restoreVariable (name : String) (version : VersionId) : Work Bool := do
  if (← get).named.contains name then return false
  try
    let x ← act fun h => Variable.restore h version
    modify fun w => { w with named := w.named.insert name x }
    return true
  catch _ => return false

/-- The number of variables of tagged versions that could be registered. -/
def restoreTagged : List (String × VersionId) → Work Nat
  | [] => return 0
  | (name, version) :: rest => do
    let isNew ← restoreVariable name version
    return (if isNew then 1 else 0) + (← restoreTagged rest)

def restoreVariables : Work Nat := do
  let w ← get
  restoreTagged (w.store.tags.entries.filterMap fun (tag, version) =>
    (w.host.settings.variableOfTag? tag).map (·, version))

/-- A workspace on a store with the variables that are tagged in it. -/
def opened (host : Host) (catalogue : Catalogue) (store : Store) : Except Error Workspace :=
  match on restoreVariables (new host catalogue store) with
  | (.ok _, w) => .ok w
  | (.error e, _) => .error e

def createPipeline (r : Recipe) : Work VersionId := act fun h => r.compile h

/-- The pipeline of a version. -/
def pipeline (v : VersionId) : Work Pipeline := act fun _ => Action.query (·.pipeline v)

/-- A cell that a pipeline is to be shown in. -/
structure Cell where
  sheet : String
  row : Nat
  column : Nat
deriving DecidableEq

/-- Where pipelines are handed on to, if it still takes any, with what it was handed. -/
structure Queue where
  isOpen : Bool
  requests : List (VersionId × Cell)

/-- Compile a recipe and hand it on; a recipe that cannot be handed on stays written. -/
def executeRecipe (r : Recipe) (cell : Cell) (q : Queue) : Work (VersionId × Queue) := do
  let version ← createPipeline r
  if q.isOpen then return (version, { q with requests := q.requests ++ [(version, cell)] })
  else throw (.host .executionGone)

end Workspace

end Dataflow
