import Dataflow.Proofs.Store.Changes
import Dataflow.Workspace

/-! What the calls of a workspace answer and leave, in terms of what their parts do to the store. -/

namespace Dataflow

namespace Variable

/-- A variable is removed by pruning its version, or nothing changes. -/
theorem remove_outcome (x : Variable) (s : Store) :
    (∃ e, x.remove.on s = (.error e, s)) ∨
      ∃ v n, x.version = some v ∧ v ≠ VersionId.root ∧ s.versions.get? v = some n ∧
        x.remove.on s = (.ok (), s.without v n) := by
  cases version : x.version with
  | none => exact .inl ⟨_, by rw [remove, written, version]; rfl⟩
  | some v =>
    rw [remove, written, version, Action.on_bind_of_ok (Action.on_ofExcept ..), Action.on_change]
    cases pruned : s.prune v with
    | error fault => exact .inl ⟨_, rfl⟩
    | ok t =>
      obtain ⟨ne, n, there, rfl⟩ := Store.prune_eq_ok pruned
      exact .inr ⟨v, n, rfl, ne, there, rfl⟩

/-- A variable is renamed by tagging its version, or nothing changes. -/
theorem rename_outcome (h : Host) (x : Variable) (name : String) (s : Store) :
    (∃ e, (x.rename h name).on s = (.error e, s)) ∨
      ∃ v n, x.version = some v ∧ s.live v = .ok n ∧
        (x.rename h name).on s = (.ok (), s.tagged v (h.settings.variableTag name)) := by
  cases version : x.version with
  | none => exact .inl ⟨_, by rw [rename, written, version]; rfl⟩
  | some v =>
    rw [rename, written, version, Action.on_bind_of_ok (Action.on_ofExcept ..), Action.on_change]
    cases live : s.live v with
    | error fault => exact .inl ⟨.host fault, by simp [Store.tag, live, Except.map]⟩
    | ok n =>
      rw [Store.tag_of_live live]
      exact .inr ⟨v, n, rfl, live, rfl⟩

end Variable

namespace Workspace

@[simp] theorem on_get (w : Workspace) : on (get : Work Workspace) w = (.ok w, w) := rfl

@[simp] theorem on_modify (f : Workspace → Workspace) (w : Workspace) :
    on (modify f : Work PUnit) w = (.ok ⟨⟩, f w) := rfl

theorem mapError_ok (f : ε → ε') (x : α) :
    (Except.ok x : Except ε α).mapError f = .ok x := rfl

theorem on_bind_eq_ok {a : Work α} {f : α → Work β} {w w' : Workspace} {y : β} :
    on (a >>= f) w = (.ok y, w') ↔ ∃ x v, on a w = (.ok x, v) ∧ on (f x) v = (.ok y, w') := by
  rw [on_bind]
  rcases h : on a w with ⟨r, v⟩
  cases r with
  | ok x =>
    constructor
    · intro g
      exact ⟨x, v, rfl, g⟩
    · rintro ⟨_, _, ⟨⟩, g⟩
      exact g
  | error e => simp

theorem on_bind_of_ok {a : Work α} {w v : Workspace} {x : α} (h : on a w = (.ok x, v))
    (f : α → Work β) : on (a >>= f) w = on (f x) v := by
  rw [on_bind, h]

theorem on_bind_of_error {a : Work α} {w v : Workspace} {e : Error} (h : on a w = (.error e, v))
    (f : α → Work β) : on (a >>= f) w = (.error e, v) := by
  rw [on_bind, h]

theorem on_map (f : α → β) (a : Work α) (w : Workspace) :
    on (f <$> a) w = ((on a w).1.map f, (on a w).2) := by
  rw [map_eq_pure_bind, on_bind]
  rcases on a w with ⟨_ | x, w'⟩ <;> rfl

/-- A variable is registered under a valid free name, once it is written. -/
theorem on_register (w : Workspace) (name : String) (x : Variable) :
    on (register name x) w =
      if isValidName name = false then (.error (.invalidVariableName name), w)
      else if w.named.contains name then (.error (.duplicateVariable name), w)
      else match (x.materialize w.host name).on w.store with
        | (.ok (_, y), s) => (.ok y, { w with store := s, named := w.named.insert name y })
        | (.error e, s) => (.error e, { w with store := s }) := by
  unfold register
  cases valid : isValidName name with
  | false => rfl
  | true =>
    cases known : w.named.contains name with
    | true => simp [on_bind, known]
    | false =>
      simp [on_bind, known, on_act]
      rcases (x.materialize w.host name).on w.store with ⟨_ | ⟨v, y⟩, s⟩ <;> rfl

/-- Registering makes the variable known as it was written, or fails and makes nothing known. -/
theorem register_outcome (w : Workspace) (name : String) (x : Variable) :
    (∃ e w', on (register name x) w = (.error e, w') ∧ w'.named = w.named) ∨
      ∃ v y u, (x.materialize w.host name).on w.store = (.ok (v, y), u) ∧
        on (register name x) w = (.ok y, { w with store := u, named := w.named.insert name y }) := by
  rw [on_register]
  split
  · exact .inl ⟨_, w, rfl, rfl⟩
  · split
    · exact .inl ⟨_, w, rfl, rfl⟩
    · rcases (x.materialize w.host name).on w.store with ⟨e | ⟨v, y⟩, u⟩
      · exact .inl ⟨e, _, rfl, rfl⟩
      · exact .inr ⟨v, y, u, rfl, rfl⟩

theorem on_known (w : Workspace) (name : String) :
    on (known name) w = match w.named.get? name with
      | some x => (.ok x, w)
      | none => (.error (.unknownVariable name), w) := by
  unfold known
  simp only [on_bind, on_get]
  cases w.named.get? name <;> rfl

theorem on_removeVariable (w : Workspace) (name : String) :
    on (removeVariable name) w = match w.named.get? name with
      | none => (.error (.unknownVariable name), w)
      | some x => match x.remove.on w.store with
        | (.ok _, s) => (.ok (), { w with store := s, named := w.named.erase name })
        | (.error e, s) => (.error e, { w with store := s }) := by
  unfold removeVariable
  rw [on_bind, on_known]
  cases w.named.get? name with
  | none => rfl
  | some x =>
    simp only [on_bind, on_act]
    rcases x.remove.on w.store with ⟨_ | _, s⟩ <;> rfl

/-- Removing prunes the version of the variable and erases the name, or changes nothing. -/
theorem removeVariable_outcome (w : Workspace) (name : String) :
    (∃ e, on (removeVariable name) w = (.error e, w)) ∨
      ∃ x v n, w.named.get? name = some x ∧ x.version = some v ∧ v ≠ VersionId.root ∧
        w.store.versions.get? v = some n ∧ on (removeVariable name) w =
          (.ok (), { w with store := w.store.without v n, named := w.named.erase name }) := by
  rw [on_removeVariable]
  cases w.named.get? name with
  | none => exact .inl ⟨_, rfl⟩
  | some x =>
    obtain ⟨e, run⟩ | ⟨v, n, version, ne, there, run⟩ := x.remove_outcome w.store <;> simp only [run]
    · exact .inl ⟨e, rfl⟩
    · exact .inr ⟨x, v, n, rfl, version, ne, there, rfl⟩

theorem on_renameVariable (w : Workspace) (old new : String) :
    on (renameVariable old new) w =
      if isValidName new = false then (.error (.invalidVariableName new), w)
      else match w.named.get? old with
        | none => (.error (.unknownVariable old), w)
        | some x =>
          if old ≠ new ∧ w.named.contains new then (.error (.duplicateVariable new), w)
          else match (x.rename w.host new).on w.store with
            | (.ok _, s) =>
              (.ok (), { w with store := s, named := (w.named.erase old).insert new x })
            | (.error e, s) => (.error e, { w with store := s }) := by
  unfold renameVariable
  cases valid : isValidName new with
  | false => rfl
  | true =>
    simp only [Bool.not_true, Bool.false_eq_true, if_false, reduceCtorEq]
    rw [on_bind, on_known]
    cases w.named.get? old with
    | none => rfl
    | some x =>
      simp only [on_bind, on_get]
      by_cases taken : old ≠ new ∧ w.named.contains new = true
      · simp [taken]
      · simp only [taken, if_false]
        simp only [on_bind, on_act]
        rcases (x.rename w.host new).on w.store with ⟨_ | _, s⟩ <;> rfl

/-- Renaming moves a variable to a valid name that is free or its own, and tags its version for it, or
changes nothing. -/
theorem renameVariable_outcome (w : Workspace) (old new : String) :
    (∃ e, on (renameVariable old new) w = (.error e, w)) ∨
      ∃ x v n, isValidName new = true ∧ w.named.get? old = some x ∧
        (old = new ∨ w.named.contains new = false) ∧ x.version = some v ∧
        w.store.live v = .ok n ∧ on (renameVariable old new) w = (.ok (), { w with
          store := w.store.tagged v (w.host.settings.variableTag new)
          named := (w.named.erase old).insert new x }) := by
  rw [on_renameVariable]
  split
  · exact .inl ⟨_, rfl⟩
  · next valid =>
    cases w.named.get? old with
    | none => exact .inl ⟨_, rfl⟩
    | some x =>
      dsimp only
      split
      · exact .inl ⟨_, rfl⟩
      · next taken =>
        have free : old = new ∨ w.named.contains new = false := by
          by_cases same : old = new
          · exact .inl same
          · exact .inr (by simpa [same] using taken)
        obtain ⟨e, run⟩ | ⟨v, n, version, live, run⟩ := x.rename_outcome w.host new w.store <;>
          simp only [run]
        · exact .inl ⟨e, rfl⟩
        · exact .inr ⟨x, v, n, by simpa using valid, rfl, free, version, live, rfl⟩

theorem on_createPipeline (w : Workspace) (r : Recipe) :
    on (createPipeline r) w = (((r.compile w.host).on w.store).1,
      { w with store := ((r.compile w.host).on w.store).2 }) := on_act _ w

/-- An operation is performed in four steps; the first that fails ends it. -/
theorem on_performOperation (w : Workspace) (text : String) :
    on (performOperation text) w = match Expr.ofText text with
      | .error fault => (.error (.parse fault), w)
      | .ok (target, e) =>
        if w.named.contains target then (.error (.duplicateVariable target), w)
        else match w.scope.bind e.resolve with
          | .error fault => (.error fault, w)
          | .ok (node, warnings) => match (node.execute w.host).on w.store with
            | (.error fault, s) => (.error fault, { w with store := s })
            | (.ok x, s) => match on (register target x) { w with store := s } with
              | (.error fault, w) => (.error fault, w)
              | (.ok _, w) => (.ok warnings, w) := by
  unfold performOperation
  rw [on_bind, on_ofExcept]
  rcases Expr.ofText text with fault | ⟨target, e⟩
  · rfl
  · simp only [mapError_ok, on_bind, on_get]
    cases known : w.named.contains target with
    | true => rfl
    | false =>
      simp only [Bool.false_eq_true, if_false, on_bind, on_get, on_ofExcept]
      cases w.scope with
      | error fault => rfl
      | ok scope =>
        simp only [Except.bind]
        rcases e.resolve scope with fault | ⟨node, warnings⟩
        · rfl
        · simp only [on_act]
          rcases (node.execute w.host).on w.store with ⟨fault | x, s⟩
          · rfl
          · simp only
            rcases on (register target x) { w with store := s } with ⟨_ | _, _⟩ <;> rfl

/-- Performing an operation makes no variable known if it fails, and otherwise the one that its
expression was executed to. -/
theorem performOperation_outcome (w : Workspace) (text : String) :
    (∃ e w', on (performOperation text) w = (.error e, w') ∧ w'.named = w.named) ∨
      ∃ name e scope node warnings x s v y u,
        on (performOperation text) w =
          (.ok warnings, { w with store := u, named := w.named.insert name y }) ∧
        Expr.ofText text = .ok (name, e) ∧ w.scope = .ok scope ∧
        e.resolve scope = .ok (node, warnings) ∧ (node.execute w.host).on w.store = (.ok x, s) ∧
        (x.materialize w.host name).on s = (.ok (v, y), u) := by
  rw [on_performOperation]
  cases Expr.ofText text with
  | error fault => exact .inl ⟨_, w, rfl, rfl⟩
  | ok statement =>
    obtain ⟨target, e⟩ := statement
    dsimp only
    split
    · exact .inl ⟨_, w, rfl, rfl⟩
    · cases sees : w.scope with
      | error fault => exact .inl ⟨_, w, rfl, rfl⟩
      | ok scope =>
        dsimp only [Except.bind]
        rcases resolved : e.resolve scope with fault | ⟨node, warnings⟩
        · exact .inl ⟨_, w, rfl, rfl⟩
        · dsimp only
          rcases executed : (node.execute w.host).on w.store with ⟨fault | x, s⟩
          · exact .inl ⟨_, _, rfl, rfl⟩
          · obtain ⟨fault, w', failed, same⟩ | ⟨v, y, u, written, registered⟩ :=
              register_outcome { w with store := s } target x
            · simp only [failed]
              exact .inl ⟨fault, w', rfl, same⟩
            · simp only [registered]
              exact .inr ⟨target, e, scope, node, warnings, x, s, v, y, u, rfl, rfl, rfl, resolved,
                executed, written⟩

/-- The name that a loaded variable gets. -/
def loadedName (w : Workspace) (loader : Loader) (name : Option String) : String :=
  name.getD (w.uniqueName (loader.defaultName.getD w.host.settings.defaultVariableName))

/-- A loaded variable, recorded as loaded if it has no record of its own. -/
def loaded (loader : Loader) (x : Variable) : Variable :=
  if x.provenance.isSome then x else { x with provenance := some (.loader loader.name ∅) }

theorem on_loadVariable (w : Workspace) (loader : Loader) (name : Option String) :
    on (loadVariable loader name) w =
      if w.named.contains (w.loadedName loader name) then
        (.error (.duplicateVariable (w.loadedName loader name)), w)
      else match (loader.load w.host).on w.store with
        | (.error fault, s) =>
          (.error (.within ("Loader " ++ loader.name ++ " failed") fault), { w with store := s })
        | (.ok x, s) =>
          match on (register (w.loadedName loader name) (loaded loader x)) { w with store := s } with
          | (.error fault, w) => (.error fault, w)
          | (.ok _, v) => (.ok (w.loadedName loader name, loader.reset), v) := by
  unfold loadVariable
  rw [on_bind_of_ok (on_get w)]
  show on (if w.named.contains (w.loadedName loader name) then _ else _) w = _
  cases known : w.named.contains (w.loadedName loader name) with
  | true => rfl
  | false =>
    simp only [Bool.false_eq_true, if_false, on_bind, on_act, Action.on_within]
    rcases (loader.load w.host).on w.store with ⟨fault | x, s⟩
    · rfl
    · have same : name.getD (w.uniqueName (loader.defaultName.getD
          w.host.settings.defaultVariableName)) = w.loadedName loader name := rfl
      have same' : (if x.provenance.isSome then x else
          { x with provenance := some (.loader loader.name ∅) }) = loaded loader x := rfl
      simp only [mapError_ok, same, same']
      rcases on (register (w.loadedName loader name) (loaded loader x)) { w with store := s }
        with ⟨_ | _, _⟩ <;> rfl

/-- Taking up a variable never fails; one that cannot be read is passed over. -/
theorem on_restoreVariable (w : Workspace) (name : String) (v : VersionId) :
    on (restoreVariable name v) w =
      if w.named.contains name then (.ok false, w)
      else match (Variable.restore w.host v).on w.store with
        | (.ok x, s) => (.ok true, { w with store := s, named := w.named.insert name x })
        | (.error _, s) => (.ok false, { w with store := s }) := by
  have run := on_act (fun h => Variable.restore h v) w
  unfold restoreVariable
  generalize act (fun h => Variable.restore h v) = a at run
  rw [on_bind]
  show (if w.named.contains name = true then _ else _ : Work Bool) w = _
  cases known : w.named.contains name with
  | true => rfl
  | false =>
    have run' : a w = _ := run
    rcases restored : (Variable.restore w.host v).on w.store with ⟨_ | _, s⟩
    all_goals
      simp only [restored] at run' ⊢
      simp [tryCatch, tryCatchThe, MonadExcept.tryCatch, MonadExceptOf.tryCatch, ExceptT.tryCatch,
        EarlyReturnT.return, bind, ExceptT.bind, ExceptT.bindCont, StateT.bind, run', ExceptT.mk]
      rfl

theorem after_restoreTagged_cons (w : Workspace) (e : String × VersionId)
    (rest : List (String × VersionId)) :
    (on (restoreTagged (e :: rest)) w).2 =
      (on (restoreTagged rest) (on (restoreVariable e.1 e.2) w).2).2 := by
  obtain ⟨b, v, run⟩ : ∃ b v, on (restoreVariable e.1 e.2) w = (.ok b, v) := by
    rw [on_restoreVariable]
    split
    · exact ⟨_, _, rfl⟩
    · split <;> exact ⟨_, _, rfl⟩
  rw [restoreTagged, on_bind_of_ok run, run, on_bind]
  rcases on (restoreTagged rest) v with ⟨_ | _, _⟩ <;> rfl

/-- The variables that tags of the store name. -/
def taggedVariables (w : Workspace) : List (String × VersionId) :=
  w.store.tags.entries.filterMap fun (tag, version) =>
    (w.host.settings.variableOfTag? tag).map (·, version)

theorem on_restoreVariables (w : Workspace) :
    on restoreVariables w = on (restoreTagged w.taggedVariables) w := rfl

theorem mem_taggedVariables {w : Workspace} {e : String × VersionId} :
    e ∈ w.taggedVariables ↔ ∃ tag, w.store.tags.get? tag = some e.2 ∧
      w.host.settings.variableOfTag? tag = some e.1 := by
  obtain ⟨name, v⟩ := e
  simp only [taggedVariables, List.mem_filterMap, Option.map_eq_some_iff, Prod.exists,
    Prod.mk.injEq, OrderedMap.get?_eq_some_iff]
  constructor
  · rintro ⟨tag, v, there, name, found, rfl, rfl⟩
    exact ⟨tag, there, found⟩
  · rintro ⟨tag, there, found⟩
    exact ⟨tag, v, there, name, found, rfl, rfl⟩

end Workspace

end Dataflow
