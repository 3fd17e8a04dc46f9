import Dataflow.Proofs.Host.VariablesRoot
import Dataflow.Variable

/-! Writing a variable. Until the commit only the variables root is made, and once the version is
committed nothing can fail any more. -/

namespace Dataflow

namespace Variable

/-- The annotations of a variable's version. -/
def annotations (x : Variable) : OrderedMap String String :=
  let typed : OrderedMap String String := OrderedMap.insert ∅ typeKey x.type.text
  match x.provenance with
  | some p => typed.insert provenanceKey p.document
  | none => typed

/-- The connection from a variable's output to the module of the variables root. -/
def feeding (h : Host) (root : ModuleId) (output : PortRef) (id : ConnectionId) : Connection :=
  ⟨id, output, ⟨root, h.settings.ports.pipe⟩⟩

/-- The edits that write a variable. -/
def edits (h : Host) (x : Variable) (root : ModuleId) (output : PortRef) (id : ConnectionId) :
    List Edit :=
  x.draft.edits ++ [.addConnection (feeding h root output id)]

/-- The version that a variable is written as. -/
def versionBelow (x : Variable) (parent : VersionId) (edits : List Edit) (p : Pipeline) : Version :=
  ⟨some parent, edits, p, x.annotations, false⟩

/-- The store after a variable was written. -/
def wrote (h : Host) (x : Variable) (name : String) (s : Store) (parent : VersionId)
    (edits : List Edit) (p : Pipeline) : Store :=
  (Store.extended { s with current := parent, nextConnection := s.nextConnection + 1 }
    (x.versionBelow parent edits p)).tagged s.nextVersion (h.settings.variableTag name)

variable {h : Host} {x : Variable} {name : String} {s t : Store}

theorem record_of_live {v : VersionId} {n : Version} (there : s.versions.get? v = some n)
    (live : n.pruned = false) (bare : n.annotations = ∅) :
    record h x v name s = .ok
      { s.tagged v (h.settings.variableTag name) with
        versions := s.versions.insert v { n with annotations := x.annotations } } := by
  have annotate : ∀ {t : Store} {m : Version} (key value : String),
      t.versions.get? v = some m → m.pruned = false → t.annotate v key value = .ok
        { t with versions :=
            t.versions.insert v { m with annotations := m.annotations.insert key value } } := by
    intro t m key value found hm
    simp [Store.annotate, Store.live_eq_ok_iff.2 ⟨found, hm⟩, Except.map]
  rw [record, Store.tag_of_live (Store.live_eq_ok_iff.2 ⟨there, live⟩)]
  simp only [bind, Except.bind]
  rw [annotate typeKey x.type.text (t := s.tagged v (h.settings.variableTag name)) there live]
  cases hp : x.provenance with
  | none => simp [pure, Except.pure, annotations, hp, bare, Store.tagged]
  | some p =>
    simp only
    rw [annotate provenanceKey p.document
      (m := { n with annotations := n.annotations.insert typeKey x.type.text })
      (OrderedMap.get?_insert_self ..) live]
    simp [annotations, hp, bare, Store.tagged, OrderedMap.insert_insert]

theorem record_extended (h : Host) (x : Variable) (name : String) (s : Store) {n : Version}
    (live : n.pruned = false) (bare : n.annotations = ∅) :
    record h x s.nextVersion name (s.extended n) = .ok
      ((s.extended { n with annotations := x.annotations }).tagged s.nextVersion
        (h.settings.variableTag name)) := by
  rw [record_of_live (n := n) (OrderedMap.get?_insert_self ..) live bare]
  simp [Store.extended, Store.tagged, OrderedMap.insert_insert]

theorem live_wrote (h : Host) (x : Variable) (name : String) (s : Store) (parent : VersionId)
    (edits : List Edit) (p : Pipeline) :
    (wrote h x name s parent edits p).live s.nextVersion = .ok (x.versionBelow parent edits p) :=
  Store.live_eq_ok_iff.2 ⟨OrderedMap.get?_insert_self .., rfl⟩

theorem get?_wrote (h : Host) (x : Variable) (name : String) (hs : s.Valid) (parent : VersionId)
    (edits : List Edit) (p : Pipeline) {v : VersionId} {n : Version}
    (found : s.versions.get? v = some n) :
    (wrote h x name s parent edits p).versions.get? v = some n := by
  have selected : Store.Valid { s with
      current := parent, nextConnection := s.nextConnection + 1 } :=
    (hs.mints ⟨0, 1, rfl⟩).current parent
  exact selected.get?_extended _ found

/-- Writing a variable that can be written asks for the variables root first. -/
theorem on_materialize (h : Host) (name : String) (unwritten : x.version = none) {o : PortRef}
    (output : x.output = some o) (s : Store) :
    (x.materialize h name).on s = (h.variablesRoot >>= fun root => do
      Action.change (·.select root.version)
      let c ← Action.createConnection o ⟨root.module, h.settings.ports.pipe⟩
      let version ← Action.commit (x.draft.edits ++ [.addConnection c])
      match record h x version name (← get) with
      | .ok s => set s
      | .error fault =>
        Action.change (·.prune version)
        throw (.host fault)
      return (version, { x with version := some version, draft := .empty })).on s := by
  obtain ⟨_, _, _, _, _⟩ := x
  cases unwritten
  cases output
  rfl

theorem on_materialize_of_undesignated (h : Host) (name : String) (unwritten : x.version = none)
    (output : x.output = none) (s : Store) :
    (x.materialize h name).on s = (.error .outputNotDesignated, s) := by
  simp [materialize, isMaterialized, unwritten, output]

/-- Below a variables root that was found or made, writing a variable is to commit its edits and to
record it. -/
theorem on_materialize_of_asked (name : String) (unwritten : x.version = none) {o : PortRef}
    (output : x.output = some o) {r : VariablesRoot} {u : Store}
    (asked : h.variablesRoot.on s = (.ok r, u)) {base : Version}
    (live : u.live r.version = .ok base) :
    (x.materialize h name).on s = (Action.commit (x.edits h r.module o u.nextConnection) >>=
      fun version => do
        match record h x version name (← get) with
        | .ok s => set s
        | .error fault =>
          Action.change (·.prune version)
          throw (.host fault)
        return (version, { x with version := some version, draft := .empty })).on
      { u with current := r.version, nextConnection := u.nextConnection + 1 } := by
  have select : (Action.change (·.select r.version)).on u =
      (.ok (), { u with current := r.version }) := by
    rw [Action.on_change, Store.select_of_live live]
  rw [on_materialize h name unwritten output, Action.on_bind_of_ok asked,
    Action.on_bind_of_ok select, Action.on_bind_of_ok (Action.on_createConnection ..)]
  rfl

/-- Where its edits are refused, a variable is not written; the variables root stays selected, and the
identifier of the connection into it is used up. -/
theorem materialize_of_refused (name : String) (unwritten : x.version = none) {o : PortRef}
    (output : x.output = some o) {r : VariablesRoot} {u : Store}
    (asked : h.variablesRoot.on s = (.ok r, u)) {base : Version} (live : u.live r.version = .ok base)
    {fault : HostFault}
    (refused : base.pipeline.applyAll (x.edits h r.module o u.nextConnection) = .error fault) :
    (x.materialize h name).on s = (.error (.host fault),
      { u with current := r.version, nextConnection := u.nextConnection + 1 }) := by
  have base' : Store.live { u with
      current := r.version, nextConnection := u.nextConnection + 1 } r.version = .ok base := live
  rw [on_materialize_of_asked name unwritten output asked live]
  refine Action.on_bind_of_error ?_ _
  rw [Action.on_commit, Store.commit_of_refused base' refused]

theorem materialize_of_accepted (name : String) (unwritten : x.version = none) {o : PortRef}
    (output : x.output = some o) {r : VariablesRoot} {u : Store}
    (asked : h.variablesRoot.on s = (.ok r, u)) {base : Version} (live : u.live r.version = .ok base)
    {p : Pipeline}
    (accepted : base.pipeline.applyAll (x.edits h r.module o u.nextConnection) = .ok p) :
    (x.materialize h name).on s =
      (.ok (u.nextVersion, { x with version := some u.nextVersion, draft := .empty }),
        wrote h x name u r.version (x.edits h r.module o u.nextConnection) p) := by
  let v : Store := { u with
    current := r.version
    nextConnection := u.nextConnection + 1 }
  let n : Version := ⟨some r.version, x.edits h r.module o u.nextConnection, p, ∅, false⟩
  have base' : v.live v.current = .ok base := live
  have commit : (Action.commit (x.edits h r.module o u.nextConnection)).on v =
      (.ok u.nextVersion, v.extended n) := by
    rw [Action.on_commit, Store.commit_of_applyAll base' accepted]
  have recorded : record h x u.nextVersion name (v.extended n) = _ :=
    record_extended h x name v (n := n) rfl rfl
  rw [on_materialize_of_asked name unwritten output asked live]
  refine (Action.on_bind_of_ok commit _).trans ?_
  rw [Action.on_bind_of_ok (Action.on_get _)]
  simp only [recorded, output]
  rfl

/-- What writing does below the variables root that is found or made: the edits are refused, or the
variable is written. -/
theorem materialize_below (h : Host) (name : String) (hs : s.Valid) (unwritten : x.version = none)
    {o : PortRef} (output : x.output = some o) {r : VariablesRoot} {u : Store}
    (asked : h.variablesRoot.on s = (.ok r, u)) :
    ∃ base, u.live r.version = .ok base ∧
      ((∃ e fault,
          base.pipeline.applyAll (x.edits h r.module o u.nextConnection) = .error fault ∧
          (x.materialize h name).on s =
            (.error e, { u with current := r.version, nextConnection := u.nextConnection + 1 })) ∨
        ∃ p, base.pipeline.applyAll (x.edits h r.module o u.nextConnection) = .ok p ∧
          (x.materialize h name).on s =
            (.ok (u.nextVersion, { x with version := some u.nextVersion, draft := .empty }),
              wrote h x name u r.version (x.edits h r.module o u.nextConnection) p)) := by
  obtain ⟨-, ⟨base, live, -⟩, -⟩ := Host.variablesRoot_eq_ok hs asked
  refine ⟨base, live, ?_⟩
  cases applies : base.pipeline.applyAll (x.edits h r.module o u.nextConnection) with
  | error fault =>
    exact .inl ⟨_, fault, rfl, materialize_of_refused name unwritten output asked live applies⟩
  | ok p =>
    exact .inr ⟨p, rfl, materialize_of_accepted name unwritten output asked live applies⟩

/-- What writing a variable does: nothing, or only the variables root is made and selected since the
edits are refused, or the variable is written. -/
theorem materialize_cases (h : Host) (name : String) (hs : s.Valid) (x : Variable) :
    (∃ e, (x.materialize h name).on s = (.error e, s)) ∨
    ∃ o r u base, x.version = none ∧ x.output = some o ∧ h.variablesRoot.on s = (.ok r, u) ∧
      u.live r.version = .ok base ∧
      ((∃ e fault,
          base.pipeline.applyAll (x.edits h r.module o u.nextConnection) = .error fault ∧
          (x.materialize h name).on s =
            (.error e, { u with current := r.version, nextConnection := u.nextConnection + 1 })) ∨
        ∃ p, base.pipeline.applyAll (x.edits h r.module o u.nextConnection) = .ok p ∧
          (x.materialize h name).on s =
            (.ok (u.nextVersion, { x with version := some u.nextVersion, draft := .empty }),
              wrote h x name u r.version (x.edits h r.module o u.nextConnection) p)) := by
  cases written : x.version with
  | some v =>
    refine .inl ⟨.host (.alreadyMaterialized name), ?_⟩
    simp [materialize, isMaterialized, written]
  | none =>
    obtain output | ⟨o, output⟩ := Option.eq_none_or_eq_some x.output
    · exact .inl ⟨_, on_materialize_of_undesignated h name written output s⟩
    · rcases asked : h.variablesRoot.on s with ⟨e | r, u⟩
      · refine .inl ⟨e, ?_⟩
        rw [on_materialize h name written output]
        obtain ⟨e', run⟩ | ⟨r, n, run, -⟩ | ⟨absent, run⟩ := Host.variablesRoot_cases (h := h) hs
        · rw [run] at asked
          cases asked
          exact Action.on_bind_of_error run _
        · rw [run] at asked
          cases asked
        · rw [run] at asked
          cases asked
      · obtain ⟨base, live, outcome⟩ := materialize_below h name hs written output asked
        exact .inr ⟨o, r, u, base, rfl, output, rfl, live, outcome⟩

/-- A variable fails to be written for want of an output or of the type of the variables root, or for
reasons of the store. -/
theorem raises_materialize {P : Error → Prop} (host : ∀ fault, P (.host fault))
    (unknown : ∀ t, P (.unknownType t)) (undesignated : P .outputNotDesignated) (h : Host)
    (x : Variable) (name : String) : Action.Raises P (x.materialize h name) := by
  intro s e failed
  cases written : x.version with
  | some v =>
    simp [materialize, isMaterialized, written] at failed
    exact failed ▸ host _
  | none =>
    obtain output | ⟨o, output⟩ := Option.eq_none_or_eq_some x.output
    · rw [on_materialize_of_undesignated h name written output] at failed
      cases failed
      exact undesignated
    · rw [on_materialize h name written output] at failed
      refine (Host.raises_variablesRoot host unknown h).bind (fun root => ?_) s e failed
      refine (Action.raises_change host _).bind fun _ => ?_
      refine (Action.raises_createConnection _ _).bind fun c => ?_
      refine (Action.raises_commit host _).bind fun version => ?_
      refine Action.raises_get.bind fun t => ?_
      split
      · exact (Action.raises_set _).bind fun _ => Action.raises_pure _
      · exact (Action.raises_change host _).bind fun _ => Action.raises_throw (host _)

end Variable

end Dataflow
