import Dataflow.Proofs.Variable.Workbench

/-! Writing that fails. It fails before the version of the variable is made or not at all, so all that it
can leave in the store is the variables root, and whatever it was given to write is held as before. -/

namespace Dataflow

variable {h : Host} {s t : Store}

namespace Host

/-- The version is the variables root, and there was none before. -/
def Founds (h : Host) (s t : Store) (v : VersionId) : Prop :=
  s.resolveTag h.rootTag = none ∧ ∃ m, h.RootAt t ⟨v, m⟩

/-- All live versions and all tags are there still, and none is new but the variables root and its tag. -/
structure Leaves (h : Host) (s t : Store) : Prop where
  kept : ∀ {v n}, s.live v = .ok n → t.live v = .ok n
  named : ∀ {tag v}, s.resolveTag tag = some v → t.resolveTag tag = some v
  live : ∀ {v n}, t.live v = .ok n → s.live v = .ok n ∨ h.Founds s t v
  tagged : ∀ {tag v}, t.resolveTag tag = some v →
    s.resolveTag tag = some v ∨ tag = h.rootTag ∧ h.Founds s t v

/-- The live versions and the tags are no matter of what is selected or numbered next. -/
theorem leaves_of_same (versions : t.versions = s.versions) (tags : t.tags = s.tags) :
    h.Leaves s t := by
  have live : t.live = s.live := by
    funext v
    rw [Store.live, Store.live, versions]
  have resolve : t.resolveTag = s.resolveTag := by
    funext tag
    rw [Store.resolveTag, Store.resolveTag, tags]
  exact ⟨fun found => live ▸ found, fun found => resolve ▸ found, fun found => .inl (live ▸ found),
    fun found => .inl (resolve ▸ found)⟩

theorem leaves_of_made (hs : s.Valid) (absent : s.tags.get? h.rootTag = none)
    (made : h.RootAt t ⟨s.nextVersion, s.nextModule⟩)
    (versions : t.versions = (h.withRoot s).versions) (tags : t.tags = (h.withRoot s).tags) :
    h.Leaves s t := by
  have founds : h.Founds s t s.nextVersion := ⟨absent, s.nextModule, made⟩
  -- the versions and the tags are as before but for those of the new variables root
  have found : ∀ v, t.versions.get? v =
      if v = s.nextVersion then some (h.rootVersion s.nextModule) else s.versions.get? v := by
    intro v
    rw [versions]
    exact OrderedMap.get?_insert ..
  have named : ∀ tag, t.resolveTag tag =
      if tag = h.rootTag then some s.nextVersion else s.resolveTag tag := by
    intro tag
    rw [Store.resolveTag, tags]
    exact OrderedMap.get?_insert ..
  constructor
  case kept =>
    intro v n live
    obtain ⟨there, unpruned⟩ := Store.live_eq_ok_iff.1 live
    have old : v ≠ s.nextVersion := by
      rintro rfl
      cases hs.fresh.symm.trans there
    exact Store.live_eq_ok_iff.2 ⟨(found v).trans ((if_neg old).trans there), unpruned⟩
  case named =>
    intro tag v there
    have old : tag ≠ h.rootTag := by
      rintro rfl
      cases absent.symm.trans there
    exact (named tag).trans ((if_neg old).trans there)
  case live =>
    intro v n live
    obtain ⟨there, unpruned⟩ := Store.live_eq_ok_iff.1 live
    rw [found] at there
    split at there
    · next new => exact .inr (new ▸ founds)
    · exact .inl (Store.live_eq_ok_iff.2 ⟨there, unpruned⟩)
  case tagged =>
    intro tag v there
    rw [named] at there
    split at there
    · next root =>
      cases there
      exact .inr ⟨root, founds⟩
    · exact .inl there

theorem variablesRoot_eq_error (hs : s.Valid) {e : Error}
    (run : h.variablesRoot.on s = (.error e, t)) : s = t := by
  obtain ⟨_, run'⟩ | ⟨_, _, run', -⟩ | ⟨-, run'⟩ := variablesRoot_cases (h := h) hs <;>
    cases run'.symm.trans run
  rfl

end Host

namespace Variable

variable {x : Variable} {name : String}

/-- The ways in which writing a variable fails, with the error and the store after it. The variable may be
written already or have no output, the variables root may be missed, and last the edits may be refused
below it. -/
inductive Fails (h : Host) (x : Variable) (name : String) (s : Store) : Error → Store → Prop
  | written {v : VersionId} (written : x.version = some v) :
      Fails h x name s (.host (.alreadyMaterialized name)) s
  | undesignated (unwritten : x.version = none) (output : x.output = none) :
      Fails h x name s .outputNotDesignated s
  | unrooted {o : PortRef} {e : Error} (unwritten : x.version = none) (output : x.output = some o)
      (missed : h.variablesRoot.on s = (.error e, s)) : Fails h x name s e s
  | refused {o : PortRef} {r : VariablesRoot} {u : Store} {base : Version} {fault : HostFault}
      (unwritten : x.version = none) (output : x.output = some o)
      (asked : h.variablesRoot.on s = (.ok r, u)) (live : u.live r.version = .ok base)
      (refused : base.pipeline.applyAll (x.edits h r.module o u.nextConnection) = .error fault) :
      Fails h x name s (.host fault)
        { u with current := r.version, nextConnection := u.nextConnection + 1 }

/-- There is no other way for it to fail: a version that was committed can always be recorded. -/
theorem materialize_eq_error_iff (hs : s.Valid) {e : Error} :
    (x.materialize h name).on s = (.error e, t) ↔ x.Fails h name s e t := by
  constructor
  · intro run
    cases written : x.version with
    | some v =>
      simp [materialize, isMaterialized, written] at run
      obtain ⟨rfl, rfl⟩ := run
      exact .written written
    | none =>
      obtain output | ⟨o, output⟩ := Option.eq_none_or_eq_some x.output
      · cases (on_materialize_of_undesignated h name written output s).symm.trans run
        exact .undesignated written output
      · rcases asked : h.variablesRoot.on s with ⟨e' | r, u⟩
        · obtain rfl := Host.variablesRoot_eq_error hs asked
          rw [on_materialize h name written output, Action.on_bind_of_error asked] at run
          cases run
          exact .unrooted written output asked
        · obtain ⟨base, live, ⟨_, fault, refused, -⟩ | ⟨p, -, wrote⟩⟩ :=
            materialize_below h name hs written output asked
          · cases (materialize_of_refused name written output asked live refused).symm.trans run
            exact .refused written output asked live refused
          · cases wrote.symm.trans run
  · rintro (⟨written⟩ | ⟨unwritten, output⟩ | ⟨unwritten, output, missed⟩ |
      ⟨unwritten, output, asked, live, refused⟩)
    · simp [materialize, isMaterialized, written]
    · exact on_materialize_of_undesignated h name unwritten output s
    · rw [on_materialize h name unwritten output, Action.on_bind_of_error missed]
    · exact materialize_of_refused name unwritten output asked live refused

/-- However it fails, it leaves nothing but the variables root. -/
theorem Fails.leaves {e : Error} (fails : x.Fails h name s e t) (hs : s.Valid) : h.Leaves s t := by
  cases fails with
  | written | undesignated | unrooted => exact Host.leaves_of_same rfl rfl
  | refused _ _ asked =>
    obtain ⟨-, -, rfl | ⟨absent, rfl, rfl⟩⟩ := Host.variablesRoot_eq_ok hs asked
    · exact Host.leaves_of_same rfl rfl
    · have root := Host.rootAt_withRoot (h := h) s
      exact Host.leaves_of_made hs absent ⟨root.tag, root.version, root.module⟩ rfl rfl

end Variable

namespace Workbench

theorem held_after_write {b : Workbench} {n : Nat} {x : Variable} {name : String} {e : Error}
    (held : b.held.get? n = some x) (failed : (x.materialize h name).on b.store = (.error e, t)) :
    (b.after h (.write n name)).held = b.held := by
  have found : (Action.ofExcept (b.held.find n)).on b.store = (.ok x, b.store) :=
    Action.on_ofExcept_eq_ok.2 ⟨by rw [Callback.Held.find, held], rfl⟩
  rw [Workbench.after, Act.perform, Action.on_bind_of_ok found, Action.on_bind_of_error failed]

/-- Writing that fails leaves nothing behind. Whatever was done to the store before, and whatever variable
is to be written under whatever name, writing it fails in one of four ways and in no other. Then all
variables are held as they were, all live versions and all tags are as they were, and none is new but the
variables root and its tag. -/
theorem failed_write_leaves {b : Workbench} {rs : List Store.Request}
    (reached : b.store = Store.new.afterAll rs) {n : Nat} {x : Variable}
    (held : b.held.get? n = some x) (name : String) :
    ∀ e t, ((x.materialize h name).on b.store = (.error e, t) ↔ x.Fails h name b.store e t) ∧
      ((x.materialize h name).on b.store = (.error e, t) →
        (b.after h (.write n name)).store = t ∧ (b.after h (.write n name)).held = b.held ∧
          h.Leaves b.store t) := by
  intro e t
  have hs : b.store.Valid := reached ▸ Store.valid_new.afterAll rs
  have ways : (x.materialize h name).on b.store = (.error e, t) ↔ x.Fails h name b.store e t :=
    Variable.materialize_eq_error_iff hs
  refine ⟨ways, fun failed => ⟨?_, held_after_write held failed, (ways.1 failed).leaves hs⟩⟩
  rw [store_after_write held, failed]

/-- A variable of another store, whose module has the identifier that the variables root gets. -/
def foreignVariable : Variable :=
  { type := ⟨"b", "List"⟩
    draft := ⟨[.addModule ⟨1, ⟨"b", "List"⟩, []⟩], [1]⟩
    output := some ⟨1, "value"⟩ }

theorem failed_write_leaves_foreign :
    let b : Workbench := { new with held := .of [foreignVariable] }
    let c := b.after .sample (.write 0 "x")
    (foreignVariable.materialize .sample "x").on b.store =
        (.error (.host (.duplicateModule 1)), c.store) ∧
      c.held = b.held ∧ Host.sample.Leaves b.store c.store ∧
      b.store.resolveTag Host.sample.rootTag = none ∧
      c.store.resolveTag Host.sample.rootTag = some 1 := by
  intro b c
  have failed : (foreignVariable.materialize .sample "x").on b.store =
      (.error (.host (.duplicateModule 1)), c.store) := by rfl
  have reached : b.store = Store.new.afterAll [] := rfl
  obtain ⟨-, left⟩ := failed_write_leaves (h := .sample) reached (n := 0) rfl "x" _ _
  obtain ⟨-, held, leaves⟩ := left failed
  exact ⟨failed, held, leaves, by decide +kernel, by decide +kernel⟩

end Workbench

end Dataflow
