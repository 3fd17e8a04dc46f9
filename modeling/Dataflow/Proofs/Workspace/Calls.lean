import Dataflow.Proofs.Execution
import Dataflow.Proofs.Recipe.Compiling
import Dataflow.Proofs.Variable.Shape
import Dataflow.Proofs.Workspace.Runs

/-! Calls of a workspace and all that they can do to it. A call prepares the store, writes a variable,
forgets one, renames one, takes up variables of the store, or adds a compiled recipe. -/

namespace Dataflow

inductive Call
  | performOperation (text : String)
  | addVariable (name : String) (x : Variable)
  | loadVariable (loader : Loader) (name : Option String)
  | renameVariable (old new : String)
  | removeVariable (name : String)
  | restoreVariables
  | createPipeline (r : Recipe)

/-- A variable that is handed over was built by calls on variables, on whatever store. -/
def Call.Admissible : Call → Prop
  | .addVariable _ x => x.Built
  | _ => True

namespace Workspace

/-- The workspace after a call, whether that succeeded or not. -/
def after (w : Workspace) : Call → Workspace
  | .performOperation text => (on (performOperation text) w).2
  | .addVariable name x => (on (addVariable name x) w).2
  | .loadVariable loader name => (on (loadVariable loader name) w).2
  | .renameVariable old new => (on (renameVariable old new) w).2
  | .removeVariable name => (on (removeVariable name) w).2
  | .restoreVariables => (on restoreVariables w).2
  | .createPipeline r => (on (createPipeline r) w).2

/-- All that calls can do to a workspace. -/
inductive Effect (w : Workspace) : Workspace → Prop
  | prepared {u : Store} (v : VersionId) (prepares : w.host.Prepares w.store u) :
      Effect w { w with store := { u with current := v } }
  | wrote {t u : Store} {name : String} {x : Variable} {g : Pipeline} {o : PortRef}
      {r : VariablesRoot} {base : Version} (valid : isValidName name = true)
      (free : w.named.contains name = false) (prepares : w.host.Prepares w.store t)
      (asked : w.host.variablesRoot.on t = (.ok r, u)) (live : u.live r.version = .ok base)
      (drawn : x.Drawn g) (output : x.output = some o) (apart : base.pipeline.Apart g)
      (fresh : (base.pipeline.join g).connections.get? u.nextConnection = none)
      (accepted : base.pipeline.applyAll (x.edits w.host r.module o u.nextConnection) =
        .ok ((base.pipeline.join g).withConnection
          (Variable.feeding w.host r.module o u.nextConnection))) :
      Effect w { w with
        store := x.wrote w.host name u r.version (x.edits w.host r.module o u.nextConnection)
          ((base.pipeline.join g).withConnection
            (Variable.feeding w.host r.module o u.nextConnection))
        named := w.named.insert name { x with version := some u.nextVersion, draft := .empty } }
  | forgot {name : String} {x : Variable} {v : VersionId} {n : Version}
      (known : w.named.get? name = some x) (version : x.version = some v)
      (ne : v ≠ VersionId.root) (there : w.store.versions.get? v = some n) :
      Effect w { w with store := w.store.without v n, named := w.named.erase name }
  | renamed {old new : String} {x : Variable} {v : VersionId} {n : Version}
      (valid : isValidName new = true) (known : w.named.get? old = some x)
      (free : old = new ∨ w.named.contains new = false) (version : x.version = some v)
      (live : w.store.live v = .ok n) :
      Effect w { w with
        store := w.store.tagged v (w.host.settings.variableTag new)
        named := (w.named.erase old).insert new x }
  | restored {u : Store} {named : OrderedMap String Variable}
      (prepares : w.host.Prepares w.store u)
      (found : ∀ name x, named.get? name = some x → w.named.get? name = some x ∨
        w.named.contains name = false ∧ ∃ tag v s p, x.version = some v ∧
          w.store.tags.get? tag = some v ∧ w.host.settings.variableOfTag? tag = some name ∧
          w.host.Prepares w.store s ∧ s.pipeline v = .ok p ∧ p.connections.values ≠ [])
      (kept : ∀ name x, w.named.get? name = some x → named.get? name = some x) :
      Effect w { w with store := u, named }
  | compiled {u : Store} {edits : List Edit} {p : Pipeline}
      (prepares : w.host.Prepares w.store u) (applies : Pipeline.empty.applyAll edits = .ok p)
      (minted : p.Minted w.store u)
      (own : ∀ r, w.store.tags.get? w.host.rootTag = none → w.host.RootAt u r →
        p.modules.contains r.module = false) :
      Effect w { w with store := Recipe.branched u edits p }

variable {w : Workspace}

theorem Effect.of_prepares {u : Store} (prepares : w.host.Prepares w.store u) :
    w.Effect { w with store := u } := .prepared u.current prepares

theorem Effect.refl (w : Workspace) : w.Effect w := .of_prepares (.mints (.refl w.store))

theorem Effect.valid {w' : Workspace} (effect : w.Effect w') (hs : w.store.Valid) :
    w'.store.Valid := by
  cases effect with
  | prepared v prepares => exact (prepares.valid hs).current v
  | @wrote t u name x g o r base _ _ prepares asked live _ _ _ _ accepted =>
    have ht := prepares.valid hs
    have rooted := Host.preparing_variablesRoot.prepares ht asked
    have hu := rooted.valid ht
    have closed := (hu.wellFormed (Store.live_eq_ok_iff.1 live).1).applyAll accepted
    have selected := (hu.mints ⟨0, 1, rfl⟩).current r.version
    exact (selected.extended (n := x.versionBelow r.version _ _) closed).tag
      (OrderedMap.get?_insert_self ..) rfl _
  | forgot _ _ ne there => exact hs.without ne there
  | renamed _ _ _ _ live =>
    obtain ⟨there, unpruned⟩ := Store.live_eq_ok_iff.1 live
    exact hs.tag there unpruned _
  | restored prepares _ _ => exact prepares.valid hs
  | compiled prepares applies _ _ =>
    exact ((prepares.valid hs).current _).extended (Pipeline.wellFormed_empty.applyAll applies)

/-- Whatever a call does, it leaves every version as it is, or marks it as pruned. -/
theorem Effect.aged {w' : Workspace} (effect : w.Effect w') (hs : w.store.Valid) {v : VersionId}
    {n : Version} (found : w.store.versions.get? v = some n) :
    ∃ m, w'.store.versions.get? v = some m ∧ (m = n ∨ m = { n with pruned := true }) := by
  cases effect with
  | prepared _ prepares => exact ⟨n, prepares.kept hs found, .inl rfl⟩
  | @wrote t u name x g o r base _ _ prepares asked =>
    have rooted := Host.preparing_variablesRoot.prepares (prepares.valid hs) asked
    have hu := rooted.valid (prepares.valid hs)
    have there := rooted.kept (prepares.valid hs) (prepares.kept hs found)
    exact ⟨n, hu.get?_extended _ there, .inl rfl⟩
  | @forgot name x v' m _ _ _ there =>
    by_cases same : v = v'
    · subst same
      obtain rfl : n = m := Option.some.inj (found.symm.trans there)
      exact ⟨_, Store.get?_without_eq_some_iff.2 (.inl ⟨rfl, rfl⟩), .inr rfl⟩
    · exact ⟨n, Store.get?_without_eq_some_iff.2 (.inr ⟨same, found⟩), .inl rfl⟩
  | renamed => exact ⟨n, found, .inl rfl⟩
  | restored prepares => exact ⟨n, prepares.kept hs found, .inl rfl⟩
  | compiled prepares =>
    exact ⟨n, ((prepares.valid hs).current _).get?_extended _ (prepares.kept hs found), .inl rfl⟩

theorem Effect.kept {w' : Workspace} (effect : w.Effect w') (hs : w.store.Valid) {v : VersionId}
    {n : Version} (found : w.store.versions.get? v = some n) :
    ∃ m, w'.store.versions.get? v = some m ∧ m.pipeline = n.pipeline := by
  obtain ⟨m, there, rfl | rfl⟩ := effect.aged hs found
  · exact ⟨m, there, rfl⟩
  · exact ⟨_, there, rfl⟩

/-- Registering a variable that was built on a prepared store writes it, or only prepares. -/
theorem effect_register (hs : w.store.Valid) {t : Store} (prepares : w.host.Prepares w.store t)
    (name : String) {x : Variable} (proper : x.Proper) :
    w.Effect (on (register name x) { w with store := t }).2 := by
  rw [on_register]
  split
  · exact .of_prepares prepares
  · next valid =>
    split
    · exact .of_prepares prepares
    · next free =>
      obtain ⟨e, run⟩ | ⟨o, r, u, base, unwritten, output, asked, live, outcome⟩ :=
        Variable.materialize_cases w.host name (prepares.valid hs) x
      · simp only [run]
        exact .of_prepares prepares
      · have rooted := Host.preparing_variablesRoot.prepares (prepares.valid hs) asked
        obtain ⟨e, fault, -, run⟩ | ⟨p, applies, run⟩ := outcome
        · simp only [run]
          exact .prepared (u := { u with nextConnection := u.nextConnection + 1 }) r.version
            ((prepares.trans rooted).trans (.mints ⟨0, 1, rfl⟩))
        · simp only [run]
          obtain ⟨g, drawn, apart, fresh, rfl⟩ :=
            Host.drawn_of_applyAll (proper unwritten) unwritten applies
          exact .wrote (by simpa using valid) (by simpa using free) prepares asked live drawn output
            apart fresh applies

theorem effect_performOperation (hs : w.store.Valid) (text : String) :
    w.Effect (on (performOperation text) w).2 := by
  rw [on_performOperation]
  split
  · exact .refl w
  · next target e _ =>
    split
    · exact .refl w
    · split
      · exact .refl w
      · next node warnings _ =>
        have prepares := node.preparing_execute w.host w.store hs
        split
        · next fault s run =>
          rw [run] at prepares
          exact .of_prepares prepares
        · next x s run =>
          rw [run] at prepares
          have effect := effect_register hs prepares target (node.proper_execute run)
          split
          · next registered =>
            rw [registered] at effect
            exact effect
          · next registered =>
            rw [registered] at effect
            exact effect

theorem proper_loaded (loader : Loader) {x : Variable} (proper : x.Proper) :
    (loaded loader x).Proper := by
  unfold loaded
  split
  · exact proper
  · exact proper.provenance _

theorem effect_loadVariable (hs : w.store.Valid) (loader : Loader) (name : Option String) :
    w.Effect (on (loadVariable loader name) w).2 := by
  rw [on_loadVariable]
  split
  · exact .refl w
  · have prepares := loader.preparing_load w.host w.store hs
    split
    · next fault s run =>
      rw [run] at prepares
      exact .of_prepares prepares
    · next x s run =>
      rw [run] at prepares
      have effect := effect_register hs prepares (w.loadedName loader name)
        (proper_loaded loader (Loader.proper_load run))
      split
      · next registered =>
        rw [registered] at effect
        exact effect
      · next registered =>
        rw [registered] at effect
        exact effect

theorem effect_renameVariable (old new : String) :
    w.Effect (on (renameVariable old new) w).2 := by
  obtain ⟨e, run⟩ | ⟨x, v, n, valid, known, free, version, live, run⟩ :=
    renameVariable_outcome w old new <;> rw [run]
  · exact .refl w
  · exact .renamed valid known free version live

theorem effect_removeVariable (name : String) : w.Effect (on (removeVariable name) w).2 := by
  obtain ⟨e, run⟩ | ⟨x, v, n, known, version, ne, there, run⟩ := removeVariable_outcome w name <;>
    rw [run]
  · exact .refl w
  · exact .forgot known version ne there

/-- Only a version with a connection can be taken up. -/
theorem connections_of_restore {h : Host} {v : VersionId} {x : Variable} {s t : Store}
    (hs : s.Valid) (run : (Variable.restore h v).on s = (.ok x, t)) :
    ∃ u p, h.Prepares s u ∧ u.pipeline v = .ok p ∧ p.connections.values ≠ [] := by
  obtain ⟨r, u, asked, rest⟩ := Action.on_bind_eq_ok.1 run
  obtain ⟨p, u', made, rest⟩ := Action.on_bind_eq_ok.1 rest
  obtain ⟨hp, rfl⟩ := Action.on_query_eq_ok.1 made
  obtain ⟨o, fed, -⟩ := Action.on_ofExcept_bind_eq_ok.1 rest
  have prepares := Host.preparing_variablesRoot.prepares hs asked
  refine ⟨u, p, prepares, hp, fun none => ?_⟩
  obtain ⟨c, only, -⟩ := Variable.feed_eq_ok fed
  simp [Pipeline.connectionsInto, none] at only

/-- Taking up variables prepares the store, and adds names that were not known. -/
theorem restoreTagged_cases (tagged : List (String × VersionId)) (hs : w.store.Valid) :
    ∃ u known, (on (restoreTagged tagged) w).2 = { w with store := u, named := known } ∧
      w.host.Prepares w.store u ∧
      (∀ name x, known.get? name = some x → w.named.get? name = some x ∨
        w.named.contains name = false ∧ ∃ v s p, x.version = some v ∧ (name, v) ∈ tagged ∧
          w.host.Prepares w.store s ∧ s.pipeline v = .ok p ∧ p.connections.values ≠ []) ∧
      ∀ name x, w.named.get? name = some x → known.get? name = some x := by
  induction tagged generalizing w with
  | nil => exact ⟨w.store, w.named, rfl, .mints (.refl _), fun _ _ => .inl, fun _ _ => id⟩
  | cons e rest ih =>
    rw [after_restoreTagged_cons, on_restoreVariable]
    split
    · obtain ⟨u, known, after, prepares, found, kept⟩ := ih hs
      refine ⟨u, known, after, prepares, fun name x hx => ?_, kept⟩
      refine (found name x hx).imp_right ?_
      rintro ⟨unknown, v, s, p, version, listed, others⟩
      exact ⟨unknown, v, s, p, version, List.mem_cons_of_mem _ listed, others⟩
    · next free =>
      have first := Variable.preparing_restore w.host e.2 w.store hs
      split
      · next x s run =>
        rw [run] at first
        obtain ⟨u, known, after, prepares, found, kept⟩ := ih (w := { w with
          store := s
          named := w.named.insert e.1 x }) (first.valid hs)
        refine ⟨u, known, after, first.trans prepares, fun name y hy => ?_, fun name y hy => ?_⟩
        · rcases found name y hy with old | ⟨unknown, v, s', p, version, listed, prepares', others⟩
          · -- known to the rest is what was known before, and what was taken up first
            obtain ⟨rfl, rfl⟩ | ⟨-, old⟩ := OrderedMap.get?_insert_eq_some_iff.1 old
            · obtain ⟨s', p, prepares', others⟩ := connections_of_restore hs run
              exact .inr ⟨by simpa using free, e.2, s', p, Variable.version_of_restore run,
                List.mem_cons_self .., prepares', others⟩
            · exact .inl old
          · simp only [OrderedMap.contains_insert, Bool.or_eq_false_iff] at unknown
            exact .inr ⟨unknown.2, v, s', p, version, List.mem_cons_of_mem _ listed,
              first.trans prepares', others⟩
        · refine kept name y ?_
          have ne : name ≠ e.1 := by
            rintro rfl
            exact free (OrderedMap.contains_eq_true_iff.2 ⟨y, hy⟩)
          exact OrderedMap.get?_insert_eq_some_iff.2 (.inr ⟨ne, hy⟩)
      · next fault s run =>
        rw [run] at first
        obtain ⟨u, known, after, prepares, found, kept⟩ :=
          ih (w := { w with store := s }) (first.valid hs)
        refine ⟨u, known, after, first.trans prepares, fun name x hx => ?_, kept⟩
        refine (found name x hx).imp_right ?_
        rintro ⟨unknown, v, s', p, version, listed, prepares', others⟩
        exact ⟨unknown, v, s', p, version, List.mem_cons_of_mem _ listed, first.trans prepares',
          others⟩

theorem effect_restoreVariables (hs : w.store.Valid) : w.Effect (on restoreVariables w).2 := by
  rw [on_restoreVariables]
  obtain ⟨u, known, after, prepares, found, kept⟩ := restoreTagged_cases w.taggedVariables hs
  rw [after]
  refine .restored prepares (fun name x hx => ?_) kept
  refine (found name x hx).imp_right ?_
  rintro ⟨unknown, v, s, p, version, listed, others⟩
  obtain ⟨tag, there, named⟩ := mem_taggedVariables.1 listed
  exact ⟨unknown, tag, v, s, p, version, there, named, others⟩

theorem effect_createPipeline (hs : w.store.Valid) (r : Recipe) :
    w.Effect (on (createPipeline r) w).2 := by
  rw [on_createPipeline]
  obtain ⟨u, v, prepares, ⟨e, run⟩ | ⟨d, p, -, drafted, applies, run⟩⟩ :=
    Recipe.compile_cases (h := w.host) hs r
  · rw [run]
    exact .prepared v prepares
  · rw [run]
    obtain ⟨g, draws, minted, own⟩ := Recipe.drawn_draft hs drafted
    obtain rfl : p = g := Except.ok.inj (applies.symm.trans draws.edits)
    exact .compiled prepares applies minted own

/-- A call does one of the things that calls can do. -/
theorem effect_after (hs : w.store.Valid) {c : Call} (admissible : c.Admissible) :
    w.Effect (w.after c) := by
  cases c with
  | performOperation text => exact effect_performOperation hs text
  | addVariable name x =>
    exact effect_register hs (.mints (.refl _)) name (Variable.Built.proper admissible)
  | loadVariable loader name => exact effect_loadVariable hs loader name
  | renameVariable old new => exact effect_renameVariable old new
  | removeVariable name => exact effect_removeVariable name
  | restoreVariables => exact effect_restoreVariables hs
  | createPipeline r => exact effect_createPipeline hs r

end Workspace

end Dataflow
