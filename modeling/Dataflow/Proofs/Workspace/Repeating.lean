import Mathlib.Order.Monotone.Basic
import Dataflow.Proofs.Recipe.Exactness
import Dataflow.Proofs.Recipe.Parallel
import Dataflow.Proofs.Recipe.Rejection
import Dataflow.Proofs.Workspace.Frame

/-! Compiling a recipe again. Whatever is done in between, as long as the versions of the bound
variables stay, the recipe is compiled to the same pipeline with later identifiers, or refused again. -/

namespace Dataflow

/-- The second pipeline is the first one with its identifiers renamed, in their order. -/
def Pipeline.RenamesTo (p q : Pipeline) : Prop :=
  ∃ f g, StrictMono f ∧ StrictMono g ∧ q.modules.values = p.modules.values.map (Module.moved f) ∧
    q.connections.values = p.connections.values.map (Connection.moved f g)

theorem Pipeline.renamesTo_shifted (p : Pipeline) (σ : Shift) : p.RenamesTo (p.shifted σ) :=
  ⟨σ.module, σ.connection, fun _ _ lt => Nat.add_lt_add_right lt _,
    fun _ _ lt => Nat.add_lt_add_right lt _, OrderedMap.values_shifted .., OrderedMap.values_shifted ..⟩

/-- The variable was not written, or it has a version of the store, where the variables root is there. -/
def Variable.BelongsTo (h : Host) (s : Store) (x : Variable) : Prop :=
  ∀ v, x.version = some v → (∃ root, h.RootAt s root) ∧ s.versions.contains v = true

/-- The version is that of a bound variable. -/
def Recipe.Binds (r : Recipe) (v : VersionId) : Prop :=
  ∃ port x, r.bound.get? port = some x ∧ x.version = some v

namespace Host

variable {h : Host} {s s' : Store} {r : VariablesRoot}

theorem RootAt.parallel (first : h.RootAt s r) (second : h.RootAt s' r) :
    Action.Parallel s s' (fun x y => x = r ∧ y = r) h.variablesRoot h.variablesRoot :=
  fun t t' abreast => by
    rw [(first.mints abreast.left).on_variablesRoot, (second.mints abreast.right).on_variablesRoot]
    exact ⟨.ok ⟨rfl, rfl⟩, abreast⟩

end Host

namespace Recipe

variable {h : Host} {r : Recipe} {s s' t : Store}

/-- Only variables that were written are bound where a draft is complete. -/
theorem version_of_draft {d : Draft} (run : (r.draft h).on s = (.ok d, t))
    {port : String} {x : Variable} (bound : r.bound.get? port = some x) :
    ∃ v, x.version = some v := by
  have listed := OrderedMap.get?_eq_some_iff.1 bound
  obtain ⟨input, -, run⟩ := Action.on_ofExcept_bind_eq_ok.1 run
  obtain ⟨⟨ids, d₁⟩, u, -, run⟩ := Action.on_bind_eq_ok.1 run
  obtain ⟨⟨sockets, d₂⟩, u', -, run⟩ := Action.on_bind_eq_ok.1 run
  dsimp only at run
  split at run
  · next empty =>
    rw [OrderedMap.isEmpty_iff.1 empty] at listed
    cases listed
  · obtain ⟨root, u'', -, run⟩ := Action.on_bind_eq_ok.1 run
    obtain ⟨v, -, version, -⟩ := of_spliceAll run _ listed
    exact ⟨v, version⟩

theorem on_compile_of_invalid {e : Error} (invalid : r.validate = .error e) :
    (r.compile h).on s = (.error e, s) := by
  rw [compile, invalid]
  rfl

theorem on_compile_of_refused (valid : r.validate = .ok ()) {e : Error}
    (refused : (r.draft h).on s = (.error e, t)) : (r.compile h).on s = (.error e, t) := by
  rw [compile, valid, Action.on_bind_of_ok (Action.on_ofExcept ..),
    Action.on_bind_of_error refused]

theorem on_compile_of_draws (hs : s.Valid) (valid : r.validate = .ok ()) {d : Draft}
    (drafted : (r.draft h).on s = (.ok d, t)) {g : Pipeline} (draws : d.Draws g) :
    (r.compile h).on s = (.ok t.nextVersion, branched t d.edits g) := by
  rw [on_compile hs valid drafted, draws.edits]

/-- Recipes that are drafted to the same are compiled to the same. -/
theorem sameRun_compile {r' : Recipe} (hs : s.Valid) (validate : r'.validate = r.validate)
    (drafts : SameRun ((r.draft h).on s) ((r'.draft h).on s)) :
    SameRun ((r.compile h).on s) ((r'.compile h).on s) := by
  cases valid : r.validate with
  | error e =>
    rw [on_compile_of_invalid valid, on_compile_of_invalid (validate.trans valid)]
    exact .refl _
  | ok =>
    have valid' := validate.trans valid
    obtain same | ⟨e, e', t, first, second, like⟩ := drafts.cases
    · rcases first : (r.draft h).on s with ⟨e | d, t⟩
      · rw [on_compile_of_refused valid first, on_compile_of_refused valid' (same ▸ first)]
        exact .refl _
      · rw [on_compile hs valid first, on_compile hs valid' (same ▸ first)]
        exact .refl _
    · rw [on_compile_of_refused valid first, on_compile_of_refused valid' second]
      exact ⟨.error like, rfl⟩

theorem live_branched (s : Store) (edits : List Edit) (p : Pipeline) :
    (branched s edits p).live s.nextVersion =
      .ok ⟨some VersionId.root, edits, p, ∅, false⟩ :=
  Store.live_eq_ok_iff.2 ⟨OrderedMap.get?_insert_self .., rfl⟩

end Recipe

namespace Workspace

/-- Workspaces that calls lead to which keep some versions: none of them succeeds in removing the
variable of such a version. -/
inductive ReachesKeeping (keep : VersionId → Prop) (start : Workspace) : Workspace → Prop
  | refl : ReachesKeeping keep start start
  | call {w : Workspace} (reaches : ReachesKeeping keep start w) {c : Call}
      (admissible : c.Admissible) (kept : ∀ v, keep v → ¬ w.Prunes c v) :
      ReachesKeeping keep start (w.after c)

variable {w w' : Workspace} {keep : VersionId → Prop} {r : Recipe}

theorem not_prunes {c : Call} (other : ∀ name, c ≠ .removeVariable name) (v : VersionId) :
    ¬ w.Prunes c v := by
  rintro ⟨name, _, same, -⟩
  exact other name same

theorem ReachesKeeping.reaches (run : ReachesKeeping keep w w') : Reaches w w' := by
  induction run with
  | refl => exact .refl
  | call _ admissible _ ih => exact ih.call admissible

theorem ReachesKeeping.trans {w₀ : Workspace} (first : ReachesKeeping keep w₀ w)
    (rest : ReachesKeeping keep w w') : ReachesKeeping keep w₀ w' := by
  induction rest with
  | refl => exact first
  | call _ admissible kept ih => exact ih.call admissible kept

theorem Reaches.trans {w₀ : Workspace} (first : Reaches w₀ w) (rest : Reaches w w') :
    Reaches w₀ w' := by
  induction rest with
  | refl => exact first
  | call _ admissible ih => exact ih.call admissible

theorem ReachesKeeping.version (hs : w.store.Valid) (run : ReachesKeeping keep w w')
    {v : VersionId} (kept : keep v) {n : Version} (found : w.store.versions.get? v = some n) :
    w'.store.versions.get? v = some n := by
  induction run with
  | refl => exact found
  | call run admissible spared ih =>
    exact version_after (valid_of_reaches hs run.reaches).1 admissible ih (spared v kept)

/-- Identifiers that were given out before a call are not given out after it. -/
theorem Effect.precedes (effect : w.Effect w') (hs : w.store.Valid) :
    w.store.Precedes w'.store := by
  cases effect with
  | prepared _ prepares => exact ⟨prepares.precedes.module, prepares.precedes.connection⟩
  | @wrote t u name x g o r base _ _ prepares asked =>
    have rooted := Host.preparing_variablesRoot.prepares (prepares.valid hs) asked
    have later := prepares.precedes.trans rooted.precedes
    exact ⟨later.module, Nat.le_succ_of_le later.connection⟩
  | forgot => exact ⟨Nat.le_refl _, Nat.le_refl _⟩
  | renamed => exact ⟨Nat.le_refl _, Nat.le_refl _⟩
  | restored prepares => exact ⟨prepares.precedes.module, prepares.precedes.connection⟩
  | compiled prepares => exact ⟨prepares.precedes.module, prepares.precedes.connection⟩

theorem precedes_of_reaches (hs : w.store.Valid) (reaches : Reaches w w') :
    w.store.Precedes w'.store := by
  induction reaches with
  | refl => exact .refl _
  | call reaches admissible ih =>
    have valid := (valid_of_reaches hs reaches).1
    exact ih.trans ((effect_after valid admissible).precedes valid)

theorem AgreesAt.reaches {root : VariablesRoot} (agrees : w.AgreesAt root) (hs : w.store.Valid)
    (apart : w.host.settings.TagsApart) (reaches : Reaches w w') : w'.AgreesAt root := by
  induction reaches with
  | refl => exact agrees
  | call reaches admissible ih =>
    obtain ⟨valid, same⟩ := valid_of_reaches hs reaches
    exact ih.effect valid (same ▸ apart) (effect_after valid admissible)

theorem Agrees.belongs (agrees : w.Agrees) {name : String} {x : Variable}
    (known : w.named.get? name = some x) : x.BelongsTo w.host w.store := by
  intro v version
  obtain ⟨none, -⟩ | ⟨root, rooted⟩ := agrees.agrees
  · rw [none] at known
    cases known
  · obtain ⟨v', n, holds⟩ := rooted.holds known
    obtain rfl : v' = v := Option.some.inj (holds.version.symm.trans version)
    exact ⟨⟨root, rooted.root⟩,
      OrderedMap.contains_eq_true_iff.2 ⟨n, (Store.live_eq_ok_iff.1 holds.live).1⟩⟩

/-- What is read in two stores: the same versions, where both have the same variables root. -/
theorem alike_bound {s s' : Store} (root : ModuleId)
    (same : ∀ v, r.Binds v → s'.versions.get? v = s.versions.get? v) :
    Recipe.BoundAlike s s' root root r.bound.entries r.bound.entries := by
  refine List.forall₂_same.2 fun b listed => ⟨rfl, rfl, fun {v v'} version version' => ?_⟩
  obtain rfl : v = v' := Option.some.inj (version.symm.trans version')
  have bound : r.Binds v := ⟨b.1, b.2, OrderedMap.get?_eq_some_iff.2 listed, version⟩
  have read : s'.pipeline v = s.pipeline v := by
    rw [Store.pipeline, Store.pipeline, Store.live, Store.live, same v bound]
  rw [read]
  exact .refl fun p _ => ⟨id, Set.univ, .refl p root⟩

/-- The edits of a recipe are the same in a later store, but for a shift, if the versions of the bound
variables are there in both. -/
theorem Agrees.parallel_draft (agrees : w.Agrees) (apart : w.host.settings.TagsApart)
    (reaches : Reaches w w')
    (there : r.bound.isEmpty = false → ∃ root, w.host.RootAt w.store root)
    (same : ∀ v, r.Binds v → w'.store.versions.get? v = w.store.versions.get? v) :
    Action.Parallel w.store w'.store (fun d d' => d' = d.shifted (.of w.store w'.store))
      (r.draft w.host) (r.draft w.host) := by
  refine Recipe.parallel_draft (Q := Eq) (precedes_of_reaches agrees.valid reaches).between rfl rfl
    (fun nonempty => ?_) ?_
  · obtain ⟨root, here⟩ := there nonempty
    obtain ⟨-, none, -⟩ | ⟨root', rooted⟩ := agrees.agrees
    · have tag := here.tag
      rw [none] at tag
      cases tag
    · have later := (rooted.reaches agrees.valid apart reaches).root
      rw [(valid_of_reaches agrees.valid reaches).2] at later
      exact (rooted.root.parallel later).mono fun _ _ ⟨first, second⟩ => first.trans second.symm
  · rintro root _ rfl
    exact alike_bound _ same

/-- A recipe is drafted in a later store as it was in an earlier one, but for a shift, or is refused in
both. -/
theorem Agrees.draft_again (agrees : w.Agrees) (apart : w.host.settings.TagsApart)
    (reaches : Reaches w w')
    (belongs : ∀ port x, r.bound.get? port = some x → x.BelongsTo w.host w.store)
    (same : ∀ v, r.Binds v → w'.store.versions.get? v = w.store.versions.get? v) :
    (∃ e e' t t', (r.draft w.host).on w.store = (.error e, t) ∧
      (r.draft w.host).on w'.store = (.error e', t')) ∨
    ∃ d t t', (r.draft w.host).on w.store = (.ok d, t) ∧
      (r.draft w.host).on w'.store = (.ok (d.shifted (.of w.store w'.store)), t') := by
  by_cases there : r.bound.isEmpty = false → ∃ root, w.host.RootAt w.store root
  · obtain ⟨e, e', t, t', first, second, -⟩ | ⟨d, _, t, t', first, second, rfl, -⟩ :=
      (agrees.parallel_draft apart reaches there same).cases
    · exact .inl ⟨e, e', t, t', first, second⟩
    · exact .inr ⟨d, t, t', first, second⟩
  · -- where there is no variables root yet, no bound variable can have been written
    rw [Classical.not_imp] at there
    obtain ⟨nonempty, none⟩ := there
    obtain ⟨b, rest, listed⟩ := List.exists_cons_of_ne_nil (l := r.bound.entries)
      fun empty => by simp [OrderedMap.isEmpty, empty] at nonempty
    have bound : r.bound.get? b.1 = some b.2 :=
      OrderedMap.get?_eq_some_iff.2 (listed ▸ List.mem_cons_self ..)
    have refused : ∀ s, ∃ e t, (r.draft w.host).on s = (.error e, t) := fun s => by
      rcases run : (r.draft w.host).on s with ⟨e | d, t⟩
      · exact ⟨e, t, rfl⟩
      · obtain ⟨v, version⟩ := Recipe.version_of_draft run bound
        exact absurd (belongs b.1 b.2 bound v version).1 none
    obtain ⟨e, t, first⟩ := refused w.store
    obtain ⟨e', t', second⟩ := refused w'.store
    exact .inl ⟨e, e', t, t', first, second⟩

/-- A recipe that is compiled again gives the same pipeline with later identifiers, if it gave any. -/
theorem Agrees.compile_again (agrees : w.Agrees) (apart : w.host.settings.TagsApart)
    (reaches : Reaches (w.after (.createPipeline r)) w')
    (belongs : ∀ port x, r.bound.get? port = some x → x.BelongsTo w.host w.store)
    (same : ∀ v, r.Binds v → w'.store.versions.get? v = w.store.versions.get? v) :
    (∃ e e', (on (createPipeline r) w).1 = .error e ∧ (on (createPipeline r) w').1 = .error e') ∨
    ∃ v v' n n', (on (createPipeline r) w).1 = .ok v ∧ (on (createPipeline r) w').1 = .ok v' ∧
      (w.after (.createPipeline r)).store.live v = .ok n ∧
      (w'.after (.createPipeline r)).store.live v' = .ok n' ∧
      n.pipeline.RenamesTo n'.pipeline ∧
      ∀ id, n.pipeline.modules.contains id = true → n'.pipeline.modules.contains id = false := by
  have first_call : Reaches w (w.after (.createPipeline r)) := Reaches.refl.call trivial
  have whole := first_call.trans reaches
  obtain ⟨hs', host⟩ := valid_of_reaches agrees.valid whole
  have later := precedes_of_reaches (valid_of_reaches agrees.valid first_call).1 reaches
  simp only [after, on_createPipeline, host] at later ⊢
  cases valid : r.validate with
  | error e =>
    refine .inl ⟨e, e, ?_, ?_⟩ <;> rw [Recipe.on_compile_of_invalid valid]
  | ok =>
    obtain ⟨e, e', t, t', first, second⟩ | ⟨d, t, t', first, second⟩ :=
      agrees.draft_again apart whole belongs same
    · refine .inl ⟨e, e', ?_, ?_⟩
      · rw [Recipe.on_compile_of_refused valid first]
      · rw [Recipe.on_compile_of_refused valid second]
    · obtain ⟨g, draws, minted, -⟩ := Recipe.drawn_draft agrees.valid first
      obtain ⟨g', draws', minted', -⟩ := Recipe.drawn_draft hs' second
      -- the second draft is the first one shifted, so it draws the same pipeline shifted
      obtain rfl : g.shifted _ = g' :=
        Except.ok.inj ((draws.shifted _).edits.symm.trans draws'.edits)
      rw [Recipe.on_compile_of_draws agrees.valid valid first draws] at later ⊢
      rw [Recipe.on_compile_of_draws hs' valid second draws']
      have later : t.Precedes w'.store := ⟨later.module, later.connection⟩
      exact .inr ⟨_, _, _, _, rfl, rfl, Recipe.live_branched .., Recipe.live_branched ..,
        g.renamesTo_shifted _, ((minted.later later).apart minted').modules⟩

theorem ReachesKeeping.committed (hs : w.store.Valid) (run : ReachesKeeping r.Binds w w')
    {port : String} {x : Variable} (bound : r.bound.get? port = some x)
    (belongs : x.BelongsTo w.host w.store) : x.committed w'.store = x.committed w.store := by
  unfold Variable.committed
  cases version : x.version with
  | none => rfl
  | some v =>
    obtain ⟨n, there⟩ := OrderedMap.contains_eq_true_iff.1 (belongs v version).2
    have kept := run.version hs ⟨port, x, bound, version⟩ there
    simp only [Option.map_some, Store.pipeline, Store.live, there, kept]

/-- Between two calls that compile one recipe, calls of all kinds may come, whether they succeed or
fail, as long as they do not remove a bound variable. Either both calls fail or both succeed; then the
second pipeline is the first one with all identifiers renamed in order, and no module is in both. The
bound variables stay as they were committed. -/
theorem createPipeline_repeatable {host : Host} {catalogue : Catalogue}
    (apart : host.settings.TagsApart) {w w' : Workspace}
    (reaches : Reaches (new host catalogue .new) w) {r : Recipe}
    (belongs : ∀ port x, r.bound.get? port = some x → x.BelongsTo host w.store)
    (run : ReachesKeeping r.Binds (w.after (.createPipeline r)) w') :
    ((∃ e e', (on (createPipeline r) w).1 = .error e ∧ (on (createPipeline r) w').1 = .error e') ∨
      ∃ v v' n n', (on (createPipeline r) w).1 = .ok v ∧ (on (createPipeline r) w').1 = .ok v' ∧
        (w.after (.createPipeline r)).store.live v = .ok n ∧
        (w'.after (.createPipeline r)).store.live v' = .ok n' ∧
        n.pipeline.RenamesTo n'.pipeline ∧
        ∀ id, n.pipeline.modules.contains id = true → n'.pipeline.modules.contains id = false) ∧
    ∀ port x, r.bound.get? port = some x →
      x.committed (w'.after (.createPipeline r)).store = x.committed w.store := by
  obtain ⟨agrees, rfl, -⟩ := (agrees_new host catalogue).reaches apart reaches
  have first : ReachesKeeping r.Binds w (w.after (.createPipeline r)) :=
    ReachesKeeping.refl.call trivial fun v _ => not_prunes (by nofun) v
  have whole : ReachesKeeping r.Binds w w' := first.trans run
  constructor
  · refine agrees.compile_again apart run.reaches belongs ?_
    rintro v ⟨port, x, bound, version⟩
    obtain ⟨n, there⟩ := OrderedMap.contains_eq_true_iff.1 (belongs port x bound v version).2
    rw [there]
    exact whole.version agrees.valid ⟨port, x, bound, version⟩ there
  · intro port x bound
    have again : ReachesKeeping r.Binds w (w'.after (.createPipeline r)) :=
      whole.call trivial fun v _ => not_prunes (by nofun) v
    exact again.committed agrees.valid bound (belongs port x bound)

/-- A recipe compiled twice. In between a variable was computed from the bound one, which was renamed. -/
theorem createPipeline_repeatable_sample :
    let w := sample.after (.createPipeline sampleRecipe)
      |>.after (.performOperation "y = x + 2") |>.after (.renameVariable "x" "z")
    ∃ n n', (sample.after (.createPipeline sampleRecipe)).store.live 3 = .ok n ∧
      (w.after (.createPipeline sampleRecipe)).store.live 5 = .ok n' ∧
      n.pipeline.RenamesTo n'.pipeline ∧
      ∀ id, n.pipeline.modules.contains id = true → n'.pipeline.modules.contains id = false := by
  intro w
  have run : ReachesKeeping sampleRecipe.Binds (sample.after (.createPipeline sampleRecipe)) w :=
    .call (c := .renameVariable "x" "z")
      (.call (c := .performOperation "y = x + 2") .refl trivial fun v _ => not_prunes (by nofun) v)
      trivial fun v _ => not_prunes (by nofun) v
  have first : (on (createPipeline sampleRecipe) sample).1 = .ok 3 := by decide +kernel
  have second : (on (createPipeline sampleRecipe) w).1 = .ok 5 := by decide +kernel
  obtain ⟨⟨e, e', failed, -⟩ | ⟨v, v', n, n', ok, ok', live, live', renamed, fresh⟩, -⟩ :=
    createPipeline_repeatable (Settings.tagsApart_of_default rfl) reaches_sample
      (fun _ _ => (agrees_of_reaches (Settings.tagsApart_of_default rfl) reaches_sample).belongs) run
  · rw [first] at failed
    cases failed
  · obtain rfl := Except.ok.inj (first.symm.trans ok)
    obtain rfl := Except.ok.inj (second.symm.trans ok')
    exact ⟨n, n', live, live', renamed, fresh⟩

/-- A new workspace in which the tag of the variables root is that of the variable `x` too. -/
def collidingStart : Workspace :=
  let s : Settings := { packages := { basic := "b" }, tags := { variablesRoot := "dat-var-x" } }
  new ⟨.withBasics s, s⟩ (.withBuiltins s) .new

/-- A recipe of one port, with the variable `y` bound to it. -/
def collidingRecipe : Recipe :=
  ⟨⟨"plot", none, .empty, [⟨"y", ⟨"b", "Float"⟩, false⟩]⟩,
    (collidingStart.after (.performOperation "y = 1")).named⟩

/-- The statement `x = 1` comes between two calls that compile one recipe, and only the first one
succeeds: the variable `x` has taken the tag from the variables root. -/
theorem createPipeline_unrepeatable :
    let w := collidingStart.after (.performOperation "y = 1")
    let w' := (w.after (.createPipeline collidingRecipe)).after (.performOperation "x = 1")
    Reaches collidingStart w ∧
      ReachesKeeping collidingRecipe.Binds (w.after (.createPipeline collidingRecipe)) w' ∧
      (on (createPipeline collidingRecipe) w).1 = .ok 3 ∧
      (on (createPipeline collidingRecipe) w').1 =
        .error (.host (.malformedRoot "dat-var-x" 2)) := by
  exact ⟨.call .refl trivial, .call .refl trivial fun v _ => not_prunes (by nofun) v,
    by decide +kernel, by decide +kernel⟩

end Workspace

end Dataflow
