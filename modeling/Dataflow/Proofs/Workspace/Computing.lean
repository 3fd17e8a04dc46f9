import Dataflow.Proofs.Tree.Meaning
import Dataflow.Proofs.Workspace.Agreement

/-! Workspaces whose variables were all computed from expressions, where there are no operations but the
built-in ones. All known variables are stored as trees, and what performing an operation writes
unfolds to a tree that the expression means among them. -/

namespace Dataflow

namespace Host

variable {h : Host} {s t : Store}

theorem spans_variablePipeline {x : Variable} {g : Pipeline} {tree : Tree} {root : ModuleId}
    {id : ConnectionId} (shows : x.Shows h g tree) (apart : (h.rootPipeline root).Apart g)
    (fresh : g.connections.get? id = none) :
    h.Spans (h.variablePipeline root g (tree.output h) id) root tree where
  modules := (values_variablePipeline apart).trans (shows.modules.cons _)
  wires := ((connections_variablePipeline fresh h root _).map _).trans (shows.wires.cons _)

/-- If the version has a single module, it is a variables root. -/
def Rootlike (h : Host) (n : Version) : Prop :=
  ∀ m, n.pipeline.modules.keys = [m] → n.parent = some VersionId.root ∧ n.pipeline = h.rootPipeline m

theorem rootlike_of_two {n : Version} {m k : ModuleId} (first : n.pipeline.modules.contains m = true)
    (second : n.pipeline.modules.contains k = true) (other : m ≠ k) : h.Rootlike n := by
  intro id single
  exact absurd single (OrderedMap.keys_ne_singleton first second other id)

theorem rootlike_rootVersion (h : Host) (m : ModuleId) : h.Rootlike (h.rootVersion m) := by
  intro id single
  rw [rootVersion, keys_rootPipeline, List.cons.injEq] at single
  rw [← single.1]
  exact ⟨rfl, rfl⟩

theorem Spans.rootlike {n : Version} {root : ModuleId} {tree : Tree}
    (spans : h.Spans n.pipeline root tree) (closed : n.pipeline.WellFormed) : h.Rootlike n := by
  have inner := Tree.output_mem (h := h) (t := tree)
  have listed : ∀ id ∈ root :: tree.ids, n.pipeline.modules.contains id = true := fun id hid => by
    have ids := spans.modules.map Module.id
    rw [List.map_cons, Tree.map_id_modules] at ids
    obtain ⟨m, hm, rfl⟩ := List.mem_map.1 (ids.mem_iff.2 hid)
    exact closed.contains_iff.2 ⟨m, hm, rfl⟩
  refine rootlike_of_two (listed root (List.mem_cons_self ..))
    (listed _ (List.mem_cons_of_mem _ inner)) fun same => ?_
  exact (List.nodup_cons.1 (spans.distinct closed)).1 (same ▸ inner)

/-- No version with a tag can be taken for a variables root that it is not. -/
structure Marks (h : Host) (s : Store) : Prop where
  rootlike : ∀ {tag v n}, s.tags.get? tag = some v → s.versions.get? v = some n → h.Rootlike n

theorem Marks.extended (marks : h.Marks s) (hs : s.Valid) (n : Version) :
    h.Marks (s.extended n) where
  rootlike tagged found := by
    obtain ⟨rfl, -⟩ | ⟨-, before⟩ := Store.get?_extended_eq_some_iff.1 found
    · exact absurd (hs.tag_lt tagged) (Nat.lt_irrefl _)
    · exact marks.rootlike tagged before

theorem Marks.tagged (marks : h.Marks s) {v : VersionId} {n : Version}
    (there : s.versions.get? v = some n) (rootlike : h.Rootlike n) (name : String) :
    h.Marks (s.tagged v name) where
  rootlike {tag u m} tagged found := by
    obtain ⟨-, rfl⟩ | ⟨-, -, before⟩ := Store.get?_tagged_eq_some_iff.1 tagged
    · obtain rfl : n = m := Option.some.inj (there.symm.trans found)
      exact rootlike
    · exact marks.rootlike before found

theorem Marks.prepares (marks : h.Marks s) (prepares : h.Prepares s t) (hs : s.Valid) :
    h.Marks t := by
  induction prepares with
  | mints mints =>
    refine ⟨fun tagged found => ?_⟩
    rw [mints.tags] at tagged
    rw [mints.versions] at found
    exact marks.rootlike tagged found
  | @root s absent =>
    have minted : Store.Valid { s with nextModule := s.nextModule + 1 } := hs.mints ⟨1, 0, rfl⟩
    rw [← extended_tagged_eq hs absent]
    exact (Marks.extended (s := { s with nextModule := s.nextModule + 1 }) ⟨marks.rootlike⟩ minted
      _).tagged (OrderedMap.get?_insert_self ..) (rootlike_rootVersion h _) _
  | trans first rest ih ih' => exact ih' (ih marks hs) (first.valid hs)

end Host

namespace Workspace

variable {w w' : Workspace}

/-- All known variables are stored as trees. -/
structure Computed (w : Workspace) : Prop where
  valid : w.store.Valid
  stored : ∀ name x, w.named.get? name = some x → ∃ t, x.Stored w.host w.store t
  marks : w.host.Marks w.store

theorem Computed.new (host : Host) (catalogue : Catalogue) : (new host catalogue .new).Computed where
  valid := Store.valid_new
  stored name x known := by cases known
  marks := ⟨fun tagged => by cases tagged⟩

theorem Computed.marks_effect (computed : w.Computed) (effect : w.Effect w') :
    w'.host.Marks w'.store := by
  have hs := computed.valid
  cases effect with
  | prepared v prepares => exact ⟨(computed.marks.prepares prepares hs).rootlike⟩
  | @wrote t u name x g o r base _ _ prepares asked live drawn output apart fresh accepted =>
    obtain ⟨-, ⟨n, live', keys⟩, -⟩ := Host.variablesRoot_eq_ok (prepares.valid hs) asked
    obtain rfl : base = n := Except.ok.inj (live.symm.trans live')
    have rooted := Host.preparing_variablesRoot.prepares (prepares.valid hs) asked
    have hu := rooted.valid (prepares.valid hs)
    have marks := (computed.marks.prepares prepares hs).prepares rooted (prepares.valid hs)
    have root : base.pipeline.modules.contains r.module = true := by
      rw [OrderedMap.contains_iff, keys]
      exact List.mem_singleton.2 rfl
    -- a version that is written has two modules, that of the root and the one that feeds it
    have own := drawn.output output
    have selected : Store.Valid { u with
        current := r.version, nextConnection := u.nextConnection + 1 } :=
      (hu.mints ⟨0, 1, rfl⟩).current r.version
    refine (Host.Marks.extended (s := { u with
      current := r.version, nextConnection := u.nextConnection + 1 }) ⟨marks.rootlike⟩ selected
      _).tagged
      (OrderedMap.get?_insert_self ..) (Host.rootlike_of_two (m := r.module) (k := o.module)
        ?_ ?_ ?_) _
    · show (base.pipeline.join g).modules.contains r.module = true
      rw [Pipeline.contains_join, root, Bool.or_true]
    · show (base.pipeline.join g).modules.contains o.module = true
      rw [Pipeline.contains_join, own, Bool.true_or]
    · intro same
      rw [apart.modules _ (same ▸ root)] at own
      cases own
  | @forgot name x v n known version ne there =>
    refine ⟨fun tagged found => ?_⟩
    obtain ⟨other, before⟩ := Store.get?_untagged_eq_some_iff.1 tagged
    obtain ⟨same, -⟩ | ⟨-, there⟩ := Store.get?_without_eq_some_iff.1 found
    · exact absurd same other
    · exact computed.marks.rootlike before there
  | @renamed old new x v n valid known free version live =>
    obtain ⟨there, -⟩ := Store.live_eq_ok_iff.1 live
    obtain ⟨t, stored⟩ := computed.stored old x known
    obtain ⟨v', n', root, version', there', spans⟩ := stored.version
    obtain rfl : v = v' := Option.some.inj (version.symm.trans version')
    obtain rfl : n = n' := Option.some.inj (there.symm.trans there')
    exact computed.marks.tagged there (spans.rootlike (hs.wellFormed there)) _
  | restored prepares _ _ => exact computed.marks.prepares prepares hs
  | @compiled u edits p prepares applies minted own =>
    exact Host.Marks.extended (s := { u with current := VersionId.root })
      ⟨(computed.marks.prepares prepares hs).rootlike⟩ ((prepares.valid hs).current _) _

/-- A call that makes no variable known keeps all known variables stored as trees. -/
theorem Computed.effect (computed : w.Computed) (effect : w.Effect w')
    (kept : ∀ name x, w'.named.get? name = some x → ∃ name', w.named.get? name' = some x) :
    w'.Computed where
  valid := effect.valid computed.valid
  stored name x known := by
    obtain ⟨name', known'⟩ := kept name x known
    obtain ⟨t, stored⟩ := computed.stored name' x known'
    rw [effect.host.1]
    exact ⟨t, stored.kept (effect.kept computed.valid)⟩
  marks := computed.marks_effect effect

/-- The tree that a known name is stored as. -/
def Stores (w : Workspace) (name : String) (t : Tree) : Prop :=
  ∃ x, w.named.get? name = some x ∧ x.Stored w.host w.store t

/-- The version of a variable unfolds to a tree. It is a live child of a variables root, and consists of
the root's module, of the modules of the tree, each of them once, and of the connections of the tree,
with one from its output to the root's module. -/
structure Unfolds (w : Workspace) (x : Variable) (v : VersionId) (n : Version) (r : VariablesRoot)
    (t : Tree) : Prop where
  version : x.version = some v
  live : w.store.live v = .ok n
  parent : n.parent = some r.version
  root : ∃ base, w.store.versions.get? r.version = some base ∧ base.parent = some VersionId.root ∧
    base.pipeline = w.host.rootPipeline r.module
  spans : w.host.Spans n.pipeline r.module t
  distinct : (r.module :: t.ids).Nodup
  fed : n.pipeline.wiresInto r.module =
    [⟨t.output w.host, ⟨r.module, w.host.settings.ports.pipe⟩⟩]
  unfolds : w.host.Unfolds n.pipeline (t.output w.host) t
  unique : ∀ t', w.host.Unfolds n.pipeline (t.output w.host) t' → t' = t

/-- What performing an operation writes unfolds to a tree that the expression means. -/
theorem Computed.performed (computed : w.Computed)
    (only : w.catalogue.operations = Operation.builtins w.host.settings) {text : String}
    {warnings : List Ambiguity} (run : on (performOperation text) w = (.ok warnings, w')) :
    ∃ name e x v n r t, Expr.ofText text = .ok (name, e) ∧ w'.named = w.named.insert name x ∧
      x.Stored w'.host w'.store t ∧ w'.Unfolds x v n r t ∧ e.Means w.Stores t := by
  have hs := computed.valid
  obtain ⟨_, _, failed, -⟩ | ⟨name, e, scope, node, _, x, s, v, y, u, done, parsed, sees, resolved,
    executed, written⟩ := performOperation_outcome w text
  · rw [failed] at run
    cases run
  rw [done] at run
  cases run
  have known : ∀ name y, w.named.get? name = some y →
      ∃ t, w.Stores name t ∧ y.Stored w.host w.store t := fun name y hy => by
    obtain ⟨t, stored⟩ := computed.stored name y hy
    exact ⟨t, ⟨y, hy, stored⟩, stored⟩
  obtain ⟨g, tree, shows, minted, means, -⟩ :=
    Variable.shows_execute only sees e resolved hs known executed
  have prepares := (node.preparing_execute w.host).prepares hs executed
  have ready := prepares.valid hs
  obtain ⟨_, failed⟩ | ⟨o, r, t, base, unwritten, output, asked, live, outcome⟩ :=
    Variable.materialize_cases w.host name ready x
  · rw [failed] at written
    cases written
  obtain ⟨_, _, -, refused⟩ | ⟨p, accepted, wrote⟩ := outcome
  · rw [refused] at written
    cases written
  rw [wrote] at written
  cases written
  obtain rfl : tree.output w.host = o := Option.some.inj (shows.output.symm.trans output)
  have rooted := Host.preparing_variablesRoot.prepares ready asked
  have ht := rooted.valid ready
  obtain ⟨there, -⟩ := Store.live_eq_ok_iff.1 live
  -- the version that the root's tag names is a variables root, since it has a single module
  obtain ⟨tag, ⟨base', live', keys⟩, -⟩ := Host.variablesRoot_eq_ok ready asked
  obtain rfl : base = base' := Except.ok.inj (live.symm.trans live')
  have marks := (computed.marks.prepares prepares hs).prepares rooted ready
  obtain ⟨below, only⟩ := marks.rootlike tag there r.module keys
  have closed := (ht.wellFormed there).applyAll accepted
  obtain ⟨g', drawn, apart, fresh, rfl⟩ :=
    Host.drawn_of_applyAll (node.proper_execute executed unwritten) unwritten accepted
  obtain rfl := drawn.unique shows.drawn
  rw [only] at apart fresh closed
  rw [Host.connections_join_rootPipeline] at fresh
  have spans := Host.spans_variablePipeline shows apart fresh
  have selected : Store.Valid { t with
      current := r.version, nextConnection := t.nextConnection + 1 } :=
    (ht.mints ⟨0, 1, rfl⟩).current r.version
  rw [only]
  refine ⟨name, e, _, t.nextVersion, _, r, tree, parsed, rfl,
    ⟨⟨t.nextVersion, _, r.module, rfl, OrderedMap.get?_insert_self .., spans⟩, shows.type⟩,
    ⟨rfl, Store.live_eq_ok_iff.2 ⟨OrderedMap.get?_insert_self .., rfl⟩, rfl, ⟨base, ?_, below, only⟩,
      spans, spans.distinct closed, spans.fed closed, spans.unfolds closed, fun t' other => ?_⟩, means⟩
  · exact selected.get?_extended _ there
  · exact other.unique (spans.unfolds closed) rfl

/-- Performing an operation keeps all known variables stored as trees. -/
theorem Computed.perform (computed : w.Computed)
    (only : w.catalogue.operations = Operation.builtins w.host.settings) (text : String) :
    (w.after (.performOperation text)).Computed := by
  have hs := computed.valid
  have effect := effect_performOperation hs text
  show Computed (on (performOperation text) w).2
  rcases run : on (performOperation text) w with ⟨_ | warnings, w'⟩
  · rw [run] at effect
    obtain ⟨_, _, failed, same⟩ | ⟨_, _, _, _, _, _, _, _, _, _, done, -⟩ :=
      performOperation_outcome w text
    · rw [run] at failed
      cases failed
      exact computed.effect effect fun name x known => ⟨name, same ▸ known⟩
    · rw [run] at done
      cases done
  · rw [run] at effect
    obtain ⟨name, e, x, v, n, r, t, -, named, stored, -⟩ := computed.performed only run
    refine ⟨effect.valid hs, fun name' y known => ?_, computed.marks_effect effect⟩
    rw [named, OrderedMap.get?_insert_eq_some_iff] at known
    obtain ⟨-, rfl⟩ | ⟨-, before⟩ := known
    · exact ⟨t, stored⟩
    · obtain ⟨t', stored'⟩ := computed.stored name' y before
      show ∃ t, y.Stored w'.host w'.store t
      rw [effect.host.1]
      exact ⟨t', stored'.kept (effect.kept hs)⟩

/-- The workspaces that calls lead to in which only performing an operation makes a variable known. All
other calls may fail, rename and forget variables, and compile recipes. -/
inductive Computes (start : Workspace) : Workspace → Prop
  | refl : Computes start start
  | perform {w : Workspace} (computes : Computes start w) (text : String) :
      Computes start (w.after (.performOperation text))
  | call {w : Workspace} (computes : Computes start w) {c : Call} (admissible : c.Admissible)
      (kept : ∀ name x, (w.after c).named.get? name = some x →
        ∃ name', w.named.get? name' = some x) : Computes start (w.after c)

theorem Computed.computes (computed : w.Computed)
    (only : w.catalogue.operations = Operation.builtins w.host.settings)
    (computes : Computes w w') :
    w'.Computed ∧ w'.host = w.host ∧ w'.catalogue = w.catalogue := by
  induction computes with
  | refl => exact ⟨computed, rfl, rfl⟩
  | perform _ text ih =>
    obtain ⟨computed', host, catalogue⟩ := ih
    have effect := effect_performOperation computed'.valid text
    refine ⟨computed'.perform ?_ text, effect.host.1.trans host, effect.host.2.trans catalogue⟩
    rw [host, catalogue]
    exact only
  | call _ admissible kept ih =>
    obtain ⟨computed', host, catalogue⟩ := ih
    have effect := effect_after computed'.valid admissible
    exact ⟨computed'.effect effect kept, effect.host.1.trans host, effect.host.2.trans catalogue⟩

/-- Where all variables were computed by the built-in operations, a statement that is performed makes a
variable known whose version unfolds to the tree of the statement's expression. -/
theorem performOperation_unfolds {host : Host} {catalogue : Catalogue}
    (only : catalogue.operations = Operation.builtins host.settings) {w w' : Workspace}
    (computes : Computes (new host catalogue .new) w) {text : String} {warnings : List Ambiguity}
    (run : on (performOperation text) w = (.ok warnings, w')) :
    (∃ name e x v n r t, Expr.ofText text = .ok (name, e) ∧ w'.named.get? name = some x ∧
      w'.Unfolds x v n r t ∧ e.Means w.Stores t) ∧
    ∀ (e : Expr) (t : Tree), e.value? = none → e.negate.Means w.Stores t →
      ∃ m k right, t = .node m (.calculate .sub) (.literal k true "0") right ∧
        e.Means w.Stores right := by
  obtain ⟨computed, rfl, rfl⟩ := (Computed.new host catalogue).computes only computes
  obtain ⟨name, e, x, v, n, r, t, parsed, named, -, unfolds, means⟩ := computed.performed only run
  refine ⟨⟨name, e, x, v, n, r, t, parsed, ?_, unfolds, means⟩, fun e t => Expr.Means.of_negate⟩
  rw [named]
  exact OrderedMap.get?_insert_self ..

theorem computes_sample : Computes sampleStart sample := .perform .refl "x = 1"

theorem performOperation_unfolds_sample :
    ∃ w', on (performOperation "y = x + -x") sample = (.ok [], w') ∧
      ∃ name e x v n r t, Expr.ofText "y = x + -x" = .ok (name, e) ∧ w'.named.get? name = some x ∧
        w'.Unfolds x v n r t ∧ e.Means sample.Stores t := by
  have answer : (on (performOperation "y = x + -x") sample).1 = .ok [] := by decide +kernel
  have only : sampleStart.catalogue.operations = Operation.builtins sampleStart.host.settings := rfl
  rcases run : on (performOperation "y = x + -x") sample with ⟨r, w'⟩
  rw [run] at answer
  obtain rfl : r = .ok [] := answer
  exact ⟨w', rfl, (performOperation_unfolds only computes_sample run).1⟩

end Workspace

end Dataflow
