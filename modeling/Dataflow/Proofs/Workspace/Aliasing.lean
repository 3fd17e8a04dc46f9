import Dataflow.Proofs.Recipe.Parallel
import Dataflow.Proofs.Variable.Alias
import Dataflow.Proofs.Workspace.Commuting
import Dataflow.Proofs.Workspace.Singles

/-! Aliases. A variable that a statement has made and a copy of it under another name stand for each
other: whatever is computed or compiled from the one can be from the other, and comes out the same. -/

namespace Dataflow

/-- What is drawn is not the module of a version of a single module. -/
theorem Host.Prepares.lone {h : Host} {s t u : Store} {g : Pipeline} {r : VariablesRoot}
    (prepares : h.Prepares s t) (hs : s.Valid) (settled : s.Settled) (minted : g.Minted s t)
    (asked : h.variablesRoot.on t = (.ok r, u)) (absent : g.modules.contains r.module = false)
    {v : VersionId} {m : ModuleId} (single : u.Single v m) : g.modules.contains m = false := by
  rw [← Bool.not_eq_true]
  intro there
  have ht := prepares.valid hs
  have made := preparing_variablesRoot.prepares ht asked
  obtain old | ⟨-, rooted, -⟩ := (prepares.trans made).single single
  · exact absurd (settled.below old) (Nat.not_lt_of_le (minted.modules m there).1)
  · -- a variables root that was made meanwhile is the one that was asked for
    have again := rooted.on_variablesRoot
    rw [variablesRoot_again ht asked (.refl u)] at again
    cases again
    rw [absent] at there
    cases there

namespace Variable

variable {h : Host} {s t u : Store} {x y z : Variable} {b : VersionId} {root : ModuleId}
  {g : Pipeline} {c : Connection}

/-- A variable as a statement writes it below a variables root. What was drawn for it is no part of any
version of a single module, so that no variables root can be taken for a part of it. -/
structure Laid (h : Host) (s : Store) (x : Variable) (b : VersionId) (root : ModuleId) (g : Pipeline)
    (c : Connection) : Prop where
  version : ∃ v n base, x.version = some v ∧ s.versions.get? v = some n ∧
    s.versions.get? b = some base ∧ n.pipeline.Fed base.pipeline g root c
  destination : c.destination = ⟨root, h.settings.ports.pipe⟩
  tidy : g.Tidy
  lone : ∀ {v m}, s.Single v m → g.modules.contains m = false
  below : ∀ {m}, g.modules.contains m = true → m < s.nextModule

theorem Laid.single (laid : x.Laid h s b root g c) : s.Single b root := by
  obtain ⟨v, n, base, -, -, below, fed⟩ := laid.version
  exact ⟨base, below, fed.keys⟩

theorem Laid.later (laid : x.Laid h s b root g c) (settles : s.Settles t)
    (kept : ∀ {v n}, s.versions.get? v = some n →
      ∃ m, t.versions.get? v = some m ∧ m.pipeline = n.pipeline) : x.Laid h t b root g c where
  version := by
    obtain ⟨v, n, base, version, there, below, fed⟩ := laid.version
    obtain ⟨n', there', same⟩ := kept there
    obtain ⟨base', below', same'⟩ := kept below
    exact ⟨v, n', base', version, there', below', same ▸ same' ▸ fed⟩
  destination := laid.destination
  tidy := laid.tidy
  lone {v m} single := by
    obtain old | new := settles.fresh single
    · exact laid.lone old
    · rw [← Bool.not_eq_true]
      exact fun there => absurd (laid.below there) (Nat.not_lt_of_le new)
  below there := Nat.lt_of_lt_of_le (laid.below there) settles.precedes.module

/-- What a statement has built is laid below the variables root that it asks for. -/
theorem laid_of_materialize (hs : s.Valid) (settled : s.Settled) (prepares : h.Prepares s t)
    (own : x.Owned) (drawn : x.Drawn g) (minted : g.Minted s t) {name : String} {v : VersionId}
    (run : (x.materialize h name).on t = (.ok (v, y), u)) :
    ∃ r t' c, h.variablesRoot.on t = (.ok r, t') ∧ x.output = some c.source ∧
      y.Laid h u r.version r.module g c ∧ y = { x with version := some v, draft := .empty } ∧
      (∀ {v n}, s.versions.get? v = some n → u.versions.get? v = some n) ∧
      (∃ n, u.live v = .ok n) ∧
      ∃ b, u.tags.get? h.rootTag = some b ∧ (b = r.version ∨ b = v) := by
  have ht := prepares.valid hs
  obtain ⟨_, failed⟩ | ⟨o, r, t', base, unwritten, output, asked, live, outcome⟩ :=
    materialize_cases h name ht x
  · rw [failed] at run
    cases run
  obtain ⟨_, _, -, refused⟩ | ⟨p, accepted, wrote⟩ := outcome
  · rw [refused] at run
    cases run
  rw [wrote] at run
  cases run
  obtain ⟨g', drawn', apart, fresh, rfl⟩ := Host.drawn_of_applyAll own unwritten accepted
  obtain rfl := drawn'.unique drawn
  obtain ⟨tag, ⟨base', live', keys⟩, -⟩ := Host.variablesRoot_eq_ok ht asked
  obtain rfl : base = base' := Except.ok.inj (live.symm.trans live')
  have made := Host.preparing_variablesRoot.prepares ht asked
  have ht' := made.valid ht
  obtain ⟨there, -⟩ := Store.live_eq_ok_iff.1 live
  -- what was drawn stands beside the variables root, which the last connection feeds
  have fed : Pipeline.Fed _ base.pipeline g' r.module
      (feeding h r.module o t'.nextConnection) :=
    { whole := rfl
      keys := keys
      apart := apart
      base_closed := ht'.wellFormed there
      closed := drawn.draws.wellFormed
      fresh := fresh
      last := fun k listed =>
        Nat.lt_of_lt_of_le (minted.connections k listed).2 made.precedes.connection
      destination := rfl
      source := drawn.output output }
  refine ⟨r, t', _, asked, output, ⟨⟨t'.nextVersion, _, base, rfl, OrderedMap.get?_insert_self ..,
    get?_wrote _ _ _ ht' _ _ _ there, fed⟩, rfl, own.draft.tidy drawn.draws, fun {v m} single => ?_,
    fun {m} listed => ?_⟩, rfl, fun found => ?_, ⟨_, live_wrote ..⟩, ?_⟩
  · obtain ⟨n, found, only⟩ := single
    have found : (Store.extended t' _).versions.get? v = some n := found
    obtain ⟨-, rfl⟩ | ⟨-, before⟩ := Store.get?_extended_eq_some_iff.1 found
    · exact absurd only (fed.keys_ne_singleton m)
    · exact prepares.lone hs settled minted asked fed.absent ⟨n, before, only⟩
  · exact Nat.lt_of_lt_of_le (minted.modules m listed).2 made.precedes.module
  · exact get?_wrote _ _ _ ht' _ _ _ (made.kept ht (prepares.kept hs found))
  · by_cases same : h.rootTag = h.settings.variableTag name
    · exact ⟨_, Store.get?_tagged_eq_some_iff.2 (.inl ⟨same, rfl⟩), .inr rfl⟩
    · exact ⟨r.version, Store.get?_tagged_eq_some_iff.2
        (.inr ⟨same, Nat.ne_of_lt (ht'.tag_lt tag), tag⟩), .inl rfl⟩

/-- A variable and one that was copied from it. Wherever a variables root is found, it is the one that
both were written below, and their pipelines there differ by a renaming. -/
structure Alias (h : Host) (s : Store) (x z : Variable) : Prop where
  type : z.type = x.type
  provenance : z.provenance = x.provenance
  tagged : ∃ b, s.tags.get? h.rootTag = some b
  versions : ∃ v v' p p', x.version = some v ∧ z.version = some v' ∧ s.pipeline v = .ok p ∧
    s.pipeline v' = .ok p' ∧ ∀ {b m}, s.tags.get? h.rootTag = some b → s.Single b m →
      ∃ φ D, p.Mates φ D m m p'

/-- A variable that is copied is read below the variables root that it was laid below, to which nothing
had been connected before. -/
theorem Laid.of_copy (laid : x.Laid h s b root g c) (hs : s.Valid) (settled : s.Settled)
    (run : (x.copy h).on s = (.ok y, t)) :
    ∃ u v p base ids g', h.variablesRoot.on s = (.ok ⟨b, root⟩, u) ∧ x.version = some v ∧
      u.pipeline v = .ok p ∧ u.versions.get? b = some base ∧ p.Fed base.pipeline g root c ∧
      base.pipeline.connections = ∅ ∧ u.Mints t ∧ y.Drawn g' ∧ g'.Minted u t ∧
      CopyOf u p root ids g' ∧ y.output = some (c.source.moved ids.at) := by
  obtain ⟨v, r, u, p, o, ids, g', version, asked, read, feed, mints, drawn, minted, copies, -, output,
    -⟩ := copy_eq_ok hs run
  have prepares := Host.preparing_variablesRoot.prepares hs asked
  have settles := prepares.settles settled
  have laid := laid.later settles fun found => ⟨_, prepares.kept hs found, rfl⟩
  obtain ⟨-, ⟨n, live, keys⟩, -⟩ := Host.variablesRoot_eq_ok hs asked
  have single : u.Single r.version r.module := ⟨n, (Store.live_eq_ok_iff.1 live).1, keys⟩
  obtain ⟨v', k, base, version', there, below, fed⟩ := laid.version
  obtain rfl : v = v' := Option.some.inj (version.symm.trans version')
  obtain ⟨k', there', -, rfl⟩ := Store.pipeline_eq_ok_iff.1 read
  obtain rfl : k = k' := Option.some.inj (there.symm.trans there')
  -- the module that is fed is a part of the variable, so it can only be that of its variables root
  have inside : k.pipeline.modules.contains r.module = true := by
    obtain ⟨d, into, -⟩ := feed_eq_ok feed
    have listed : d ∈ k.pipeline.connectionsInto r.module := by
      rw [into]
      exact List.mem_singleton_self d
    obtain ⟨listed, here⟩ := List.mem_filter.1 listed
    obtain ⟨id, found⟩ := OrderedMap.mem_values_iff.1 listed
    have closed := ((prepares.valid hs).wellFormed there).destination found
    rwa [beq_iff_eq.1 here] at closed
  obtain same | drawn' := fed.contains_cases inside
  · obtain ⟨rv, rm⟩ := r
    obtain rfl : rm = root := same
    obtain rfl : rv = b := settles.settled.unique single laid.single
    obtain ⟨bare, rfl⟩ := fed.bare feed
    exact ⟨u, v, _, base, ids, g', asked, version, read, below, fed, bare, mints, drawn, minted,
      copies, output⟩
  · rw [laid.lone single] at drawn'
    cases drawn'

/-- A copy that was written is an alias of the variable. -/
theorem Laid.alias_of_copy (laid : x.Laid h s b root g c) (hs : s.Valid) (settled : s.Settled)
    (copied : (x.copy h).on s = (.ok y, t)) {name : String} {v : VersionId}
    (run : (y.materialize h name).on t = (.ok (v, z), u)) : x.Alias h u z := by
  obtain ⟨s', w, p, base, ids, g', asked, version, read, below, fed, bare, mints, drawn, minted,
    copies, output⟩ := laid.of_copy hs settled copied
  have prepares := Host.preparing_variablesRoot.prepares hs asked
  have hs' := prepares.valid hs
  obtain ⟨r, t', c', asked', output', laid', rfl, kept, ⟨n', live⟩, b', tag, which⟩ :=
    laid_of_materialize hs' (prepares.settles settled).settled (.mints mints)
      (Proper.copy copied drawn.unwritten) drawn minted run
  -- writing finds the variables root that copying has found
  have again := asked'
  rw [Host.variablesRoot_again hs asked mints] at again
  cases again
  obtain ⟨v', k, base', version', there, below', fed'⟩ := laid'.version
  cases version'
  obtain rfl : base = base' := Option.some.inj ((kept below).symm.trans below')
  obtain ⟨there', unpruned⟩ := Store.live_eq_ok_iff.1 live
  obtain rfl : k = n' := Option.some.inj (there.symm.trans there')
  obtain ⟨n, found, live, rfl⟩ := Store.pipeline_eq_ok_iff.1 read
  have source : c'.source = c.source.moved ids.at := Option.some.inj (output'.symm.trans output)
  obtain ⟨φ, D, mates⟩ := fed.mates fed' bare laid.tidy copies source
    (laid'.destination.trans laid.destination.symm)
  obtain ⟨type, provenance, -⟩ := described_of_copy copied
  refine ⟨type, provenance, ⟨b', tag⟩, _, _, _, _, version, rfl,
    Store.pipeline_eq_ok_iff.2 ⟨n, kept found, live, rfl⟩,
    Store.pipeline_eq_ok_iff.2 ⟨k, there, unpruned, rfl⟩, fun {b'' m} tag' single => ?_⟩
  obtain rfl : b' = b'' := Option.some.inj (tag.symm.trans tag')
  obtain ⟨base'', below'', only⟩ := single
  obtain rfl | rfl := which
  · obtain rfl : base = base'' := Option.some.inj (below'.symm.trans below'')
    rw [fed.keys] at only
    cases only
    exact ⟨φ, D, mates⟩
  · -- the tag names the copy itself, which has more than one module
    obtain rfl : k = base'' := Option.some.inj (there.symm.trans below'')
    exact absurd only (fed'.keys_ne_singleton m)

end Variable

/-- Where the variables root's tag is there, the root is found in step. -/
theorem Host.parallel_variablesRoot {h : Host} {s : Store} (hs : s.Valid) {b : VersionId}
    (tagged : s.tags.get? h.rootTag = some b) :
    Action.Parallel s s (fun r r' => r' = r ∧ s.Single b r.module) h.variablesRoot
      h.variablesRoot := by
  refine .same (fun t mints => ?_) fun t r mints answer => ⟨rfl, ?_⟩
  · exact (preparing_variablesRoot t (hs.mints mints)).mints_of_tagged (mints.tags ▸ tagged)
  · rcases run : h.variablesRoot.on t with ⟨_, u⟩
    rw [run] at answer
    obtain rfl := answer
    obtain ⟨tag, ⟨n, live, keys⟩, rfl | ⟨absent, -⟩⟩ := variablesRoot_eq_ok (hs.mints mints) run
    · rw [mints.tags, tagged, Option.some.injEq] at tag
      obtain ⟨there, -⟩ := Store.live_eq_ok_iff.1 live
      exact ⟨n, tag ▸ mints.versions ▸ there, keys⟩
    · rw [mints.tags, tagged] at absent
      cases absent

namespace Variable

variable {h : Host} {s : Store} {x y z : Variable}

/-- The second variable is the first one, or an alias is in its place. -/
def StandsFor (x z : Variable) (y y' : Variable) : Prop := y' = y ∨ y = x ∧ y' = z

variable {y y' : Variable}

theorem Alias.described (twin : x.Alias h s z) (stands : x.StandsFor z y y') :
    y'.type = y.type ∧ y'.provenance = y.provenance ∧ y'.version.isSome = y.version.isSome := by
  obtain rfl | ⟨rfl, rfl⟩ := stands
  · exact ⟨rfl, rfl, rfl⟩
  · obtain ⟨v, v', -, -, version, version', -⟩ := twin.versions
    refine ⟨twin.type, twin.provenance, ?_⟩
    rw [version, version']
    rfl

/-- The pipelines that are read below a variables root are renamings of each other. -/
theorem Alias.reads (twin : x.Alias h s z) {b : VersionId}
    (tagged : s.tags.get? h.rootTag = some b) {m : ModuleId} (single : s.Single b m)
    (stands : x.StandsFor z y y') : y.ReadAlike s s (Recipe.Mated m m) y' := by
  have version := (twin.described stands).2.2
  obtain rfl | ⟨rfl, rfl⟩ := stands
  · exact .refl (fun p => ⟨id, Set.univ, .refl p m⟩) y'
  · obtain ⟨v, v', p, p', written, written', read, read', mates⟩ := twin.versions
    refine ⟨version, fun {k k'} hk hk' => ?_⟩
    obtain rfl : v = k := Option.some.inj (written.symm.trans hk)
    obtain rfl : v' = k' := Option.some.inj (written'.symm.trans hk')
    rw [read, read']
    exact .ok (mates tagged single)

theorem Alias.parallel_copy (twin : x.Alias h s z) (hs : s.Valid) (stands : x.StandsFor z y y') :
    Action.Parallel s s (fun y y' => y' = y.shifted .none) (y.copy h) (y'.copy h) := by
  obtain ⟨b, tagged⟩ := twin.tagged
  obtain ⟨type, provenance, version⟩ := twin.described stands
  refine Variable.parallel_copy (Shift.between_none s) (Host.parallel_variablesRoot hs tagged)
    ⟨type, provenance, version, ?_⟩
  rintro r _ ⟨rfl, single⟩
  exact (twin.reads tagged single stands).mono fun p p' mated => .inl mated

end Variable

namespace Workspace

variable {w w' : Workspace} {x z : Variable} {b : VersionId} {root : ModuleId} {g : Pipeline}
  {c : Connection}

/-- Nodes that differ by aliases are executed to the same. -/
theorem sameRun_execute (twin : x.Alias w.host w.store z) (hs : w.store.Valid) {n m : Node}
    (plain : n.All (fun _ => True) Operation.IsPlain) (beside : Node.Beside (x.StandsFor z) n m) :
    SameRun ((n.execute w.host).on w.store) ((m.execute w.host).on w.store) := by
  have parallel := Node.parallel_execute (Shift.between_none w.store)
    (fun y y' stands => twin.parallel_copy hs stands) beside plain
  exact (parallel.mono fun y y' same => (same.trans y.shifted_none).symm).sameRun

/-- Statements that differ by aliases do the same. -/
theorem sameRun_performOperation (twin : x.Alias w.host w.store z) (hs : w.store.Valid)
    (plain : ∀ op ∈ w.catalogue.operations, op.IsPlain) {a c : String}
    (known : w.named.get? a = some x) (known' : w.named.get? c = some z)
    {text text' target : String} {e : Expr} (parsed : Expr.ofText text = .ok (target, e))
    (parsed' : Expr.ofText text' = .ok (target, e.renamed (Function.update id a c))) :
    SameRun (on (performOperation text) w) (on (performOperation text') w) := by
  have resolved : Alike (fun r r' => Node.Beside (x.StandsFor z) r.1 r'.1 ∧ r'.2 = r.2)
      (w.scope.bind e.resolve)
      (w.scope.bind (e.renamed (Function.update id a c)).resolve) := by
    refine alike_resolve rfl rfl (fun y y' stands => (twin.described stands).1) fun name _ => ?_
    by_cases replaced : name = a
    · rw [replaced, Function.update_self, known, known']
      exact .some (.inr ⟨rfl, rfl⟩)
    · rw [Function.update_of_ne replaced, id]
      cases w.named.get? name with
      | none => exact .none
      | some y => exact .some (.inl rfl)
  rw [on_performOperation, on_performOperation, parsed, parsed']
  dsimp only
  split
  · exact .refl _
  · obtain ⟨e, e', failed, failed', like⟩ | ⟨⟨n, warnings⟩, ⟨m, _⟩, sees, sees', beside, rfl⟩ :=
      resolved.cases
    · rw [failed, failed']
      exact ⟨.error like, rfl⟩
    · rw [sees, sees']
      dsimp only
      have plainly := Node.All.applies (knows_of_resolve sees) plain
      obtain same | ⟨e, e', t, first, second, like⟩ :=
        (sameRun_execute twin hs plainly beside).cases
      · rw [same]
        exact .refl _
      · rw [first, second]
        exact ⟨.error like, rfl⟩

/-- Recipes that differ by aliases are compiled to the same. -/
theorem sameRun_createPipeline (twin : x.Alias w.host w.store z) (hs : w.store.Valid)
    {r r' : Recipe} (plot : r'.plot = r.plot)
    (bound : ∀ port, Option.Rel (x.StandsFor z) (r.bound.get? port) (r'.bound.get? port)) :
    SameRun (on (createPipeline r) w) (on (createPipeline r') w) := by
  have listed := OrderedMap.forall₂_entries bound
  have contains := OrderedMap.contains_eq_of_related bound
  have validate : r'.validate = r.validate := by
    unfold Recipe.validate
    simp only [plot, contains, OrderedMap.keys_eq_of_contains contains]
  have empty : r'.bound.isEmpty = r.bound.isEmpty := by
    rw [Bool.eq_iff_iff, OrderedMap.isEmpty, OrderedMap.isEmpty, List.isEmpty_iff_length_eq_zero,
      List.isEmpty_iff_length_eq_zero, listed.length_eq]
  obtain ⟨b, tagged⟩ := twin.tagged
  have drafts := Recipe.parallel_draft (Shift.between_none w.store) plot empty
    (fun _ => Host.parallel_variablesRoot hs tagged) fun {root root'} both => by
      obtain ⟨rfl, single⟩ := both
      exact listed.imp fun e e' pair => ⟨pair.1, twin.reads tagged single pair.2⟩
  have same := Recipe.sameRun_compile hs validate
    (drafts.mono fun d d' same => (same.trans d.shifted_none).symm).sameRun
  rw [on_createPipeline, on_createPipeline]
  exact ⟨same.1, congrArg (fun s => { w with store := s }) same.2⟩

/-- What a statement has made is laid below a variables root. -/
theorem laid_of_performOperation (hs : w.store.Valid) (settled : w.store.Settled)
    (linear : ∀ op ∈ w.catalogue.operations, op.IsLinear) {text target : String} {e : Expr}
    (parsed : Expr.ofText text = .ok (target, e)) {warnings : List Ambiguity}
    (run : on (performOperation text) w = (.ok warnings, w'))
    (known : w'.named.get? target = some x) :
    ∃ b root g c, x.Laid w.host w'.store b root g c := by
  obtain ⟨_, _, failed, -⟩ | ⟨name, e', scope, node, _, y, s, v, z, u, done, parsed', sees, resolved,
    executed, written⟩ := performOperation_outcome w text
  · rw [failed] at run
    cases run
  rw [done] at run
  cases run
  rw [parsed] at parsed'
  cases parsed'
  obtain rfl : z = x := Option.some.inj ((OrderedMap.get?_insert_self ..).symm.trans known)
  have sees' : w.scope.bind e.resolve = .ok (node, warnings) := by
    rw [sees]
    exact resolved
  have linearly := Node.All.applies (knows_of_resolve sees') linear
  obtain ⟨g, drawn, minted⟩ := Node.drawn_execute node linearly hs executed
  have prepares := (node.preparing_execute w.host).prepares hs executed
  obtain ⟨r, _, c, -, -, laid, -⟩ := Variable.laid_of_materialize hs settled prepares
    (node.proper_execute executed drawn.unwritten) drawn minted written
  exact ⟨_, _, g, c, laid⟩

/-- The variable that a statement copies gets an alias. -/
theorem alias_of_performOperation (hs : w.store.Valid) (settled : w.store.Settled)
    (laid : x.Laid w.host w.store b root g c) {name copy : String}
    (known : w.named.get? name = some x) {text : String}
    (parsed : Expr.ofText text = .ok (copy, .symbol name)) {warnings : List Ambiguity}
    (run : on (performOperation text) w = (.ok warnings, w'))
    (known' : w'.named.get? copy = some z) : x.Alias w'.host w'.store z := by
  obtain ⟨_, _, failed, -⟩ | ⟨_, _, scope, node, _, y, s, v, z', u, done, parsed', sees, resolved,
    executed, written⟩ := performOperation_outcome w text
  · rw [failed] at run
    cases run
  rw [done] at run
  cases run
  rw [parsed] at parsed'
  cases parsed'
  obtain rfl : z' = z := Option.some.inj ((OrderedMap.get?_insert_self ..).symm.trans known')
  obtain rfl := Scope.of_eq_ok sees
  rw [Expr.resolve] at resolved
  simp only [known] at resolved
  cases resolved
  exact laid.alias_of_copy hs settled executed written

theorem catalogue_of_reaches (hs : w.store.Valid) (reaches : Reaches w w') :
    w'.catalogue = w.catalogue := by
  induction reaches with
  | refl => rfl
  | call reaches admissible ih =>
    have valid := (valid_of_reaches hs reaches).1
    exact (effect_after valid admissible).host.2.trans ih

theorem kept_of_reaches (hs : w.store.Valid) (reaches : Reaches w w') {v : VersionId} {n : Version}
    (found : w.store.versions.get? v = some n) :
    ∃ m, w'.store.versions.get? v = some m ∧ m.pipeline = n.pipeline := by
  induction reaches with
  | refl => exact ⟨n, found, rfl⟩
  | call reaches admissible ih =>
    obtain ⟨m, there, same⟩ := ih
    have valid := (valid_of_reaches hs reaches).1
    obtain ⟨k, there', same'⟩ := (effect_after valid admissible).kept valid there
    exact ⟨k, there', same'.trans same⟩

theorem run_of_answer {w : Workspace} {text : String} {r : Except Error (List Ambiguity)}
    (answer : (on (performOperation text) w).1 = r) :
    on (performOperation text) w = (r, w.after (.performOperation text)) := Prod.ext answer rfl

theorem reaches_of_performOperation {text : String} {r : Except Error (List Ambiguity)}
    (run : on (performOperation text) w = (r, w')) : Reaches w w' := by
  have reaches : Reaches w (w.after (.performOperation text)) := Reaches.refl.call trivial
  rwa [after, run] at reaches

/-- Where a variable that a statement has made is copied to another name, the two names stand for each
other. Statements that differ only in which of the two they use fail alike, or have the same warnings
and register the same variable; recipes that differ only in which of the two variables they bind are
compiled to the same version, or refused alike. -/
theorem performOperation_alias {host : Host} {catalogue : Catalogue}
    (plain : ∀ op ∈ catalogue.operations, op.IsPlain) {w₀ w₁ w w' : Workspace}
    (start : Reaches (new host catalogue .new) w₀) {first name₀ name copy text : String} {e₀ : Expr}
    {warnings₀ warnings : List Ambiguity} {x z : Variable}
    (parsed₀ : Expr.ofText first = .ok (name₀, e₀))
    (run₀ : on (performOperation first) w₀ = (.ok warnings₀, w₁))
    (known₀ : w₁.named.get? name₀ = some x) (reaches : Reaches w₁ w)
    (known : w.named.get? name = some x) (parsed : Expr.ofText text = .ok (copy, .symbol name))
    (run : on (performOperation text) w = (.ok warnings, w'))
    (known' : w'.named.get? copy = some z) :
    (∀ {s t target : String} {e : Expr}, Expr.ofText s = .ok (target, e) →
      Expr.ofText t = .ok (target, e.renamed (Function.update id name copy)) →
        SameRun (on (performOperation s) w') (on (performOperation t) w')) ∧
    ∀ {r r' : Recipe}, r'.plot = r.plot →
      (∀ port, r'.bound.get? port = r.bound.get? port ∨
        r.bound.get? port = some x ∧ r'.bound.get? port = some z) →
        SameRun (on (createPipeline r) w') (on (createPipeline r') w') := by
  have hs : (new host catalogue .new).store.Valid := Store.valid_new
  have made := start.trans (reaches_of_performOperation run₀)
  have later := made.trans reaches
  have last := later.trans (reaches_of_performOperation run)
  have valid := fun {w} (reaches : Reaches (new host catalogue .new) w) =>
    (valid_of_reaches hs reaches).1
  have settled := fun {w} (reaches : Reaches (new host catalogue .new) w) =>
    (settles_of_reaches hs Store.settled_new reaches).settled
  have plainly : ∀ {w}, Reaches (new host catalogue .new) w →
      ∀ op ∈ w.catalogue.operations, op.IsPlain := fun {w} reaches => by
    rw [catalogue_of_reaches hs reaches]
    exact plain
  -- the variable is laid when it is made, and stays so until it is copied
  obtain ⟨b, root, g, c, laid⟩ := laid_of_performOperation (valid start) (settled start)
    (fun op listed => (plainly start op listed).isLinear) parsed₀ run₀ known₀
  have host₀ := (valid_of_reaches (valid start) (reaches_of_performOperation run₀)).2
  have host₁ := (valid_of_reaches (valid made) reaches).2
  have laid : x.Laid w.host w.store b root g c := by
    rw [host₁, host₀]
    exact laid.later (settles_of_reaches (valid made) (settled made) reaches)
      (kept_of_reaches (valid made) reaches)
  have twin := alias_of_performOperation (valid later) (settled later) laid known parsed run known'
  have known'' : w'.named.get? name = some x := by
    have still := known_performOperation text known
    rwa [run] at still
  refine ⟨fun parsed parsed' => ?_, fun {r r'} plot bound => ?_⟩
  · exact sameRun_performOperation twin (valid last) (plainly last) known'' known' parsed parsed'
  · refine sameRun_createPipeline twin (valid last) plot fun port => ?_
    obtain same | ⟨first, second⟩ := bound port
    · rw [same]
      cases r.bound.get? port with
      | none => exact .none
      | some y => exact .some (.inl rfl)
    · rw [first, second]
      exact .some (.inr ⟨rfl, rfl⟩)

/-- One statement on the variable `x` and on its alias `z`, and one recipe that binds the one or the
other. -/
theorem performOperation_alias_sample :
    let w := sample.after (.performOperation "z = x")
    SameRun (on (performOperation "y = x + 2") w) (on (performOperation "y = z + 2") w) ∧
      ∃ z, w.named.get? "z" = some z ∧
        SameRun (on (createPipeline sampleRecipe) w)
          (on (createPipeline (sampleRecipe.bind "x" z)) w) := by
  have first : Expr.ofText "x = 1" = .ok ("x", .literal (.integer 1)) := by cbv
  have second : Expr.ofText "z = x" = .ok ("z", .symbol "x") := by cbv
  have sum : Expr.ofText "y = x + 2" =
      .ok ("y", .apply "+" [.symbol "x", .literal (.integer 2)]) := by cbv
  have sum' : Expr.ofText "y = z + 2" =
      .ok ("y", .apply "+" [.symbol "z", .literal (.integer 2)]) := by cbv
  intro w
  have made : (on (performOperation "x = 1") sampleStart).1 = .ok [] := by decide +kernel
  have copied : (on (performOperation "z = x") sample).1 = .ok [] := by decide +kernel
  obtain ⟨x, known⟩ := Option.isSome_iff_exists.1
    (show (sample.named.get? "x").isSome = true by decide +kernel)
  obtain ⟨z, known'⟩ := Option.isSome_iff_exists.1
    (show (w.named.get? "z").isSome = true by decide +kernel)
  have plain : ∀ op ∈ sampleStart.catalogue.operations, op.IsPlain :=
    Operation.isPlain_of_mem_withBuiltins _
  have start : Reaches (new sampleStart.host sampleStart.catalogue .new) sampleStart := .refl
  have run₀ : on (performOperation "x = 1") sampleStart = (.ok [], sample) :=
    run_of_answer made
  have run : on (performOperation "z = x") sample = (.ok [], w) :=
    run_of_answer copied
  obtain ⟨statements, recipes⟩ := performOperation_alias plain start first run₀ known .refl known
    second run known'
  refine ⟨statements sum ?_, z, known', recipes rfl fun port => ?_⟩
  · rw [sum']
    simp [Expr.renamed, Expr.renamedAll]
  · have bound : sampleRecipe.bound.get? "x" = some x := known
    rw [Recipe.bind, OrderedMap.get?_insert]
    split
    · next same => exact .inr ⟨same ▸ bound, rfl⟩
    · exact .inl rfl

end Workspace

end Dataflow
