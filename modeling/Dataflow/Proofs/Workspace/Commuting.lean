import Mathlib
import Dataflow.Proofs.Execution.Parallel
import Dataflow.Proofs.Pipeline.Isomorphism
import Dataflow.Proofs.Workspace.Repeating

/-! Statements in either order. A statement that is performed later is performed as it would have been
before, but for the identifiers that it takes, as long as the names that it uses mean the same. -/

namespace Dataflow

namespace Host

variable {h : Host} {root root' : ModuleId} {g : Pipeline} {o : PortRef} {id : ConnectionId}
  {σ : Shift}

/-- Drawings that are the same but for a shift make isomorphic variables, whatever the modules of the
variables roots are. -/
theorem isomorphic_variablePipeline (whole : (h.variablePipeline root g o id).WellFormed)
    (closed : g.WellFormed) (apart : (h.rootPipeline root).Apart g)
    (apart' : (h.rootPipeline root').Apart (g.shifted σ))
    (own : g.modules.contains o.module = true) (fresh : g.connections.get? id = none) :
    (h.variablePipeline root g o id).Isomorphic
      (h.variablePipeline root' (g.shifted σ) (o.shifted σ) (σ.connection id)) := by
  -- the module of one root goes to that of the other, and what is drawn is shifted
  let f : ModuleId → ModuleId := fun k => if k = root then root' else σ.module k
  have drawn : ∀ {k}, g.modules.contains k = true → f k = σ.module k := by
    intro k there
    have other : k ≠ root := by
      rintro rfl
      rw [contains_root_eq_false apart] at there
      cases there
    exact if_neg other
  have new : ∀ {k}, g.modules.contains k = true → σ.module k ≠ root' := by
    rintro k there rfl
    have absent := contains_root_eq_false apart'
    rw [Pipeline.contains_shifted, there] at absent
    cases absent
  have fresh' : (g.shifted σ).connections.get? (σ.connection id) = none := by
    show (g.connections.shifted ..).get? (id + σ.connections) = none
    rw [OrderedMap.get?_shifted, fresh]
    rfl
  refine Pipeline.isomorphic_of_injOn (f := f) (g := σ.connection) whole ?_ ?_ ?_
    fun k _ l _ same => Nat.add_right_cancel same
  · refine (values_variablePipeline apart').trans
      (.trans ?_ ((values_variablePipeline apart).map (Module.moved f)).symm)
    refine .of_eq ?_
    rw [List.map_cons, show (g.shifted σ).modules.values = _ from OrderedMap.values_shifted ..]
    refine congrArg₂ _ ?_ (List.map_congr_left fun m listed => ?_)
    · simp [Module.moved, rootModule, f]
    · have there : g.modules.contains m.id = true :=
        OrderedMap.contains_eq_true_iff.2 ⟨m, closed.mem_values_iff.1 listed⟩
      simp only [Module.moved, drawn there]
  · refine (connections_variablePipeline fresh' h root' _).trans
      (.trans ?_ ((connections_variablePipeline fresh h root o).map (Connection.moved f _)).symm)
    refine .of_eq ?_
    rw [List.map_cons, show (g.shifted σ).connections.values = _ from OrderedMap.values_shifted ..]
    refine congrArg₂ _ ?_ (List.map_congr_left fun c listed => ?_)
    · simp [Connection.moved, PortRef.moved, PortRef.shifted, Variable.feeding, drawn own, f]
    · obtain ⟨k, found⟩ := OrderedMap.mem_values_iff.1 listed
      simp only [Connection.moved, PortRef.moved, drawn (closed.source found),
        drawn (closed.destination found)]
  · intro k hk l hl same
    have parts : ∀ {k}, (h.variablePipeline root g o id).modules.contains k = true →
        g.modules.contains k = true ∨ k = root := by
      intro k there
      simpa [variablePipeline, Pipeline.withConnection] using there
    rcases parts hk with there | rfl <;> rcases parts hl with there' | rfl
    · rw [drawn there, drawn there'] at same
      exact Shift.module_inj.1 same
    · rw [drawn there] at same
      exact absurd (same.trans (if_pos rfl)) (new there)
    · rw [drawn there'] at same
      exact absurd ((if_pos rfl).symm.trans same).symm (new there')
    · rfl

end Host

/-- A variable of one store and one of another store were written alike. -/
structure Variable.Resembles (s s' : Store) (x x' : Variable) : Prop where
  type : x'.type = x.type
  provenance : x'.provenance = x.provenance
  committed : ∃ v v' n n', x.version = some v ∧ x'.version = some v' ∧ s.live v = .ok n ∧
    s'.live v' = .ok n' ∧ n.pipeline.Isomorphic n'.pipeline

namespace Variable.Resembles

variable {s s' t t' : Store} {x x' : Variable}

theorem symm (h : x.Resembles s s' x') : x'.Resembles s' s x := by
  obtain ⟨v, v', n, n', version, version', live, live', same⟩ := h.committed
  exact ⟨h.type.symm, h.provenance.symm, v', v, n', n, version', version, live', live, same.symm⟩

/-- Variables that were written alike stay so in stores that keep all versions. -/
theorem later (h : x.Resembles s s' x')
    (kept : ∀ {v n}, s.versions.get? v = some n → t.versions.get? v = some n)
    (kept' : ∀ {v n}, s'.versions.get? v = some n → t'.versions.get? v = some n) :
    x.Resembles t t' x' := by
  obtain ⟨v, v', n, n', version, version', live, live', same⟩ := h.committed
  obtain ⟨there, unpruned⟩ := Store.live_eq_ok_iff.1 live
  obtain ⟨there', unpruned'⟩ := Store.live_eq_ok_iff.1 live'
  exact ⟨h.type, h.provenance, v, v', n, n', version, version',
    Store.live_eq_ok_iff.2 ⟨kept there, unpruned⟩,
    Store.live_eq_ok_iff.2 ⟨kept' there', unpruned'⟩, same⟩

end Variable.Resembles

namespace Workspace

variable {w w' : Workspace}

theorem alike_resolve (host : w'.host = w.host) (catalogue : w'.catalogue = w.catalogue)
    {Q : Variable → Variable → Prop} (typed : ∀ x y, Q x y → y.type = x.type) {e : Expr}
    {ρ : String → String}
    (means : ∀ name ∈ e.symbols, Option.Rel Q (w.named.get? name) (w'.named.get? (ρ name))) :
    Alike (fun r r' => Node.Beside Q r.1 r'.1 ∧ r'.2 = r.2) (w.scope.bind e.resolve)
      (w'.scope.bind (e.renamed ρ).resolve) := by
  unfold scope Scope.of
  rw [host, catalogue]
  cases w.host.basic "Float" with
  | error fault => exact .error rfl
  | ok float =>
    cases w.host.basic "String" with
    | error fault => exact .error rfl
    | ok string =>
      exact Expr.alike_resolve (s := ⟨w.named, w.catalogue, w.host.types, float, string⟩) typed e
        means

/-- What two runs that may write variables answer: both fail alike, or both write variables that
resemble each other. -/
inductive WritesAlike : Except Error (VersionId × Variable) × Store →
    Except Error (VersionId × Variable) × Store → Prop
  | error {e e' : Error} {s s' : Store} (like : e.Like e') :
      WritesAlike (.error e, s) (.error e', s')
  | ok {v v' : VersionId} {x x' : Variable} {s s' : Store} (resembles : x.Resembles s s' x') :
      WritesAlike (.ok (v, x), s) (.ok (v', x'), s')

/-- Drawings that are the same but for a shift are written alike. -/
theorem Agrees.alike_materialize (agrees : w.Agrees) (agrees' : w'.Agrees)
    (host : w'.host = w.host) {σ : Shift} (between : σ.Between w.store w'.store) {t t' : Store}
    (abreast : w.store.Abreast w'.store t t')
    (rooting : Alike (fun _ _ => True) (w.host.variablesRoot.on t).1 (w.host.variablesRoot.on t').1)
    {x : Variable} {g : Pipeline} (drawn : x.Drawn g) (minted : g.Minted w.store t)
    (drawn' : (x.shifted σ).Drawn (g.shifted σ)) (minted' : (g.shifted σ).Minted w'.store t')
    (name : String) :
    WritesAlike ((x.materialize w.host name).on t)
      (((x.shifted σ).materialize w.host name).on t') := by
  have unwritten' : (x.shifted σ).version = none := drawn'.unwritten
  obtain output | ⟨o, output⟩ := Option.eq_none_or_eq_some x.output
  · have output' : (x.shifted σ).output = none := by
      rw [Variable.shifted, output]
      rfl
    rw [Variable.on_materialize_of_undesignated w.host name drawn.unwritten output,
      Variable.on_materialize_of_undesignated w.host name unwritten' output']
    exact .error rfl
  · have output' : (x.shifted σ).output = some (o.shifted σ) := by
      rw [Variable.shifted, output]
      rfl
    rcases asked : w.host.variablesRoot.on t with ⟨e | r, u⟩ <;>
      rcases asked' : w.host.variablesRoot.on t' with ⟨e' | r', u'⟩ <;>
      rw [asked, asked'] at rooting
    · rw [Variable.on_materialize w.host name drawn.unwritten output, Action.on_bind_of_error asked,
        Variable.on_materialize w.host name unwritten' output', Action.on_bind_of_error asked']
      cases rooting with
      | error like => exact .error like
    · cases rooting
    · cases rooting
    · obtain ⟨-, apart, fresh⟩ := agrees.beside_root abreast.left minted asked
      have asked'' := asked'
      rw [← host] at asked''
      obtain ⟨-, apart', -⟩ := agrees'.beside_root abreast.right minted' asked''
      have run := agrees'.on_materialize abreast.right drawn' minted' output' asked'' name
      rw [host] at apart' run
      rw [agrees.on_materialize abreast.left drawn minted output asked name, run]
      refine .ok ⟨rfl, rfl, _, _, _, _, rfl, rfl, Variable.live_wrote .., Variable.live_wrote .., ?_⟩
      -- asking for the root numbers no connection, so the next numbers still differ by the shift
      have connection : ∀ {s s' : Store} {q : VariablesRoot}, s.Valid →
          w.host.variablesRoot.on s = (.ok q, s') → s'.nextConnection = s.nextConnection := by
        intro s s' q hs asked
        obtain ⟨-, -, rfl | ⟨-, rfl, -⟩⟩ := Host.variablesRoot_eq_ok hs asked <;> rfl
      have next : u'.nextConnection = σ.connection u.nextConnection := by
        rw [connection (agrees.valid.mints abreast.left) asked,
          connection (agrees'.valid.mints abreast.right) asked']
        exact (between.abreast abreast).connections
      have whole := (Host.wellFormed_rootPipeline w.host r.module).applyAll
        (Host.applyAll_edits drawn.draws apart (drawn.output output) fresh)
      show (w.host.variablePipeline ..).Isomorphic (w.host.variablePipeline ..)
      rw [next]
      exact Host.isomorphic_variablePipeline whole drawn.draws.wellFormed apart apart'
        (drawn.output output) fresh

/-- A later workspace: the versions are still there, and the variables root can be asked for if it
could be before. -/
structure Follows (w w' : Workspace) : Prop where
  reaches : Reaches w w'
  kept : ∀ {v n}, w.store.versions.get? v = some n → w'.store.versions.get? v = some n
  rooting : ∀ {t t'}, w.store.Mints t → w'.store.Mints t' →
    Alike (fun _ _ => True) (w.host.variablesRoot.on t).1 (w.host.variablesRoot.on t').1

/-- Two stores that have no variables root yet can both make one, or neither can. -/
theorem alike_variablesRoot {h : Host} {s s' : Store} (hs : s.Valid) (hs' : s'.Valid)
    (absent : s.tags.get? h.rootTag = none) (absent' : s'.tags.get? h.rootTag = none) :
    Alike (fun _ _ => True) (h.variablesRoot.on s).1 (h.variablesRoot.on s').1 := by
  rw [Host.on_variablesRoot_of_absent hs absent, Host.on_variablesRoot_of_absent hs' absent']
  cases h.basic "OutputPort" with
  | error e => exact .error rfl
  | ok => exact .ok trivial

/-- Where a first variable was registered, the variables root can be made. -/
theorem Agrees.basic_of_performOperation (agrees : w.Agrees)
    (linear : ∀ op ∈ w.catalogue.operations, op.IsLinear)
    (untagged : w.store.tags.get? w.host.rootTag = none) {text : String} {warnings : List Ambiguity}
    {w' : Workspace} (run : on (performOperation text) w = (.ok warnings, w')) :
    ∃ type, w.host.basic "OutputPort" = .ok type := by
  obtain ⟨e, _, failed, -⟩ | ⟨name, e, scope, node, warnings', x, s, v, y, u, -, -, sees, resolved,
    executed, written⟩ := performOperation_outcome w text
  · rw [run] at failed
    cases failed
  · have sees' : w.scope.bind e.resolve = .ok (node, warnings') := by
      rw [sees]
      exact resolved
    have mints := agrees.mints_execute linear (knows_of_resolve sees')
    rw [executed] at mints
    have valid := agrees.valid.mints mints
    obtain ⟨e, failed⟩ | ⟨o, r, u', base, -, -, asked, -⟩ :=
      Variable.materialize_cases w.host name valid x
    · rw [written] at failed
      cases failed
    · rw [Host.on_variablesRoot_of_absent valid (mints.tags ▸ untagged)] at asked
      cases basic : w.host.basic "OutputPort" with
      | ok type => exact ⟨type, rfl⟩
      | error e =>
        rw [basic] at asked
        cases asked

/-- A workspace follows another one if a statement was performed in between. -/
theorem Agrees.follows (agrees : w.Agrees) (apart : w.host.settings.TagsApart)
    (linear : ∀ op ∈ w.catalogue.operations, op.IsLinear) (text : String) :
    w.Follows (w.after (.performOperation text)) := by
  have reaches : Reaches w (w.after (.performOperation text)) := Reaches.refl.call trivial
  have agrees' := (agrees.reaches apart reaches).1
  have host := (valid_of_reaches agrees.valid reaches).2
  refine ⟨reaches, fun found => version_after (c := .performOperation text) agrees.valid trivial
    found (not_prunes (by nofun) _), fun {t t'} mints mints' => ?_⟩
  have later : ∀ {r}, AgreesAt (w.after (.performOperation text)) r →
      w.host.variablesRoot.on t' = (.ok r, t') := fun rooted => by
    have root := rooted.root
    rw [host] at root
    exact (root.mints mints').on_variablesRoot
  obtain ⟨unnamed, tags, -⟩ | ⟨r, rooted⟩ := agrees.agrees
  · have untagged : w.store.tags.get? w.host.rootTag = none := by
      rw [tags]
      rfl
    have absent : ∀ {s}, w.store.Mints s → s.tags.get? w.host.rootTag = none := fun mints => by
      rw [mints.tags, untagged]
    have first := Host.on_variablesRoot_of_absent (agrees.valid.mints mints) (absent mints)
    -- a statement that fails makes no variables root; one that succeeds found its type
    obtain ⟨e, w', run, untouched⟩ | ⟨warnings, w', name, e, x, v, n, r, run, -, gains⟩ :=
      agrees.performOperation_cases apart linear text
    · rw [after, run] at mints'
      have minted := untouched.store.trans mints'
      exact alike_variablesRoot (agrees.valid.mints mints) (agrees.valid.mints minted)
        (absent mints) (absent minted)
    · obtain ⟨type, basic⟩ := agrees.basic_of_performOperation linear untagged run
      obtain ⟨unnamed', -⟩ | ⟨r', rooted'⟩ := agrees'.agrees
      · rw [after, run, gains.named] at unnamed'
        have known := OrderedMap.get?_insert_self w.named name x
        rw [unnamed'] at known
        cases known
      · rw [later rooted', first, basic]
        exact .ok trivial
  · rw [(rooted.root.mints mints).on_variablesRoot,
      later (rooted.reaches agrees.valid apart reaches)]
    exact .ok trivial

/-- A known variable is copied in a later workspace as it would have been before. -/
theorem Follows.parallel_copy (follows : w.Follows w') (agrees : w.Agrees)
    (apart : w.host.settings.TagsApart) {name : String} {x : Variable}
    (known : w.named.get? name = some x) :
    Action.Parallel w.store w'.store
      (fun z z' => z' = z.shifted (.of w.store w'.store)) (x.copy w.host) (x.copy w.host) := by
  obtain ⟨unnamed, -⟩ | ⟨r, rooted⟩ := agrees.agrees
  · rw [unnamed] at known
    cases known
  · have root := (rooted.reaches agrees.valid apart follows.reaches).root
    rw [(valid_of_reaches agrees.valid follows.reaches).2] at root
    refine Variable.parallel_copy (precedes_of_reaches agrees.valid follows.reaches).between
      (rooted.root.parallel root) ⟨rfl, rfl, rfl, ?_⟩
    rintro _ _ ⟨rfl, rfl⟩
    refine ⟨rfl, fun {v v'} version version' => ?_⟩
    obtain rfl : v = v' := Option.some.inj (version.symm.trans version')
    obtain ⟨v', n, holds⟩ := rooted.holds known
    obtain rfl : v = v' := Option.some.inj (version.symm.trans holds.version)
    have there := (Store.live_eq_ok_iff.1 holds.live).1
    have read : w'.store.pipeline v = w.store.pipeline v := by
      rw [Store.pipeline, Store.pipeline, Store.live, Store.live, there, follows.kept there]
    rw [read]
    exact .refl fun p _ => .inl ⟨id, Set.univ, .refl p _⟩

/-- What known variables are built into in a later workspace is drawn as it would have been before, but
for a shift. -/
theorem Follows.execute_again (follows : w.Follows w') (agrees : w.Agrees)
    (apart : w.host.settings.TagsApart) (plain : ∀ op ∈ w.catalogue.operations, op.IsPlain)
    {n m : Node} (knows : w.Knows n)
    (beside : Node.Beside (fun x y => y = x ∧ ∃ name, w.named.get? name = some x) n m) :
    let σ := Shift.of w.store w'.store
    (∃ e e' t t', (n.execute w.host).on w.store = (.error e, t) ∧
      (m.execute w.host).on w'.store = (.error e', t') ∧ e.Like e') ∨
    ∃ x g t t', (n.execute w.host).on w.store = (.ok x, t) ∧
      (m.execute w.host).on w'.store = (.ok (x.shifted σ), t') ∧
      w.store.Abreast w'.store t t' ∧ x.Drawn g ∧ g.Minted w.store t ∧
      (x.shifted σ).Drawn (g.shifted σ) ∧ (g.shifted σ).Minted w'.store t' := by
  intro σ
  have between := (precedes_of_reaches agrees.valid follows.reaches).between
  have copies : ∀ x y, (y = x ∧ ∃ name, w.named.get? name = some x) →
      Action.Parallel w.store w'.store (fun z z' => z' = z.shifted σ) (x.copy w.host)
        (y.copy w.host) := by
    rintro x _ ⟨rfl, name, known⟩
    exact follows.parallel_copy agrees apart known
  have plainly := Node.All.applies knows plain
  have linear := plainly.applies fun _ => Operation.IsPlain.isLinear
  obtain ⟨e, e', t, t', run, run', like, -⟩ | ⟨x, _, t, t', run, run', rfl, abreast⟩ :=
    (Node.parallel_execute between copies beside plainly).cases
  · exact .inl ⟨e, e', t, t', run, run', like⟩
  · obtain ⟨g, drawn, minted⟩ := Node.drawn_execute n linear agrees.valid run
    obtain ⟨g', drawn', minted'⟩ := Node.drawn_execute m (beside.applies linear)
      (valid_of_reaches agrees.valid follows.reaches).1 run'
    obtain rfl : g.shifted σ = g' :=
      Except.ok.inj ((drawn.draws.shifted σ).edits.symm.trans drawn'.draws.edits)
    exact .inr ⟨x, g, t, t', run, run', abreast, drawn, minted, drawn', minted'⟩

/-- A statement is performed in a later workspace as it would have been before, if its names mean the
same. -/
theorem Follows.performOperation_again (follows : w.Follows w') (agrees : w.Agrees)
    (apart : w.host.settings.TagsApart) (plain : ∀ op ∈ w.catalogue.operations, op.IsPlain)
    {text target : String} {e : Expr} (parsed : Expr.ofText text = .ok (target, e))
    (same : ∀ name ∈ target :: e.symbols, w'.named.get? name = w.named.get? name) :
    (∃ fault fault' u u', on (performOperation text) w = (.error fault, u) ∧
      on (performOperation text) w' = (.error fault', u') ∧ fault.Like fault' ∧
      u.named = w.named ∧ u'.named = w'.named) ∨
    ∃ warnings u u' x x', on (performOperation text) w = (.ok warnings, u) ∧
      on (performOperation text) w' = (.ok warnings, u') ∧ x.Resembles u.store u'.store x' ∧
      u.named = w.named.insert target x ∧ u'.named = w'.named.insert target x' := by
  obtain ⟨agrees', host, catalogue⟩ := agrees.reaches apart follows.reaches
  have between := (precedes_of_reaches agrees.valid follows.reaches).between
  have free : w'.named.contains target = w.named.contains target := by
    rw [OrderedMap.contains, OrderedMap.contains, same target (List.mem_cons_self ..)]
  have resolved : Alike (fun r r' => Node.Beside
      (fun x y => y = x ∧ ∃ name, w.named.get? name = some x) r.1 r'.1 ∧ r'.2 = r.2)
      (w.scope.bind e.resolve) (w'.scope.bind (e.renamed id).resolve) := by
    refine alike_resolve host catalogue (by rintro x y ⟨rfl, -⟩; rfl) fun name listed => ?_
    rw [id, same name (List.mem_cons_of_mem _ listed)]
    cases known : w.named.get? name with
    | none => exact .none
    | some x => exact .some ⟨rfl, name, known⟩
  rw [Expr.renamed_id] at resolved
  -- both ways are left at the same one of the steps
  rw [on_performOperation, on_performOperation, parsed]
  dsimp only
  rw [free]
  cases known : w.named.contains target with
  | true => exact .inl ⟨_, _, _, _, rfl, rfl, rfl, rfl, rfl⟩
  | false =>
    simp only [Bool.false_eq_true, if_false]
    obtain ⟨fault, fault', failed, failed', like⟩ | ⟨⟨n, warnings⟩, ⟨m, _⟩, sees, sees', beside,
      rfl⟩ := resolved.cases
    · rw [failed, failed']
      exact .inl ⟨_, _, _, _, rfl, rfl, like, rfl, rfl⟩
    · rw [sees, sees']
      dsimp only
      rw [host]
      obtain ⟨fault, fault', t, t', run, run', like⟩ | ⟨x, g, t, t', run, run', abreast, drawn,
        minted, drawn', minted'⟩ :=
        follows.execute_again agrees apart plain (knows_of_resolve sees) beside
      · rw [run, run']
        exact .inl ⟨_, _, _, _, rfl, rfl, like, rfl, rfl⟩
      · rw [run, run']
        simp only [on_register]
        cases isValidName target with
        | false => exact .inl ⟨_, _, _, _, rfl, rfl, rfl, rfl, rfl⟩
        | true =>
          simp only [reduceCtorEq, if_false, free, known, Bool.false_eq_true]
          have written := agrees.alike_materialize agrees' host between abreast
            (follows.rooting abreast.left abreast.right) drawn minted drawn' minted' target
          rcases materialized : (x.materialize w.host target).on t with ⟨r, u⟩
          rcases materialized' :
            ((x.shifted _).materialize w.host target).on t' with ⟨r', u'⟩
          rw [materialized, materialized'] at written
          cases written with
          | error like => exact .inl ⟨_, _, _, _, rfl, rfl, like, rfl, rfl⟩
          | ok resembles => exact .inr ⟨_, _, _, _, _, rfl, rfl, resembles, rfl, rfl⟩

theorem get?_after_performOperation (w : Workspace) {text target : String} {e : Expr}
    (parsed : Expr.ofText text = .ok (target, e)) {name : String} (other : name ≠ target) :
    (w.after (.performOperation text)).named.get? name = w.named.get? name := by
  obtain ⟨_, _, run, named⟩ | ⟨_, _, _, _, _, _, _, _, _, _, run, parsed', -⟩ :=
    performOperation_outcome w text
  · rw [after, run, named]
  · rw [parsed] at parsed'
    cases parsed'
    rw [after, run, OrderedMap.get?_insert_of_ne other]

theorem version_after_performOperation (hs : w.store.Valid) (text : String) {v : VersionId}
    {n : Version} (found : w.store.versions.get? v = some n) :
    (w.after (.performOperation text)).store.versions.get? v = some n :=
  version_after (c := .performOperation text) hs trivial found (not_prunes (by nofun) v)

/-- A known variable resembles itself, in whatever stores its version is kept. -/
theorem Agrees.resembles (agrees : w.Agrees) {name : String} {x : Variable}
    (known : w.named.get? name = some x) : x.Resembles w.store w.store x := by
  obtain ⟨unnamed, -⟩ | ⟨r, rooted⟩ := agrees.agrees
  · rw [unnamed] at known
    cases known
  · obtain ⟨v, n, holds⟩ := rooted.holds known
    exact ⟨rfl, rfl, v, v, n, n, holds.version, holds.version, holds.live, holds.live, .refl _⟩

/-- Two workspaces both do not know a name, or know variables by it that resemble each other. -/
def AlikeAt (w w' : Workspace) (name : String) : Prop :=
  Option.Rel (Variable.Resembles w.store w'.store) (w.named.get? name) (w'.named.get? name)

theorem alikeAt_iff {name : String} :
    w.AlikeAt w' name ↔ (w.named.get? name = none ∧ w'.named.get? name = none) ∨
      ∃ x x', w.named.get? name = some x ∧ w'.named.get? name = some x' ∧
        x.Resembles w.store w'.store x' := by
  unfold AlikeAt
  cases w.named.get? name <;> cases w'.named.get? name <;> simp

theorem AlikeAt.symm {name : String} (h : w.AlikeAt w' name) : w'.AlikeAt w name := by
  rw [alikeAt_iff] at h ⊢
  obtain ⟨unknown, unknown'⟩ | ⟨x, x', known, known', resembles⟩ := h
  · exact .inl ⟨unknown', unknown⟩
  · exact .inr ⟨x', x, known', known, resembles.symm⟩

/-- A statement that does not set the name does not change what it means. -/
theorem AlikeAt.after_right {name : String} (h : w.AlikeAt w' name) (hs : w'.store.Valid)
    {text target : String} {e : Expr} (parsed : Expr.ofText text = .ok (target, e))
    (other : name ≠ target) : w.AlikeAt (w'.after (.performOperation text)) name := by
  rw [alikeAt_iff] at h ⊢
  rw [get?_after_performOperation w' parsed other]
  refine h.imp_right ?_
  rintro ⟨x, x', known, known', resembles⟩
  exact ⟨x, x', known, known', resembles.later id (version_after_performOperation hs text)⟩

/-- A statement has the same outcome in a later workspace, and what meant the same before it is alike
after it. -/
theorem Follows.alike_after (follows : w.Follows w') (agrees : w.Agrees)
    (apart : w.host.settings.TagsApart) (plain : ∀ op ∈ w.catalogue.operations, op.IsPlain)
    {text target : String} {e : Expr} (parsed : Expr.ofText text = .ok (target, e))
    (same : ∀ name ∈ target :: e.symbols, w'.named.get? name = w.named.get? name) :
    Alike Eq (on (performOperation text) w).1 (on (performOperation text) w').1 ∧
      ∀ name, w'.named.get? name = w.named.get? name →
        (w.after (.performOperation text)).AlikeAt (w'.after (.performOperation text)) name := by
  have valid' := (valid_of_reaches agrees.valid follows.reaches).1
  have kept : ∀ {v n}, w.store.versions.get? v = some n →
      (w.after (.performOperation text)).store.versions.get? v = some n :=
    version_after_performOperation agrees.valid text
  have kept' : ∀ {v n}, w.store.versions.get? v = some n →
      (w'.after (.performOperation text)).store.versions.get? v = some n :=
    fun found => version_after_performOperation valid' text (follows.kept found)
  unfold AlikeAt
  simp only [after] at kept kept' ⊢
  obtain ⟨_, _, u, u', run, run', like, named, named'⟩ |
    ⟨_, u, u', x, x', run, run', resembles, named, named'⟩ :=
    follows.performOperation_again agrees apart plain parsed same
  · rw [run] at kept ⊢
    rw [run'] at kept' ⊢
    refine ⟨.error like, fun name unchanged => ?_⟩
    rw [named, named', unchanged]
    cases known : w.named.get? name with
    | none => exact .none
    | some y => exact .some ((agrees.resembles known).later kept kept')
  · rw [run] at kept ⊢
    rw [run'] at kept' ⊢
    refine ⟨.ok rfl, fun name unchanged => ?_⟩
    rw [named, named']
    by_cases set : name = target
    · rw [set, OrderedMap.get?_insert_self, OrderedMap.get?_insert_self]
      exact .some resembles
    · rw [OrderedMap.get?_insert_of_ne set, OrderedMap.get?_insert_of_ne set, unchanged]
      cases known : w.named.get? name with
      | none => exact .none
      | some y => exact .some ((agrees.resembles known).later kept kept')

/-- Two statements of which neither uses or sets what the other one sets can be performed in either
order: each has the same outcome, and the same names are known afterwards, by which variables are known
that are alike up to the identifiers of their modules and connections. -/
theorem performOperation_commutes {host : Host} {catalogue : Catalogue}
    (apart : host.settings.TagsApart) (plain : ∀ op ∈ catalogue.operations, op.IsPlain)
    {w : Workspace} (reaches : Reaches (new host catalogue .new) w)
    {first second x y : String} {e₁ e₂ : Expr} (parsed₁ : Expr.ofText first = .ok (x, e₁))
    (parsed₂ : Expr.ofText second = .ok (y, e₂)) (distinct : x ≠ y) (unused₁ : x ∉ e₂.symbols)
    (unused₂ : y ∉ e₁.symbols) :
    let w₁ := w.after (.performOperation first)
    let w₂ := w.after (.performOperation second)
    Alike Eq (on (performOperation first) w).1 (on (performOperation first) w₂).1 ∧
      Alike Eq (on (performOperation second) w).1 (on (performOperation second) w₁).1 ∧
      ∀ name, (w₁.after (.performOperation second)).AlikeAt (w₂.after (.performOperation first))
        name := by
  intro w₁ w₂
  obtain ⟨agrees, rfl, rfl⟩ := (agrees_new host catalogue).reaches apart reaches
  have linear := fun op listed => (plain op listed).isLinear
  have valid₁ := (valid_of_reaches agrees.valid (agrees.follows apart linear first).reaches).1
  have valid₂ := (valid_of_reaches agrees.valid (agrees.follows apart linear second).reaches).1
  -- each statement is compared with itself after the other one
  obtain ⟨outcome₂, alike₂⟩ := (agrees.follows apart linear first).alike_after agrees apart plain
    parsed₂ fun name listed => get?_after_performOperation w parsed₁ <| by
      rintro rfl
      exact (List.mem_cons.1 listed).elim distinct unused₁
  obtain ⟨outcome₁, alike₁⟩ := (agrees.follows apart linear second).alike_after agrees apart plain
    parsed₁ fun name listed => get?_after_performOperation w parsed₂ <| by
      rintro rfl
      exact (List.mem_cons.1 listed).elim distinct.symm unused₂
  refine ⟨outcome₁, outcome₂, fun name => ?_⟩
  by_cases set : name = x
  · have unchanged : name ≠ y := fun same => distinct (set.symm.trans same)
    exact ((alike₁ name (get?_after_performOperation w parsed₂ unchanged)).symm.after_right valid₁
      parsed₂ unchanged).symm
  · exact (alike₂ name (get?_after_performOperation w parsed₁ set)).symm.after_right valid₂
      parsed₁ set

/-- Two statements on one variable, in either order. -/
theorem performOperation_commutes_sample :
    let w₁ := sample.after (.performOperation "y = x + 2")
    let w₂ := sample.after (.performOperation "z = x")
    Alike Eq (on (performOperation "y = x + 2") sample).1 (on (performOperation "y = x + 2") w₂).1 ∧
      Alike Eq (on (performOperation "z = x") sample).1 (on (performOperation "z = x") w₁).1 ∧
      ∀ name, (w₁.after (.performOperation "z = x")).AlikeAt
        (w₂.after (.performOperation "y = x + 2")) name := by
  have parsed₁ : Expr.ofText "y = x + 2" =
      .ok ("y", .apply "+" [.symbol "x", .literal (.integer 2)]) := by cbv
  have parsed₂ : Expr.ofText "z = x" = .ok ("z", .symbol "x") := by cbv
  exact performOperation_commutes (Settings.tagsApart_of_default rfl)
    (Operation.isPlain_of_mem_withBuiltins _) reaches_sample parsed₁ parsed₂ (by decide)
    (by decide) (by decide)

/-- Where the variables root and the variable `x` have one tag, the statement `y = 2` succeeds before
the statement `x = 1` and fails after it. -/
theorem performOperation_disturbed :
    let w := collidingStart.after (.performOperation "x = 1")
    (Expr.ofText "x = 1").map (fun s => (s.1, s.2.symbols)) = .ok ("x", []) ∧
      (Expr.ofText "y = 2").map (fun s => (s.1, s.2.symbols)) = .ok ("y", []) ∧
      (on (performOperation "y = 2") collidingStart).1 = .ok [] ∧
      (on (performOperation "y = 2") w).1 = .error (.host (.malformedRoot "dat-var-x" 2)) := by
  decide +kernel

end Workspace

end Dataflow
