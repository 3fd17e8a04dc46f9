import Dataflow.Proofs.Workspace.Agreement

/-! Performing an operation is all or nothing. Its draft has identifiers of the store it is written to,
so once everything has been built the commit cannot be refused; and before that nothing was written. -/

namespace Dataflow

/-- One version is new, under a tag that was free, and it is selected; all else is as it was. -/
structure Store.Adds (s t : Store) (v : VersionId) (n : Version) (tag : String) : Prop where
  fresh : s.versions.get? v = none
  free : s.tags.get? tag = none
  versions : t.versions = s.versions.insert v n
  tags : t.tags = s.tags.insert tag v
  current : t.current = v

namespace Workspace

/-- Identifiers of modules and connections may have been given out, and that is all. -/
structure Untouched (w w' : Workspace) : Prop where
  host : w'.host = w.host
  catalogue : w'.catalogue = w.catalogue
  named : w'.named = w.named
  store : w.store.Mints w'.store

/-- The variables root is there, or was added. -/
def Rooted (h : Host) (s t : Store) (r : VariablesRoot) : Prop :=
  h.RootAt s r ∧ t = s ∨ s.Adds t r.version (h.rootVersion r.module) h.rootTag

/-- One variable is new, with its version below the variables root; the root may be new with it. -/
structure Gains (w w' : Workspace) (name : String) (x : Variable) (v : VersionId) (n : Version)
    (r : VariablesRoot) : Prop where
  host : w'.host = w.host
  catalogue : w'.catalogue = w.catalogue
  unknown : w.named.get? name = none
  named : w'.named = w.named.insert name x
  version : x.version = some v
  live : n.pruned = false
  parent : n.parent = some r.version
  store : ∃ s, Rooted w.host w.store s r ∧ s.Adds w'.store v n (w.host.settings.variableTag name)

variable {w : Workspace}

theorem adds_withRoot {h : Host} {s t : Store} (hs : s.Valid) (mints : s.Mints t)
    (absent : s.tags.get? h.rootTag = none) :
    s.Adds (h.withRoot t) t.nextVersion (h.rootVersion t.nextModule) h.rootTag where
  fresh := by
    rw [mints.nextVersion]
    exact hs.fresh
  free := absent
  versions := by
    rw [← mints.versions]
    rfl
  tags := by
    rw [← mints.tags]
    rfl
  current := rfl

/-- The variables root that is found or made after something was drawn is apart from the drawing. -/
theorem Agrees.rooted (agrees : w.Agrees) {t u : Store} (mints : w.store.Mints t) {g : Pipeline}
    (minted : g.Minted w.store t) {r : VariablesRoot}
    (asked : w.host.variablesRoot.on t = (.ok r, u)) :
    ∃ s, Rooted w.host w.store s r ∧ s.Mints u ∧ t.Precedes u ∧ u.Valid ∧
      AgreesAt { w with store := u } r ∧ g.modules.contains r.module = false := by
  have ready := agrees.prepares (.mints mints)
  rcases agrees.agrees with ⟨named, tags, numbered⟩ | ⟨r', rooted⟩
  · have absent : t.tags.get? w.host.rootTag = none := by
      rw [mints.tags, tags]
      rfl
    obtain ⟨e, run⟩ | ⟨r', n, run, there, -⟩ | ⟨-, run⟩ :=
      Host.variablesRoot_cases (h := w.host) ready.valid
    · rw [run] at asked
      cases asked
    · rw [absent] at there
      cases there
    · rw [run] at asked
      cases asked
      have prepares : w.host.Prepares t (w.host.withRoot t) := .root absent
      refine ⟨_, .inr (adds_withRoot agrees.valid mints (mints.tags ▸ absent)), .refl _,
        prepares.precedes, prepares.valid ready.valid,
        agreesAt_withRoot ready.valid named (mints.tags.trans tags) (numbered.mints mints), ?_⟩
      rw [← Bool.not_eq_true]
      intro there
      exact absurd (minted.modules _ there).2 (Nat.lt_irrefl _)
  · have rooted' := rooted.mints mints
    rw [rooted'.root.on_variablesRoot] at asked
    cases asked
    refine ⟨w.store, .inl ⟨rooted.root, rfl⟩, mints, .refl _, ready.valid, rooted', ?_⟩
    rw [← Bool.not_eq_true]
    intro there
    exact absurd rooted.root.module (Nat.not_lt_of_le (minted.modules _ there).1)

/-- What is drawn before the variables root is asked for can be added below it. -/
theorem Agrees.beside_root (agrees : w.Agrees) {t u : Store} (mints : w.store.Mints t)
    {g : Pipeline} (minted : g.Minted w.store t) {r : VariablesRoot}
    (asked : w.host.variablesRoot.on t = (.ok r, u)) :
    u.live r.version = .ok (w.host.rootVersion r.module) ∧
      (w.host.rootPipeline r.module).Apart g ∧ g.connections.get? u.nextConnection = none := by
  obtain ⟨-, -, -, later, -, agrees', absent⟩ := agrees.rooted mints minted asked
  exact ⟨agrees'.root.live, Host.apart_rootPipeline absent, (minted.later later).next_connection⟩

/-- A drawn variable is written below the variables root that is found or made. -/
theorem Agrees.on_materialize (agrees : w.Agrees) {t u : Store} (mints : w.store.Mints t)
    {x : Variable} {g : Pipeline} (drawn : x.Drawn g) (minted : g.Minted w.store t) {o : PortRef}
    (output : x.output = some o) {r : VariablesRoot}
    (asked : w.host.variablesRoot.on t = (.ok r, u)) (name : String) :
    (x.materialize w.host name).on t =
      (.ok (u.nextVersion, { x with version := some u.nextVersion, draft := .empty }),
        x.wrote w.host name u r.version (x.edits w.host r.module o u.nextConnection)
          (w.host.variablePipeline r.module g o u.nextConnection)) := by
  obtain ⟨live, apart, fresh⟩ := agrees.beside_root mints minted asked
  have accepted := Host.applyAll_edits drawn.draws apart (drawn.output output) fresh
  exact Variable.materialize_of_accepted name drawn.unwritten output asked live accepted

/-- A variable that is drawn with new identifiers can be written under a new name, if it has an
output. -/
theorem Agrees.materialize (agrees : w.Agrees) (apart : w.host.settings.TagsApart) {t : Store}
    (mints : w.store.Mints t) {x : Variable} {g : Pipeline} (drawn : x.Drawn g)
    (minted : g.Minted w.store t) {name : String} (valid : isValidName name = true)
    (free : w.named.contains name = false) :
    (∃ e, (x.materialize w.host name).on t = (.error e, t)) ∨
      ∃ v y u, (x.materialize w.host name).on t = (.ok (v, y), u) ∧
        ∃ n r, w.Gains { w with store := u, named := w.named.insert name y } name y v n r := by
  obtain failed | ⟨o, r, u, -, -, output, asked, -⟩ :=
    Variable.materialize_cases w.host name (agrees.prepares (.mints mints)).valid x
  · exact .inl failed
  · obtain ⟨s, rooted, mints', -, hu, agrees', -⟩ := agrees.rooted mints minted asked
    have run := agrees.on_materialize mints drawn minted output asked name
    -- a tag would be that of the variables root or of a known name
    have unused : u.tags.get? (w.host.settings.variableTag name) = none := by
      refine Option.eq_none_iff_forall_not_mem.2 fun v hv => ?_
      rcases agrees'.tags.1 hv with ⟨same, -⟩ | ⟨name', x', known, same, -⟩
      · exact apart name valid same
      · obtain rfl := Settings.variableTag_inj same
        rw [OrderedMap.contains_eq_false_iff] at free
        rw [free] at known
        cases known
    refine .inr ⟨_, _, _, run, x.versionBelow r.version (x.edits w.host r.module o u.nextConnection)
      (w.host.variablePipeline r.module g o u.nextConnection), r, rfl, rfl,
      OrderedMap.contains_eq_false_iff.1 free, rfl, rfl, rfl, rfl, s, rooted, ?_⟩
    constructor
    case fresh =>
      rw [← mints'.versions]
      exact hu.fresh
    case free =>
      rw [← mints'.tags]
      exact unused
    case versions =>
      rw [← mints'.versions]
      rfl
    case tags =>
      rw [← mints'.tags]
      exact congrArg (OrderedMap.insert · _ _) (hu.tags_of_fresh unused)
    case current => rfl

/-- A node that refers to known variables and applies known operations only. -/
def Knows (w : Workspace) (node : Node) : Prop :=
  node.All (fun x => ∃ name, w.named.get? name = some x) (· ∈ w.catalogue.operations)

theorem knows_of_resolve {e : Expr} {node : Node} {warnings : List Ambiguity}
    (resolved : w.scope.bind e.resolve = .ok (node, warnings)) : w.Knows node := by
  cases scope : w.scope with
  | error fault =>
    rw [scope] at resolved
    cases resolved
  | ok s =>
    obtain rfl := Scope.of_eq_ok scope
    rw [scope] at resolved
    exact e.all_resolve resolved

/-- Executing what a workspace knows only gives out identifiers, if all operations are linear. -/
theorem Agrees.mints_execute (agrees : w.Agrees) (linear : ∀ op ∈ w.catalogue.operations, op.IsLinear)
    {node : Node} (knows : w.Knows node) :
    w.store.Mints ((node.execute w.host).on w.store).2 := by
  rcases agrees.agrees with ⟨named, -⟩ | ⟨r, rooted⟩
  · refine Node.moves_execute (R := Store.Mints) (fun _ _ => id) (fun _ _ _ => .trans) node
      (Node.all_imp (fun x known => ?_) (fun op listed => ?_) node knows) _
    · obtain ⟨name, found⟩ := known
      rw [named] at found
      cases found
    · exact op.minting_apply w.host (linear op listed)
  · exact (node.preparing_execute w.host w.store agrees.valid).mints_of_tagged rooted.root.tag

theorem Untouched.refl (w : Workspace) : w.Untouched w := ⟨rfl, rfl, rfl, .refl _⟩

/-- What performing an operation does in a workspace that agrees with its store. -/
theorem Agrees.performOperation_cases (agrees : w.Agrees) (apart : w.host.settings.TagsApart)
    (linear : ∀ op ∈ w.catalogue.operations, op.IsLinear) (text : String) :
    (∃ e w', on (performOperation text) w = (.error e, w') ∧ w.Untouched w') ∨
      ∃ warnings w' name e x v n r, on (performOperation text) w = (.ok warnings, w') ∧
        Expr.ofText text = .ok (name, e) ∧ w.Gains w' name x v n r := by
  rw [on_performOperation]
  cases parsed : Expr.ofText text with
  | error fault => exact .inl ⟨_, w, rfl, .refl w⟩
  | ok statement =>
    obtain ⟨target, e⟩ := statement
    dsimp only
    cases known : w.named.contains target with
    | true => exact .inl ⟨_, w, rfl, .refl w⟩
    | false =>
      rw [if_neg Bool.false_ne_true]
      rcases resolved : w.scope.bind e.resolve with fault | ⟨node, warnings⟩
      · exact .inl ⟨_, w, rfl, .refl w⟩
      · dsimp only
        have knows := knows_of_resolve resolved
        have mints := agrees.mints_execute linear knows
        rcases executed : (node.execute w.host).on w.store with ⟨fault | x, t⟩
        · rw [executed] at mints
          exact .inl ⟨_, _, rfl, rfl, rfl, rfl, mints⟩
        · rw [executed] at mints
          have single := Node.All.applies knows linear
          obtain ⟨g, drawn, minted⟩ := Node.drawn_execute node single agrees.valid executed
          simp only [on_register]
          cases valid : isValidName target with
          | false => exact .inl ⟨_, _, rfl, rfl, rfl, rfl, mints⟩
          | true =>
            simp only [reduceCtorEq, if_false, known, Bool.false_eq_true]
            obtain ⟨fault, run⟩ | ⟨v, y, u, run, n, r, gains⟩ :=
              agrees.materialize apart mints drawn minted valid known
            · rw [run]
              exact .inl ⟨_, _, rfl, rfl, rfl, rfl, mints⟩
            · rw [run]
              exact .inr ⟨_, _, _, e, y, v, n, r, rfl, rfl, gains⟩

/-- Performing an operation leaves everything as it was, if it fails, and otherwise adds one variable
with its version, below a variables root that it adds if there was none. The code of operations may
take over what it is given, each at most once. -/
theorem performOperation_atomic {host : Host} {catalogue : Catalogue}
    (apart : host.settings.TagsApart) (linear : ∀ op ∈ catalogue.operations, op.IsLinear)
    {w : Workspace}
    (reaches : Reaches (new host catalogue .new) w) (text : String) :
    (∃ e w', on (performOperation text) w = (.error e, w') ∧ w.Untouched w') ∨
      ∃ warnings w' name e x v n r, on (performOperation text) w = (.ok warnings, w') ∧
        Expr.ofText text = .ok (name, e) ∧ w.Gains w' name x v n r := by
  obtain ⟨agrees, same, same'⟩ := (agrees_new host catalogue).reaches apart reaches
  exact agrees.performOperation_cases (same ▸ apart) (same' ▸ linear) text

theorem performOperation_atomic_sample :
    (∃ e w', on (performOperation "y = x + 2") sample = (.error e, w') ∧ sample.Untouched w') ∨
      ∃ warnings w' name e x v n r, on (performOperation "y = x + 2") sample = (.ok warnings, w') ∧
        Expr.ofText "y = x + 2" = .ok (name, e) ∧ sample.Gains w' name x v n r :=
  performOperation_atomic (Settings.tagsApart_of_default rfl)
    (Operation.isLinear_of_mem_withBuiltins _) reaches_sample "y = x + 2"

end Workspace

end Dataflow
