import Dataflow.Host
import Dataflow.Proofs.Draft.Drawing

/-! The variables root: it is made once, below the root version, and found by its tag from then on.
Asking for it changes a store only if the tag is not there. -/

namespace Dataflow.Host

variable {h : Host} {s t : Store}

theorem resolve_eq_ok {name t : TypeName} (hr : h.resolve name = .ok t) : t = name := by
  unfold resolve TypeRegistry.resolve TypeRegistry.resolve? at hr
  split at hr
  · next found =>
    split at found
    · cases found; cases hr; rfl
    · cases found
  · cases hr

theorem basic_eq_ok {name : String} {type : TypeName} (hr : h.basic name = .ok type) :
    type = h.settings.basic name := resolve_eq_ok hr

def rootTag (h : Host) : String := h.settings.tags.variablesRoot

/-- The module of the variables root. -/
def rootModule (h : Host) (m : ModuleId) : Module :=
  ⟨m, h.settings.basic "OutputPort", [⟨"name", [h.settings.ports.output]⟩]⟩

def rootPipeline (h : Host) (m : ModuleId) : Pipeline := Pipeline.empty.withModule (h.rootModule m)

/-- The version of the variables root: a child of the root version that holds one output module, and
no connection. -/
def rootVersion (h : Host) (m : ModuleId) : Version :=
  { parent := some VersionId.root
    action := [.addModule ⟨m, h.settings.basic "OutputPort", []⟩,
      .setFunction m "name" [h.settings.ports.output]]
    pipeline := h.rootPipeline m
    annotations := ∅
    pruned := false }

/-- The store after the variables root was made. -/
def withRoot (h : Host) (s : Store) : Store :=
  { Store.extended { s with nextModule := s.nextModule + 1 } (h.rootVersion s.nextModule) with
    tags := s.tags.insert h.rootTag s.nextVersion }

/-- The variables root is found by its tag, and is as it was made by this store. -/
structure RootAt (h : Host) (s : Store) (r : VariablesRoot) : Prop where
  tag : s.tags.get? h.rootTag = some r.version
  version : s.versions.get? r.version = some (h.rootVersion r.module)
  module : r.module < s.nextModule

@[simp] theorem get?_rootPipeline (h : Host) (m : ModuleId) :
    (h.rootPipeline m).modules.get? m = some (h.rootModule m) := OrderedMap.get?_insert_self ..

@[simp] theorem contains_rootPipeline (h : Host) (m id : ModuleId) :
    (h.rootPipeline m).modules.contains id = decide (id = m) := by
  rw [rootPipeline, Pipeline.contains_withModule]
  exact Bool.or_false _

theorem keys_rootPipeline (h : Host) (m : ModuleId) : (h.rootPipeline m).modules.keys = [m] := rfl

theorem wellFormed_rootPipeline (h : Host) (m : ModuleId) : (h.rootPipeline m).WellFormed :=
  Pipeline.wellFormed_empty.apply (e := .addModule (h.rootModule m)) rfl

private theorem applyAll_root (h : Host) (m : ModuleId) :
    Pipeline.empty.applyAll (h.rootVersion m).action = .ok (h.rootPipeline m) := by
  refine Pipeline.applyAll_cons.2 ⟨_, Pipeline.apply_addModule rfl, ?_⟩
  rw [Pipeline.applyAll_singleton,
    Pipeline.apply_setFunction "name" [h.settings.ports.output] (OrderedMap.get?_insert_self ..),
    OrderedMap.insert_insert]
  rfl

theorem extended_tagged_eq (hs : s.Valid) (absent : s.tags.get? h.rootTag = none) :
    (Store.extended { s with nextModule := s.nextModule + 1 } (h.rootVersion s.nextModule)).tagged
      s.nextVersion h.rootTag = h.withRoot s := by
  have kept := hs.tags_of_fresh absent
  simp only [Store.tagged, Store.extended, withRoot, kept]

/-- Making the variables root succeeds as soon as its type is known. -/
theorem on_createVariablesRoot (hs : s.Valid) (absent : s.tags.get? h.rootTag = none) :
    h.createVariablesRoot.on s = match h.basic "OutputPort" with
      | .ok _ => (.ok s.nextVersion, h.withRoot s)
      | .error e => (.error e, s) := by
  cases type : h.basic "OutputPort" with
  | error e =>
    rw [createVariablesRoot, type]
    rfl
  | ok type =>
    obtain rfl := basic_eq_ok type
    obtain ⟨root, there, parent, empty, live⟩ := hs.root
    have start : s.live VersionId.root = .ok root := Store.live_eq_ok_iff.2 ⟨there, live⟩
    let s₁ : Store := { s with current := VersionId.root, nextModule := s.nextModule + 1 }
    -- the version at the root is empty, so the module can be added to it
    have committed : s₁.commit (h.rootVersion s.nextModule).action =
        .ok (s.nextVersion, s₁.extended (h.rootVersion s.nextModule)) := by
      have base : s₁.live s₁.current = .ok root := start
      rw [Store.commit_of_applyAll base (p := h.rootPipeline s.nextModule)]
      · rfl
      · rw [empty]
        exact applyAll_root h s.nextModule
    have tagged : (s₁.extended (h.rootVersion s.nextModule)).tag s.nextVersion h.rootTag =
        .ok (h.withRoot s) := by
      have here : (s₁.extended (h.rootVersion s.nextModule)).live s.nextVersion =
          .ok (h.rootVersion s.nextModule) :=
        Store.live_eq_ok_iff.2 ⟨OrderedMap.get?_insert_self .., rfl⟩
      rw [Store.tag_of_live here, ← extended_tagged_eq hs absent]
      rfl
    have select : (Action.change (·.select VersionId.root)).on s =
        (.ok (), { s with current := VersionId.root }) := by
      rw [Action.on_change, Store.select_of_live start]
    have commit : (Action.commit (h.rootVersion s.nextModule).action).on s₁ =
        (.ok s.nextVersion, s₁.extended (h.rootVersion s.nextModule)) := by
      rw [Action.on_commit, committed]
    have tag : (Action.change (·.tag s.nextVersion h.rootTag)).on
        (s₁.extended (h.rootVersion s.nextModule)) = (.ok (), h.withRoot s) := by
      rw [Action.on_change, tagged]
    -- each step succeeds, so they can be chained
    rw [createVariablesRoot, type]
    rw [Action.on_bind_of_ok (Action.on_ofExcept ..), Action.on_bind_of_ok select,
      Action.on_bind_of_ok (Action.on_createModule ..)]
    exact (Action.on_bind_of_ok commit _).trans ((Action.on_bind_of_ok tag _).trans rfl)

theorem valid_withRoot (hs : s.Valid) (absent : s.tags.get? h.rootTag = none) :
    (h.withRoot s).Valid := by
  rw [← extended_tagged_eq hs absent]
  have minted : Store.Valid { s with nextModule := s.nextModule + 1 } := hs.mints ⟨1, 0, rfl⟩
  exact (minted.extended (wellFormed_rootPipeline h _)).tag (OrderedMap.get?_insert_self ..) rfl _

theorem rootAt_withRoot (s : Store) : h.RootAt (h.withRoot s) ⟨s.nextVersion, s.nextModule⟩ where
  tag := OrderedMap.get?_insert_self ..
  version := OrderedMap.get?_insert_self ..
  module := Nat.lt_succ_self _

theorem RootAt.mints {r : VariablesRoot} (hr : h.RootAt s r) (mints : s.Mints t) : h.RootAt t r where
  tag := by
    rw [mints.tags]
    exact hr.tag
  version := by
    rw [mints.versions]
    exact hr.version
  module := Nat.lt_of_lt_of_le hr.module mints.precedes.module

theorem RootAt.live {r : VariablesRoot} (hr : h.RootAt s r) :
    s.live r.version = .ok (h.rootVersion r.module) := Store.live_eq_ok_iff.2 ⟨hr.version, rfl⟩

theorem RootAt.unique {r r' : VariablesRoot} (hr : h.RootAt s r) (hr' : h.RootAt s r') :
    r = r' := by
  have versions : r.version = r'.version := Option.some.inj (hr.tag.symm.trans hr'.tag)
  have same := hr'.version
  rw [← versions, hr.version, Option.some.injEq] at same
  have modules : r.module = r'.module := by
    have keys := congrArg (fun n => n.pipeline.modules.keys) same
    simpa [rootVersion, keys_rootPipeline] using keys
  cases r
  cases r'
  simp_all

/-- Where the tag is not there, the variables root is made as soon as its type is known. -/
theorem on_variablesRoot_of_absent (hs : s.Valid) (absent : s.tags.get? h.rootTag = none) :
    h.variablesRoot.on s = match h.basic "OutputPort" with
      | .ok _ => (.ok ⟨s.nextVersion, s.nextModule⟩, h.withRoot s)
      | .error e => (.error e, s) := by
  have create := on_createVariablesRoot (h := h) hs absent
  have same : s.tags.get? h.settings.tags.variablesRoot = none := absent
  rw [variablesRoot, Action.on_bind_of_ok (Action.on_get s), Store.resolveTag, same]
  cases type : h.basic "OutputPort" with
  | error e =>
    rw [type] at create
    exact Action.on_bind_of_error create _
  | ok type' =>
    rw [type] at create
    have root := (rootAt_withRoot (h := h) s).version
    have query : (Action.query (·.pipeline s.nextVersion)).on (h.withRoot s) =
        (.ok (h.rootPipeline s.nextModule), h.withRoot s) :=
      Action.on_query_of_ok (Store.pipeline_eq_ok_iff.2 ⟨_, root, rfl, rfl⟩)
    rw [Action.on_bind_of_ok create, Action.on_bind_of_ok query]
    rfl

/-- Asking for the variables root fails and does nothing, finds a version of one module by the tag, or
makes the variables root if the tag is not there. -/
theorem variablesRoot_cases (hs : s.Valid) :
    (∃ e, h.variablesRoot.on s = (.error e, s)) ∨
    (∃ r n, h.variablesRoot.on s = (.ok r, s) ∧ s.tags.get? h.rootTag = some r.version ∧
      s.live r.version = .ok n ∧ n.pipeline.modules.keys = [r.module]) ∨
    (s.tags.get? h.rootTag = none ∧
      h.variablesRoot.on s = (.ok ⟨s.nextVersion, s.nextModule⟩, h.withRoot s)) := by
  have same : s.tags.get? h.settings.tags.variablesRoot = s.tags.get? h.rootTag := rfl
  rw [variablesRoot, Action.on_bind_of_ok (Action.on_get s), Store.resolveTag, same]
  cases found : s.tags.get? h.rootTag with
  | some v =>
    obtain ⟨n, there, live⟩ := hs.tagged found
    have query : (Action.query (·.pipeline v)).on s = (.ok n.pipeline, s) :=
      Action.on_query_of_ok (Store.pipeline_eq_ok_iff.2 ⟨n, there, live, rfl⟩)
    rw [Action.on_bind_of_ok (Action.on_pure ..), Action.on_bind_of_ok query]
    split
    · next m keys =>
      exact .inr (.inl ⟨⟨v, m⟩, n, rfl, rfl, Store.live_eq_ok_iff.2 ⟨there, live⟩, keys⟩)
    · exact .inl ⟨_, rfl⟩
  | none =>
    have run := on_variablesRoot_of_absent (h := h) hs found
    rw [variablesRoot, Action.on_bind_of_ok (Action.on_get s), Store.resolveTag, same, found] at run
    rw [run]
    cases h.basic "OutputPort" with
    | error e => exact .inl ⟨e, rfl⟩
    | ok => exact .inr (.inr ⟨rfl, rfl⟩)

theorem variablesRoot_eq_ok (hs : s.Valid) {r : VariablesRoot}
    (run : h.variablesRoot.on s = (.ok r, t)) :
    t.tags.get? h.rootTag = some r.version ∧
      (∃ n, t.live r.version = .ok n ∧ n.pipeline.modules.keys = [r.module]) ∧
      (t = s ∨ s.tags.get? h.rootTag = none ∧ t = h.withRoot s ∧
        r = ⟨s.nextVersion, s.nextModule⟩) := by
  obtain ⟨e, run'⟩ | ⟨r', n, run', tag, live, keys⟩ | ⟨absent, run'⟩ :=
    variablesRoot_cases (h := h) hs
  · rw [run'] at run
    cases run
  · rw [run'] at run
    cases run
    exact ⟨tag, ⟨n, live, keys⟩, .inl rfl⟩
  · rw [run'] at run
    cases run
    have root := rootAt_withRoot (h := h) s
    exact ⟨root.tag, ⟨_, root.live, keys_rootPipeline ..⟩, .inr ⟨absent, rfl, rfl⟩⟩

theorem on_variablesRoot_of_live {r : VariablesRoot} {n : Version}
    (tag : s.tags.get? h.rootTag = some r.version) (live : s.live r.version = .ok n)
    (keys : n.pipeline.modules.keys = [r.module]) : h.variablesRoot.on s = (.ok r, s) := by
  obtain ⟨there, unpruned⟩ := Store.live_eq_ok_iff.1 live
  have query : (Action.query (·.pipeline r.version)).on s = (.ok n.pipeline, s) :=
    Action.on_query_of_ok (Store.pipeline_eq_ok_iff.2 ⟨n, there, unpruned, rfl⟩)
  have found : s.resolveTag h.settings.tags.variablesRoot = some r.version := tag
  rw [variablesRoot, Action.on_bind_of_ok (Action.on_get s)]
  simp only [found]
  rw [Action.on_bind_of_ok (Action.on_pure ..), Action.on_bind_of_ok query]
  simp only [keys]
  rfl

theorem RootAt.on_variablesRoot {r : VariablesRoot} (hr : h.RootAt s r) :
    h.variablesRoot.on s = (.ok r, s) :=
  on_variablesRoot_of_live hr.tag hr.live (keys_rootPipeline h r.module)

theorem variablesRoot_again (hs : s.Valid) {r : VariablesRoot}
    (asked : h.variablesRoot.on s = (.ok r, t)) {u : Store} (mints : t.Mints u) :
    h.variablesRoot.on u = (.ok r, u) := by
  obtain ⟨tag, ⟨n, live, keys⟩, -⟩ := variablesRoot_eq_ok hs asked
  exact on_variablesRoot_of_live (mints.tags ▸ tag) ((congrFun mints.live _).trans live) keys

/-- What building a variable may do to a store: number modules and connections, and make the
variables root if it is not there. -/
inductive Prepares (h : Host) : Store → Store → Prop
  | mints {s t : Store} (mints : s.Mints t) : Prepares h s t
  | root {s : Store} (absent : s.tags.get? h.rootTag = none) : Prepares h s (h.withRoot s)
  | trans {s t u : Store} (first : Prepares h s t) (rest : Prepares h t u) : Prepares h s u

theorem Prepares.valid (prepares : h.Prepares s t) (hs : s.Valid) : t.Valid := by
  induction prepares with
  | mints mints => exact hs.mints mints
  | root absent => exact valid_withRoot hs absent
  | trans _ _ first rest => exact rest (first hs)

theorem Prepares.kept (prepares : h.Prepares s t) (hs : s.Valid) {v : VersionId} {n : Version}
    (found : s.versions.get? v = some n) : t.versions.get? v = some n := by
  induction prepares with
  | mints mints =>
    rw [mints.versions]
    exact found
  | root absent => exact (hs.mints ⟨1, 0, rfl⟩).get?_extended _ found
  | trans first _ ih ih' => exact ih' (first.valid hs) (ih hs found)

theorem Prepares.precedes (prepares : h.Prepares s t) : s.Precedes t := by
  induction prepares with
  | mints mints => exact mints.precedes
  | root absent => exact ⟨Nat.le_succ _, Nat.le_refl _⟩
  | trans _ _ first rest => exact first.trans rest

theorem Prepares.mints_of_tagged (prepares : h.Prepares s t) {v : VersionId}
    (there : s.tags.get? h.rootTag = some v) : s.Mints t := by
  induction prepares with
  | mints mints => exact mints
  | root absent => rw [absent] at there; cases there
  | trans _ _ first rest =>
    have mints := first there
    exact mints.trans (rest (mints.tags ▸ there))

theorem Prepares.cases_of_untagged (prepares : h.Prepares s t)
    (absent : s.tags.get? h.rootTag = none) :
    s.Mints t ∨ ∃ u, s.Mints u ∧ (h.withRoot u).Mints t := by
  induction prepares with
  | mints mints => exact .inl mints
  | @root s _ => exact .inr ⟨s, .refl s, .refl _⟩
  | trans _ rest ih ih' =>
    obtain mints | ⟨u, mints, made⟩ := ih absent
    · obtain mints' | ⟨u, mints', made⟩ := ih' (mints.tags ▸ absent)
      · exact .inl (mints.trans mints')
      · exact .inr ⟨u, mints.trans mints', made⟩
    · have there := ((rootAt_withRoot (h := h) u).mints made).tag
      exact .inr ⟨u, mints, made.trans (rest.mints_of_tagged there)⟩

/-- Every run on a valid store does nothing but prepare it. -/
abbrev Preparing (h : Host) (a : Action α) : Prop :=
  Action.Moves (fun s t => s.Valid → h.Prepares s t) a

theorem prepares_refl (s : Store) : s.Valid → h.Prepares s s := fun _ => .mints (.refl s)

theorem prepares_trans {s t u : Store} (first : s.Valid → h.Prepares s t)
    (rest : t.Valid → h.Prepares t u) (hs : s.Valid) : h.Prepares s u :=
  (first hs).trans (rest ((first hs).valid hs))

theorem Preparing.bind {a : Action α} {f : α → Action β} (ha : h.Preparing a)
    (hf : ∀ x, h.Preparing (f x)) : h.Preparing (a >>= f) :=
  Action.Moves.bind (R := fun s t => s.Valid → h.Prepares s t)
    (fun _ _ _ first rest => prepares_trans first rest) ha hf

/-- What a run that ended some way did to the store. -/
theorem Preparing.prepares {a : Action α} (preparing : h.Preparing a) (hs : s.Valid)
    {r : Except Error α} (run : a.on s = (r, t)) : h.Prepares s t := by
  have prepares := preparing s hs
  rwa [run] at prepares

theorem preparing_of_minting {a : Action α} (ha : a.Minting) : h.Preparing a :=
  fun s _ => .mints (ha s)

theorem preparing_variablesRoot : h.Preparing h.variablesRoot := fun s hs => by
  obtain ⟨e, run⟩ | ⟨r, n, run, -⟩ | ⟨absent, run⟩ := variablesRoot_cases (h := h) hs
  · rw [run]
    exact .mints (.refl s)
  · rw [run]
    exact .mints (.refl s)
  · rw [run]
    exact .root absent

section

variable {P : Error → Prop} (host : ∀ fault, P (.host fault)) (unknown : ∀ t, P (.unknownType t))

include unknown in
theorem raises_basic (h : Host) {name : String} {e : Error} (failed : h.basic name = .error e) :
    P e := by
  unfold basic resolve TypeRegistry.resolve at failed
  split at failed
  · cases failed
  · cases failed
    exact unknown _

include host unknown

theorem raises_createVariablesRoot (h : Host) : Action.Raises P h.createVariablesRoot := by
  refine (Action.raises_ofExcept fun e => raises_basic unknown h).bind fun type => ?_
  refine (Action.raises_change host _).bind fun _ => ?_
  refine (Action.raises_createModule type).bind fun module => ?_
  refine (Action.raises_commit host _).bind fun version => ?_
  exact (Action.raises_change host _).bind fun _ => Action.raises_pure version

/-- The variables root is missed for want of its type, or for reasons of the store. -/
theorem raises_variablesRoot (h : Host) : Action.Raises P h.variablesRoot := by
  refine Action.raises_get.bind fun s => ?_
  dsimp only
  split
  case' h_1 => refine (Action.raises_pure _).bind fun version => ?_
  case' h_2 => refine (raises_createVariablesRoot host unknown h).bind fun version => ?_
  -- what was found and what was made is read alike
  all_goals
    refine (Action.raises_query host _).bind fun p => ?_
    split
    · exact Action.raises_pure _
    · exact Action.raises_throw (host _)

end

/-- A host whose basic types have a short name. -/
def sample : Host :=
  let settings : Settings := { packages := { basic := "b" } }
  ⟨.withBasics settings, settings⟩

end Dataflow.Host
