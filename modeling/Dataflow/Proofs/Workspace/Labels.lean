import Dataflow.Proofs.Store.Tags
import Dataflow.Proofs.Workspace.Agreement

/-! What the tags of a store name, whatever the settings are: versions that were made as variables roots
or as those of variables, and each version by one tag at most. Each known variable has its version by the
tag of its name, and a version of a variable is never found as the variables root. -/

namespace Dataflow

namespace Store

/-- The tag names the version, which is live. -/
structure Names (s : Store) (tag : String) (v : VersionId) (n : Version) : Prop where
  tag : s.tags.get? tag = some v
  live : s.live v = .ok n

variable {s t : Store} {tag : String} {v w : VersionId} {n m : Version}

theorem Valid.names (hs : s.Valid) (found : s.tags.get? tag = some v) : ∃ n, s.Names tag v n := by
  obtain ⟨n, there, whole⟩ := hs.tagged found
  exact ⟨n, found, live_eq_ok_iff.2 ⟨there, whole⟩⟩

theorem live_extended (hs : s.Valid) (live : s.live v = .ok m) (n : Version) :
    (s.extended n).live v = .ok m := by
  obtain ⟨there, whole⟩ := live_eq_ok_iff.1 live
  exact live_eq_ok_iff.2 ⟨hs.get?_extended n there, whole⟩

theorem names_extended (hs : s.Valid) (n : Version) :
    (s.extended n).Names tag v m ↔ s.Names tag v m := by
  constructor
  · intro names
    obtain ⟨k, before⟩ := hs.names names.tag
    have same : k = m := Except.ok.inj ((live_extended hs before.live n).symm.trans names.live)
    exact same ▸ before
  · intro names
    exact ⟨names.tag, live_extended hs names.live n⟩

theorem names_tagged (name : String) :
    (s.tagged v name).Names tag w m ↔
      tag = name ∧ w = v ∧ s.live v = .ok m ∨ tag ≠ name ∧ w ≠ v ∧ s.Names tag w m := by
  constructor
  · intro names
    obtain ⟨same, rfl⟩ | ⟨other, ne, before⟩ := resolveTag_tagged.1 names.tag
    · exact .inl ⟨same, rfl, names.live⟩
    · exact .inr ⟨other, ne, before, names.live⟩
  · rintro (⟨same, rfl, live⟩ | ⟨other, ne, names⟩)
    · exact ⟨resolveTag_tagged.2 (.inl ⟨same, rfl⟩), live⟩
    · exact ⟨resolveTag_tagged.2 (.inr ⟨other, ne, names.tag⟩), names.live⟩

theorem names_without (v : VersionId) (n : Version) :
    (s.without v n).Names tag w m ↔ w ≠ v ∧ s.Names tag w m := by
  have live : w ≠ v → ((s.without v n).live w = .ok m ↔ s.live w = .ok m) := by
    intro ne
    rw [live_eq_ok_iff, live_eq_ok_iff, get?_without, if_neg ne]
  constructor
  · intro names
    obtain ⟨ne, tag⟩ := get?_untagged_eq_some_iff.1 names.tag
    exact ⟨ne, tag, (live ne).1 names.live⟩
  · rintro ⟨ne, names⟩
    exact ⟨get?_untagged_eq_some_iff.2 ⟨ne, names.tag⟩, (live ne).2 names.live⟩

end Store

namespace Host

variable {h : Host} {s t : Store} {r : VariablesRoot} {tag : String} {v : VersionId} {n : Version}

/-- The variables root is there, and is the one given. -/
def Finds (h : Host) (s : Store) (r : VariablesRoot) : Prop := h.variablesRoot.on s = (.ok r, s)

theorem finds_iff (hs : s.Valid) :
    h.Finds s r ↔ ∃ n, s.Names h.rootTag r.version n ∧ n.pipeline.modules.keys = [r.module] := by
  constructor
  · intro finds
    obtain ⟨tag, ⟨n, live, keys⟩, -⟩ := variablesRoot_eq_ok hs finds
    exact ⟨n, ⟨tag, live⟩, keys⟩
  · rintro ⟨n, names, keys⟩
    exact on_variablesRoot_of_live names.tag names.live keys

/-- The version is as those of variables are. -/
def Carries (h : Host) (n : Version) : Prop := ∃ root o, h.Shaped root o n.pipeline

/-- The module of the variables root and that of the output are two. -/
theorem Shaped.several {root : ModuleId} {o : PortRef} {p : Pipeline} (shaped : h.Shaped root o p)
    (closed : p.WellFormed) (m : ModuleId) : p.modules.keys ≠ [m] := by
  obtain ⟨c, only, -⟩ := shaped.feed
  have into : c ∈ p.connectionsInto root := by simp [only]
  obtain ⟨listed, -⟩ := List.mem_filter.1 into
  obtain ⟨k, found⟩ := OrderedMap.mem_values_iff.1 listed
  have root : p.modules.contains root = true :=
    OrderedMap.contains_eq_true_iff.2 ⟨_, shaped.holds⟩
  exact OrderedMap.keys_ne_singleton (closed.source found) root (shaped.spares c listed) m

/-- No version has two tags, and what is tagged was made as a variables root or as the version of a
variable. -/
structure Labelled (h : Host) (s : Store) : Prop where
  distinct : s.TagsDistinct
  made : ∀ {tag v n}, s.Names tag v n → (∃ m, n = h.rootVersion m) ∨ h.Carries n

theorem labelled_new (h : Host) : h.Labelled .new where
  distinct := Store.tagsDistinct_new
  made names := nomatch names.tag

theorem Labelled.mints (labelled : h.Labelled s) (mints : s.Mints t) : h.Labelled t := by
  obtain ⟨m, c, rfl⟩ := mints
  exact ⟨labelled.distinct, fun names => labelled.made ⟨names.tag, names.live⟩⟩

theorem Labelled.current (labelled : h.Labelled s) (v : VersionId) :
    h.Labelled { s with current := v } :=
  ⟨labelled.distinct, fun names => labelled.made ⟨names.tag, names.live⟩⟩

theorem Labelled.extended (labelled : h.Labelled s) (hs : s.Valid) (n : Version) :
    h.Labelled (s.extended n) :=
  ⟨labelled.distinct, fun names => labelled.made ((Store.names_extended hs n).1 names)⟩

theorem Labelled.tagged (labelled : h.Labelled s) (live : s.live v = .ok n)
    (made : (∃ m, n = h.rootVersion m) ∨ h.Carries n) (name : String) :
    h.Labelled (s.tagged v name) := by
  refine ⟨labelled.distinct.tagged v name, ?_⟩
  intro tag w m names
  obtain ⟨-, -, live'⟩ | ⟨-, -, before⟩ := (Store.names_tagged name).1 names
  · exact Except.ok.inj (live.symm.trans live') ▸ made
  · exact labelled.made before

theorem Labelled.without (labelled : h.Labelled s) (v : VersionId) (n : Version) :
    h.Labelled (s.without v n) :=
  ⟨labelled.distinct.without v n,
    fun names => labelled.made ((Store.names_without v n).1 names).2⟩

theorem Prepares.distinct (prepares : h.Prepares s t) (hs : s.Valid)
    (distinct : s.TagsDistinct) : t.TagsDistinct := by
  induction prepares with
  | mints mints =>
    unfold Store.TagsDistinct
    rw [mints.tags]
    exact distinct
  | @root s absent =>
    rw [← extended_tagged_eq hs absent]
    have before : Store.TagsDistinct (Store.extended
        { s with nextModule := s.nextModule + 1 } (h.rootVersion s.nextModule)) := distinct
    exact before.tagged _ _
  | trans first _ ih ih' => exact ih' (first.valid hs) (ih hs distinct)

/-- Preparing a store tags nothing but a variables root. -/
theorem Prepares.named (prepares : h.Prepares s t) (hs : s.Valid) (names : t.Names tag v n) :
    s.Names tag v n ∨ ∃ m < t.nextModule, n = h.rootVersion m := by
  induction prepares with
  | mints mints => exact .inl ⟨mints.tags ▸ names.tag, mints.live ▸ names.live⟩
  | @root s absent =>
    rw [← extended_tagged_eq hs absent] at names
    have minted : s.Mints { s with nextModule := s.nextModule + 1 } := ⟨1, 0, rfl⟩
    obtain ⟨-, -, live⟩ | ⟨-, -, before⟩ := (Store.names_tagged _).1 names
    · have made : (Store.extended { s with nextModule := s.nextModule + 1 }
          (h.rootVersion s.nextModule)).live s.nextVersion = .ok (h.rootVersion s.nextModule) :=
        Store.live_eq_ok_iff.2 ⟨OrderedMap.get?_insert_self .., rfl⟩
      exact .inr ⟨s.nextModule, Nat.lt_succ_self _, Except.ok.inj (live.symm.trans made)⟩
    · have before := (Store.names_extended (hs.mints minted) _).1 before
      exact .inl ⟨before.tag, before.live⟩
  | trans first rest ih ih' =>
    obtain before | made := ih' (first.valid hs) names
    · obtain before | ⟨m, numbered, same⟩ := ih hs before
      · exact .inl before
      · exact .inr ⟨m, Nat.lt_of_lt_of_le numbered rest.precedes.module, same⟩
    · exact .inr made

theorem Labelled.prepares (labelled : h.Labelled s) (hs : s.Valid) (prepares : h.Prepares s t) :
    h.Labelled t := by
  refine ⟨prepares.distinct hs labelled.distinct, fun names => ?_⟩
  obtain before | ⟨m, -, same⟩ := prepares.named hs names
  · exact labelled.made before
  · exact .inl ⟨m, same⟩

theorem Prepares.names (prepares : h.Prepares s t) (hs : s.Valid) (names : s.Names tag v n) :
    t.Names tag v n := by
  obtain ⟨there, whole⟩ := Store.live_eq_ok_iff.1 names.live
  refine ⟨?_, Store.live_eq_ok_iff.2 ⟨prepares.kept hs there, whole⟩⟩
  have tagged := names.tag
  clear names there whole
  induction prepares with
  | mints mints => rw [mints.tags, tagged]
  | @root s absent =>
    have other : tag ≠ h.rootTag := by
      rintro rfl
      cases absent.symm.trans tagged
    exact (OrderedMap.get?_insert_of_ne other ..).trans tagged
  | trans first _ ih ih' => exact ih' (first.valid hs) (ih hs tagged)

/-- A tagged version of a single module was made as a variables root. -/
theorem Labelled.eq_rootVersion (labelled : h.Labelled s) (hs : s.Valid) (names : s.Names tag v n)
    {m : ModuleId} (keys : n.pipeline.modules.keys = [m]) : n = h.rootVersion m := by
  obtain ⟨m', rfl⟩ | ⟨root, o, shaped⟩ := labelled.made names
  · rw [rootVersion, keys_rootPipeline, List.cons.injEq] at keys
    rw [keys.1]
  · have closed := hs.wellFormed (Store.live_eq_ok_iff.1 names.live).1
    exact absurd keys (shaped.several closed m)

/-- The variable has a version of its own, with the tag of the name. -/
def Bears (h : Host) (s : Store) (name : String) (x : Variable) : Prop :=
  ∃ v n, x.version = some v ∧ s.Names (h.settings.variableTag name) v n ∧ h.Carries n

variable {name name' : String} {x x' : Variable}

/-- What a variable has stays where its tag stays. -/
theorem Bears.mono (bears : h.Bears s name x)
    (kept : ∀ v n, x.version = some v → s.Names (h.settings.variableTag name) v n →
      t.Names (h.settings.variableTag name) v n) : h.Bears t name x := by
  obtain ⟨v, n, version, names, carries⟩ := bears
  exact ⟨v, n, version, kept v n version names, carries⟩

theorem Bears.prepares (bears : h.Bears s name x) (hs : s.Valid) (prepares : h.Prepares s t) :
    h.Bears t name x :=
  bears.mono fun _ _ _ names => prepares.names hs names

theorem Bears.current (bears : h.Bears s name x) (v : VersionId) :
    h.Bears { s with current := v } name x :=
  bears.mono fun _ _ _ names => ⟨names.tag, names.live⟩

theorem Bears.extended (bears : h.Bears s name x) (hs : s.Valid) (n : Version) :
    h.Bears (s.extended n) name x :=
  bears.mono fun _ _ _ names => (Store.names_extended hs n).2 names

theorem Bears.tagged (bears : h.Bears s name x) (other : name ≠ name') (ne : x.version ≠ some v) :
    h.Bears (s.tagged v (h.settings.variableTag name')) name x := by
  apply bears.mono
  intro w n version names
  refine (Store.names_tagged _).2 (.inr ⟨?_, ?_, names⟩)
  · exact fun same => other (Settings.variableTag_inj same)
  · rintro rfl
    exact ne version

theorem Bears.without (bears : h.Bears s name x) (ne : x.version ≠ some v) (n : Version) :
    h.Bears (s.without v n) name x := by
  apply bears.mono
  intro w m version names
  refine (Store.names_without v n).2 ⟨?_, names⟩
  rintro rfl
  exact ne version

theorem bears_tagged (version : x.version = some v) (live : s.live v = .ok n)
    (carries : h.Carries n) (name : String) :
    h.Bears (s.tagged v (h.settings.variableTag name)) name x :=
  ⟨v, n, version, (Store.names_tagged _).2 (.inl ⟨rfl, rfl, live⟩), carries⟩

theorem Bears.version_ne (bears : h.Bears s name x) (bears' : h.Bears s name' x')
    (distinct : s.TagsDistinct) (other : name ≠ name') (version' : x'.version = some v) :
    x.version ≠ some v := by
  intro version
  obtain ⟨w, n, here, names, -⟩ := bears
  obtain ⟨w', n', here', names', -⟩ := bears'
  obtain rfl : w = v := Option.some.inj (here.symm.trans version)
  obtain rfl : w' = w := Option.some.inj (here'.symm.trans version')
  exact other (Settings.variableTag_inj (distinct _ _ _ names.tag names'.tag))

/-- The version of a variable is not the variables root. -/
theorem Bears.ne_root (bears : h.Bears s name x) (hs : s.Valid) (finds : h.Finds s r)
    (version : x.version = some v) : r.version ≠ v := by
  rintro rfl
  obtain ⟨n, named, keys⟩ := (finds_iff hs).1 finds
  obtain ⟨w, m, version', names, root, o, shaped⟩ := bears
  obtain rfl : w = r.version := Option.some.inj (version'.symm.trans version)
  obtain rfl : m = n := Except.ok.inj (names.live.symm.trans named.live)
  exact shaped.several (hs.wellFormed (Store.live_eq_ok_iff.1 names.live).1) _ keys

/-- Where a variable has the tag of the variables root, that is not found. -/
theorem Bears.lost (bears : h.Bears s name x) (hs : s.Valid)
    (taken : h.settings.variableTag name = h.rootTag) : ¬ h.Finds s r := by
  intro finds
  obtain ⟨n, named, -⟩ := (finds_iff hs).1 finds
  obtain ⟨v, m, version, names, -⟩ := id bears
  refine bears.ne_root hs finds version ?_
  exact Option.some.inj (named.tag.symm.trans (taken ▸ names.tag))

/-- The variables root stays where its tag stays. -/
theorem Finds.mono (finds : h.Finds s r) (hs : s.Valid) (ht : t.Valid)
    (kept : ∀ n, s.Names h.rootTag r.version n → t.Names h.rootTag r.version n) :
    h.Finds t r := by
  obtain ⟨n, names, keys⟩ := (finds_iff hs).1 finds
  exact (finds_iff ht).2 ⟨n, kept n names, keys⟩

theorem Finds.prepares (finds : h.Finds s r) (hs : s.Valid) (prepares : h.Prepares s t) :
    h.Finds t r :=
  finds.mono hs (prepares.valid hs) fun _ names => prepares.names hs names

end Host

namespace Workspace

variable {w w' : Workspace} {r : VariablesRoot}

/-- Each known variable has a version of its own, with the tag of the name. -/
structure Labelled (w : Workspace) : Prop where
  valid : w.store.Valid
  store : w.host.Labelled w.store
  bears : ∀ {name x}, w.named.get? name = some x → w.host.Bears w.store name x

theorem labelled_start (host : Host) (catalogue : Catalogue) : (new host catalogue .new).Labelled :=
  ⟨Store.valid_new, host.labelled_new, nofun⟩

theorem Labelled.prepares (labelled : w.Labelled) {u : Store}
    (prepares : w.host.Prepares w.store u) : Labelled { w with store := u } where
  valid := prepares.valid labelled.valid
  store := labelled.store.prepares labelled.valid prepares
  bears known := (labelled.bears known).prepares labelled.valid prepares

theorem Labelled.version_ne (labelled : w.Labelled) {name : String} {x : Variable}
    (known : w.named.get? name = some x) : x.version ≠ some w.store.nextVersion := by
  intro new
  obtain ⟨v, n, version, names, -⟩ := labelled.bears known
  obtain rfl : v = w.store.nextVersion := Option.some.inj (version.symm.trans new)
  exact absurd (labelled.valid.tag_lt names.tag) (Nat.lt_irrefl _)

/-- Writing a variable below the variables root that is found. -/
theorem Labelled.wrote (labelled : w.Labelled) {name : String} {x : Variable} {g : Pipeline}
    {o : PortRef} {base : Version} (finds : w.host.Finds w.store r)
    (live : w.store.live r.version = .ok base) (drawn : x.Drawn g) (output : x.output = some o)
    (apart : base.pipeline.Apart g)
    (fresh : (base.pipeline.join g).connections.get? w.store.nextConnection = none)
    (accepted : base.pipeline.applyAll (x.edits w.host r.module o w.store.nextConnection) =
      .ok ((base.pipeline.join g).withConnection
        (Variable.feeding w.host r.module o w.store.nextConnection))) :
    Labelled { w with
      store := x.wrote w.host name w.store r.version
        (x.edits w.host r.module o w.store.nextConnection)
        ((base.pipeline.join g).withConnection
          (Variable.feeding w.host r.module o w.store.nextConnection))
      named := w.named.insert name { x with
        version := some w.store.nextVersion
        draft := .empty } } := by
  have hs := labelled.valid
  obtain ⟨n, names, keys⟩ := (Host.finds_iff hs).1 finds
  obtain rfl : base = n := Except.ok.inj (live.symm.trans names.live)
  -- what is found has one module, so it is no variable's version, whatever took the tag
  obtain rfl := labelled.store.eq_rootVersion hs names keys
  rw [Host.rootVersion, Host.connections_join_rootPipeline] at fresh
  let s₁ : Store := { w.store with
    current := r.version, nextConnection := w.store.nextConnection + 1 }
  have minted : w.store.Mints { w.store with nextConnection := w.store.nextConnection + 1 } :=
    ⟨0, 1, rfl⟩
  have hs₁ : s₁.Valid := (hs.mints minted).current r.version
  let n := x.versionBelow r.version (x.edits w.host r.module o w.store.nextConnection)
    (w.host.variablePipeline r.module g o w.store.nextConnection)
  have newest : (s₁.extended n).live w.store.nextVersion = .ok n :=
    Store.live_eq_ok_iff.2 ⟨OrderedMap.get?_insert_self .., rfl⟩
  have carries : w.host.Carries n := ⟨r.module, o,
    Host.shaped_variablePipeline apart drawn.draws.wellFormed fresh (drawn.output output)⟩
  have closed : n.pipeline.WellFormed :=
    (hs.wellFormed (Store.live_eq_ok_iff.1 live).1).applyAll accepted
  have store : w.host.Labelled (s₁.extended n) :=
    ((labelled.store.mints minted).current r.version).extended hs₁ n
  refine ⟨(hs₁.extended closed).tag (Store.live_eq_ok_iff.1 newest).1 rfl _,
    store.tagged newest (.inr carries) _, ?_⟩
  intro name' x' known
  obtain ⟨rfl, rfl⟩ | ⟨other, before⟩ := OrderedMap.get?_insert_eq_some_iff.1 known
  · exact Host.bears_tagged rfl newest carries _
  · have bears : w.host.Bears s₁ name' x' :=
      ((labelled.bears before).prepares hs (.mints minted)).current r.version
    exact (bears.extended hs₁ n).tagged other (labelled.version_ne before)

theorem Labelled.forgot (labelled : w.Labelled) {name : String} {x : Variable} {v : VersionId}
    {n : Version} (known : w.named.get? name = some x) (version : x.version = some v)
    (ne : v ≠ VersionId.root) (there : w.store.versions.get? v = some n) :
    Labelled { w with store := w.store.without v n, named := w.named.erase name } := by
  refine ⟨labelled.valid.without ne there, labelled.store.without v n, ?_⟩
  intro name' x' known'
  obtain ⟨other, before⟩ := OrderedMap.get?_erase_eq_some_iff.1 known'
  have bears := labelled.bears before
  exact bears.without
    (bears.version_ne (labelled.bears known) labelled.store.distinct other version) n

theorem Labelled.renamed (labelled : w.Labelled) {old new : String} {x : Variable}
    {v : VersionId} {n : Version} (known : w.named.get? old = some x)
    (version : x.version = some v) (live : w.store.live v = .ok n) :
    Labelled { w with
      store := w.store.tagged v (w.host.settings.variableTag new)
      named := (w.named.erase old).insert new x } := by
  obtain ⟨u, m, version', names, carries⟩ := labelled.bears known
  obtain rfl : u = v := Option.some.inj (version'.symm.trans version)
  obtain rfl : m = n := Except.ok.inj (names.live.symm.trans live)
  obtain ⟨there, whole⟩ := Store.live_eq_ok_iff.1 live
  refine ⟨labelled.valid.tag there whole _, labelled.store.tagged live (.inr carries) _, ?_⟩
  intro name' x' known'
  obtain ⟨rfl, rfl⟩ | ⟨other, apart, before⟩ := OrderedMap.get?_insert_erase_eq_some_iff.1 known'
  · exact Host.bears_tagged version live carries _
  · have bears := labelled.bears before
    exact bears.tagged other
      (bears.version_ne (labelled.bears known) labelled.store.distinct apart version)

/-- What is taken up by a tag was written with that tag. -/
theorem Labelled.restored (labelled : w.Labelled) {tag name : String} {v : VersionId} {s : Store}
    {p : Pipeline} {x : Variable} (version : x.version = some v)
    (there : w.store.tags.get? tag = some v)
    (named : w.host.settings.variableOfTag? tag = some name) (prepares : w.host.Prepares w.store s)
    (read : s.pipeline v = .ok p) (connected : p.connections.values ≠ []) :
    w.host.Bears w.store name x := by
  obtain ⟨n, names⟩ := labelled.valid.names there
  obtain ⟨m, found, -, rfl⟩ := Store.pipeline_eq_ok_iff.1 read
  have kept := prepares.kept labelled.valid (Store.live_eq_ok_iff.1 names.live).1
  obtain rfl : n = m := Option.some.inj (kept.symm.trans found)
  obtain rfl := Settings.variableTag_of_variableOfTag? named
  obtain ⟨m, rfl⟩ | carries := labelled.store.made names
  · exact absurd rfl connected
  · exact ⟨v, n, version, names, carries⟩

/-- Whatever a call does, and whatever the settings are, each known variable has a version of its own,
with the tag of the name. -/
theorem Labelled.effect (labelled : w.Labelled) (effect : w.Effect w') : w'.Labelled := by
  cases effect with
  | @prepared u v prepares =>
    have ready := labelled.prepares prepares
    exact ⟨ready.valid.current v, ready.store.current v, fun known => (ready.bears known).current v⟩
  | @wrote t u name x g o r base _ _ prepares asked live drawn output apart fresh accepted =>
    have rooted := Host.preparing_variablesRoot.prepares (prepares.valid labelled.valid) asked
    have ready := labelled.prepares (prepares.trans rooted)
    have again := Host.variablesRoot_again (prepares.valid labelled.valid) asked (.refl u)
    exact ready.wrote again live drawn output apart fresh accepted
  | forgot known version ne there => exact labelled.forgot known version ne there
  | renamed _ known _ version live => exact labelled.renamed known version live
  | @restored u named prepares found kept =>
    have ready := labelled.prepares prepares
    refine ⟨ready.valid, ready.store, ?_⟩
    intro name x known
    obtain before | ⟨-, tag, v, s, p, version, there, reads, first, read, connected⟩ :=
      found name x known
    · exact ready.bears before
    · have bears := labelled.restored version there reads first read connected
      exact bears.prepares labelled.valid prepares
  | @compiled u edits p prepares applies _ _ =>
    have ready := labelled.prepares prepares
    have selected := ready.valid.current VersionId.root
    refine ⟨selected.extended (Pipeline.wellFormed_empty.applyAll applies),
      (ready.store.current _).extended selected _, ?_⟩
    intro name x known
    exact ((ready.bears known).current VersionId.root).extended selected _

theorem Labelled.reaches (labelled : w.Labelled) (reaches : Reaches w w') :
    w'.Labelled ∧ w'.host = w.host := by
  induction reaches with
  | refl => exact ⟨labelled, rfl⟩
  | call _ admissible ih =>
    have effect := effect_after ih.1.valid admissible
    exact ⟨ih.1.effect effect, effect.host.1.trans ih.2⟩

end Workspace

end Dataflow
