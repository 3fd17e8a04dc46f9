import Dataflow.Proofs.Workspace.Calls

/-! A workspace and its store agree. The tags are those of the known variables and that of the
variables root, and each known variable has a live version of its own, which holds its output. Every
call keeps it so, whether it succeeds or fails, as long as no variable can have the root's tag. -/

namespace Dataflow

/-- No valid name makes the tag of the variables root. -/
def Settings.TagsApart (s : Settings) : Prop :=
  ∀ name, isValidName name = true → s.variableTag name ≠ s.tags.variablesRoot

theorem Settings.tagsApart_of_default {s : Settings} (tags : s.tags = {}) : s.TagsApart := by
  intro name _ same
  have := congrArg String.toList same
  simp [variableTag, tags] at this

theorem Settings.variableTag_inj {s : Settings} {m n : String}
    (h : s.variableTag m = s.variableTag n) : m = n := by
  have := congrArg String.toList h
  simp only [variableTag, String.toList_append, List.append_cancel_left_eq] at this
  exact String.toList_inj.1 this

theorem Settings.variableTag_of_variableOfTag? {s : Settings} {tag name : String}
    (named : s.variableOfTag? tag = some name) : s.variableTag name = tag := by
  simp only [variableOfTag?] at named
  split at named
  · next start =>
    rw [Bool.and_eq_true, List.isPrefixOf_iff_prefix] at start
    obtain ⟨rest, whole⟩ := start.1
    cases named
    refine String.toList_inj.1 ?_
    simp [variableTag, ← whole]
  · cases named

theorem ne_empty_of_isValidName {name : String} (h : isValidName name = true) : name ≠ "" := by
  rintro rfl
  cases h

namespace Workspace

/-- The version of a known variable: a live child of the variables root that holds its output. -/
structure Holds (w : Workspace) (r : VariablesRoot) (x : Variable) (v : VersionId) (n : Version) :
    Prop where
  version : x.version = some v
  live : w.store.live v = .ok n
  parent : n.parent = some r.version
  shape : ∃ o, x.output = some o ∧ w.host.Shaped r.module o n.pipeline

/-- The workspace and its store agree, with the variables root as given. -/
structure AgreesAt (w : Workspace) (r : VariablesRoot) : Prop where
  root : w.host.RootAt w.store r
  valid_name : ∀ {name x}, w.named.get? name = some x → isValidName name = true
  holds : ∀ {name x}, w.named.get? name = some x → ∃ v n, w.Holds r x v n
  distinct : ∀ {name name' x x' v}, w.named.get? name = some x → w.named.get? name' = some x' →
    x.version = some v → x'.version = some v → name = name'
  tags : ∀ {tag v}, w.store.tags.get? tag = some v ↔
    tag = w.host.rootTag ∧ v = r.version ∨
      ∃ name x, w.named.get? name = some x ∧ tag = w.host.settings.variableTag name ∧
        x.version = some v
  spared : ∀ {v n}, w.store.versions.get? v = some n → n.pipeline.Spares r.module

/-- The workspace and its store agree: nothing is known and nothing tagged before the variables root
was made, and all is as it should be after that. -/
structure Agrees (w : Workspace) : Prop where
  valid : w.store.Valid
  agrees : (w.named = ∅ ∧ w.store.tags = ∅ ∧ w.store.Numbered) ∨ ∃ r, w.AgreesAt r

theorem agrees_new (host : Host) (catalogue : Catalogue) : (new host catalogue .new).Agrees :=
  ⟨Store.valid_new, .inl ⟨rfl, rfl, Store.numbered_new⟩⟩

variable {w : Workspace} {r : VariablesRoot}

theorem AgreesAt.ne_root (agrees : w.AgreesAt r) {x : Variable} {v : VersionId} {n : Version}
    (holds : w.Holds r x v n) (hs : w.store.Valid) : v ≠ r.version := by
  rintro rfl
  have live := agrees.root.live
  rw [holds.live, Except.ok.injEq] at live
  have parent := holds.parent
  rw [live] at parent
  obtain ⟨m, there, none, -⟩ := hs.root
  have same : r.version = VersionId.root := (Option.some.inj parent).symm
  have version := agrees.root.version
  rw [same, there, Option.some.injEq] at version
  rw [version] at none
  cases none

/-- Agreement is about versions, tags and names only. -/
theorem AgreesAt.extend (agrees : w.AgreesAt r) {s : Store} (tags : s.tags = w.store.tags)
    (versions : ∀ {v n}, w.store.versions.get? v = some n → s.versions.get? v = some n)
    (made : ∀ {v n}, s.versions.get? v = some n →
      w.store.versions.get? v = some n ∨ n.pipeline.Spares r.module)
    (counter : w.store.nextModule ≤ s.nextModule) :
    AgreesAt { w with store := s } r where
  root := ⟨by rw [tags]; exact agrees.root.tag, versions agrees.root.version,
    Nat.lt_of_lt_of_le agrees.root.module counter⟩
  valid_name := agrees.valid_name
  holds known := by
    obtain ⟨v, n, holds⟩ := agrees.holds known
    obtain ⟨there, unpruned⟩ := Store.live_eq_ok_iff.1 holds.live
    exact ⟨v, n, holds.version, Store.live_eq_ok_iff.2 ⟨versions there, unpruned⟩, holds.parent,
      holds.shape⟩
  distinct := agrees.distinct
  tags {tag v} := by
    rw [tags]
    exact agrees.tags
  spared found := (made found).elim agrees.spared id

theorem AgreesAt.mints (agrees : w.AgreesAt r) {s : Store} (mints : w.store.Mints s) :
    AgreesAt { w with store := s } r :=
  agrees.extend mints.tags (by rw [mints.versions]; exact id)
    (by rw [mints.versions]; exact .inl) mints.precedes.module

/-- The variables root, where nothing is known yet. -/
theorem agreesAt_withRoot {s : Store} (hs : s.Valid) (named : w.named = ∅) (tags : s.tags = ∅)
    (numbered : s.Numbered) :
    AgreesAt { w with store := w.host.withRoot s } ⟨s.nextVersion, s.nextModule⟩ where
  root := Host.rootAt_withRoot s
  valid_name known := by
    rw [named] at known
    cases known
  holds known := by
    rw [named] at known
    cases known
  distinct known := by
    rw [named] at known
    cases known
  tags {tag v} := by
    refine OrderedMap.get?_insert_eq_some_iff.trans ?_
    simp [tags, named]
  spared {v n} found := by
    have found : (Store.extended { s with nextModule := s.nextModule + 1 }
      (w.host.rootVersion s.nextModule)).versions.get? v = some n := found
    obtain ⟨-, rfl⟩ | ⟨-, before⟩ := Store.get?_extended_eq_some_iff.1 found
    · exact fun c hc => by cases hc
    · refine (hs.wellFormed before).spares ?_
      rw [← Bool.not_eq_true]
      exact fun listed => absurd (numbered before _ listed) (Nat.lt_irrefl _)

/-- Preparing keeps the agreement, and may make the variables root. -/
theorem Agrees.prepares (agrees : w.Agrees) {s : Store} (prepares : w.host.Prepares w.store s) :
    Agrees { w with store := s } := by
  refine ⟨prepares.valid agrees.valid, ?_⟩
  rcases agrees.agrees with ⟨named, tags, numbered⟩ | ⟨r, rooted⟩
  · have absent : w.store.tags.get? w.host.rootTag = none := by
      rw [tags]
      rfl
    obtain mints | ⟨u, mints, made⟩ := prepares.cases_of_untagged absent
    · exact .inl ⟨named, mints.tags.trans tags, numbered.mints mints⟩
    · have root := agreesAt_withRoot (agrees.valid.mints mints) named (mints.tags.trans tags)
        (numbered.mints mints)
      exact .inr ⟨_, root.mints made⟩
  · exact .inr ⟨r, rooted.mints (prepares.mints_of_tagged rooted.root.tag)⟩

theorem AgreesAt.holds_version (agrees : w.AgreesAt r) {name : String} {x : Variable}
    {v : VersionId} (known : w.named.get? name = some x) (version : x.version = some v) :
    ∃ n, w.Holds r x v n := by
  obtain ⟨v', n, holds⟩ := agrees.holds known
  obtain rfl := Option.some.inj (version.symm.trans holds.version)
  exact ⟨n, holds⟩

theorem AgreesAt.version_ne (agrees : w.AgreesAt r) {name name' : String} {x x' : Variable}
    {v v' : VersionId} (known : w.named.get? name = some x) (version : x.version = some v)
    (known' : w.named.get? name' = some x') (version' : x'.version = some v')
    (other : name' ≠ name) : v' ≠ v := by
  rintro rfl
  exact other (agrees.distinct known' known version' version)

/-- A version is given to a name and taken from all others, and so is the tag that goes with it. -/
theorem AgreesAt.placed (agrees : w.AgreesAt r) (apart : w.host.settings.TagsApart)
    {name : String} (valid : isValidName name = true) {x : Variable} {v : VersionId} {n : Version}
    (holds : w.Holds r x v n) (ne : v ≠ r.version) {named : OrderedMap String Variable}
    (names : ∀ {name' x'}, named.get? name' = some x' ↔ name' = name ∧ x' = x ∨
      name' ≠ name ∧ x'.version ≠ some v ∧ w.named.get? name' = some x') :
    AgreesAt { w with
      store := w.store.tagged v (w.host.settings.variableTag name)
      named } r := by
  constructor
  case root =>
    exact ⟨Store.get?_tagged_eq_some_iff.2 (.inr ⟨(apart name valid).symm, ne.symm,
      agrees.root.tag⟩), agrees.root.version, agrees.root.module⟩
  case valid_name =>
    intro name' x' known
    obtain ⟨rfl, -⟩ | ⟨-, -, before⟩ := names.1 known
    · exact valid
    · exact agrees.valid_name before
  case holds =>
    intro name' x' known
    obtain ⟨u, m, holds⟩ : ∃ u m, w.Holds r x' u m := by
      obtain ⟨-, rfl⟩ | ⟨-, -, before⟩ := names.1 known
      · exact ⟨v, n, holds⟩
      · exact agrees.holds before
    exact ⟨u, m, holds.version, holds.live, holds.parent, holds.shape⟩
  case distinct =>
    intro name₁ name₂ x₁ x₂ u known₁ known₂ version₁ version₂
    obtain ⟨rfl, rfl⟩ | ⟨-, ne₁, before₁⟩ := names.1 known₁
    · obtain ⟨rfl, -⟩ | ⟨-, ne₂, -⟩ := names.1 known₂
      · rfl
      · exact absurd (version₂.trans (version₁.symm.trans holds.version)) ne₂
    · obtain ⟨-, rfl⟩ | ⟨-, -, before₂⟩ := names.1 known₂
      · exact absurd (version₁.trans (version₂.symm.trans holds.version)) ne₁
      · exact agrees.distinct before₁ before₂ version₁ version₂
  case tags =>
    intro tag u
    refine Store.get?_tagged_eq_some_iff.trans ?_
    rw [agrees.tags]
    constructor
    · rintro (⟨rfl, rfl⟩ | ⟨other, ne', root | ⟨name', x', known, rfl, version⟩⟩)
      · exact .inr ⟨name, x, names.2 (.inl ⟨rfl, rfl⟩), rfl, holds.version⟩
      · exact .inl root
      · have free : name' ≠ name := fun same => other (congrArg _ same)
        have apart : x'.version ≠ some v := fun same =>
          ne' (Option.some.inj (version.symm.trans same))
        exact .inr ⟨name', x', names.2 (.inr ⟨free, apart, known⟩), rfl, version⟩
    · rintro (⟨rfl, rfl⟩ | ⟨name', x', known, rfl, version⟩)
      · exact .inr ⟨(apart name valid).symm, ne.symm, .inl ⟨rfl, rfl⟩⟩
      · obtain ⟨rfl, rfl⟩ | ⟨other, ne', before⟩ := names.1 known
        · exact .inl ⟨rfl, Option.some.inj (version.symm.trans holds.version)⟩
        · refine .inr ⟨fun same => other (Settings.variableTag_inj same), ?_,
            .inr ⟨name', x', before, rfl, version⟩⟩
          rintro rfl
          exact ne' version
  case spared => exact agrees.spared

theorem AgreesAt.wrote (agrees : w.AgreesAt r) (hs : w.store.Valid)
    (apart : w.host.settings.TagsApart) {name : String} (valid : isValidName name = true)
    {x : Variable} {g : Pipeline} {o : PortRef}
    {id : ConnectionId} (edits : List Edit) (drawn : x.Drawn g) (output : x.output = some o)
    (beside : (w.host.rootPipeline r.module).Apart g) (fresh : g.connections.get? id = none) :
    AgreesAt { w with
      store := x.wrote w.host name w.store r.version edits
        (w.host.variablePipeline r.module g o id)
      named := w.named.insert name { x with
        version := some w.store.nextVersion
        draft := .empty } } r := by
  let n := x.versionBelow r.version edits (w.host.variablePipeline r.module g o id)
  let base : Store := { w.store with
    current := r.version
    nextConnection := w.store.nextConnection + 1 }
  have shape := Host.shaped_variablePipeline beside drawn.draws.wellFormed fresh
    (drawn.output output)
  have selected : base.Valid := (hs.mints ⟨0, 1, rfl⟩).current r.version
  -- the version is there before the name is
  have extended : AgreesAt { w with store := base.extended n } r := by
    refine agrees.extend (s := base.extended n) rfl (selected.get?_extended n) (fun found => ?_)
      (Nat.le_refl _)
    obtain ⟨-, rfl⟩ | ⟨-, before⟩ := Store.get?_extended_eq_some_iff.1 found
    · exact .inr shape.spares
    · exact .inl before
  have below : ∀ {name' x'}, w.named.get? name' = some x' →
      x'.version ≠ some w.store.nextVersion := by
    intro name' x' known version
    obtain ⟨m, holds⟩ := agrees.holds_version known version
    exact absurd (hs.bounded (Store.live_eq_ok_iff.1 holds.live).1) (Nat.lt_irrefl _)
  refine extended.placed apart valid (v := w.store.nextVersion) (n := n)
    (x := { x with version := some w.store.nextVersion, draft := .empty })
    ⟨rfl, Store.live_eq_ok_iff.2 ⟨OrderedMap.get?_insert_self .., rfl⟩, rfl, o, output, shape⟩
    (Nat.ne_of_gt (hs.bounded agrees.root.version)) ?_
  intro name' x'
  rw [OrderedMap.get?_insert_eq_some_iff]
  exact or_congr_right (and_congr_right fun _ => ⟨fun known => ⟨below known, known⟩, And.right⟩)

theorem AgreesAt.forgot (agrees : w.AgreesAt r) (hs : w.store.Valid) {name : String}
    {x : Variable} {v : VersionId} {n : Version} (known : w.named.get? name = some x)
    (version : x.version = some v) (there : w.store.versions.get? v = some n) :
    AgreesAt { w with store := w.store.without v n, named := w.named.erase name } r := by
  obtain ⟨m, holds⟩ := agrees.holds_version known version
  have ne := agrees.ne_root holds hs
  have kept : ∀ {u m}, u ≠ v → w.store.versions.get? u = some m →
      (w.store.without v n).versions.get? u = some m := fun other found =>
    Store.get?_without_eq_some_iff.2 (.inr ⟨other, found⟩)
  constructor
  case root =>
    exact ⟨Store.get?_untagged_eq_some_iff.2 ⟨ne.symm, agrees.root.tag⟩,
      kept ne.symm agrees.root.version, agrees.root.module⟩
  case valid_name =>
    intro name' x' known'
    exact agrees.valid_name (OrderedMap.get?_erase_eq_some_iff.1 known').2
  case holds =>
    intro name' x' known'
    obtain ⟨other, before⟩ := OrderedMap.get?_erase_eq_some_iff.1 known'
    obtain ⟨u, m, holds⟩ := agrees.holds before
    obtain ⟨found, unpruned⟩ := Store.live_eq_ok_iff.1 holds.live
    have apart := agrees.version_ne known version before holds.version other
    exact ⟨u, m, holds.version, Store.live_eq_ok_iff.2 ⟨kept apart found, unpruned⟩,
      holds.parent, holds.shape⟩
  case distinct =>
    intro name₁ name₂ x₁ x₂ u known₁ known₂
    exact agrees.distinct (OrderedMap.get?_erase_eq_some_iff.1 known₁).2
      (OrderedMap.get?_erase_eq_some_iff.1 known₂).2
  case tags =>
    intro tag u
    refine Store.get?_untagged_eq_some_iff.trans ?_
    rw [agrees.tags]
    constructor
    · rintro ⟨other, root | ⟨name', x', known', rfl, version'⟩⟩
      · exact .inl root
      · refine .inr ⟨name', x', OrderedMap.get?_erase_eq_some_iff.2 ⟨?_, known'⟩, rfl, version'⟩
        rintro rfl
        rw [known, Option.some.injEq] at known'
        subst known'
        exact other (Option.some.inj (version'.symm.trans version))
    · rintro (⟨rfl, rfl⟩ | ⟨name', x', known', rfl, version'⟩)
      · exact ⟨ne.symm, .inl ⟨rfl, rfl⟩⟩
      · obtain ⟨other, before⟩ := OrderedMap.get?_erase_eq_some_iff.1 known'
        exact ⟨agrees.version_ne known version before version' other,
          .inr ⟨name', x', before, rfl, version'⟩⟩
  case spared =>
    intro u m found
    obtain ⟨-, rfl⟩ | ⟨-, before⟩ := Store.get?_without_eq_some_iff.1 found
    · exact (agrees.spared there : n.pipeline.Spares r.module)
    · exact agrees.spared before

theorem AgreesAt.renamed (agrees : w.AgreesAt r) (hs : w.store.Valid)
    (apart : w.host.settings.TagsApart) {old new : String} (valid : isValidName new = true)
    {x : Variable} {v : VersionId} (known : w.named.get? old = some x)
    (version : x.version = some v) :
    AgreesAt { w with
      store := w.store.tagged v (w.host.settings.variableTag new)
      named := (w.named.erase old).insert new x } r := by
  obtain ⟨n, holds⟩ := agrees.holds_version known version
  refine agrees.placed apart valid holds (agrees.ne_root holds hs) ?_
  intro name' x'
  rw [OrderedMap.get?_insert_erase_eq_some_iff]
  refine or_congr_right (and_congr_right fun _ => and_congr_left fun known' => ?_)
  -- among the known variables the version stands for the old name
  constructor
  · exact fun other same => agrees.version_ne known version known' same other rfl
  · rintro other rfl
    rw [known, Option.some.injEq] at known'
    subst known'
    exact other version

/-- A version below the root without the module of the variables root keeps the agreement. -/
theorem AgreesAt.branched (agrees : w.AgreesAt r) (hs : w.store.Valid) {edits : List Edit}
    {p : Pipeline} (closed : p.WellFormed) (own : p.modules.contains r.module = false) :
    AgreesAt { w with store := Recipe.branched w.store edits p } r := by
  have selected := hs.current VersionId.root
  refine agrees.extend (s := Recipe.branched w.store edits p) rfl
    (fun found => selected.get?_extended _ found) (fun {v n} found => ?_) (Nat.le_refl _)
  have found : (Store.extended { w.store with current := VersionId.root }
    ⟨some VersionId.root, edits, p, ∅, false⟩).versions.get? v = some n := found
  obtain ⟨-, rfl⟩ | ⟨-, before⟩ := Store.get?_extended_eq_some_iff.1 found
  · exact .inr (closed.spares own)
  · exact .inl before

/-- No tag of a store that agrees is of a variable that is not known. -/
theorem AgreesAt.known_of_tag (agrees : w.AgreesAt r) {tag name : String} {v : VersionId}
    {s : Store} {p : Pipeline} (there : w.store.tags.get? tag = some v)
    (named : w.host.settings.variableOfTag? tag = some name) (mints : w.store.Mints s)
    (read : s.pipeline v = .ok p) (connected : p.connections.values ≠ []) :
    w.named.contains name = true := by
  rcases agrees.tags.1 there with ⟨-, rfl⟩ | ⟨name', x, known, rfl, -⟩
  · rw [mints.pipeline] at read
    obtain ⟨n, found, -, rfl⟩ := Store.pipeline_eq_ok_iff.1 read
    rw [agrees.root.version, Option.some.injEq] at found
    subst found
    exact absurd rfl connected
  · have valid := ne_empty_of_isValidName (agrees.valid_name known)
    rw [Settings.variableOfTag?_variableTag _ valid, Option.some.injEq] at named
    subst named
    exact OrderedMap.contains_eq_true_iff.2 ⟨x, known⟩

/-- What is taken up from the tags of a store that agrees is known already. -/
theorem AgreesAt.named_eq (agrees : w.AgreesAt r) {named : OrderedMap String Variable}
    (found : ∀ name x, named.get? name = some x → w.named.get? name = some x ∨
      w.named.contains name = false ∧ ∃ tag v s p, x.version = some v ∧
        w.store.tags.get? tag = some v ∧ w.host.settings.variableOfTag? tag = some name ∧
        w.host.Prepares w.store s ∧ s.pipeline v = .ok p ∧ p.connections.values ≠ [])
    (kept : ∀ name x, w.named.get? name = some x → named.get? name = some x) :
    named = w.named := by
  apply OrderedMap.ext_get?
  intro name
  cases known : w.named.get? name with
  | some x => exact kept name x known
  | none =>
    refine Option.eq_none_iff_forall_not_mem.2 fun x hx => ?_
    obtain old | ⟨unknown, tag, v, s, p, -, there, named, prepares, read, connected⟩ :=
      found name x hx
    · rw [known] at old
      cases old
    · have mints := prepares.mints_of_tagged agrees.root.tag
      rw [agrees.known_of_tag there named mints read connected] at unknown
      cases unknown

theorem Agrees.named_eq (agrees : w.Agrees) {named : OrderedMap String Variable}
    (found : ∀ name x, named.get? name = some x → w.named.get? name = some x ∨
      w.named.contains name = false ∧ ∃ tag v s p, x.version = some v ∧
        w.store.tags.get? tag = some v ∧ w.host.settings.variableOfTag? tag = some name ∧
        w.host.Prepares w.store s ∧ s.pipeline v = .ok p ∧ p.connections.values ≠ [])
    (kept : ∀ name x, w.named.get? name = some x → named.get? name = some x) :
    named = w.named := by
  obtain ⟨none, tags, -⟩ | ⟨r, rooted⟩ := agrees.agrees
  · rw [none]
    apply OrderedMap.ext_get?
    intro name
    refine Option.eq_none_iff_forall_not_mem.2 fun x hx => ?_
    obtain known | ⟨-, tag, v, -, -, -, there, -⟩ := found name x hx
    · rw [none] at known
      cases known
    · rw [tags] at there
      cases there
  · exact rooted.named_eq found kept

theorem AgreesAt.effect (agrees : w.AgreesAt r) (hs : w.store.Valid)
    (apart : w.host.settings.TagsApart) {w' : Workspace} (effect : w.Effect w') :
    w'.AgreesAt r := by
  cases effect with
  | @prepared u v prepares =>
    have mints := prepares.mints_of_tagged agrees.root.tag
    exact (agrees.mints mints).extend (s := { u with current := v }) rfl id .inl (Nat.le_refl _)
  | @wrote t u name x g o r' base valid _ prepares asked live drawn output beside fresh _ =>
    have mints := prepares.mints_of_tagged agrees.root.tag
    have agrees := agrees.mints mints
    rw [agrees.root.on_variablesRoot] at asked
    cases asked
    obtain rfl : w.host.rootVersion r.module = base :=
      Except.ok.inj (agrees.root.live.symm.trans live)
    rw [Host.rootVersion, Host.connections_join_rootPipeline] at fresh
    exact agrees.wrote (hs.mints mints) apart valid _ drawn output beside fresh
  | forgot known version _ there => exact agrees.forgot hs known version there
  | renamed valid known _ version _ => exact agrees.renamed hs apart valid known version
  | @restored u named prepares found kept =>
    have mints := prepares.mints_of_tagged agrees.root.tag
    obtain rfl := agrees.named_eq found kept
    exact agrees.mints mints
  | @compiled u edits p prepares applies minted _ =>
    have mints := prepares.mints_of_tagged agrees.root.tag
    have closed := Pipeline.wellFormed_empty.applyAll applies
    refine (agrees.mints mints).branched (hs.mints mints) closed ?_
    rw [← Bool.not_eq_true]
    exact fun listed => absurd agrees.root.module (Nat.not_lt_of_le (minted.modules _ listed).1)

/-- Whatever a call does to a workspace that agrees with its store, they agree after it. -/
theorem Agrees.effect (agrees : w.Agrees) (apart : w.host.settings.TagsApart) {w' : Workspace}
    (effect : w.Effect w') : w'.Agrees := by
  refine ⟨effect.valid agrees.valid, ?_⟩
  rcases agrees.agrees with ⟨named, tags, -⟩ | ⟨r, rooted⟩
  · have absent : ∀ {name x}, w.named.get? name ≠ some x := by
      intro name x known
      rw [named] at known
      cases known
    cases effect with
    | @prepared u v prepares =>
      rcases (agrees.prepares prepares).agrees with unrooted | ⟨r, rooted⟩
      · exact .inl unrooted
      · exact .inr ⟨r, rooted.extend (s := { u with current := v }) rfl id .inl (Nat.le_refl _)⟩
    | @wrote t u name x g o r base valid free prepares asked live drawn output beside fresh accepted =>
      have ready := agrees.prepares prepares
      have root := Host.preparing_variablesRoot (h := w.host) t ready.valid
      obtain ⟨there, ⟨n, live', keys⟩, -⟩ := Host.variablesRoot_eq_ok ready.valid asked
      rw [asked] at root
      have ready : Agrees { w with store := u } := ready.prepares root
      -- once the variables root is there, asking for it again gives the same one
      rcases ready.agrees with ⟨-, none, -⟩ | ⟨r', rooted⟩
      · rw [none] at there
        cases there
      · have same : r' = r := by
          have versions : r'.version = r.version :=
            Option.some.inj (rooted.root.tag.symm.trans there)
          have live := rooted.root.live
          rw [versions, live', Except.ok.injEq] at live
          rw [live, Host.rootVersion, Host.keys_rootPipeline] at keys
          cases r
          cases r'
          simp_all
        subst same
        exact .inr ⟨r', rooted.effect ready.valid apart (.wrote valid free (.mints (.refl u))
          rooted.root.on_variablesRoot live drawn output beside fresh accepted)⟩
    | forgot known _ _ _ => exact absurd known absent
    | renamed _ known _ _ _ => exact absurd known absent
    | @restored u named' prepares found kept =>
      obtain rfl := agrees.named_eq found kept
      exact (agrees.prepares prepares).agrees
    | @compiled u edits p prepares applies minted own =>
      have ready := agrees.prepares prepares
      rcases ready.agrees with ⟨named', tags', numbered⟩ | ⟨r, rooted⟩
      · exact .inl ⟨named', tags', numbered.extended (s := { u with current := VersionId.root })
          fun id listed => (minted.modules id listed).2⟩
      · have untagged : w.store.tags.get? w.host.rootTag = none := by
          rw [tags]
          rfl
        exact .inr ⟨r, rooted.branched ready.valid (Pipeline.wellFormed_empty.applyAll applies)
          (own r untagged rooted.root)⟩
  · exact .inr ⟨r, rooted.effect agrees.valid apart effect⟩

/-- The workspaces that calls lead to, in any order and whether they succeed or fail. -/
inductive Reaches (start : Workspace) : Workspace → Prop
  | refl : Reaches start start
  | call {w : Workspace} (reaches : Reaches start w) {c : Call} (admissible : c.Admissible) :
      Reaches start (w.after c)

theorem Effect.host {w' : Workspace} (effect : w.Effect w') :
    w'.host = w.host ∧ w'.catalogue = w.catalogue := by
  cases effect <;> exact ⟨rfl, rfl⟩

theorem Agrees.reaches (agrees : w.Agrees) (apart : w.host.settings.TagsApart) {w' : Workspace}
    (reaches : Reaches w w') : w'.Agrees ∧ w'.host = w.host ∧ w'.catalogue = w.catalogue := by
  induction reaches with
  | refl => exact ⟨agrees, rfl, rfl⟩
  | call _ admissible ih =>
    obtain ⟨agrees', host, catalogue⟩ := ih
    have effect := effect_after agrees'.valid admissible
    refine ⟨agrees'.effect (host ▸ apart) effect, effect.host.1.trans host,
      effect.host.2.trans catalogue⟩

/-- A workspace agrees with its store after every sequence of calls. -/
theorem agrees_of_reaches {host : Host} {catalogue : Catalogue} (apart : host.settings.TagsApart)
    {w : Workspace} (reaches : Reaches (new host catalogue .new) w) : w.Agrees :=
  ((agrees_new host catalogue).reaches apart reaches).1

/-- A new workspace with the usual types and operations, in a basic package of a short name. -/
def sampleStart : Workspace :=
  let s : Settings := { packages := { basic := "b" } }
  new ⟨.withBasics s, s⟩ (.withBuiltins s) .new

def sample : Workspace := sampleStart.after (.performOperation "x = 1")

theorem reaches_sample : Reaches sampleStart sample := .call .refl trivial

theorem agrees_of_reaches_renamed :
    let w := (sample.after (.renameVariable "x" "y")).after (.removeVariable "x")
    w.named.keys = ["y"] ∧ w.Agrees :=
  ⟨by decide +kernel, agrees_of_reaches (Settings.tagsApart_of_default rfl)
    ((reaches_sample.call (c := .renameVariable "x" "y") trivial).call trivial)⟩

end Workspace

end Dataflow
