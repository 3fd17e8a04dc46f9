import Dataflow.Proofs.Draft.Identifiers
import Dataflow.Proofs.Recipe.Compiling
import Dataflow.Proofs.Variable.Shape

/-! What the versions of a store have in common: the module of the variables root at most. The change
that a call makes adds one version beside the variables root, and keeps it so if that version is made
of identifiers that no version has. -/

namespace Dataflow

theorem Variable.idsOf_edits (h : Host) (x : Variable) (root : ModuleId) (o : PortRef)
    (id : ConnectionId) : Edit.idsOf (x.edits h root o id) = x.ids ⊔ (∅, {id}) := by
  rw [edits, Edit.idsOf_append, Edit.idsOf_singleton]
  rfl

namespace Host

variable {h : Host} {s t u : Store} {A B : Identifiers} {r : VariablesRoot}

/-- The module of the variables root, if that is there. -/
def shared (h : Host) (s : Store) : Identifiers := ({m | ∃ r, h.RootAt s r ∧ r.module = m}, ∅)

/-- The variables root was made by this store, or is not there. -/
def Rooted (h : Host) (s : Store) : Prop :=
  s.tags.get? h.rootTag = none ∨ ∃ r, h.RootAt s r

theorem RootAt.shared_eq (hr : h.RootAt s r) : h.shared s = ({r.module}, ∅) := by
  refine Prod.ext (Set.ext fun m => ⟨?_, ?_⟩) rfl
  · rintro ⟨r', hr', rfl⟩
    exact congrArg VariablesRoot.module (hr'.unique hr)
  · rintro rfl
    exact ⟨r, hr, rfl⟩

theorem shared_of_untagged (absent : s.tags.get? h.rootTag = none) : h.shared s = ⊥ := by
  refine Prod.ext (Set.eq_empty_of_forall_notMem ?_) rfl
  rintro m ⟨r, hr, -⟩
  cases absent.symm.trans hr.tag

theorem Rooted.shared_eq (rooted : h.Rooted s)
    (tag : t.tags.get? h.rootTag = s.tags.get? h.rootTag)
    (kept : ∀ r, h.RootAt s r → h.RootAt t r) : h.shared t = h.shared s := by
  rcases rooted with absent | ⟨r, hr⟩
  · rw [shared_of_untagged absent, shared_of_untagged (tag.trans absent)]
  · rw [hr.shared_eq, (kept r hr).shared_eq]

theorem shared_le_issued (h : Host) (s : Store) : h.shared s ≤ s.issued := by
  refine ⟨?_, Set.empty_subset _⟩
  rintro m ⟨r, hr, rfl⟩
  exact hr.module

/-- The versions of a store were made of identifiers that it gave out, and no two of them have more
in common than the module of the variables root. -/
structure Separate (h : Host) (s : Store) : Prop where
  issued : ∀ {v n}, s.versions.get? v = some n → n.pipeline.ids ≤ s.issued
  apart : ∀ {v w n m}, v ≠ w → s.versions.get? v = some n → s.versions.get? w = some m →
    n.pipeline.ids ⊓ m.pipeline.ids ≤ h.shared s

/-- Identifiers that a store gave out, but that no version has. -/
structure Unused (h : Host) (s : Store) (A : Identifiers) : Prop where
  issued : A ≤ s.issued
  apart : ∀ {v n}, s.versions.get? v = some n → A ⊓ n.pipeline.ids ≤ h.shared s

theorem Unused.mono (unused : h.Unused s B) (le : A ≤ B) : h.Unused s A :=
  ⟨le.trans unused.issued, fun found => (inf_le_inf_right _ le).trans (unused.apart found)⟩

theorem Unused.sup (first : h.Unused s A) (second : h.Unused s B) : h.Unused s (A ⊔ B) where
  issued := sup_le first.issued second.issued
  apart found := by
    rw [inf_sup_right]
    exact sup_le (first.apart found) (second.apart found)

theorem unused_bot (h : Host) (s : Store) : h.Unused s ⊥ :=
  ⟨bot_le, fun _ => inf_le_left.trans bot_le⟩

/-- A version that does not have the module of the variables root either. -/
def Solitary (h : Host) (s : Store) (v : VersionId) : Prop :=
  ∃ n, s.versions.get? v = some n ∧ Disjoint n.pipeline.ids (h.shared s)

/-- Beside the variables root there is one version more at most, made of identifiers of `A` and of new
ones. -/
structure Grows (h : Host) (A : Identifiers) (s t : Store) : Prop where
  precedes : s.Precedes t
  shared : h.shared s ≤ h.shared t
  shared_le : h.shared t ≤ h.shared s ⊔ s.given t
  kept : ∀ {v n}, s.versions.get? v = some n →
    ∃ m, t.versions.get? v = some m ∧ m.pipeline = n.pipeline
  made : ∃ w, ∀ {v m}, t.versions.get? v = some m →
    (∃ n, s.versions.get? v = some n ∧ m.pipeline = n.pipeline) ∨
      m.pipeline.ids ≤ h.shared t ∨ v = w ∧ m.pipeline.ids ≤ h.shared t ⊔ A ⊔ s.given t

theorem Separate.disjoint_given (separate : h.Separate s) (t : Store) {v : VersionId} {n : Version}
    (found : s.versions.get? v = some n) : Disjoint n.pipeline.ids (s.given t) :=
  (s.disjoint_issued_given t).mono_left (separate.issued found)

namespace Grows

theorem new_apart (grows : h.Grows A s t) (separate : h.Separate s) (unused : h.Unused s A)
    {v : VersionId} {n : Version} (found : s.versions.get? v = some n) :
    (h.shared t ⊔ A ⊔ s.given t) ⊓ n.pipeline.ids ≤ h.shared t := by
  rw [inf_sup_right, inf_sup_right]
  refine sup_le (sup_le inf_le_left ((unused.apart found).trans grows.shared)) ?_
  exact (separate.disjoint_given t found).symm.le_bot.trans bot_le

theorem separate (grows : h.Grows A s t) (separate : h.Separate s) (unused : h.Unused s A) :
    h.Separate t := by
  obtain ⟨w, made⟩ := grows.made
  have old := grows.precedes.issued
  constructor
  case issued =>
    intro v m found
    obtain ⟨n, before, same⟩ | small | ⟨-, new⟩ := made found
    · rw [same]
      exact (separate.issued before).trans old
    · exact small.trans (h.shared_le_issued t)
    · refine new.trans (sup_le (sup_le (h.shared_le_issued t) ?_) (s.given_le_issued t))
      exact unused.issued.trans old
  case apart =>
    intro v v' m m' other found found'
    have beside : ∀ {v n k}, t.versions.get? v = some k →
        k.pipeline.ids ≤ h.shared t ⊔ A ⊔ s.given t → ∀ {v'}, s.versions.get? v' = some n →
          k.pipeline.ids ⊓ n.pipeline.ids ≤ h.shared t := fun _ new _ before =>
      (inf_le_inf_right _ new).trans (grows.new_apart separate unused before)
    obtain ⟨n, before, same⟩ | small | ⟨rfl, new⟩ := made found
    · obtain ⟨n', before', same'⟩ | small' | ⟨rfl, new'⟩ := made found'
      · rw [same, same']
        exact (separate.apart other before before').trans grows.shared
      · exact inf_le_right.trans small'
      · rw [same, inf_comm]
        exact beside found' new' before
    · exact inf_le_left.trans small
    · obtain ⟨n', before', same'⟩ | small' | ⟨rfl, -⟩ := made found'
      · rw [same']
        exact beside found new before'
      · exact inf_le_right.trans small'
      · exact absurd rfl other

theorem unused (grows : h.Grows A s t) (unused : h.Unused s B) (apart : Disjoint B A) :
    h.Unused t B := by
  obtain ⟨w, made⟩ := grows.made
  refine ⟨unused.issued.trans grows.precedes.issued, fun {v m} found => ?_⟩
  obtain ⟨n, before, same⟩ | small | ⟨-, new⟩ := made found
  · rw [same]
    exact (unused.apart before).trans grows.shared
  · exact inf_le_right.trans small
  · have later := (s.disjoint_issued_given t).mono_left unused.issued
    refine (inf_le_inf_left B new).trans ?_
    rw [inf_sup_left, inf_sup_left, apart.eq_bot, later.eq_bot]
    exact sup_le (sup_le inf_le_right bot_le) bot_le

theorem solitary (grows : h.Grows A s t) (separate : h.Separate s) {v : VersionId}
    (solitary : h.Solitary s v) : h.Solitary t v := by
  obtain ⟨n, found, alone⟩ := solitary
  obtain ⟨m, found', same⟩ := grows.kept found
  refine ⟨m, found', ?_⟩
  rw [same]
  exact (alone.sup_right (separate.disjoint_given t found)).mono_right grows.shared_le

theorem refl (h : Host) (A : Identifiers) (s : Store) : h.Grows A s s where
  precedes := .refl s
  shared := le_rfl
  shared_le := le_sup_left
  kept found := ⟨_, found, rfl⟩
  made := ⟨0, fun found => .inl ⟨_, found, rfl⟩⟩

theorem mono (grows : h.Grows A s t) (le : A ≤ B) : h.Grows B s t := by
  obtain ⟨w, made⟩ := grows.made
  refine ⟨grows.precedes, grows.shared, grows.shared_le, grows.kept, w, fun found => ?_⟩
  refine (made found).imp_right (.imp_right (.imp_right fun new => new.trans ?_))
  exact sup_le_sup_right (sup_le_sup_left le _) _

theorem of_same (precedes : s.Precedes t) (shared : h.shared t = h.shared s)
    (same : ∀ v, (t.versions.get? v).map (·.pipeline) = (s.versions.get? v).map (·.pipeline)) :
    h.Grows A s t where
  precedes := precedes
  shared := shared.ge
  shared_le := shared.le.trans le_sup_left
  kept {v n} found := by
    have same := same v
    rw [found, Option.map_some, Option.map_eq_some_iff] at same
    exact same
  made := ⟨0, fun {v m} found => by
    have same := same v
    rw [found, Option.map_some, eq_comm, Option.map_eq_some_iff] at same
    obtain ⟨n, before, same⟩ := same
    exact .inl ⟨n, before, same.symm⟩⟩

end Grows

theorem Prepares.made (prepares : h.Prepares s t) (rooted : h.Rooted s) {v : VersionId} {m : Version}
    (found : t.versions.get? v = some m) :
    s.versions.get? v = some m ∨ m.pipeline.ids ≤ h.shared t := by
  rcases rooted with absent | ⟨r, hr⟩
  · obtain mints | ⟨u, mints, made⟩ := prepares.cases_of_untagged absent
    · rw [mints.versions] at found
      exact .inl found
    · have root := (rootAt_withRoot (h := h) u).mints made
      rw [made.versions] at found
      have found : (Store.extended { u with nextModule := u.nextModule + 1 }
        (h.rootVersion u.nextModule)).versions.get? v = some m := found
      obtain ⟨-, rfl⟩ | ⟨-, before⟩ := Store.get?_extended_eq_some_iff.1 found
      · exact .inr ((h.ids_rootPipeline _).trans root.shared_eq.symm).le
      · exact .inl (mints.versions ▸ before)
  · rw [(prepares.mints_of_tagged hr.tag).versions] at found
    exact .inl found

theorem Prepares.shared_le (prepares : h.Prepares s t) (rooted : h.Rooted s) :
    h.shared s ≤ h.shared t ∧ h.shared t ≤ h.shared s ⊔ s.given t ∧ h.Rooted t := by
  rcases rooted with absent | ⟨r, hr⟩
  · rw [shared_of_untagged absent]
    refine ⟨bot_le, ?_⟩
    obtain mints | ⟨u, mints, made⟩ := prepares.cases_of_untagged absent
    · have absent : t.tags.get? h.rootTag = none := mints.tags ▸ absent
      rw [shared_of_untagged absent]
      exact ⟨bot_le, .inl absent⟩
    · have root := (rootAt_withRoot (h := h) u).mints made
      rw [root.shared_eq]
      refine ⟨le_sup_of_le_right ⟨?_, Set.empty_subset _⟩, .inr ⟨_, root⟩⟩
      rintro m rfl
      exact ⟨mints.precedes.module, root.module⟩
  · have hr' := hr.mints (prepares.mints_of_tagged hr.tag)
    rw [hr.shared_eq, hr'.shared_eq]
    exact ⟨le_rfl, le_sup_left, .inr ⟨r, hr'⟩⟩

/-- Preparing a store makes no version of identifiers that were given out. -/
theorem Prepares.grows (prepares : h.Prepares s t) (hs : s.Valid) (rooted : h.Rooted s) :
    h.Grows A s t where
  precedes := prepares.precedes
  shared := (prepares.shared_le rooted).1
  shared_le := (prepares.shared_le rooted).2.1
  kept found := ⟨_, prepares.kept hs found, rfl⟩
  made := ⟨0, fun found =>
    (prepares.made rooted found).imp (fun before => ⟨_, before, rfl⟩) .inl⟩

theorem Prepares.unused (prepares : h.Prepares s t) (rooted : h.Rooted s) (separate : h.Separate s)
    (new : A ≤ s.given t) : h.Unused t A where
  issued := new.trans (s.given_le_issued t)
  apart {v m} found := by
    obtain before | small := prepares.made rooted found
    · exact ((separate.disjoint_given t before).symm.mono_left new).le_bot.trans bot_le
    · exact inf_le_right.trans small

theorem Rooted.shared_current (rooted : h.Rooted s) (v : VersionId) :
    h.shared { s with current := v } = h.shared s :=
  rooted.shared_eq rfl fun _ hr => ⟨hr.tag, hr.version, hr.module⟩

theorem Prepares.grows_current (prepares : h.Prepares s t) (hs : s.Valid) (rooted : h.Rooted s)
    (v : VersionId) : h.Grows A s { t with current := v } := by
  have grows : h.Grows A s t := prepares.grows hs rooted
  have same := (prepares.shared_le rooted).2.2.shared_current v
  obtain ⟨w, made⟩ := grows.made
  refine ⟨⟨grows.precedes.module, grows.precedes.connection⟩, grows.shared.trans same.ge,
    same.le.trans grows.shared_le, grows.kept, w, fun found => ?_⟩
  rw [same]
  exact made found

/-- A version may be added after preparing. -/
theorem Prepares.grows_extended (prepares : h.Prepares s u) (hs : s.Valid) (rooted : h.Rooted s)
    (later : u.Precedes t) {n : Version} (versions : t.versions = (u.extended n).versions)
    (shared : h.shared t = h.shared u) (new : n.pipeline.ids ≤ h.shared u ⊔ A ⊔ s.given t) :
    h.Grows A s t := by
  have before : h.Grows A s u := prepares.grows hs rooted
  refine ⟨before.precedes.trans later, before.shared.trans shared.ge, ?_, fun found => ?_,
    u.nextVersion, fun {v m} found => ?_⟩
  · rw [shared]
    exact before.shared_le.trans (sup_le_sup_left (later.given_later s) _)
  · rw [versions]
    exact ⟨_, (prepares.valid hs).get?_extended n (prepares.kept hs found), rfl⟩
  · rw [versions, Store.get?_extended_eq_some_iff] at found
    rw [shared]
    obtain ⟨same, rfl⟩ | ⟨-, before⟩ := found
    · exact .inr (.inr ⟨same, new⟩)
    · exact (prepares.made rooted before).imp (fun old => ⟨m, old, rfl⟩) .inl

theorem Rooted.rootAt_of_asked (rooted : h.Rooted s) (hs : s.Valid)
    (asked : h.variablesRoot.on s = (.ok r, u)) : h.RootAt u r := by
  rcases rooted with absent | ⟨r', hr⟩
  · obtain ⟨there, -, rfl | ⟨-, rfl, rfl⟩⟩ := variablesRoot_eq_ok hs asked
    · cases absent.symm.trans there
    · exact rootAt_withRoot s
  · rw [hr.on_variablesRoot] at asked
    cases asked
    exact hr

theorem RootAt.wrote (hr : h.RootAt s r) (hs : s.Valid) {x : Variable} {name : String}
    {edits : List Edit} {p : Pipeline} (other : h.rootTag ≠ h.settings.variableTag name) :
    h.RootAt (x.wrote h name s r.version edits p) r where
  tag := Store.get?_tagged_eq_some_iff.2 (.inr ⟨other, Nat.ne_of_lt (hs.tag_lt hr.tag), hr.tag⟩)
  version := hs.get?_extended (x.versionBelow r.version edits p) hr.version
  module := hr.module

/-- Writing a variable makes a version of the variable's identifiers, or none if it fails. -/
theorem grows_materialize (hs : s.Valid) (rooted : h.Rooted s) {name : String}
    (other : h.rootTag ≠ h.settings.variableTag name) (x : Variable) :
    ∃ t, (∃ e, (x.materialize h name).on s = (.error e, t) ∧ h.Grows ⊥ s t) ∨
      ∃ y, (x.materialize h name).on s = (.ok y, t) ∧ h.Grows x.ids s t := by
  obtain ⟨e, run⟩ | ⟨o, r, u, base, -, -, asked, live, outcome⟩ :=
    Variable.materialize_cases h name hs x
  · exact ⟨s, .inl ⟨e, run, .refl h ⊥ s⟩⟩
  · have prepares := preparing_variablesRoot.prepares hs asked
    obtain ⟨e, fault, -, run⟩ | ⟨p, applies, run⟩ := outcome
    · exact ⟨_, .inl ⟨e, run,
        (prepares.trans (.mints ⟨0, 1, rfl⟩)).grows_current hs rooted r.version⟩⟩
    · have root := rooted.rootAt_of_asked hs asked
      have hu := prepares.valid hs
      obtain rfl : h.rootVersion r.module = base := Except.ok.inj (root.live.symm.trans live)
      set edits := x.edits h r.module o u.nextConnection
      set t := x.wrote h name u r.version edits p
      have later : u.Precedes t := ⟨le_rfl, Nat.le_succ _⟩
      have shared : h.shared t = h.shared u := by
        rw [root.shared_eq, (root.wrote hu other).shared_eq]
      refine ⟨t, .inr ⟨_, run, prepares.grows_extended hs rooted later
        (n := x.versionBelow r.version edits p) rfl shared ?_⟩⟩
      have feed : (∅, {u.nextConnection}) ≤ s.given t := by
        refine ⟨Set.empty_subset _, ?_⟩
        rintro id rfl
        exact ⟨prepares.precedes.connection, Nat.lt_succ_self _⟩
      have here : (h.rootVersion r.module).pipeline.ids ≤ h.shared u := by
        rw [root.shared_eq]
        exact (h.ids_rootPipeline r.module).le
      have made : p.ids = _ := Pipeline.ids_applyAll applies
      show p.ids ≤ _
      rw [made, Variable.idsOf_edits, ← sup_assoc]
      exact sup_le_sup (sup_le_sup here le_rfl) feed

/-- Compiling a recipe makes a version of new identifiers, without the module of the variables root. -/
theorem grows_compile (hs : s.Valid) (rooted : h.Rooted s) (r : Recipe) :
    h.Grows A s ((r.compile h).on s).2 ∧
      ∀ v t, (r.compile h).on s = (.ok v, t) → h.Solitary t v := by
  obtain ⟨u, v, prepares, ⟨e, run⟩ | ⟨d, p, -, drafted, applies, run⟩⟩ :=
    Recipe.compile_cases (h := h) hs r
  · rw [run]
    exact ⟨prepares.grows_current hs rooted v, fun v t failed => by cases failed⟩
  · obtain ⟨g, draws, minted, own⟩ := Recipe.drawn_draft hs drafted
    obtain rfl : p = g := Except.ok.inj (applies.symm.trans draws.edits)
    have hu := (prepares.valid hs).current VersionId.root
    have rooted' := (prepares.shared_le rooted).2.2
    rw [run]
    set n : Version := ⟨some VersionId.root, d.edits, p, ∅, false⟩
    set t := Recipe.branched u d.edits p
    have later : u.Precedes t := ⟨le_rfl, le_rfl⟩
    have shared : h.shared t = h.shared u := rooted'.shared_eq rfl fun r hr =>
      ⟨hr.tag, hu.get?_extended n hr.version, hr.module⟩
    constructor
    · exact prepares.grows_extended hs rooted later (n := n) rfl shared
        (minted.ids_le.trans le_sup_right)
    · rintro v t' ⟨⟩
      refine ⟨n, OrderedMap.get?_insert_self .., ?_⟩
      rw [shared]
      -- a root made on the way is not drawn, and one that was there is older than what is drawn
      rcases rooted with absent | ⟨root, hr⟩
      · rcases rooted' with absent' | ⟨root, hr⟩
        · rw [shared_of_untagged absent']
          exact disjoint_bot_right
        · rw [hr.shared_eq]
          refine Prod.disjoint_iff.2 ⟨Set.disjoint_singleton_right.2 fun listed => ?_, ?_⟩
          · exact absurd (own root absent hr) (ne_false_of_eq_true listed)
          · exact disjoint_bot_right
      · rw [(hr.mints (prepares.mints_of_tagged hr.tag)).shared_eq, ← hr.shared_eq]
        exact ((s.disjoint_issued_given u).mono (h.shared_le_issued s) minted.ids_le).symm

end Host

end Dataflow
