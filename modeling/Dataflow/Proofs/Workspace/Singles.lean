import Dataflow.Proofs.Recipe.Rejection

/-! Versions of a single module. A variable has one besides that of its variables root, so only a
variables root or a compiled recipe can be such a version. Each has a module that is new when it is
made; so no two of them have the same module, and what is drawn is never the module of one. -/

namespace Dataflow

namespace Store

/-- The version consists of the module, and of connections from it to itself. -/
def Single (s : Store) (v : VersionId) (m : ModuleId) : Prop :=
  ∃ n, s.versions.get? v = some n ∧ n.pipeline.modules.keys = [m]

/-- Versions of a single module are as they were made. -/
structure Settled (s : Store) : Prop where
  below : ∀ {v m}, s.Single v m → m < s.nextModule
  unique : ∀ {v v' m}, s.Single v m → s.Single v' m → v = v'

/-- From one state of a store to another, only new modules became versions of a single module. -/
structure Settles (s t : Store) : Prop where
  settled : t.Settled
  precedes : s.Precedes t
  fresh : ∀ {v m}, t.Single v m → s.Single v m ∨ s.nextModule ≤ m

variable {s t u : Store}

theorem settled_new : new.Settled := by
  have none : ∀ {v m}, ¬ new.Single v m := by
    rintro v m ⟨n, found, keys⟩
    obtain ⟨root, there, -, empty, -⟩ := valid_new.root
    obtain rfl | other := eq_or_ne v VersionId.root
    · obtain rfl : root = n := Option.some.inj (there.symm.trans found)
      rw [empty] at keys
      cases keys
    · rw [new, OrderedMap.get?_insert_of_ne other] at found
      cases found
  exact ⟨fun single => absurd single none, fun single => absurd single none⟩

/-- Where no version of a single module is new, all stay settled. -/
theorem Settled.settles (settled : s.Settled) (later : s.Precedes t)
    (old : ∀ {v m}, t.Single v m → s.Single v m) : s.Settles t where
  settled := ⟨fun single => Nat.lt_of_lt_of_le (settled.below (old single)) later.module,
    fun single single' => settled.unique (old single) (old single')⟩
  precedes := later
  fresh single := .inl (old single)

theorem Settles.trans (first : s.Settles t) (rest : t.Settles u) : s.Settles u where
  settled := rest.settled
  precedes := first.precedes.trans rest.precedes
  fresh single := by
    obtain old | new := rest.fresh single
    · exact first.fresh old
    · exact .inr (Nat.le_trans first.precedes.module new)

/-- A version may be added if it has several modules, or one that is new. -/
theorem Settles.extended (settles : s.Settles u) {n : Version}
    (versions : ∀ v, t.versions.get? v = if v = u.nextVersion then some n else u.versions.get? v)
    (later : u.Precedes t)
    (new : ∀ m, n.pipeline.modules.keys = [m] →
      s.nextModule ≤ m ∧ m < t.nextModule ∧ ∀ v, ¬ u.Single v m) : s.Settles t := by
  have cases : ∀ {v m}, t.Single v m → u.Single v m ∨
      v = u.nextVersion ∧ n.pipeline.modules.keys = [m] := by
    rintro v m ⟨k, found, keys⟩
    rw [versions] at found
    split at found
    · next same =>
      cases found
      exact .inr ⟨same, keys⟩
    · exact .inl ⟨k, found, keys⟩
  refine ⟨⟨fun single => ?_, fun {v v' m} single single' => ?_⟩, settles.precedes.trans later,
    fun single => ?_⟩
  · obtain old | ⟨-, keys⟩ := cases single
    · exact Nat.lt_of_lt_of_le (settles.settled.below old) later.module
    · exact (new _ keys).2.1
  · obtain old | ⟨same, keys⟩ := cases single <;> obtain old' | ⟨same', keys'⟩ := cases single'
    · exact settles.settled.unique old old'
    · exact absurd old ((new m keys').2.2 v)
    · exact absurd old' ((new m keys).2.2 v')
    · exact same.trans same'.symm
  · obtain old | ⟨-, keys⟩ := cases single
    · exact settles.fresh old
    · exact .inr (new _ keys).1

end Store

namespace Host

variable {h : Host} {s t : Store}

/-- Preparing makes no version of a single module but the variables root. -/
theorem Prepares.single (prepares : h.Prepares s t) {v : VersionId} {m : ModuleId}
    (single : t.Single v m) :
    s.Single v m ∨ s.tags.get? h.rootTag = none ∧ h.RootAt t ⟨v, m⟩ ∧ s.nextModule ≤ m := by
  have of_mints : ∀ {s t : Store}, s.Mints t → t.Single v m → s.Single v m := by
    rintro s t mints ⟨n, found, keys⟩
    rw [mints.versions] at found
    exact ⟨n, found, keys⟩
  cases tagged : s.tags.get? h.rootTag with
  | some root => exact .inl (of_mints (prepares.mints_of_tagged tagged) single)
  | none =>
    obtain mints | ⟨u, mints, made⟩ := prepares.cases_of_untagged tagged
    · exact .inl (of_mints mints single)
    · have root := (rootAt_withRoot (h := h) u).mints made
      obtain ⟨n, found, keys⟩ := of_mints made single
      have found : (Store.extended { u with nextModule := u.nextModule + 1 }
        (h.rootVersion u.nextModule)).versions.get? v = some n := found
      obtain ⟨same, rfl⟩ | ⟨-, before⟩ := Store.get?_extended_eq_some_iff.1 found
      · rw [rootVersion, keys_rootPipeline, List.cons.injEq] at keys
        obtain ⟨rfl, -⟩ := keys
        rw [same]
        exact .inr ⟨rfl, root, mints.precedes.module⟩
      · exact .inl (of_mints mints ⟨n, before, keys⟩)

theorem Prepares.settles (prepares : h.Prepares s t) (settled : s.Settled) : s.Settles t := by
  refine ⟨⟨fun single => ?_, fun {v v' m} single single' => ?_⟩, prepares.precedes,
    fun single => (prepares.single single).imp_right fun made => made.2.2⟩
  · obtain old | ⟨-, root, -⟩ := prepares.single single
    · exact Nat.lt_of_lt_of_le (settled.below old) prepares.precedes.module
    · exact root.module
  · obtain old | ⟨-, root, new⟩ := prepares.single single <;>
      obtain old' | ⟨-, root', new'⟩ := prepares.single single'
    · exact settled.unique old old'
    · exact absurd (settled.below old) (Nat.not_lt_of_le new')
    · exact absurd (settled.below old') (Nat.not_lt_of_le new)
    · exact congrArg VariablesRoot.version (root.unique root')

end Host

namespace Workspace

variable {w w' : Workspace}

/-- Whatever a call does, versions of a single module are made of new modules. -/
theorem Effect.settles (effect : w.Effect w') (hs : w.store.Valid) (settled : w.store.Settled) :
    w.store.Settles w'.store := by
  cases effect with
  | prepared v prepares =>
    have settles := prepares.settles settled
    exact settles.trans (settles.settled.settles ⟨Nat.le_refl _, Nat.le_refl _⟩ id)
  | @wrote t u name x g o r base _ _ prepares asked live drawn output apart =>
    have rooted := Host.preparing_variablesRoot.prepares (prepares.valid hs) asked
    refine ((prepares.trans rooted).settles settled).extended (fun v => Store.get?_extended ..)
      ⟨Nat.le_refl _, Nat.le_succ _⟩ fun m keys => ?_
    -- the module of the variables root and that of the output are two
    obtain ⟨-, ⟨n, live', single⟩, -⟩ := Host.variablesRoot_eq_ok (prepares.valid hs) asked
    obtain rfl : base = n := Except.ok.inj (live.symm.trans live')
    have root : base.pipeline.modules.contains r.module = true := by
      rw [OrderedMap.contains_iff, single]
      exact List.mem_singleton.2 rfl
    have own := drawn.output output
    have other : r.module ≠ o.module := by
      intro same
      rw [apart.modules _ (same ▸ root)] at own
      cases own
    have two := OrderedMap.keys_ne_singleton (m := (base.pipeline.join g).modules)
      (by simp [root]) (by simp [own]) other m
    exact absurd keys two
  | @forgot name x v n _ _ _ there =>
    refine settled.settles ⟨Nat.le_refl _, Nat.le_refl _⟩ fun {v' m} single => ?_
    obtain ⟨k, found, keys⟩ := single
    obtain ⟨rfl, rfl⟩ | ⟨-, before⟩ := Store.get?_without_eq_some_iff.1 found
    · exact ⟨n, there, keys⟩
    · exact ⟨k, before, keys⟩
  | renamed => exact settled.settles ⟨Nat.le_refl _, Nat.le_refl _⟩ id
  | restored prepares => exact prepares.settles settled
  | @compiled u edits p prepares applies minted own =>
    refine (prepares.settles settled).extended (fun v => Store.get?_extended ..)
      ⟨Nat.le_refl _, Nat.le_refl _⟩ fun m keys => ?_
    have listed : p.modules.contains m = true := by
      rw [OrderedMap.contains_iff, keys]
      exact List.mem_singleton.2 rfl
    obtain ⟨new, below⟩ := minted.modules m listed
    refine ⟨new, below, fun v single => ?_⟩
    obtain old | ⟨untagged, root, -⟩ := prepares.single single
    · exact absurd (settled.below old) (Nat.not_lt_of_le new)
    · exact absurd (own _ untagged root) (ne_false_of_eq_true listed)

theorem settles_of_reaches (hs : w.store.Valid) (settled : w.store.Settled)
    (reaches : Reaches w w') : w.store.Settles w'.store := by
  induction reaches with
  | refl => exact settled.settles (.refl _) id
  | call reaches admissible ih =>
    have valid := (valid_of_reaches hs reaches).1
    exact ih.trans ((effect_after valid admissible).settles valid ih.settled)

end Workspace

end Dataflow
