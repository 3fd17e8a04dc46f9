import Dataflow.Proofs.Store.Requests

/-! The history of a store. A version is never changed once it was committed, except that it may be
annotated or pruned; and it can be made again at any time from the empty pipeline by the edits of the
versions above it, whether these were pruned or not. -/

namespace Dataflow

/-- The same version, which may have been annotated or pruned since. -/
structure Version.Ages (n m : Version) : Prop where
  parent : m.parent = n.parent
  action : m.action = n.action
  pipeline : m.pipeline = n.pipeline
  pruned : n.pruned = true → m.pruned = true

theorem Version.Ages.refl (n : Version) : n.Ages n := ⟨rfl, rfl, rfl, id⟩

theorem Version.Ages.trans {n m k : Version} (first : n.Ages m) (rest : m.Ages k) : n.Ages k where
  parent := rest.parent.trans first.parent
  action := rest.action.trans first.action
  pipeline := rest.pipeline.trans first.pipeline
  pruned := rest.pruned ∘ first.pruned

namespace Store

variable {s t : Store} {r : Request} {v : VersionId} {n : Version}

/-- Every version of the first store is a version of the second one. -/
def Ages (s t : Store) : Prop :=
  ∀ v n, s.versions.get? v = some n → ∃ m, t.versions.get? v = some m ∧ n.Ages m

theorem Ages.refl (s : Store) : s.Ages s := fun _ n found => ⟨n, found, .refl n⟩

theorem Ages.trans {u : Store} (first : s.Ages t) (rest : t.Ages u) : s.Ages u := by
  intro v n found
  obtain ⟨m, there, ages⟩ := first v n found
  obtain ⟨k, last, ages'⟩ := rest v m there
  exact ⟨k, last, ages.trans ages'⟩

/-- A request leaves the versions alone, puts an older version of one in its place, or commits one. -/
theorem Step.versions_cases (step : s.Step r t) :
    (∀ v, t.versions.get? v = s.versions.get? v) ∨
    (∃ v n m, s.versions.get? v = some n ∧ n.Ages m ∧
      ∀ w, t.versions.get? w = if w = v then some m else s.versions.get? w) ∨
    ∃ base edits p, s.live s.current = .ok base ∧ base.pipeline.applyAll edits = .ok p ∧
      t = s.extended ⟨some s.current, edits, p, ∅, false⟩ := by
  cases step with
  | minted mints => exact .inl fun v => by rw [mints.versions]
  | selected => exact .inl fun _ => rfl
  | @committed edits base p live applies => exact .inr (.inr ⟨base, edits, p, live, applies, rfl⟩)
  | tagged => exact .inl fun _ => rfl
  | @annotated v n live key value =>
    have ages : n.Ages { n with annotations := n.annotations.insert key value } :=
      ⟨rfl, rfl, rfl, id⟩
    exact .inr (.inl ⟨v, n, _, (live_eq_ok_iff.1 live).1, ages, s.get?_annotated v n key value⟩)
  | @pruned v n _ there =>
    have ages : n.Ages { n with pruned := true } := ⟨rfl, rfl, rfl, fun _ => rfl⟩
    exact .inr (.inl ⟨v, n, _, there, ages, s.get?_without v n⟩)

theorem Step.ages (step : s.Step r t) (hs : s.Valid) : s.Ages t := by
  intro v n found
  obtain same | ⟨w, k, m, there, ages, versions⟩ | ⟨base, edits, p, -, -, rfl⟩ :=
    step.versions_cases
  · exact ⟨n, (same v).trans found, .refl n⟩
  · rw [versions]
    split
    · next here =>
      obtain rfl : n = k := Option.some.inj (found.symm.trans (here ▸ there))
      exact ⟨m, rfl, ages⟩
    · exact ⟨n, found, .refl n⟩
  · exact ⟨n, hs.get?_extended _ found, .refl n⟩

theorem Step.version_cases (step : s.Step r t) (found : t.versions.get? v = some n) :
    (∃ m, s.versions.get? v = some m ∧ m.Ages n) ∨
    v = s.nextVersion ∧ n.parent = some s.current ∧
      ∃ base, s.live s.current = .ok base ∧ base.pipeline.applyAll n.action = .ok n.pipeline := by
  obtain same | ⟨w, k, m, there, ages, versions⟩ | ⟨base, edits, p, live, applies, rfl⟩ :=
    step.versions_cases
  · exact .inl ⟨n, (same v).symm.trans found, .refl n⟩
  · rw [versions] at found
    split at found
    · next here =>
      cases found
      exact .inl ⟨k, here ▸ there, ages⟩
    · exact .inl ⟨n, found, .refl n⟩
  · obtain ⟨rfl, rfl⟩ | ⟨-, before⟩ := get?_extended_eq_some_iff.1 found
    · exact .inr ⟨rfl, rfl, base, live, applies⟩
    · exact .inl ⟨n, before, .refl n⟩

theorem ages_afterAll (hs : s.Valid) (rs : List Request) : s.Ages (s.afterAll rs) := by
  induction rs generalizing s with
  | nil => exact .refl s
  | cons r rs ih =>
    have step := s.step_after r
    exact (step.ages hs).trans (ih (hs.step step))

/-- Every version but the root version was made by its edits from an earlier one, its parent. -/
def Derived (s : Store) : Prop :=
  ∀ v n, s.versions.get? v = some n → v ≠ VersionId.root →
    ∃ u m, n.parent = some u ∧ u < v ∧ s.versions.get? u = some m ∧
      m.pipeline.applyAll n.action = .ok n.pipeline

theorem derived_new : new.Derived := by
  intro v n found ne
  exact absurd (get?_new_eq_some_iff.1 found).1 ne

theorem Derived.step (derived : s.Derived) (hs : s.Valid) (step : s.Step r t) : t.Derived := by
  intro v n found ne
  obtain ⟨k, before, ages⟩ | ⟨rfl, parent, base, live, applies⟩ := step.version_cases found
  · obtain ⟨u, m, parent, lt, there, applies⟩ := derived v k before ne
    obtain ⟨m', there', ages'⟩ := step.ages hs u m there
    refine ⟨u, m', ages.parent.trans parent, lt, there', ?_⟩
    rw [ages'.pipeline, ages.action, ages.pipeline, applies]
  · have there := (live_eq_ok_iff.1 live).1
    obtain ⟨m', there', ages'⟩ := step.ages hs _ base there
    refine ⟨s.current, m', parent, hs.bounded there, there', ?_⟩
    rw [ages'.pipeline, applies]

theorem derived_afterAll (rs : List Request) : (new.afterAll rs).Derived :=
  (afterAll_induction (P := fun s => s.Valid ∧ s.Derived)
    (fun s r both => ⟨both.1.step (s.step_after r), both.2.step both.1 (s.step_after r)⟩)
    ⟨valid_new, derived_new⟩ rs).2

/-- The edits of a version and of all versions above it, those of the oldest version first. -/
inductive Lineage (s : Store) : VersionId → List Edit → Prop
  | root : Lineage s VersionId.root []
  | child {v u : VersionId} {n : Version} {edits : List Edit} (found : s.versions.get? v = some n)
      (parent : n.parent = some u) (above : Lineage s u edits) : Lineage s v (edits ++ n.action)

theorem Derived.exists_lineage (derived : s.Derived) (found : s.versions.get? v = some n) :
    ∃ edits, s.Lineage v edits := by
  induction v using Nat.strongRecOn generalizing n with
  | ind v ih =>
    by_cases first : v = VersionId.root
    · exact ⟨[], first ▸ .root⟩
    · obtain ⟨u, m, parent, lt, there, -⟩ := derived v n found first
      obtain ⟨edits, above⟩ := ih u lt there
      exact ⟨edits ++ n.action, .child found parent above⟩

/-- The edits that lead to a version make its pipeline from the empty one. -/
theorem Lineage.replays {edits : List Edit} (lineage : s.Lineage v edits) (hs : s.Valid)
    (derived : s.Derived) (found : s.versions.get? v = some n) :
    Pipeline.empty.applyAll edits = .ok n.pipeline := by
  obtain ⟨root, start, orphan, empty, -⟩ := hs.root
  induction lineage generalizing n with
  | root =>
    obtain rfl : root = n := Option.some.inj (start.symm.trans found)
    rw [empty]
    rfl
  | @child v u k edits there parent above ih =>
    obtain rfl : k = n := Option.some.inj (there.symm.trans found)
    have ne : v ≠ VersionId.root := by
      rintro rfl
      obtain rfl : root = k := Option.some.inj (start.symm.trans there)
      cases orphan.symm.trans parent
    obtain ⟨u', m, parent', -, known, applies⟩ := derived v k there ne
    obtain rfl : u = u' := Option.some.inj (parent.symm.trans parent')
    exact Pipeline.applyAll_append_ok.2 ⟨m.pipeline, ih known, applies⟩

/-- After any requests, accepted or refused, the root version is there as it always was. Every other
version has an earlier one as its parent, its pipeline is what all edits above it and its own make of the
empty one, and is closed. Whatever is requested then, all versions stay what they are, those that were
pruned stay pruned, and a commit that fails changes nothing. -/
theorem versions_replayable (rs : List Request) :
    let s := new.afterAll rs
    (∃ n, s.live VersionId.root = .ok n ∧ n.parent = none ∧ n.pipeline = .empty) ∧
    (∀ v n, s.versions.get? v = some n →
      (v ≠ VersionId.root → ∃ u m, n.parent = some u ∧ u < v ∧ s.versions.get? u = some m) ∧
      (∃ edits, s.Lineage v edits) ∧
      (∀ edits, s.Lineage v edits → Pipeline.empty.applyAll edits = .ok n.pipeline) ∧
      n.pipeline.WellFormed) ∧
    (∀ qs, s.Ages (s.afterAll qs)) ∧
    ∀ edits e t, (Action.commit edits).on s = (.error e, t) → t = s := by
  intro s
  have hs : s.Valid := valid_new.afterAll rs
  have derived : s.Derived := derived_afterAll rs
  refine ⟨?_, fun v n found => ⟨fun ne => ?_, derived.exists_lineage found,
    fun edits lineage => lineage.replays hs derived found, hs.wellFormed found⟩,
    ages_afterAll hs, fun edits e t run => ?_⟩
  · obtain ⟨n, there, orphan, empty, whole⟩ := hs.root
    exact ⟨n, live_eq_ok_iff.2 ⟨there, whole⟩, orphan, empty⟩
  · obtain ⟨u, m, parent, lt, there, -⟩ := derived v n found ne
    exact ⟨u, m, parent, lt, there⟩
  · rw [Action.on_commit] at run
    split at run
    · cases run
    · cases run
      rfl

end Store

end Dataflow
