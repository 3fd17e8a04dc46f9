import Dataflow.Proofs.Store.Requests

/-! Tags. Every tag names a live version, and no version has two of them, whatever is tagged, tagged anew
or pruned; so tags and tagged versions belong to each other one by one. -/

namespace Dataflow.Store

variable {s t : Store} {r : Request} {v : VersionId} {n : Version} {name : String}

/-- No version has two tags. -/
def TagsDistinct (s : Store) : Prop :=
  ∀ a b v, s.tags.get? a = some v → s.tags.get? b = some v → a = b

theorem tagsDistinct_new : new.TagsDistinct := by
  intro a b v found
  simp [new] at found

theorem resolveTag_tagged {other : String} {w : VersionId} :
    (s.tagged v name).resolveTag other = some w ↔
      other = name ∧ w = v ∨ other ≠ name ∧ w ≠ v ∧ s.resolveTag other = some w :=
  get?_tagged_eq_some_iff

theorem TagsDistinct.tagged (distinct : s.TagsDistinct) (v : VersionId) (name : String) :
    (s.tagged v name).TagsDistinct := by
  intro a b w first second
  obtain ⟨rfl, rfl⟩ | ⟨-, other, first⟩ := get?_tagged_eq_some_iff.1 first
  · obtain ⟨rfl, -⟩ | ⟨-, other, -⟩ := get?_tagged_eq_some_iff.1 second
    · rfl
    · exact absurd rfl other
  · obtain ⟨-, same⟩ | ⟨-, -, second⟩ := get?_tagged_eq_some_iff.1 second
    · exact absurd same other
    · exact distinct a b w first second

theorem TagsDistinct.without (distinct : s.TagsDistinct) (v : VersionId) (n : Version) :
    (s.without v n).TagsDistinct := by
  intro a b w first second
  exact distinct a b w (get?_untagged_eq_some_iff.1 first).2 (get?_untagged_eq_some_iff.1 second).2

theorem TagsDistinct.step (distinct : s.TagsDistinct) (step : s.Step r t) : t.TagsDistinct := by
  cases step with
  | minted mints =>
    unfold TagsDistinct
    rw [mints.tags]
    exact distinct
  | selected => exact distinct
  | committed => exact distinct
  | tagged _ name => exact distinct.tagged _ name
  | annotated => exact distinct
  | pruned => exact distinct.without _ _

theorem tagsDistinct_afterAll (rs : List Request) : (new.afterAll rs).TagsDistinct :=
  afterAll_induction (fun s r distinct => distinct.step (s.step_after r)) tagsDistinct_new rs

theorem resolveTag_eq_some_iff : s.resolveTag name = some v ↔ (name, v) ∈ s.tags.entries :=
  OrderedMap.get?_eq_some_iff

theorem TagsDistinct.tagOf_eq_some_iff (distinct : s.TagsDistinct) :
    s.tagOf v = some name ↔ s.resolveTag name = some v := by
  unfold tagOf
  rw [Option.map_eq_some_iff]
  constructor
  · rintro ⟨⟨a, w⟩, found, rfl⟩
    have same : w = v := by simpa using List.find?_some found
    exact same ▸ resolveTag_eq_some_iff.2 (List.mem_of_find?_eq_some found)
  · intro tagged
    have listed := resolveTag_eq_some_iff.1 tagged
    obtain ⟨⟨a, w⟩, found⟩ := Option.isSome_iff_exists.1
      (List.find?_isSome (p := fun e => e.2 == v).2 ⟨(name, v), listed, beq_self_eq_true v⟩)
    have same : w = v := by simpa using List.find?_some found
    subst same
    have known := resolveTag_eq_some_iff.2 (List.mem_of_find?_eq_some found)
    exact ⟨(a, w), found, distinct a name w known tagged⟩

/-- A version that has the tag already is left as it is. -/
theorem TagsDistinct.tagged_of_resolveTag (distinct : s.TagsDistinct)
    (tagged : s.resolveTag name = some v) : s.tagged v name = s := by
  have tags : (s.tagged v name).tags = s.tags := by
    apply OrderedMap.ext_get?
    intro other
    apply Option.ext
    intro w
    refine get?_tagged_eq_some_iff.trans ⟨?_, fun known => ?_⟩
    · rintro (⟨rfl, rfl⟩ | ⟨-, -, known⟩)
      · exact tagged
      · exact known
    · by_cases same : other = name
      · exact .inl ⟨same, Option.some.inj (known.symm.trans (same ▸ tagged))⟩
      · refine .inr ⟨same, ?_, known⟩
        rintro rfl
        exact same (distinct other name w known tagged)
  exact congrArg (fun m => { s with tags := m }) tags

theorem on_tag_of_live (live : s.live v = .ok n) (name : String) :
    (Action.change (·.tag v name)).on s = (.ok (), s.tagged v name) := by
  rw [Action.on_change, tag_of_live live]

/-- After any requests, accepted or refused, tags and tagged versions belong to each other one by one,
and tagged versions are live. To tag a live version takes its old tag away and takes the new one from the
version that had it, and changes nothing else; to tag it so again changes nothing at all. -/
theorem tags_bijective (rs : List Request) :
    let s := new.afterAll rs
    (∀ name v, s.resolveTag name = some v → ∃ n, s.live v = .ok n) ∧
    (∀ a b v, s.resolveTag a = some v → s.resolveTag b = some v → a = b) ∧
    (∀ name v, (s.resolveTag name = some v ↔ (name, v) ∈ s.tags.entries) ∧
      (s.resolveTag name = some v ↔ s.tagOf v = some name)) ∧
    (∀ v n name, s.live v = .ok n →
      ∃ t, (Action.change (·.tag v name)).on s = (.ok (), t) ∧ t = { s with tags := t.tags } ∧
        (∀ other w, t.resolveTag other = some w ↔
          other = name ∧ w = v ∨ other ≠ name ∧ w ≠ v ∧ s.resolveTag other = some w) ∧
        (Action.change (·.tag v name)).on t = (.ok (), t)) ∧
    ∀ name v, s.resolveTag name = some v → (Action.change (·.tag v name)).on s = (.ok (), s) := by
  intro s
  have hs : s.Valid := valid_new.afterAll rs
  have distinct : s.TagsDistinct := tagsDistinct_afterAll rs
  have live : ∀ name v, s.resolveTag name = some v → ∃ n, s.live v = .ok n := by
    intro name v tagged
    obtain ⟨n, there, whole⟩ := hs.tagged tagged
    exact ⟨n, live_eq_ok_iff.2 ⟨there, whole⟩⟩
  refine ⟨live, distinct, fun name v => ⟨resolveTag_eq_some_iff, distinct.tagOf_eq_some_iff.symm⟩,
    fun v n name there => ?_, fun name v tagged => ?_⟩
  · refine ⟨s.tagged v name, on_tag_of_live there name, rfl, fun _ _ => resolveTag_tagged, ?_⟩
    have named : (s.tagged v name).resolveTag name = some v := resolveTag_tagged.2 (.inl ⟨rfl, rfl⟩)
    have again : (s.tagged v name).live v = .ok n := there
    rw [on_tag_of_live again, (distinct.tagged v name).tagged_of_resolveTag named]
  · obtain ⟨n, there⟩ := live name v tagged
    rw [on_tag_of_live there, distinct.tagged_of_resolveTag tagged]

end Dataflow.Store
