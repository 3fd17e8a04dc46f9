import Mathlib.Data.List.Induction
import Dataflow.Proofs.Store.History

/-! The selected version, which the next commit starts from. It is always there, but it may have been
pruned: to prune it is to select its parent, and that may have been pruned before. There is no other way
in which a store comes to select a version that it cannot commit on. -/

namespace Dataflow.Store

variable {s t : Store} {r : Request}

/-- The selected version is there and was not pruned. -/
def Ready (s : Store) : Prop := ∃ n, s.live s.current = .ok n

/-- The selected version is there, pruned or not. -/
def Selects (s : Store) : Prop := ∃ n, s.versions.get? s.current = some n

/-- The request prunes the selected version, whose parent was pruned before. -/
def Strands (s : Store) (r : Request) : Prop :=
  ∃ n u m, r = .prune s.current ∧ s.versions.get? s.current = some n ∧ n.parent = some u ∧
    s.versions.get? u = some m ∧ m.pruned = true

theorem ready_new : new.Ready := ⟨origin, rfl⟩

theorem Ready.selects (ready : s.Ready) : s.Selects := by
  obtain ⟨n, live⟩ := ready
  exact ⟨n, (live_eq_ok_iff.1 live).1⟩

/-- A commit without edits succeeds just where the selected version is live. -/
theorem commit_nil_iff_ready :
    (∃ v t, (Action.commit []).on s = (.ok v, t)) ↔ s.Ready := by
  unfold Ready
  rw [Action.on_commit]
  cases live : s.live s.current with
  | error fault => simp [commit_of_dead live]
  | ok base =>
    have applies : base.pipeline.applyAll [] = .ok base.pipeline := rfl
    simp [commit_of_applyAll live applies]

theorem selects_extended (s : Store) (n : Version) : (s.extended n).Selects :=
  ⟨n, OrderedMap.get?_insert_self ..⟩

/-- A version that was committed and then selected is there for good. -/
theorem Ages.selects (ages : s.Ages t) (current : t.current = s.current) (selects : s.Selects) :
    t.Selects := by
  obtain ⟨n, there⟩ := selects
  obtain ⟨m, there', -⟩ := ages _ n there
  exact ⟨m, current ▸ there'⟩

theorem Selects.step (selects : s.Selects) (hs : s.Valid) (derived : s.Derived)
    (step : s.Step r t) : t.Selects := by
  have ages := step.ages hs
  cases step with
  | minted mints => exact ages.selects mints.current selects
  | selected live => exact ⟨_, (live_eq_ok_iff.1 live).1⟩
  | committed => exact selects_extended ..
  | tagged => exact ages.selects rfl selects
  | annotated => exact ages.selects rfl selects
  | @pruned v n ne there =>
    by_cases same : s.current = v
    · obtain ⟨u, m, parent, -, known, -⟩ := derived v n there ne
      obtain ⟨m', known', -⟩ := ages u m known
      have current : (s.without v n).current = u := by simp [without, same, parent]
      exact ⟨m', current ▸ known'⟩
    · exact ages.selects (if_neg same) selects

/-- A request that leaves a pruned version selected found one selected, or stranded the store. -/
theorem Step.stranded (step : s.Step r t) (derived : s.Derived) (dead : ¬ t.Ready) :
    s.Strands r ∨ ¬ s.Ready ∧ t.current = s.current := by
  have keeps : ∀ {n m : Version}, t.current = s.current → t.versions.get? t.current = some m →
      s.live s.current = .ok n → n.pruned = m.pruned → False := by
    intro n m current there live same
    exact dead ⟨m, live_eq_ok_iff.2 ⟨there, same ▸ (live_eq_ok_iff.1 live).2⟩⟩
  cases step with
  | minted mints =>
    refine .inr ⟨fun ready => dead ?_, mints.current⟩
    unfold Ready
    rw [mints.live, mints.current]
    exact ready
  | @selected v n live => exact absurd ⟨n, live⟩ dead
  | committed =>
    exact absurd ⟨_, live_eq_ok_iff.2 ⟨OrderedMap.get?_insert_self .., rfl⟩⟩ dead
  | tagged => exact .inr ⟨dead, rfl⟩
  | @annotated v n live key value =>
    refine .inr ⟨?_, rfl⟩
    rintro ⟨m, live'⟩
    have found := s.get?_annotated v n key value s.current
    by_cases same : s.current = v
    · have live : s.live s.current = .ok n := by rw [same, live]
      exact keeps rfl (found.trans (if_pos same)) live rfl
    · exact keeps rfl (found.trans ((if_neg same).trans (live_eq_ok_iff.1 live').1)) live' rfl
  | @pruned v n ne there =>
    by_cases same : s.current = v
    · -- the selected version is pruned, which selects the one it was derived from
      obtain ⟨u, m, parent, lt, known, -⟩ := derived v n there ne
      have current : (s.without v n).current = u := by simp [without, same, parent]
      refine .inl ⟨n, u, m, same ▸ rfl, same ▸ there, parent, known, ?_⟩
      by_contra whole
      rw [Bool.not_eq_true] at whole
      refine dead ⟨m, live_eq_ok_iff.2 ⟨?_, whole⟩⟩
      rw [current, get?_without, if_neg (Nat.ne_of_lt lt), known]
    · refine .inr ⟨?_, if_neg same⟩
      rintro ⟨m, live'⟩
      obtain ⟨found, -⟩ := live_eq_ok_iff.1 live'
      refine keeps (if_neg same) ?_ live' rfl
      rw [show (s.without v n).current = s.current from if_neg same, get?_without, if_neg same]
      exact found

theorem selects_afterAll (rs : List Request) : (new.afterAll rs).Selects := by
  induction rs using List.reverseRecOn with
  | nil => exact ready_new.selects
  | append_singleton rs r ih =>
    rw [afterAll_append]
    exact ih.step (valid_new.afterAll rs) (derived_afterAll rs) (step_after _ r)

theorem Strands.current (strands : s.Strands r) (hs : s.Valid) :
    ∃ m, s.versions.get? (s.after r).current = some m ∧ m.pruned = true := by
  obtain ⟨n, u, m, rfl, there, parent, known, pruned⟩ := strands
  obtain ⟨root, start, orphan, -⟩ := hs.root
  have ne : s.current ≠ VersionId.root := by
    intro same
    obtain rfl : root = n := Option.some.inj (start.symm.trans (same ▸ there))
    cases orphan.symm.trans parent
  have done : s.prune s.current = .ok (s.without s.current n) := by
    simp [prune, ne, there, without]
  rw [after_eq_of_change rfl, done]
  refine ⟨m, ?_, pruned⟩
  simpa [without, parent] using known

/-- A store that selects a pruned version was stranded there by one of the requests. -/
theorem exists_strands (rs : List Request) (dead : ¬ (new.afterAll rs).Ready) :
    ∃ before r rest, rs = before ++ r :: rest ∧ (new.afterAll before).Strands r ∧
      (new.afterAll rs).current = (new.afterAll (before ++ [r])).current := by
  induction rs using List.reverseRecOn with
  | nil => exact absurd ready_new dead
  | append_singleton rs r ih =>
    rw [afterAll_append] at dead ⊢
    obtain strands | ⟨before_dead, same⟩ :=
      (step_after (new.afterAll rs) r).stranded (derived_afterAll rs) dead
    · exact ⟨rs, r, [], rfl, strands, by rw [afterAll_append]⟩
    · obtain ⟨before, q, rest, rfl, strands, current⟩ := ih before_dead
      exact ⟨before, q, rest ++ [r], by simp, strands, Eq.trans same current⟩

/-- After any requests, accepted or refused, the selected version is there, and a commit without edits
succeeds if it is live. It is live unless one of the requests pruned the version that was selected while
its parent was pruned already, and that parent is still selected. -/
theorem selected_usable_iff (rs : List Request) :
    let s := new.afterAll rs
    (∃ n, s.versions.get? s.current = some n) ∧
    ((∃ v t, (Action.commit []).on s = (.ok v, t)) ↔ s.Ready) ∧
    (s.Ready ↔ ∀ before r rest, rs = before ++ r :: rest → (new.afterAll before).Strands r →
      s.current ≠ (new.afterAll (before ++ [r])).current) := by
  refine ⟨selects_afterAll rs, commit_nil_iff_ready, ?_, fun unstranded => ?_⟩
  · rintro ⟨n, live⟩ before r rest rfl strands current
    have hs : (new.afterAll before).Valid := valid_new.afterAll before
    obtain ⟨m, known, pruned⟩ := strands.current hs
    obtain ⟨k, there, ages⟩ := ages_afterAll hs (r :: rest) _ m known
    rw [← afterAll_append] at there
    rw [afterAll_append _ before [r]] at current
    rw [current] at live
    obtain ⟨found, whole⟩ := live_eq_ok_iff.1 live
    obtain rfl : k = n := Option.some.inj (there.symm.trans found)
    rw [ages.pruned pruned] at whole
    cases whole
  · by_contra dead
    obtain ⟨before, r, rest, split, strands, current⟩ := exists_strands rs dead
    exact unstranded before r rest split strands current

/-- Two versions below each other, of which the upper one is pruned first: the store selects a version
that was pruned, and no commit succeeds. -/
theorem selected_pruned :
    let s := new.afterAll [.commit [], .commit [], .prune 1, .prune 2]
    s.current = 1 ∧ s.live s.current = .error (.prunedVersion 1) ∧
      (Action.commit []).on s = (.error (.host (.prunedVersion 1)), s) :=
  ⟨rfl, rfl, rfl⟩

end Dataflow.Store
