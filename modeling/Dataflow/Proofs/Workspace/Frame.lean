import Dataflow.Proofs.Workspace.Sharing

/-! What a call leaves alone. Only a name that is taken away by renaming or removing changes what it
stands for, and only a variable that is removed loses its version; whatever was copied from it stays. -/

namespace Dataflow.Workspace

/-- The call succeeds in renaming or removing the variable of a name. -/
def Takes (w : Workspace) : Call → String → Prop
  | .renameVariable old new, name => name = old ∧ (on (renameVariable old new) w).1 = .ok ()
  | .removeVariable old, name => name = old ∧ (on (removeVariable old) w).1 = .ok ()
  | _, _ => False

/-- The call succeeds in removing the variable of a version. -/
def Prunes (w : Workspace) (c : Call) (v : VersionId) : Prop :=
  ∃ name x, c = .removeVariable name ∧ w.Takes c name ∧ w.named.get? name = some x ∧
    x.version = some v

variable {w w' : Workspace}

theorem known_register (name : String) (x : Variable) {name' : String} {y : Variable}
    (known : w.named.get? name' = some y) :
    (on (register name x) w).2.named.get? name' = some y := by
  rw [on_register]
  split
  · exact known
  · split
    · exact known
    · next free =>
      have other : name' ≠ name := by
        rintro rfl
        exact free (OrderedMap.contains_eq_true_iff.2 ⟨y, known⟩)
      rcases (x.materialize w.host name).on w.store with ⟨_ | ⟨v, z⟩, u⟩
      · exact known
      · exact OrderedMap.get?_insert_eq_some_iff.2 (.inr ⟨other, known⟩)

theorem known_performOperation {name : String} {x : Variable} (text : String)
    (known : w.named.get? name = some x) :
    (on (performOperation text) w).2.named.get? name = some x := by
  rw [on_performOperation]
  split
  · exact known
  · next target e _ =>
    split
    · exact known
    · split
      · exact known
      · next node _ _ =>
        split
        · exact known
        · next y s _ =>
          have kept := known_register (w := { w with store := s }) target y known
          split
          · next run => rwa [run] at kept
          · next run => rwa [run] at kept

theorem known_loadVariable {name : String} {x : Variable} (loader : Loader) (target : Option String)
    (known : w.named.get? name = some x) :
    (on (loadVariable loader target) w).2.named.get? name = some x := by
  rw [on_loadVariable]
  split
  · exact known
  · split
    · exact known
    · next y s _ =>
      have kept := known_register (w := { w with store := s }) (w.loadedName loader target)
        (loaded loader y) known
      split
      · next run => rwa [run] at kept
      · next run => rwa [run] at kept

/-- A call that leaves the known variables as they are, whatever it answers. -/
def Keeps (call : Work α) : Prop := ∀ w, (on call w).2.named = w.named

theorem Keeps.bind {a : Work α} {f : α → Work β} (first : Keeps a) (second : ∀ x, Keeps (f x)) :
    Keeps (a >>= f) := by
  intro w
  have same := first w
  rw [on_bind]
  rcases ran : on a w with ⟨e | x, v⟩
  · rwa [ran] at same
  · rw [ran] at same
    exact (second x v).trans same

theorem keeps_act (a : Host → Action α) : Keeps (act a) := fun w => by rw [on_act]

theorem keeps_ofExcept (r : Except Error α) : Keeps (ofExcept r) := fun w => by rw [on_ofExcept]

theorem keeps_known (name : String) : Keeps (known name) := by
  intro w
  rw [on_known]
  cases w.named.get? name <;> rfl

/-- A call that leaves the known variables as they are if it fails. -/
def KeepsOnError (call : Work α) : Prop :=
  ∀ ⦃w e w'⦄, on call w = (.error e, w') → w'.named = w.named

theorem Keeps.onError {call : Work α} (keeps : Keeps call) : KeepsOnError call := by
  intro w e w' failed
  have same := keeps w
  rwa [failed] at same

theorem KeepsOnError.bind_pure {a : Work α} (keeps : KeepsOnError a) (f : α → β) :
    KeepsOnError (a >>= fun x => pure (f x)) := by
  intro w e w' failed
  rcases ran : on a w with ⟨e | x, v⟩
  · cases (on_bind_of_error ran _).symm.trans failed
    exact keeps ran
  · cases (on_bind_of_ok ran _).symm.trans failed

theorem keepsOnError_performOperation (text : String) : KeepsOnError (performOperation text) := by
  intro w e w' run
  obtain ⟨_, _, failed, same⟩ | ⟨_, _, _, _, _, _, _, _, _, _, done, -⟩ :=
    performOperation_outcome w text
  · cases failed.symm.trans run
    exact same
  · cases done.symm.trans run

theorem keepsOnError_removeVariable (name : String) : KeepsOnError (removeVariable name) := by
  intro w e w' run
  obtain ⟨_, failed⟩ | ⟨_, _, _, -, -, -, -, done⟩ := removeVariable_outcome w name
  · cases failed.symm.trans run
    rfl
  · cases done.symm.trans run

theorem keepsOnError_renameVariable (old new : String) :
    KeepsOnError (renameVariable old new) := by
  intro w e w' run
  obtain ⟨_, failed⟩ | ⟨_, _, _, -, -, -, -, -, done⟩ := renameVariable_outcome w old new
  · cases failed.symm.trans run
    rfl
  · cases done.symm.trans run

theorem known_renameVariable {old new name : String} {x : Variable}
    (known : w.named.get? name = some x) (kept : ¬ w.Takes (.renameVariable old new) name) :
    (on (renameVariable old new) w).2.named.get? name = some x := by
  obtain ⟨e, run⟩ | ⟨y, v, n, -, -, free, -, -, run⟩ := renameVariable_outcome w old new
  · rw [run]
    exact known
  · have not_old : name ≠ old := fun same => kept ⟨same, by rw [run]⟩
    have not_new : name ≠ new := by
      rintro rfl
      rcases free with same | free
      · exact not_old same.symm
      · rw [OrderedMap.contains_eq_false_iff, known] at free
        cases free
    rw [run]
    exact OrderedMap.get?_insert_erase_eq_some_iff.2 (.inr ⟨not_new, not_old, known⟩)

theorem known_removeVariable {old name : String} {x : Variable}
    (known : w.named.get? name = some x) (kept : ¬ w.Takes (.removeVariable old) name) :
    (on (removeVariable old) w).2.named.get? name = some x := by
  obtain ⟨e, run⟩ | ⟨y, v, n, -, -, -, -, run⟩ := removeVariable_outcome w old
  · rw [run]
    exact known
  · have other : name ≠ old := fun same => kept ⟨same, by rw [run]⟩
    rw [run]
    exact OrderedMap.get?_erase_eq_some_iff.2 ⟨other, known⟩

theorem known_after {c : Call} (hs : w.store.Valid) {name : String} {x : Variable}
    (known : w.named.get? name = some x) (kept : ¬ w.Takes c name) :
    (w.after c).named.get? name = some x := by
  cases c with
  | performOperation text => exact known_performOperation text known
  | addVariable name x => exact known_register name x known
  | loadVariable loader name => exact known_loadVariable loader name known
  | renameVariable old new => exact known_renameVariable known kept
  | removeVariable name => exact known_removeVariable known kept
  | restoreVariables =>
    obtain ⟨u, named, after, -, -, still⟩ := restoreTagged_cases w.taggedVariables hs
    show (on restoreVariables w).2.named.get? name = some x
    rw [on_restoreVariables, after]
    exact still name x known
  | createPipeline r =>
    show (on (createPipeline r) w).2.named.get? name = some x
    rw [on_createPipeline]
    exact known

/-- Whatever a call does, it leaves every version as it is, or forgets the variable of the version. -/
theorem Effect.lasting (effect : w.Effect w') (hs : w.store.Valid) {v : VersionId} {n : Version}
    (found : w.store.versions.get? v = some n) :
    w'.store.versions.get? v = some n ∨
      ∃ name x, w.named.get? name = some x ∧ x.version = some v ∧ w'.named.get? name = none := by
  cases effect with
  | prepared _ prepares => exact .inl (prepares.kept hs found)
  | @wrote t u name x g o r base _ _ prepares asked =>
    have rooted := Host.preparing_variablesRoot.prepares (prepares.valid hs) asked
    have hu := rooted.valid (prepares.valid hs)
    exact .inl (hu.get?_extended _ (rooted.kept (prepares.valid hs) (prepares.kept hs found)))
  | @forgot name x v' m known version _ _ =>
    by_cases same : v = v'
    · refine .inr ⟨name, x, known, same ▸ version, ?_⟩
      simp only [OrderedMap.get?_erase, if_true]
    · exact .inl (Store.get?_without_eq_some_iff.2 (.inr ⟨same, found⟩))
  | renamed => exact .inl found
  | restored prepares => exact .inl (prepares.kept hs found)
  | compiled prepares =>
    exact .inl (((prepares.valid hs).current _).get?_extended _ (prepares.kept hs found))

/-- A version stays as it is, unless the variable of the version is removed. -/
theorem version_after {c : Call} (hs : w.store.Valid) (admissible : c.Admissible) {v : VersionId}
    {n : Version} (found : w.store.versions.get? v = some n) (kept : ¬ w.Prunes c v) :
    (w.after c).store.versions.get? v = some n := by
  obtain same | ⟨name, x, known, version, forgotten⟩ := (effect_after hs admissible).lasting hs found
  · exact same
  · -- a name is forgotten only if it is taken away, and renaming changes no version
    have taken : w.Takes c name := by
      by_contra kept
      rw [known_after hs known kept] at forgotten
      cases forgotten
    cases c with
    | renameVariable old new =>
      show (on (renameVariable old new) w).2.store.versions.get? v = some n
      rw [store_renameVariable]
      exact found
    | removeVariable old =>
      exact absurd ⟨name, x, congrArg _ taken.1.symm, taken, known, version⟩ kept
    | _ => exact taken.elim

/-- A known variable's version has the tag of the variable's name and no other. -/
theorem Agrees.tagged_iff (agrees : w.Agrees) {name : String} {x : Variable}
    (known : w.named.get? name = some x) :
    ∃ v, x.version = some v ∧
      ∀ tag, w.store.tags.get? tag = some v ↔ tag = w.host.settings.variableTag name := by
  obtain ⟨none, -⟩ | ⟨r, rooted⟩ := agrees.agrees
  · rw [none] at known
    cases known
  · obtain ⟨v, n, holds⟩ := rooted.holds known
    refine ⟨v, holds.version, fun tag => rooted.tags.trans ⟨?_, ?_⟩⟩
    · rintro (⟨-, same⟩ | ⟨name', x', known', rfl, version'⟩)
      · exact absurd same (rooted.ne_root holds agrees.valid)
      · rw [rooted.distinct known' known version' holds.version]
    · rintro rfl
      exact .inr ⟨name, x, known, rfl, holds.version⟩

/-- A call leaves alone what it is not about. A variable that it does not take the name of keeps its
name, all that is known of it and the tag of its version; and a live version that it does not remove the
variable of stays live and as it is. -/
theorem after_undisturbed {host : Host} {catalogue : Catalogue} (apart : host.settings.TagsApart)
    {w : Workspace} (reaches : Reaches (new host catalogue .new) w) {c : Call}
    (admissible : c.Admissible) :
    (∀ name x, w.named.get? name = some x → ¬ w.Takes c name →
      (w.after c).named.get? name = some x ∧ ∃ v, x.version = some v ∧
        (∀ tag, w.store.tags.get? tag = some v ↔ tag = host.settings.variableTag name) ∧
        ∀ tag, (w.after c).store.tags.get? tag = some v ↔ tag = host.settings.variableTag name) ∧
    ∀ v n, w.store.live v = .ok n → ¬ w.Prunes c v → (w.after c).store.live v = .ok n := by
  obtain ⟨agrees, rfl, -⟩ := (agrees_new host catalogue).reaches apart reaches
  obtain ⟨agrees', same, -⟩ := (agrees_new w.host catalogue).reaches apart (reaches.call admissible)
  constructor
  · intro name x known kept
    have known' := known_after agrees.valid known kept
    obtain ⟨v, version, before⟩ := agrees.tagged_iff known
    obtain ⟨v', version', after⟩ := agrees'.tagged_iff known'
    obtain rfl : v = v' := Option.some.inj (version.symm.trans version')
    rw [same] at after
    exact ⟨known', v, version, before, after⟩
  · intro v n live kept
    obtain ⟨there, unpruned⟩ := Store.live_eq_ok_iff.1 live
    exact Store.live_eq_ok_iff.2 ⟨version_after agrees.valid admissible there kept, unpruned⟩

/-- A variable outlives the one that it was computed from. -/
theorem after_undisturbed_removed :
    let w := sample.after (.performOperation "y = x + 1")
    ∃ x n, w.named.get? "y" = some x ∧ w.store.live 3 = .ok n ∧
      (w.after (.removeVariable "x")).named.get? "y" = some x ∧
      (w.after (.removeVariable "x")).store.live 3 = .ok n := by
  intro w
  obtain ⟨x, known⟩ : ∃ x, w.named.get? "y" = some x :=
    OrderedMap.contains_eq_true_iff.1 (by decide +kernel)
  have there : (w.store.live 3).isOk = true := by decide +kernel
  have removed : (w.named.get? "x").bind (·.version) = some 2 := by decide +kernel
  cases live : w.store.live 3 with
  | error fault =>
    rw [live] at there
    cases there
  | ok n =>
    have frame := after_undisturbed (Settings.tagsApart_of_default rfl)
      (reaches_sample.call (c := .performOperation "y = x + 1") trivial)
      (c := .removeVariable "x") trivial
    refine ⟨x, n, known, rfl, (frame.1 "y" x known ?_).1, frame.2 3 n live ?_⟩
    · exact fun taken => absurd taken.1 (by decide)
    · rintro ⟨_, x', same, -, known', version⟩
      cases same
      rw [known', Option.bind_some, version] at removed
      cases removed

end Dataflow.Workspace
