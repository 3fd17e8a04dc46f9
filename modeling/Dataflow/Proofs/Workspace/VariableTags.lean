import Dataflow.Proofs.Workspace.Frame
import Dataflow.Proofs.Workspace.Labels
import Dataflow.Proofs.Workspace.Opening

/-! The tags of variables in a workspace that was opened on any store. The version of each known variable
has the tag of its name, which no call takes away that does not rename or remove this variable. A tag whose
name is not known, such as that of a version that could not be read, is not guarded: it moves as soon as
another version becomes known under the name. -/

namespace Dataflow.Workspace

variable {w w' : Workspace} {name tag : String} {x : Variable} {v : VersionId} {n : Version}

/-- The tag of the variable's name is on a version of the variable's own. -/
def Tagged (w : Workspace) (name : String) (x : Variable) : Prop :=
  ∃ v n, x.version = some v ∧ w.store.Names (w.host.settings.variableTag name) v n

/-- Each known variable's version has the tag of its name, and no version has two tags. -/
structure Keyed (w : Workspace) : Prop where
  valid : w.store.Valid
  distinct : w.store.TagsDistinct
  tagged : ∀ {name x}, w.named.get? name = some x → w.Tagged name x

theorem keyed_new (host : Host) (catalogue : Catalogue) {s : Store} (hs : s.Valid)
    (distinct : s.TagsDistinct) : (new host catalogue s).Keyed :=
  ⟨hs, distinct, nofun⟩

theorem Keyed.version (keyed : w.Keyed) (known : w.named.get? name = some x)
    (tagged : w.store.tags.get? (w.host.settings.variableTag name) = some v) :
    x.version = some v := by
  obtain ⟨v', n, version, names⟩ := keyed.tagged known
  rw [version, ← names.tag, tagged]

/-- A tag is that of a variable whose name was given up. -/
def GivenUp (w w' : Workspace) (tag : String) : Prop :=
  ∃ name, tag = w.host.settings.variableTag name ∧ w.named.contains name = true ∧
    w'.named.contains name = false

/-- A tag is that of a name that was not known, and under which a version other than the given one became
known. -/
def TakenOver (w w' : Workspace) (tag : String) (v : VersionId) : Prop :=
  ∃ name x, tag = w.host.settings.variableTag name ∧ w.named.contains name = false ∧
    w'.named.get? name = some x ∧ x.version ≠ some v

/-- Whatever a call does, a tag stays on its version, or is given up or taken over. -/
theorem Keyed.fate (keyed : w.Keyed) (effect : w.Effect w') (names : w.store.Names tag v n) :
    w'.store.Names tag v n ∨ w.GivenUp w' tag ∨ w.TakenOver w' tag v := by
  have hs := keyed.valid
  cases effect with
  | prepared _ prepares =>
    have kept := prepares.names hs names
    exact .inl ⟨kept.tag, kept.live⟩
  | @wrote t u name x g o r base _ free prepares asked =>
    have rooted := Host.preparing_variablesRoot.prepares (prepares.valid hs) asked
    have hu := (prepares.trans rooted).valid hs
    have kept := (prepares.trans rooted).names hs names
    have newer : v ≠ u.nextVersion := Nat.ne_of_lt (hu.tag_lt kept.tag)
    by_cases same : tag = w.host.settings.variableTag name
    · refine .inr (.inr ⟨name, _, same, free, OrderedMap.get?_insert_self .., ?_⟩)
      exact fun version => newer (Option.some.inj version).symm
    · have selected := (hu.mints ⟨0, 1, rfl⟩).current r.version
      refine .inl ((Store.names_tagged _).2 (.inr ⟨same, newer, ?_⟩))
      exact (Store.names_extended selected _).2 ⟨kept.tag, kept.live⟩
  | @forgot name x v' m known version =>
    by_cases same : v = v'
    · subst same
      obtain ⟨v', k, version', named⟩ := keyed.tagged known
      obtain rfl : v' = v := Option.some.inj (version'.symm.trans version)
      refine .inr (.inl ⟨name, keyed.distinct _ _ _ names.tag named.tag,
        OrderedMap.contains_eq_true_iff.2 ⟨x, known⟩, ?_⟩)
      rw [OrderedMap.contains_eq_false_iff]
      simp [OrderedMap.get?_erase]
    · exact .inl ((Store.names_without v' m).2 ⟨same, names⟩)
  | @renamed old new x v' m _ known free version live =>
    obtain ⟨v'', k, version', named⟩ := keyed.tagged known
    obtain rfl : v'' = v' := Option.some.inj (version'.symm.trans version)
    -- the tag is that of the old name, or of the new one, or of neither
    by_cases same : v = v''
    · subst same
      obtain rfl := keyed.distinct _ _ _ names.tag named.tag
      by_cases own : old = new
      · subst own
        exact .inl ((Store.names_tagged _).2 (.inl ⟨rfl, rfl, names.live⟩))
      · refine .inr (.inl ⟨old, rfl, OrderedMap.contains_eq_true_iff.2 ⟨x, known⟩, ?_⟩)
        rw [OrderedMap.contains_eq_false_iff]
        simp [OrderedMap.get?_insert, OrderedMap.get?_erase, own]
    · by_cases taken : tag = w.host.settings.variableTag new
      · obtain rfl | free := free
        · exact absurd (Option.some.inj (names.tag.symm.trans (taken ▸ named.tag))) same
        · refine .inr (.inr ⟨new, x, taken, free, OrderedMap.get?_insert_self .., ?_⟩)
          exact fun other => same (Option.some.inj (other.symm.trans version))
      · exact .inl ((Store.names_tagged _).2 (.inr ⟨taken, same, names⟩))
  | restored prepares => exact .inl (prepares.names hs names)
  | @compiled u _ _ prepares =>
    have kept := prepares.names hs names
    have selected := (prepares.valid hs).current VersionId.root
    exact .inl ((Store.names_extended selected _).2 ⟨kept.tag, kept.live⟩)

theorem Keyed.stays (keyed : w.Keyed) (effect : w.Effect w') (known : w.named.get? name = some x)
    (known' : w'.named.get? name = some x)
    (names : w.store.Names (w.host.settings.variableTag name) v n) :
    w'.store.Names (w.host.settings.variableTag name) v n := by
  obtain stays | ⟨name', same, -, gone⟩ | ⟨name', _, same, free, -⟩ := keyed.fate effect names
  · exact stays
  · rw [← Settings.variableTag_inj same, OrderedMap.contains_eq_false_iff, known'] at gone
    cases gone
  · rw [← Settings.variableTag_inj same, OrderedMap.contains_eq_false_iff, known] at free
    cases free

theorem Effect.tagged (effect : w.Effect w') (hs : w.store.Valid)
    (known : w'.named.get? name = some x) (new : w.named.get? name ≠ some x) :
    w'.Tagged name x := by
  cases effect with
  | prepared => exact absurd known new
  | compiled => exact absurd known new
  | @wrote t u =>
    obtain ⟨rfl, rfl⟩ | ⟨-, before⟩ := OrderedMap.get?_insert_eq_some_iff.1 known
    · exact ⟨u.nextVersion, _, rfl, OrderedMap.get?_insert_self .., Variable.live_wrote ..⟩
    · exact absurd before new
  | forgot => exact absurd (OrderedMap.get?_erase_eq_some_iff.1 known).2 new
  | @renamed old new' y v m _ _ _ version live =>
    obtain ⟨rfl, rfl⟩ | ⟨-, -, before⟩ := OrderedMap.get?_insert_erase_eq_some_iff.1 known
    · exact ⟨v, m, version, (Store.names_tagged _).2 (.inl ⟨rfl, rfl, live⟩)⟩
    · exact absurd before new
  | restored prepares found =>
    obtain before | ⟨-, tag, v, -, -, version, there, reads, -⟩ := found name x known
    · exact absurd before new
    · obtain rfl := Settings.variableTag_of_variableOfTag? reads
      obtain ⟨n, names⟩ := hs.names there
      exact ⟨v, n, version, prepares.names hs names⟩

theorem Effect.distinct (effect : w.Effect w') (hs : w.store.Valid)
    (distinct : w.store.TagsDistinct) : w'.store.TagsDistinct := by
  cases effect with
  | prepared _ prepares => exact prepares.distinct hs distinct
  | @wrote t u name x g o r base _ _ prepares asked =>
    have rooted := Host.preparing_variablesRoot.prepares (prepares.valid hs) asked
    have before : u.TagsDistinct := (prepares.trans rooted).distinct hs distinct
    exact before.tagged u.nextVersion (w.host.settings.variableTag name)
  | forgot => exact distinct.without _ _
  | renamed => exact distinct.tagged _ _
  | restored prepares => exact prepares.distinct hs distinct
  | compiled prepares => exact prepares.distinct hs distinct

theorem Keyed.effect (keyed : w.Keyed) (effect : w.Effect w') : w'.Keyed := by
  refine ⟨effect.valid keyed.valid, effect.distinct keyed.valid keyed.distinct, ?_⟩
  intro name x known
  by_cases before : w.named.get? name = some x
  · obtain ⟨v, n, version, names⟩ := keyed.tagged before
    have stays := keyed.stays effect before known names
    rw [← effect.host.1] at stays
    exact ⟨v, n, version, stays⟩
  · exact effect.tagged keyed.valid known before

theorem Keyed.reaches (keyed : w.Keyed) (reaches : Reaches w w') :
    w'.Keyed ∧ w'.host = w.host := by
  induction reaches with
  | refl => exact ⟨keyed, rfl⟩
  | call _ admissible ih =>
    have effect := effect_after ih.1.valid admissible
    exact ⟨ih.1.effect effect, effect.host.1.trans ih.2⟩

theorem opened_eq (host : Host) (catalogue : Catalogue) {s : Store} (hs : s.Valid) :
    opened host catalogue s = .ok ((new host catalogue s).after .restoreVariables) := by
  obtain ⟨n, named, run⟩ := on_restoreTagged (w := new host catalogue s) hs
    (new host catalogue s).taggedVariables
  rw [← on_restoreVariables] at run
  rw [opened_eq_ok run, after, run]

theorem keyed_opened {host : Host} {catalogue : Catalogue} {rs : List Store.Request}
    (opens : opened host catalogue (Store.new.afterAll rs) = .ok w) :
    w.Keyed ∧ w.host = host := by
  have hs : (Store.new.afterAll rs).Valid := Store.valid_new.afterAll rs
  rw [opened_eq host catalogue hs, Except.ok.injEq] at opens
  subst opens
  have start := keyed_new host catalogue hs (Store.tagsDistinct_afterAll rs)
  exact start.reaches (Reaches.refl.call (c := .restoreVariables) trivial)

/-- The call is to register a variable under the name, or to rename another variable to it. -/
def Wants (w : Workspace) : Call → String → Prop
  | .performOperation text, name => ∃ e, Expr.ofText text = .ok (name, e)
  | .addVariable target _, name => name = target
  | .loadVariable loader target, name => name = w.loadedName loader target
  | .renameVariable old new, name => name = new ∧ old ≠ new
  | _, _ => False

/-- The error that a call ends with. -/
def fault? (w : Workspace) : Call → Option Error
  | .performOperation text => fault (on (performOperation text) w).1
  | .addVariable name x => fault (on (addVariable name x) w).1
  | .loadVariable loader name => fault (on (loadVariable loader name) w).1
  | .renameVariable old new => fault (on (renameVariable old new) w).1
  | .removeVariable name => fault (on (removeVariable name) w).1
  | .restoreVariables => fault (on restoreVariables w).1
  | .createPipeline r => fault (on (createPipeline r) w).1
where
  fault {α : Type} : Except Error α → Option Error
    | .ok _ => none
    | .error e => some e

/-- The call fails and changes nothing. -/
def Refuses (w : Workspace) (c : Call) : Prop := (w.fault? c).isSome = true ∧ w.after c = w

/-- A name that is known is refused to all who want it. -/
theorem refuses_of_known {c : Call} (wants : w.Wants c name)
    (known : w.named.contains name = true) : w.Refuses c := by
  cases c with
  | performOperation text =>
    obtain ⟨e, read⟩ := wants
    have run : on (performOperation text) w = (.error (.duplicateVariable name), w) := by
      rw [on_performOperation, read]
      exact if_pos known
    rw [Refuses, fault?, after, run]
    exact ⟨rfl, rfl⟩
  | addVariable target x =>
    obtain rfl := wants
    have run : ∃ e, on (addVariable name x) w = (.error e, w) := by
      rw [addVariable, on_register]
      split
      · exact ⟨_, rfl⟩
      · exact ⟨_, rfl⟩
    obtain ⟨e, run⟩ := run
    rw [Refuses, fault?, after, run]
    exact ⟨rfl, rfl⟩
  | loadVariable loader target =>
    obtain rfl := wants
    have run := on_loadVariable w loader target
    rw [if_pos known] at run
    rw [Refuses, fault?, after, run]
    exact ⟨rfl, rfl⟩
  | renameVariable old new =>
    obtain ⟨rfl, other⟩ := wants
    obtain ⟨e, run⟩ | ⟨-, -, -, -, -, same | free, -⟩ := renameVariable_outcome w old name
    · rw [Refuses, fault?, after, run]
      exact ⟨rfl, rfl⟩
    · exact absurd same other
    · rw [known] at free
      cases free
  | removeVariable => exact wants.elim
  | restoreVariables => exact wants.elim
  | createPipeline => exact wants.elim

/-- In a workspace that was opened on any store, each known variable has a live version with the tag of
its name. A call that wants the name for another variable is refused, and as long as this variable is
neither renamed nor removed, it is known by its name and its version keeps the tag. A version with the tag
of a name that is not known loses it just if the call makes another version known under that name. -/
theorem variableTag_guarded {host : Host} {catalogue : Catalogue} {rs : List Store.Request}
    {w₀ w : Workspace} (opens : opened host catalogue (Store.new.afterAll rs) = .ok w₀)
    (reaches : Reaches w₀ w) {c : Call} (admissible : c.Admissible) (name : String) :
    let tag := host.settings.variableTag name
    (∀ x, w.named.get? name = some x → ∃ v n, x.version = some v ∧ w.store.Names tag v n ∧
      (w.Wants c name → w.Refuses c) ∧
      (¬ w.Takes c name →
        (w.after c).named.get? name = some x ∧ (w.after c).store.Names tag v n)) ∧
    ∀ v n, w.named.get? name = none → w.store.Names tag v n →
      ((w.after c).store.tags.get? tag ≠ some v ↔
        ∃ x, (w.after c).named.get? name = some x ∧ x.version ≠ some v) := by
  intro tag
  obtain ⟨start, first⟩ := keyed_opened opens
  obtain ⟨keyed, later⟩ := start.reaches reaches
  obtain rfl : w.host = host := later.trans first
  have effect := effect_after keyed.valid admissible
  have keyed' := keyed.effect effect
  constructor
  · intro x known
    obtain ⟨v, n, version, names⟩ := keyed.tagged known
    refine ⟨v, n, version, names,
      fun wants => refuses_of_known wants (OrderedMap.contains_eq_true_iff.2 ⟨x, known⟩), ?_⟩
    intro untaken
    have known' := known_after keyed.valid known untaken
    exact ⟨known', keyed.stays effect known known' names⟩
  · intro v n unknown names
    constructor
    · intro lost
      obtain stays | ⟨name', same, known, -⟩ | ⟨name', x, same, -, known, other⟩ :=
        keyed.fate effect names
      · exact absurd stays.tag lost
      · rw [← Settings.variableTag_inj same, OrderedMap.contains_eq_true_iff, unknown] at known
        cases known.choose_spec
      · exact ⟨x, Settings.variableTag_inj same ▸ known, other⟩
    · rintro ⟨x, known, other⟩ stays
      refine other (keyed'.version known ?_)
      rw [effect.host.1]
      exact stays

/-- Version 1 is tagged for the variable `x`, but is none of a variable. -/
def skippingStore : Store := .afterAll .new [.commit [], .tag 1 "dat-var-x"]

/-- A workspace that was opened on that store, and passed the version over. -/
def skippingStart : Workspace :=
  (new sampleStart.host sampleStart.catalogue skippingStore).after .restoreVariables

theorem opened_skippingStore :
    opened sampleStart.host sampleStart.catalogue skippingStore = .ok skippingStart :=
  opened_eq _ _ (Store.valid_new.afterAll _)

/-- The tag of the version that was passed over outlasts the statement `y = 1`, but not `x = y`. -/
theorem variableTag_guarded_skipped :
    let w := skippingStart.after (.performOperation "y = 1")
    opened sampleStart.host sampleStart.catalogue skippingStore = .ok skippingStart ∧
      Reaches skippingStart w ∧ w.named.get? "x" = none ∧
      w.store.tags.get? "dat-var-x" = some 1 ∧
      (w.after (.performOperation "x = y")).store.tags.get? "dat-var-x" ≠ some 1 := by
  intro w
  have reaches : Reaches skippingStart w := Reaches.refl.call trivial
  have guarded := variableTag_guarded opened_skippingStore reaches
    (c := .performOperation "x = y") trivial "x"
  have unknown : w.named.get? "x" = none := by decide +kernel
  have tagged : w.store.Names "dat-var-x" 1 ⟨some VersionId.root, [], .empty, ∅, false⟩ :=
    ⟨by decide +kernel, by decide +kernel⟩
  have moved : ((w.after (.performOperation "x = y")).named.get? "x").bind (·.version) = some 4 := by
    decide +kernel
  obtain ⟨x, known, version⟩ := Option.bind_eq_some_iff.1 moved
  refine ⟨opened_skippingStore, reaches, unknown, tagged.tag,
    (guarded.2 1 _ unknown tagged).2 ⟨x, known, ?_⟩⟩
  rw [version]
  decide

/-- The statement `x = 1` is accepted, and takes the tag of a live version that was passed over. -/
theorem variableTag_taken :
    let w := skippingStart.after (.performOperation "x = 1")
    opened sampleStart.host sampleStart.catalogue skippingStore = .ok skippingStart ∧
      skippingStart.store.tags.get? "dat-var-x" = some 1 ∧
      skippingStart.fault? (.performOperation "x = 1") = none ∧
      w.store.tags.get? "dat-var-x" = some 3 ∧ (w.store.live 1).isOk = true :=
  ⟨opened_skippingStore, by decide +kernel, by decide +kernel, by decide +kernel,
    by decide +kernel⟩

end Dataflow.Workspace
