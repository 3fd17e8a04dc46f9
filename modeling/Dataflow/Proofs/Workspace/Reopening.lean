import Dataflow.Proofs.Variable.Restoring
import Dataflow.Proofs.Workspace.Agreement

/-! Opening a store again. Each known variable is noted on its version as it is known, and each tag is
that of a known variable or of the variables root, which does not read as a variable. So the names are
found again with their variables, and there is nothing more to take up. -/

namespace Dataflow.Workspace

variable {w w' : Workspace} {r : VariablesRoot}

/-- A known variable has nothing left to write, and its version is annotated with what it is. -/
def Recorded (w : Workspace) : Prop :=
  ∀ {name x}, w.named.get? name = some x → x.draft = .empty ∧
    ∃ v n, x.version = some v ∧ w.store.versions.get? v = some n ∧ n.annotations = x.annotations

theorem recorded_new (host : Host) (catalogue : Catalogue) (s : Store) :
    (new host catalogue s).Recorded := nofun

theorem Recorded.kept (recorded : w.Recorded) (hs : w.store.Valid) (effect : w.Effect w')
    {name : String} {x : Variable} (known : w.named.get? name = some x) :
    x.draft = .empty ∧ ∃ v n, x.version = some v ∧ w'.store.versions.get? v = some n ∧
      n.annotations = x.annotations := by
  obtain ⟨empty, v, n, version, there, noted⟩ := recorded known
  obtain ⟨m, there', rfl | rfl⟩ := effect.aged hs there
  · exact ⟨empty, v, m, version, there', noted⟩
  · exact ⟨empty, v, _, version, there', noted⟩

theorem Recorded.effect (recorded : w.Recorded) (agrees : w.Agrees) (effect : w.Effect w') :
    w'.Recorded := by
  intro name x known
  have kept := @Recorded.kept w w' recorded agrees.valid effect
  cases effect with
  | prepared => exact kept known
  | compiled => exact kept known
  | @restored u named prepares found same =>
    obtain rfl := agrees.named_eq found same
    exact kept known
  | forgot => exact kept (OrderedMap.get?_erase_eq_some_iff.1 known).2
  | @renamed old new y _ _ _ before =>
    obtain ⟨-, rfl⟩ | ⟨-, -, known⟩ := OrderedMap.get?_insert_erase_eq_some_iff.1 known
    · exact kept before
    · exact kept known
  | @wrote t u name' y =>
    obtain ⟨-, rfl⟩ | ⟨-, known⟩ := OrderedMap.get?_insert_eq_some_iff.1 known
    · exact ⟨rfl, u.nextVersion, _, rfl, OrderedMap.get?_insert_self .., rfl⟩
    · exact kept known

theorem Recorded.reaches (recorded : w.Recorded) (agrees : w.Agrees)
    (apart : w.host.settings.TagsApart) (reaches : Reaches w w') : w'.Recorded := by
  induction reaches with
  | refl => exact recorded
  | call before admissible ih =>
    obtain ⟨agrees', -, -⟩ := agrees.reaches apart before
    exact ih.effect agrees' (effect_after agrees'.valid admissible)

theorem on_restoreTagged_of_idle {tagged : List (String × VersionId)}
    (idle : ∀ e ∈ tagged, on (restoreVariable e.1 e.2) w = (.ok false, w)) :
    on (restoreTagged tagged) w = (.ok 0, w) := by
  induction tagged with
  | nil => rfl
  | cons e rest ih =>
    have later := ih fun e he => idle e (List.mem_cons_of_mem _ he)
    rw [restoreTagged, on_bind_of_ok (idle e (List.mem_cons_self ..)), on_bind_of_ok later]
    rfl

/-- Where workspace and store agree, no variable is left to be taken up. -/
theorem Agrees.on_restoreVariables (agrees : w.Agrees) :
    on restoreVariables w = (.ok 0, w) := by
  rw [Workspace.on_restoreVariables]
  refine on_restoreTagged_of_idle fun e listed => ?_
  obtain ⟨tag, there, named⟩ := mem_taggedVariables.1 listed
  obtain ⟨-, tags, -⟩ | ⟨r, rooted⟩ := agrees.agrees
  · rw [tags] at there
    cases there
  · rw [on_restoreVariable, Variable.on_restore rooted.root]
    split
    · rfl
    · next unknown =>
      rcases rooted.tags.1 there with ⟨-, root⟩ | ⟨name, x, known, same, -⟩
      · rw [root, Variable.reading_root rooted.root]
      · have valid := ne_empty_of_isValidName (rooted.valid_name known)
        rw [same, Settings.variableOfTag?_variableTag _ valid, Option.some.injEq] at named
        exact absurd (OrderedMap.contains_eq_true_iff.2 ⟨x, named ▸ known⟩) unknown

/-- Taking up variables that are read without a change to the store, each under a name for which one
is expected as it reads, and none where none is expected. -/
theorem restoreTagged_fill {expected : String → Option Variable}
    {tagged : List (String × VersionId)}
    (read : ∀ e ∈ tagged, (∃ x, expected e.1 = some x ∧
        (Variable.restore w.host e.2).on w.store = (.ok x, w.store)) ∨
      ∃ e', expected e.1 = none ∧
        (Variable.restore w.host e.2).on w.store = (.error e', w.store))
    (known : ∀ {name x}, w.named.get? name = some x → expected name = some x) :
    ∃ n named, on (restoreTagged tagged) w = (.ok n, { w with named }) ∧
      ∀ name, named.get? name =
        if name ∈ tagged.map Prod.fst then expected name else w.named.get? name := by
  induction tagged generalizing w with
  | nil => exact ⟨0, w.named, rfl, fun name => by simp⟩
  | cons e rest ih =>
    have later : ∀ e ∈ rest, _ := fun e he => read e (List.mem_cons_of_mem _ he)
    -- whichever way the first one is taken, it is then known as it is expected
    obtain ⟨b, named, first, entered, found⟩ : ∃ b named,
        on (restoreVariable e.1 e.2) w = (.ok b, { w with named }) ∧
        named.get? e.1 = expected e.1 ∧
        ∀ name, name ≠ e.1 → named.get? name = w.named.get? name := by
      rw [on_restoreVariable]
      split
      · next there =>
        obtain ⟨x, there⟩ := OrderedMap.contains_eq_true_iff.1 there
        exact ⟨false, w.named, rfl, there.trans (known there).symm, fun _ _ => rfl⟩
      · next unknown =>
        rcases read e (List.mem_cons_self ..) with ⟨x, is, run⟩ | ⟨e', is, run⟩
        · rw [run, is]
          exact ⟨true, w.named.insert e.1 x, rfl, OrderedMap.get?_insert_self ..,
            fun name ne => OrderedMap.get?_insert_of_ne ne ..⟩
        · rw [run, is]
          exact ⟨false, w.named, rfl,
            OrderedMap.contains_eq_false_iff.1 (by simpa using unknown), fun _ _ => rfl⟩
    obtain ⟨n, named', rest_run, found'⟩ := ih (w := { w with named }) later fun {name x} there => by
      by_cases same : name = e.1
      · subst same
        exact entered.symm.trans there
      · exact known ((found name same).symm.trans there)
    refine ⟨(if b then 1 else 0) + n, named', ?_, fun name => ?_⟩
    · rw [restoreTagged, on_bind_of_ok first, on_bind_of_ok rest_run]
      rfl
    · rw [found' name]
      by_cases listed : name ∈ rest.map Prod.fst
      · simp [listed]
      · by_cases same : name = e.1
        · subst same
          simp [entered]
        · simp only [listed, if_false, List.map_cons, List.mem_cons, same, or_self]
          exact found name same

/-- The second workspace knows the variables of the first as they are read back from its store. -/
structure Rereads (w w' : Workspace) : Prop where
  host : w'.host = w.host
  store : w'.store = w.store
  named : ∀ name, w'.named.get? name = (w.named.get? name).map Variable.reread

theorem Rereads.known (rereads : w.Rereads w') {name : String} {y : Variable} :
    w'.named.get? name = some y ↔ ∃ x, w.named.get? name = some x ∧ x.reread = y := by
  rw [rereads.named, Option.map_eq_some_iff]

theorem Rereads.keys (rereads : w.Rereads w') : w'.named.keys = w.named.keys :=
  OrderedMap.keys_eq_of_contains fun name => by simp [OrderedMap.contains, rereads.named]

/-- Agreement does not depend on provenance. -/
theorem AgreesAt.rereads (agrees : w.AgreesAt r) (rereads : w.Rereads w') : w'.AgreesAt r where
  root := by
    rw [rereads.host, rereads.store]
    exact agrees.root
  valid_name known := by
    obtain ⟨x, before, rfl⟩ := rereads.known.1 known
    exact agrees.valid_name before
  holds known := by
    obtain ⟨x, before, rfl⟩ := rereads.known.1 known
    obtain ⟨v, n, holds⟩ := agrees.holds before
    exact ⟨v, n, holds.version, rereads.store ▸ holds.live, holds.parent,
      rereads.host ▸ holds.shape⟩
  distinct known known' version version' := by
    obtain ⟨x, before, rfl⟩ := rereads.known.1 known
    obtain ⟨x', before', rfl⟩ := rereads.known.1 known'
    exact agrees.distinct before before' version version'
  tags {tag v} := by
    rw [rereads.host, rereads.store, agrees.tags]
    refine or_congr_right ⟨?_, ?_⟩
    · rintro ⟨name, x, known, same, version⟩
      exact ⟨name, x.reread, rereads.known.2 ⟨x, known, rfl⟩, same, version⟩
    · rintro ⟨name, y, known, same, version⟩
      obtain ⟨x, before, rfl⟩ := rereads.known.1 known
      exact ⟨name, x, before, same, version⟩
  spared := by
    rw [rereads.store]
    exact agrees.spared

theorem Agrees.rereads (agrees : w.Agrees) (rereads : w.Rereads w') : w'.Agrees := by
  refine ⟨rereads.store ▸ agrees.valid, ?_⟩
  obtain ⟨none, tags, numbered⟩ | ⟨r, rooted⟩ := agrees.agrees
  · refine .inl ⟨OrderedMap.ext_get? fun name => ?_, rereads.store ▸ tags, rereads.store ▸ numbered⟩
    rw [rereads.named, none]
    rfl
  · exact .inr ⟨r, rooted.rereads rereads⟩

/-- The types of the known variables are such that a text names them. -/
def TypesNamed (w : Workspace) : Prop :=
  ∀ {name x}, w.named.get? name = some x → ∃ text, TypeName.ofText? text = some x.type

/-- A known variable reads back from its version. -/
theorem AgreesAt.reading (agrees : w.AgreesAt r) (recorded : w.Recorded) (types : w.TypesNamed)
    {name : String} {x : Variable} {v : VersionId} (known : w.named.get? name = some x)
    (version : x.version = some v) : Variable.reading w.store r.module v = .ok x.reread := by
  obtain ⟨v', n, holds⟩ := agrees.holds known
  obtain rfl : v = v' := Option.some.inj (version.symm.trans holds.version)
  obtain ⟨empty, v', m, version', there, noted⟩ := recorded known
  obtain rfl : v = v' := Option.some.inj (version.symm.trans version')
  obtain rfl : m = n :=
    Option.some.inj (there.symm.trans (Store.live_eq_ok_iff.1 holds.live).1)
  obtain ⟨o, output, shape⟩ := holds.shape
  obtain ⟨text, named⟩ := types known
  exact Variable.reading_of_written version empty output holds.live shape noted named

/-- What a tag of a variable's form names is read back, if it is a known variable's, and cannot be read
otherwise. -/
theorem AgreesAt.restore_of_tag (agrees : w.AgreesAt r) (hs : w.store.Valid)
    (recorded : w.Recorded) (types : w.TypesNamed) {tag name : String} {v : VersionId}
    (there : w.store.tags.get? tag = some v)
    (named : w.host.settings.variableOfTag? tag = some name) :
    (∃ x, w.named.get? name = some x ∧
        (Variable.restore w.host v).on w.store = (.ok x.reread, w.store)) ∨
      ∃ e, w.named.get? name = none ∧
        (Variable.restore w.host v).on w.store = (.error e, w.store) := by
  rw [Variable.on_restore agrees.root]
  rcases agrees.tags.1 there with ⟨-, version⟩ | ⟨name', x, known, same, version⟩
  · refine .inr ⟨.outputNotDesignated, ?_, by rw [version, Variable.reading_root agrees.root]⟩
    refine Option.eq_none_iff_forall_not_mem.2 fun x known => ?_
    -- A known variable's tag names its version, and that is not the variables root.
    obtain ⟨v', n, holds⟩ := agrees.holds known
    have tagged := agrees.tags.2 (.inr ⟨name, x, known, rfl, holds.version⟩)
    rw [Settings.variableTag_of_variableOfTag? named, there, version] at tagged
    exact agrees.ne_root holds hs (Option.some.inj tagged).symm
  · have valid := ne_empty_of_isValidName (agrees.valid_name known)
    rw [same, Settings.variableOfTag?_variableTag _ valid, Option.some.injEq] at named
    subst named
    exact .inl ⟨x, known, by rw [agrees.reading recorded types known version]⟩

/-- Opening the store of a workspace that agrees with it finds all known variables again. -/
theorem Agrees.opened (agrees : w.Agrees) (recorded : w.Recorded) (types : w.TypesNamed)
    (catalogue : Catalogue) :
    ∃ w', opened w.host catalogue w.store = .ok w' ∧ w.Rereads w' := by
  let start := new w.host catalogue w.store
  suffices filled : ∃ n named, on restoreVariables start = (.ok n, { start with named }) ∧
      ∀ name, named.get? name = (w.named.get? name).map Variable.reread by
    obtain ⟨n, named, run, found⟩ := filled
    exact ⟨{ start with named }, by rw [Workspace.opened, run], rfl, rfl, found⟩
  rw [Workspace.on_restoreVariables]
  obtain ⟨none, tags, -⟩ | ⟨r, rooted⟩ := agrees.agrees
  · have empty : start.taggedVariables = [] := by
      show w.store.tags.entries.filterMap _ = []
      rw [tags]
      rfl
    rw [empty]
    exact ⟨0, ∅, rfl, fun name => by rw [none]; rfl⟩
  · let expected (name : String) := (w.named.get? name).map Variable.reread
    have read : ∀ e ∈ start.taggedVariables, (∃ x, expected e.1 = some x ∧
        (Variable.restore start.host e.2).on start.store = (.ok x, start.store)) ∨
        ∃ e', expected e.1 = none ∧
          (Variable.restore start.host e.2).on start.store = (.error e', start.store) := by
      intro e listed
      obtain ⟨tag, there, named⟩ := mem_taggedVariables.1 listed
      obtain ⟨x, known, run⟩ | ⟨e', unknown, run⟩ :=
        rooted.restore_of_tag agrees.valid recorded types there named
      · exact .inl ⟨x.reread, congrArg (Option.map Variable.reread) known, run⟩
      · exact .inr ⟨e', congrArg (Option.map Variable.reread) unknown, run⟩
    obtain ⟨n, named, run, found⟩ := restoreTagged_fill read nofun
    refine ⟨n, named, run, fun name => ?_⟩
    rw [found name]
    split
    · rfl
    · next unlisted =>
      cases known : w.named.get? name with
      | none => rfl
      | some x =>
        -- a known variable is tagged, so it was listed
        refine absurd ?_ unlisted
        obtain ⟨v, m, holds⟩ := rooted.holds known
        have valid := ne_empty_of_isValidName (rooted.valid_name known)
        have listed : (name, v) ∈ start.taggedVariables :=
          mem_taggedVariables.2 ⟨_, rooted.tags.2 (.inr ⟨name, x, known, rfl, holds.version⟩),
            Settings.variableOfTag?_variableTag _ valid⟩
        exact List.mem_map_of_mem listed

/-- After any sequence of calls the known variables are found again in the store. -/
theorem rereads_of_reaches {host : Host} {catalogue : Catalogue} (apart : host.settings.TagsApart)
    (reaches : Reaches (new host catalogue .new) w) (types : w.TypesNamed)
    (catalogue' : Catalogue) :
    ∃ w', opened host catalogue' w.store = .ok w' ∧ w.Rereads w' := by
  have start := agrees_new host catalogue
  obtain ⟨agrees, same, -⟩ := start.reaches apart reaches
  have recorded : w.Recorded :=
    Recorded.reaches (recorded_new host catalogue .new) start apart reaches
  have found := agrees.opened recorded types catalogue'
  rwa [same] at found

/-- A workspace that is opened on the store of another one knows the same names, each with the same
version, type and output, and finds nothing more when it looks for variables again. -/
theorem opened_of_reaches {host : Host} {catalogue : Catalogue} (apart : host.settings.TagsApart)
    (reaches : Reaches (new host catalogue .new) w) (types : w.TypesNamed)
    (catalogue' : Catalogue) :
    ∃ w', opened host catalogue' w.store = .ok w' ∧ w'.store = w.store ∧
      w'.named.keys = w.named.keys ∧
      (∀ name x, w.named.get? name = some x → ∃ y, w'.named.get? name = some y ∧
        y.version = x.version ∧ y.type = x.type ∧ y.output = x.output) ∧
      on restoreVariables w' = (.ok 0, w') := by
  obtain ⟨w', run, rereads⟩ := rereads_of_reaches apart reaches types catalogue'
  obtain ⟨agrees, -⟩ := (agrees_new host catalogue).reaches apart reaches
  exact ⟨w', run, rereads.store, rereads.keys,
    fun name x known => ⟨x.reread, rereads.known.2 ⟨x, known, rfl⟩, rfl, rfl, rfl⟩,
    (agrees.rereads rereads).on_restoreVariables⟩

theorem typesNamed_of_entries (named : ∀ e ∈ w.named.entries,
    TypeName.ofText? e.2.type.text = some e.2.type) : w.TypesNamed := fun {name x} known =>
  ⟨x.type.text, named (name, x) (OrderedMap.get?_eq_some_iff.1 known)⟩

/-- A workspace after a name was given away and taken again, and its variable removed, beside calls
that fail. -/
def reusedSample : Workspace :=
  (((((sample.after (.renameVariable "x" "y")).after (.performOperation "x = y")).after
    (.renameVariable "y" "x")).after (.performOperation "z = 'a'")).after
      (.removeVariable "x")).after (.addVariable "z" { type := ⟨"b", "Float"⟩ })

theorem reaches_reusedSample : Reaches sampleStart reusedSample :=
  (((((reaches_sample.call (c := .renameVariable "x" "y") trivial).call
    (c := .performOperation "x = y") trivial).call (c := .renameVariable "y" "x") trivial).call
      (c := .performOperation "z = 'a'") trivial).call (c := .removeVariable "x") trivial).call
        (c := .addVariable "z" { type := ⟨"b", "Float"⟩ }) (.new _)

theorem opened_of_reaches_reused :
    reusedSample.named.keys = ["y", "z"] ∧
      reusedSample.named.values.map (·.version) = [some 2, some 4] ∧
      ∃ w', opened sampleStart.host sampleStart.catalogue reusedSample.store = .ok w' ∧
        w'.store = reusedSample.store ∧ w'.named.keys = reusedSample.named.keys ∧
        (∀ name x, reusedSample.named.get? name = some x → ∃ y, w'.named.get? name = some y ∧
          y.version = x.version ∧ y.type = x.type ∧ y.output = x.output) ∧
        on restoreVariables w' = (.ok 0, w') :=
  ⟨by decide +kernel, by decide +kernel,
    opened_of_reaches (Settings.tagsApart_of_default rfl) reaches_reusedSample
      (typesNamed_of_entries (by decide +kernel)) _⟩

end Dataflow.Workspace
