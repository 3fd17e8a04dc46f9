import Mathlib.Data.List.Induction
import Dataflow.Proofs.Workspace.Labels
import Dataflow.Proofs.Workspace.Repeating

/-! How the variables root is found again. Its tag lies among those of variables, and nothing keeps a
variable from taking it. As long as no known variable has that tag, whatever the settings are, the
variables root stays what it is; where one has it, the variables root is lost. -/

namespace Dataflow.Workspace

variable {w w' : Workspace} {r : VariablesRoot}

/-- A known variable has the tag of the variables root. -/
def Clashes (w : Workspace) : Prop :=
  ∃ name x, w.named.get? name = some x ∧ w.host.settings.variableTag name = w.host.rootTag

/-- Where the tags are apart, no variable ever has that of the variables root. -/
theorem Agrees.not_clashes (agrees : w.Agrees) (apart : w.host.settings.TagsApart) :
    ¬ w.Clashes := by
  rintro ⟨name, x, known, taken⟩
  obtain ⟨none, -⟩ | ⟨root, rooted⟩ := agrees.agrees
  · rw [none] at known
    cases known
  · exact apart name (rooted.valid_name known) taken

theorem Labelled.lost (labelled : w.Labelled) (clashes : w.Clashes) :
    ¬ w.host.Finds w.store r := by
  obtain ⟨name, x, known, taken⟩ := clashes
  exact (labelled.bears known).lost labelled.valid taken

/-- Whatever a call does, the variables root stays what it is, unless a variable gets its tag. -/
theorem Labelled.finds_effect (labelled : w.Labelled) (finds : w.host.Finds w.store r)
    (effect : w.Effect w') (clear : ¬ w'.Clashes) : w'.host.Finds w'.store r := by
  have hs := labelled.valid
  have hs' := effect.valid hs
  cases effect with
  | @prepared u v prepares =>
    exact (finds.prepares hs prepares).mono (prepares.valid hs) hs'
      fun n names => ⟨names.tag, names.live⟩
  | @wrote t u name x g o r' base _ _ prepares asked =>
    have rooted := Host.preparing_variablesRoot.prepares (prepares.valid hs) asked
    have hu := (prepares.trans rooted).valid hs
    have selected := (hu.mints ⟨0, 1, rfl⟩).current r'.version
    apply (finds.prepares hs (prepares.trans rooted)).mono hu hs'
    intro n names
    refine (Store.names_tagged _).2 (.inr ⟨?_, Nat.ne_of_lt (hu.tag_lt names.tag), ?_⟩)
    · exact fun taken => clear ⟨name, _, OrderedMap.get?_insert_self .., taken.symm⟩
    · exact (Store.names_extended selected _).2 ⟨names.tag, names.live⟩
  | @forgot name x v n known version =>
    have other := (labelled.bears known).ne_root hs finds version
    exact finds.mono hs hs' fun m names => (Store.names_without v n).2 ⟨other, names⟩
  | @renamed old new x v n _ known _ version =>
    have other := (labelled.bears known).ne_root hs finds version
    apply finds.mono hs hs'
    intro m names
    refine (Store.names_tagged _).2 (.inr ⟨?_, other, names⟩)
    exact fun taken => clear ⟨new, x, OrderedMap.get?_insert_self .., taken.symm⟩
  | restored prepares => exact finds.prepares hs prepares
  | @compiled u edits p prepares =>
    have hu := prepares.valid hs
    apply (finds.prepares hs prepares).mono hu hs'
    intro n names
    exact (Store.names_extended (hu.current VersionId.root) _).2 ⟨names.tag, names.live⟩

/-- The workspace after calls in their order. -/
def afterAll (w : Workspace) : List Call → Workspace
  | [] => w
  | c :: cs => (w.after c).afterAll cs

theorem afterAll_concat (w : Workspace) (cs : List Call) (c : Call) :
    w.afterAll (cs ++ [c]) = (w.afterAll cs).after c := by
  induction cs generalizing w with
  | nil => rfl
  | cons _ cs ih => exact ih _

theorem reaches_afterAll {cs : List Call} (admissible : ∀ c ∈ cs, c.Admissible) :
    Reaches w (w.afterAll cs) := by
  induction cs generalizing w with
  | nil => exact .refl
  | cons c cs ih =>
    have first : Reaches w (w.after c) := Reaches.refl.call (admissible c (List.mem_cons_self ..))
    exact first.trans (ih fun d listed => admissible d (List.mem_cons_of_mem c listed))

/-- The variables root stays what it is as long as no variable gets its tag. -/
theorem Labelled.finds_afterAll (labelled : w.Labelled) (finds : w.host.Finds w.store r)
    {cs : List Call} (admissible : ∀ c ∈ cs, c.Admissible)
    (clear : ∀ ds, ds <+: cs → ¬ (w.afterAll ds).Clashes) :
    w.host.Finds (w.afterAll cs).store r := by
  induction cs using List.reverseRecOn with
  | nil => exact finds
  | append_singleton cs c ih =>
    have before : ∀ c ∈ cs, c.Admissible :=
      fun c listed => admissible c (List.mem_append_left _ listed)
    have there := ih before fun ds first => clear ds (first.trans (List.prefix_append ..))
    obtain ⟨labelled', host⟩ := labelled.reaches (reaches_afterAll before)
    have effect := effect_after labelled'.valid
      (admissible c (List.mem_append_right _ (List.mem_singleton_self c)))
    have last := clear _ List.prefix_rfl
    rw [afterAll_concat] at last ⊢
    have after := labelled'.finds_effect (host.symm ▸ there) effect last
    rwa [effect.host.1, host] at after

/-- A variables root that was found or made is the same after all calls that follow, whether they succeed
or fail, just if at no time a known variable has its tag. By settings that keep the tags apart, it always
is. -/
theorem variablesRoot_stable_iff {host : Host} {catalogue : Catalogue} {w : Workspace}
    (reaches : Reaches (new host catalogue .new) w) {r : VariablesRoot} {s : Store}
    (asked : host.variablesRoot.on w.store = (.ok r, s)) {cs : List Call}
    (admissible : ∀ c ∈ cs, c.Admissible) :
    let w₀ := { w with store := s }
    ((∀ ds, ds <+: cs → host.Finds (w₀.afterAll ds).store r) ↔
      ∀ ds, ds <+: cs → ¬ (w₀.afterAll ds).Clashes) ∧
    (host.settings.TagsApart → ∀ ds, ds <+: cs → host.Finds (w₀.afterAll ds).store r) := by
  intro w₀
  obtain ⟨labelled, rfl⟩ := (labelled_start host catalogue).reaches reaches
  have prepares := Host.preparing_variablesRoot (h := w.host) w.store labelled.valid
  rw [asked] at prepares
  have ready : w₀.Labelled := labelled.prepares prepares
  have finds : w₀.host.Finds w₀.store r := Host.variablesRoot_again labelled.valid asked (.refl s)
  have within : ∀ ds, ds <+: cs → ∀ c ∈ ds, c.Admissible :=
    fun ds first c listed => admissible c (first.subset listed)
  have stays : (∀ ds, ds <+: cs → ¬ (w₀.afterAll ds).Clashes) →
      ∀ ds, ds <+: cs → w.host.Finds (w₀.afterAll ds).store r := by
    intro clear ds first
    exact ready.finds_afterAll finds (within ds first)
      fun ds' first' => clear ds' (first'.trans first)
  refine ⟨⟨fun found ds first => ?_, stays⟩, fun apart => stays fun ds first => ?_⟩
  · obtain ⟨labelled', host⟩ := ready.reaches (reaches_afterAll (within ds first))
    intro clashes
    exact labelled'.lost clashes (host.symm ▸ found ds first)
  · have start := (agrees_of_reaches apart reaches).prepares prepares
    obtain ⟨agrees, host, -⟩ := start.reaches apart (reaches_afterAll (within ds first))
    exact agrees.not_clashes (host.symm ▸ apart)

/-- The variables root of an empty store, with the usual tags. -/
theorem variablesRoot_stable_sample :
    let w := { sampleStart with store := sampleStart.host.withRoot .new }
    let cs : List Call := [.performOperation "x = 1", .renameVariable "x" "y", .removeVariable "y"]
    ∀ ds, ds <+: cs → sampleStart.host.Finds (w.afterAll ds).store ⟨1, 1⟩ := by
  intro w cs
  have asked : sampleStart.host.variablesRoot.on sampleStart.store =
      (.ok ⟨1, 1⟩, sampleStart.host.withRoot .new) :=
    (Host.on_variablesRoot_of_absent Store.valid_new rfl).trans rfl
  have admissible : ∀ c ∈ cs, c.Admissible := by
    simp [cs, Call.Admissible]
  exact (variablesRoot_stable_iff .refl asked admissible).2 (Settings.tagsApart_of_default rfl)

/-- The statement `x = 2` takes the tag of the variables root that was made for the variable `y`. -/
theorem variablesRoot_lost :
    let w := collidingStart.after (.performOperation "y = 1")
    let w' := w.after (.performOperation "x = 2")
    Reaches collidingStart w ∧ Reaches w w' ∧
      (w.host.variablesRoot.on w.store).1 = .ok ⟨1, 2⟩ ∧
      (w.host.variablesRoot.on w'.store).1 = .error (.host (.malformedRoot "dat-var-x" 2)) := by
  exact ⟨.call .refl trivial, .call .refl trivial, by decide +kernel, by decide +kernel⟩

end Dataflow.Workspace
