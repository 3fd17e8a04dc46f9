import Dataflow.Proofs.Host.Sharing
import Dataflow.Proofs.Operation.Growth
import Dataflow.Proofs.Workspace.Agreement

/-! Variables are copied and never shared. Whatever calls do, every version has modules and connections
of its own beside the module of the variables root, as long as a variable that is handed over was built
on the same store and nothing of it was handed over before. -/

namespace Dataflow

/-- What was unused or apart in a store is so in a later one. -/
structure Host.Keeps (h : Host) (s t : Store) : Prop where
  separate : h.Separate t
  precedes : s.Precedes t
  unused : ∀ {A}, h.Unused s A → h.Unused t A
  solitary : ∀ {v}, h.Solitary s v → h.Solitary t v

namespace Host

variable {h : Host} {s t u : Store} {A : Identifiers}

theorem unused_idsOf {xs : List Variable} (unused : ∀ x ∈ xs, h.Unused s x.ids) :
    h.Unused s (Variable.idsOf xs) := by
  induction xs with
  | nil => exact h.unused_bot s
  | cons x xs ih =>
    obtain ⟨first, rest⟩ := List.forall_mem_cons.1 unused
    exact first.sup (ih rest)

theorem Grows.keeps (grows : h.Grows ⊥ s t) (separate : h.Separate s) : h.Keeps s t where
  separate := grows.separate separate (h.unused_bot s)
  precedes := grows.precedes
  unused unused := grows.unused unused disjoint_bot_right
  solitary := grows.solitary separate

/-- A version may be added that is made of identifiers given out meanwhile. -/
theorem Prepares.keeps (prepares : h.Prepares s t) (hs : s.Valid) (rooted : h.Rooted s)
    (separate : h.Separate s) (new : A ≤ s.given t) (grows : h.Grows A t u) : h.Keeps s u := by
  have first := (prepares.grows hs rooted).keeps separate
  have free := prepares.unused rooted separate new
  refine ⟨grows.separate first.separate free, first.precedes.trans grows.precedes, ?_, ?_⟩
  · intro B unused
    exact grows.unused (first.unused unused) ((s.disjoint_issued_given t).mono unused.issued new)
  · exact fun solitary => grows.solitary first.separate (first.solitary solitary)

end Host

namespace Workspace

variable {w : Workspace}

theorem Agrees.root (agrees : w.Agrees) : w.host.Rooted w.store := by
  obtain ⟨-, tags, -⟩ | ⟨r, rooted⟩ := agrees.agrees
  · refine .inl ?_
    rw [tags]
    rfl
  · exact .inr ⟨r, rooted.root⟩

theorem grows_register (hs : w.store.Valid) (rooted : w.host.Rooted w.store)
    (apart : w.host.settings.TagsApart) (name : String) (x : Variable) :
    ∃ w', (∃ e, on (register name x) w = (.error e, w') ∧ w.host.Grows ⊥ w.store w'.store) ∨
      ∃ y, on (register name x) w = (.ok y, w') ∧ w.host.Grows x.ids w.store w'.store := by
  rw [on_register]
  split
  · exact ⟨w, .inl ⟨_, rfl, .refl ..⟩⟩
  · next valid =>
    split
    · exact ⟨w, .inl ⟨_, rfl, .refl ..⟩⟩
    · obtain ⟨t, ⟨e, run, grows⟩ | ⟨y, run, grows⟩⟩ :=
        Host.grows_materialize hs rooted (apart name (by simpa using valid)).symm x
      · rw [run]
        exact ⟨_, .inl ⟨e, rfl, grows⟩⟩
      · rw [run]
        exact ⟨_, .inr ⟨y.2, rfl, grows⟩⟩

theorem store_renameVariable (old new : String) (w : Workspace) :
    (on (renameVariable old new) w).2.store =
      { w.store with tags := (on (renameVariable old new) w).2.store.tags } := by
  obtain ⟨e, run⟩ | ⟨x, v, n, -, -, -, -, -, run⟩ := renameVariable_outcome w old new <;> rw [run]
  rfl

theorem ids_loaded (loader : Loader) (x : Variable) : (loaded loader x).ids = x.ids := by
  unfold loaded
  split <;> rfl

/-- Registering a variable that was built meanwhile keeps versions separate. -/
theorem keeps_register (agrees : w.Agrees) (apart : w.host.settings.TagsApart)
    (separate : w.host.Separate w.store) {t : Store} (prepares : w.host.Prepares w.store t)
    (name : String) {x : Variable} (new : x.ids ≤ w.store.given t) :
    w.host.Keeps w.store (on (register name x) { w with store := t }).2.store := by
  have ready : Agrees { w with store := t } := agrees.prepares prepares
  refine prepares.keeps agrees.valid agrees.root separate new ?_
  obtain ⟨w', ⟨e, run, grows⟩ | ⟨y, run, grows⟩⟩ :=
    grows_register ready.valid ready.root apart name x
  · rw [run]
    exact grows.mono bot_le
  · rw [run]
    exact grows

section

variable (agrees : w.Agrees) (apart : w.host.settings.TagsApart)
include agrees apart

/-- Once a variable is known, the variables root stays. -/
theorem shared_of_known {w' : Workspace} (effect : w.Effect w') {name : String} {x : Variable}
    (known : w.named.get? name = some x) :
    w.host.shared w'.store = w.host.shared w.store := by
  obtain ⟨named, -⟩ | ⟨r, rooted⟩ := agrees.agrees
  · rw [named] at known
    cases known
  · have root := (rooted.effect agrees.valid apart effect).root
    rw [effect.host.1] at root
    rw [root.shared_eq, rooted.root.shared_eq]

theorem grows_renameVariable (old new : String) :
    w.host.Grows ⊥ w.store (on (renameVariable old new) w).2.store := by
  have effect := effect_renameVariable (w := w) old new
  obtain ⟨e, run⟩ | ⟨x, v, n, -, known, -, -, -, run⟩ := renameVariable_outcome w old new <;>
    rw [run] at effect ⊢
  · exact .refl ..
  · exact .of_same ⟨le_rfl, le_rfl⟩ (shared_of_known agrees apart effect known) fun _ => rfl

theorem grows_removeVariable (name : String) :
    w.host.Grows ⊥ w.store (on (removeVariable name) w).2.store := by
  have effect := effect_removeVariable (w := w) name
  obtain ⟨e, run⟩ | ⟨x, v, n, known, -, -, there, run⟩ := removeVariable_outcome w name <;>
    rw [run] at effect ⊢
  · exact .refl ..
  · refine .of_same ⟨le_rfl, le_rfl⟩ (shared_of_known agrees apart effect known) fun v' => ?_
    rw [Store.get?_without]
    split
    · next same => rw [same, there]; rfl
    · rfl

variable (separate : w.host.Separate w.store)
include separate

theorem keeps_performOperation (text : String) :
    w.host.Keeps w.store (on (performOperation text) w).2.store := by
  have unchanged : w.host.Keeps w.store w.store := (Host.Grows.refl ..).keeps separate
  rw [on_performOperation]
  split
  · exact unchanged
  · next target e _ =>
    split
    · exact unchanged
    · split
      · exact unchanged
      · next node warnings _ =>
        have prepares := node.preparing_execute w.host w.store agrees.valid
        split
        · next fault s run =>
          rw [run] at prepares
          exact (prepares.grows agrees.valid agrees.root).keeps separate
        · next x s run =>
          have new := (node.builds_execute agrees.valid run).2
          rw [run] at prepares
          have keeps := keeps_register agrees apart separate prepares target (new.trans (by simp))
          split
          · next registered =>
            rw [registered] at keeps
            exact keeps
          · next registered =>
            rw [registered] at keeps
            exact keeps

theorem keeps_loadVariable (loader : Loader) (name : Option String) :
    w.host.Keeps w.store (on (loadVariable loader name) w).2.store := by
  rw [on_loadVariable]
  split
  · exact (Host.Grows.refl ..).keeps separate
  · have prepares := loader.preparing_load w.host w.store agrees.valid
    split
    · next fault s run =>
      rw [run] at prepares
      exact (prepares.grows agrees.valid agrees.root).keeps separate
    · next x s run =>
      have new : (loaded loader x).ids ≤ w.store.given s := by
        rw [ids_loaded]
        exact (loader.builds_load agrees.valid run).2.trans (bot_sup_eq _).le
      rw [run] at prepares
      have keeps := keeps_register agrees apart separate prepares (w.loadedName loader name) new
      split
      · next registered =>
        rw [registered] at keeps
        exact keeps
      · next registered =>
        rw [registered] at keeps
        exact keeps

omit apart

theorem keeps_restoreVariables : w.host.Keeps w.store (on restoreVariables w).2.store := by
  obtain ⟨u, named, after, prepares, -⟩ := restoreTagged_cases w.taggedVariables agrees.valid
  rw [on_restoreVariables, after]
  exact (prepares.grows agrees.valid agrees.root).keeps separate

end

/-- The version that a call answers as a recipe's. -/
def made (w : Workspace) : Call → Option VersionId
  | .createPipeline r => (on (createPipeline r) w).1.toOption
  | _ => none

/-- Every call but that which hands over a variable keeps versions separate, and a version that it
makes of a recipe has nothing in common with any other. -/
theorem keeps_after (agrees : w.Agrees) (apart : w.host.settings.TagsApart)
    (separate : w.host.Separate w.store) {c : Call} (own : ∀ name x, c ≠ .addVariable name x) :
    w.host.Keeps w.store (w.after c).store ∧
      ∀ v ∈ w.made c, w.host.Solitary (w.after c).store v := by
  cases c with
  | performOperation text =>
    exact ⟨keeps_performOperation agrees apart separate text, by simp [made]⟩
  | addVariable name x => exact absurd rfl (own name x)
  | loadVariable loader name =>
    exact ⟨keeps_loadVariable agrees apart separate loader name, by simp [made]⟩
  | renameVariable old new =>
    exact ⟨(grows_renameVariable agrees apart old new).keeps separate, by simp [made]⟩
  | removeVariable name =>
    exact ⟨(grows_removeVariable agrees apart name).keeps separate, by simp [made]⟩
  | restoreVariables => exact ⟨keeps_restoreVariables agrees separate, by simp [made]⟩
  | createPipeline r =>
    obtain ⟨grows, alone⟩ := Host.grows_compile (A := ⊥) agrees.valid agrees.root r
    simp only [after, made, on_createPipeline]
    refine ⟨grows.keeps separate, fun v listed => ?_⟩
    rcases run : (r.compile w.host).on w.store with ⟨e | v', t⟩
    · rw [run] at listed
      cases listed
    · rw [run] at listed
      cases listed
      exact alone _ _ run

end Workspace

end Dataflow
