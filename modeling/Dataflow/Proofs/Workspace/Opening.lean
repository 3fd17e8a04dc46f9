import Dataflow.Proofs.Store.Requests
import Dataflow.Proofs.Workspace.Atomicity

/-! What taking up the variables of a store leaves in it. A version is read below the variables root, so
the first one that is read has the variables root made where there is none. Nothing else is written,
whatever can be read and whatever is passed over. -/

namespace Dataflow

namespace Action

/-- Every run leaves the store alone. -/
abbrev Still (a : Action α) : Prop := Moves Eq a

theorem Still.bind {a : Action α} {f : α → Action β} (ha : a.Still) (hf : ∀ x, (f x).Still) :
    (a >>= f).Still :=
  Moves.bind (fun _ _ _ => .trans) ha hf

/-- What follows an action and leaves the store alone can be left out. -/
theorem after_bind_of_still {a : Action α} {f : α → Action β} (still : ∀ x, (f x).Still)
    (s : Store) : ((a >>= f).on s).2 = (a.on s).2 := by
  rw [on_bind]
  rcases a.on s with ⟨e | x, t⟩
  · rfl
  · exact (still x t).symm

end Action

namespace Host

variable {h : Host} {s : Store}

/-- No version has the tag of the variables root, and the type of its module is known. -/
def Lacks (h : Host) (s : Store) : Prop :=
  s.tags.get? h.rootTag = none ∧ ∃ type, h.basic "OutputPort" = .ok type

/-- The store after the variables root was asked for. -/
def afterRoot (h : Host) (s : Store) : Store := (h.variablesRoot.on s).2

theorem afterRoot_of_lacks (hs : s.Valid) (lacks : h.Lacks s) : h.afterRoot s = h.withRoot s := by
  obtain ⟨absent, type, known⟩ := lacks
  rw [afterRoot, on_variablesRoot_of_absent hs absent, known]

theorem afterRoot_of_not_lacks (hs : s.Valid) (lacks : ¬ h.Lacks s) : h.afterRoot s = s := by
  unfold afterRoot
  obtain ⟨e, run⟩ | ⟨r, n, run, -⟩ | ⟨absent, -⟩ := variablesRoot_cases (h := h) hs
  · rw [run]
  · rw [run]
  · cases known : h.basic "OutputPort" with
    | ok type => exact absurd ⟨absent, type, known⟩ lacks
    | error e => rw [on_variablesRoot_of_absent hs absent, known]

theorem valid_afterRoot (hs : s.Valid) : (h.afterRoot s).Valid :=
  (preparing_variablesRoot (h := h) s hs).valid hs

theorem afterRoot_afterRoot (hs : s.Valid) : h.afterRoot (h.afterRoot s) = h.afterRoot s := by
  by_cases lacks : h.Lacks s
  · rw [afterRoot_of_lacks hs lacks]
    exact congrArg Prod.snd (rootAt_withRoot s).on_variablesRoot
  · rw [afterRoot_of_not_lacks hs lacks, afterRoot_of_not_lacks hs lacks]

end Host

/-- Reading a version asks for the variables root, and only looks at the store from then on. -/
theorem Variable.after_restore (h : Host) (v : VersionId) (s : Store) :
    ((restore h v).on s).2 = h.afterRoot s := by
  refine Action.after_bind_of_still (fun root => ?_) s
  refine Action.Still.bind (Action.moves_query .refl _) fun p => ?_
  refine Action.Still.bind (Action.moves_ofExcept .refl _) fun o => ?_
  refine Action.Still.bind (Action.moves_get .refl) fun s => ?_
  exact Action.Still.bind (Action.moves_ofExcept .refl _) fun type => Action.moves_pure .refl _

namespace Workspace

variable {w : Workspace}

/-- One of the tagged versions has a name that is not known yet. -/
def Awaits (w : Workspace) (tagged : List (String × VersionId)) : Prop :=
  ∃ e ∈ tagged, w.named.contains e.1 = false

instance (w : Workspace) (tagged : List (String × VersionId)) : Decidable (w.Awaits tagged) :=
  inferInstanceAs (Decidable (∃ e ∈ tagged, w.named.contains e.1 = false))

theorem awaits_cons {e : String × VersionId} {rest : List (String × VersionId)} :
    w.Awaits (e :: rest) ↔ w.named.contains e.1 = false ∨ w.Awaits rest := by
  simp only [Awaits, List.mem_cons, exists_eq_or_imp]

/-- A version with a name that is not known is read, and taken up or passed over. -/
theorem on_restoreVariable_of_unknown {name : String} (unknown : w.named.contains name = false)
    (v : VersionId) : ∃ b named, on (restoreVariable name v) w =
      (.ok b, { w with store := w.host.afterRoot w.store, named }) := by
  rw [on_restoreVariable, unknown]
  have after := Variable.after_restore w.host v w.store
  rcases restored : (Variable.restore w.host v).on w.store with ⟨fault | x, s⟩
  · rw [restored] at after
    exact ⟨false, w.named, by rw [← after]; rfl⟩
  · rw [restored] at after
    exact ⟨true, w.named.insert name x, by rw [← after]; rfl⟩

/-- The variables root is asked for if a name is not known, and the store is left alone otherwise. -/
theorem on_restoreTagged (hs : w.store.Valid) (tagged : List (String × VersionId)) :
    ∃ n named, on (restoreTagged tagged) w = (.ok n, { w with
      store := if w.Awaits tagged then w.host.afterRoot w.store else w.store, named }) := by
  induction tagged generalizing w with
  | nil => exact ⟨0, w.named, rfl⟩
  | cons e rest ih =>
    rw [restoreTagged]
    cases known : w.named.contains e.1 with
    | true =>
      have first : on (restoreVariable e.1 e.2) w = (.ok false, w) := by
        rw [on_restoreVariable, known]
        rfl
      obtain ⟨n, named, later⟩ := ih hs
      refine ⟨0 + n, named, ?_⟩
      rw [on_bind_of_ok first, on_bind_of_ok later]
      simp [awaits_cons, known]
    | false =>
      obtain ⟨b, named, first⟩ := on_restoreVariable_of_unknown known e.2
      obtain ⟨n, named', later⟩ := ih (w := { w with store := w.host.afterRoot w.store, named })
        (Host.valid_afterRoot hs)
      refine ⟨(if b then 1 else 0) + n, named', ?_⟩
      rw [on_bind_of_ok first, on_bind_of_ok later]
      simp [awaits_cons, known, Host.afterRoot_afterRoot hs]

theorem opened_eq_ok {host : Host} {catalogue : Catalogue} {s : Store} {n : Nat}
    (run : on restoreVariables (new host catalogue s) = (.ok n, w)) :
    opened host catalogue s = .ok w := by
  rw [opened, run]

/-- A tag names a variable that is not known yet, and there is no variables root to read it below. -/
def AddsRoot (w : Workspace) : Prop := w.Awaits w.taggedVariables ∧ w.host.Lacks w.store

/-- Taking up the variables of a store never fails, and leaves the store as it is: its versions with their
pipelines and annotations, its tags and its selected version. Only where a tag names a variable that is not
known yet, while no version has the tag of the variables root and the type of its module is known, that
root is added and selected, whichever versions can be read. To open a store is to take up its variables
while none is known. -/
theorem restoreVariables_store (host : Host) (catalogue : Catalogue)
    (named : OrderedMap String Variable) (rs : List Store.Request) :
    let s := Store.new.afterAll rs
    let w : Workspace := ⟨host, catalogue, s, named⟩
    ∃ n w', on restoreVariables w = (.ok n, w') ∧
      (named = ∅ → opened host catalogue s = .ok w') ∧
      (¬ w.AddsRoot → w'.store = s) ∧
      (w.AddsRoot → s.Adds w'.store s.nextVersion (host.rootVersion s.nextModule) host.rootTag) := by
  intro s w
  have hs : s.Valid := Store.valid_new.afterAll rs
  obtain ⟨n, named', run⟩ := on_restoreTagged (w := w) hs w.taggedVariables
  refine ⟨n, _, run, ?_, fun adds => ?_, fun ⟨awaits, lacks⟩ => ?_⟩
  · rintro rfl
    exact opened_eq_ok run
  · split
    · next awaits => exact Host.afterRoot_of_not_lacks hs fun lacks => adds ⟨awaits, lacks⟩
    · rfl
  · rw [if_pos awaits, Host.afterRoot_of_lacks hs lacks]
    exact adds_withRoot hs (.refl s) lacks.1

/-- A version is tagged for the variable `x`, but is none of a variable. Opening its store takes up nothing,
and yet adds the variables root and selects it. -/
theorem opened_adds_root :
    let s := Store.new.afterAll [.commit [], .tag 1 "dat-var-x"]
    s.tags.entries = [("dat-var-x", 1)] ∧ s.current = 1 ∧
      (opened sampleStart.host sampleStart.catalogue s).toOption.map
          (fun w => (w.named.keys, w.store.tags.entries, w.store.current)) =
        some ([], [("dat-var-x", 1), ("dat-vars", 2)], 2) := by
  decide +kernel

end Workspace

end Dataflow
