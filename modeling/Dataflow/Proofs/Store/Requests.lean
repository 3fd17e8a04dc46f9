import Dataflow.Proofs.Store.Changes

/-! Requests to a store, one after the other, and all that a request can do: number a module or a
connection, select a version, or commit, tag, annotate or prune one. A request that is refused does
nothing. -/

namespace Dataflow.Store

/-- What a store can be asked to do. -/
inductive Request
  | select (v : VersionId)
  | createModule (type : TypeName)
  | createConnection (source destination : PortRef)
  | commit (edits : List Edit)
  | tag (v : VersionId) (name : String)
  | annotate (v : VersionId) (key value : String)
  | prune (v : VersionId)

/-- The work that a request asks for. -/
def Request.perform : Request → Action Unit
  | .select v => Action.change (·.select v)
  | .createModule type => do let _ ← Action.createModule type; return
  | .createConnection source destination => do
    let _ ← Action.createConnection source destination; return
  | .commit edits => do let _ ← Action.commit edits; return
  | .tag v name => Action.change (·.tag v name)
  | .annotate v key value => Action.change (·.annotate v key value)
  | .prune v => Action.change (·.prune v)

/-- The store after a request, refused or not. -/
def after (s : Store) (r : Request) : Store := (r.perform.on s).2

/-- The store after requests in their order. -/
def afterAll (s : Store) : List Request → Store
  | [] => s
  | r :: rs => (s.after r).afterAll rs

theorem afterAll_append (s : Store) (rs qs : List Request) :
    s.afterAll (rs ++ qs) = (s.afterAll rs).afterAll qs := by
  induction rs generalizing s with
  | nil => rfl
  | cons r rs ih => exact ih (s.after r)

/-- What every request keeps is kept by all runs. -/
theorem afterAll_induction {P : Store → Prop} (kept : ∀ s r, P s → P (s.after r)) {s : Store}
    (start : P s) (rs : List Request) : P (s.afterAll rs) := by
  induction rs generalizing s with
  | nil => exact start
  | cons r rs ih => exact ih (kept s r start)

/-- The store after a live version got an annotation. -/
def annotated (s : Store) (v : VersionId) (n : Version) (key value : String) : Store :=
  { s with
    versions :=
      s.versions.insert v { n with annotations := n.annotations.insert key value } }

theorem get?_annotated (s : Store) (v : VersionId) (n : Version) (key value : String)
    (w : VersionId) : (s.annotated v n key value).versions.get? w =
      if w = v then some { n with annotations := n.annotations.insert key value }
      else s.versions.get? w :=
  OrderedMap.get?_insert ..

/-- All that a request can do to a store. -/
inductive Step (s : Store) : Request → Store → Prop
  | minted {r : Request} {t : Store} (mints : s.Mints t) : Step s r t
  | selected {v : VersionId} {n : Version} (live : s.live v = .ok n) :
      Step s (.select v) { s with current := v }
  | committed {edits : List Edit} {base : Version} {p : Pipeline}
      (live : s.live s.current = .ok base) (applies : base.pipeline.applyAll edits = .ok p) :
      Step s (.commit edits) (s.extended ⟨some s.current, edits, p, ∅, false⟩)
  | tagged {v : VersionId} {n : Version} (live : s.live v = .ok n) (name : String) :
      Step s (.tag v name) (s.tagged v name)
  | annotated {v : VersionId} {n : Version} (live : s.live v = .ok n) (key value : String) :
      Step s (.annotate v key value) (s.annotated v n key value)
  | pruned {v : VersionId} {n : Version} (ne : v ≠ VersionId.root)
      (there : s.versions.get? v = some n) : Step s (.prune v) (s.without v n)

theorem Step.refused (s : Store) (r : Request) : s.Step r s := .minted (.refl s)

theorem after_eq_of_change {r : Request} {f : Store → Except HostFault Store}
    (change : r.perform = Action.change f) (s : Store) :
    s.after r = match f s with
      | .ok t => t
      | .error _ => s := by
  rw [after, change, Action.on_change]
  cases f s <;> rfl

theorem after_commit (s : Store) (edits : List Edit) :
    s.after (.commit edits) = match s.commit edits with
      | .ok (_, t) => t
      | .error _ => s := by
  unfold after Request.perform
  rw [Action.on_bind, Action.on_commit]
  rcases s.commit edits with _ | ⟨_, _⟩ <;> rfl

theorem step_of_change {r : Request} {f : Store → Except HostFault Store}
    (change : r.perform = Action.change f) {s : Store} (done : ∀ t, f s = .ok t → s.Step r t) :
    s.Step r (s.after r) := by
  rw [after_eq_of_change change]
  cases run : f s with
  | error fault => exact .refused s r
  | ok t => exact done t run

theorem map_live_eq_ok {s t : Store} {v : VersionId} {f : Version → Store}
    (run : (s.live v).map f = .ok t) : ∃ n, s.live v = .ok n ∧ f n = t := by
  cases live : s.live v with
  | error fault =>
    rw [live] at run
    cases run
  | ok n =>
    rw [live] at run
    exact ⟨n, rfl, Except.ok.inj run⟩

theorem commit_of_dead {s : Store} {fault : HostFault} (dead : s.live s.current = .error fault)
    (edits : List Edit) : s.commit edits = .error fault := by
  simp [commit, dead, bind, Except.bind]

theorem step_commit (s : Store) (edits : List Edit) :
    s.Step (.commit edits) (s.after (.commit edits)) := by
  rw [after_commit]
  cases live : s.live s.current with
  | error fault =>
    rw [commit_of_dead live]
    exact .refused s _
  | ok base =>
    cases applies : base.pipeline.applyAll edits with
    | error fault =>
      rw [commit_of_refused live applies]
      exact .refused s _
    | ok p =>
      rw [commit_of_applyAll live applies]
      exact .committed live applies

theorem step_after (s : Store) (r : Request) : s.Step r (s.after r) := by
  cases r with
  | select v =>
    apply step_of_change rfl
    intro t run
    obtain ⟨n, live, rfl⟩ := map_live_eq_ok run
    exact .selected live
  | createModule type => exact .minted (s.mints_createModule type)
  | createConnection source destination =>
    exact .minted (s.mints_createConnection source destination)
  | commit edits => exact s.step_commit edits
  | tag v name =>
    apply step_of_change rfl
    intro t run
    obtain ⟨n, live, rfl⟩ := map_live_eq_ok run
    exact .tagged live name
  | annotate v key value =>
    apply step_of_change rfl
    intro t run
    obtain ⟨n, live, rfl⟩ := map_live_eq_ok run
    exact .annotated live key value
  | prune v =>
    apply step_of_change rfl
    intro t run
    obtain ⟨ne, n, there, rfl⟩ := prune_eq_ok run
    exact .pruned ne there

theorem Valid.annotated {s : Store} (hs : s.Valid) {v : VersionId} {n : Version}
    (live : s.live v = .ok n) (key value : String) : (s.annotated v n key value).Valid := by
  obtain ⟨there, unpruned⟩ := live_eq_ok_iff.1 live
  constructor
  case root =>
    obtain ⟨m, found, parent, empty, whole⟩ := hs.root
    rw [get?_annotated]
    split
    · next same =>
      obtain rfl : m = n := Option.some.inj (found.symm.trans (same ▸ there))
      exact ⟨_, rfl, parent, empty, whole⟩
    · exact ⟨m, found, parent, empty, whole⟩
  case bounded =>
    intro w m found
    rw [get?_annotated] at found
    split at found
    · next same => exact hs.bounded (same ▸ there)
    · exact hs.bounded found
  case wellFormed =>
    intro w m found
    rw [get?_annotated] at found
    split at found
    · cases found
      exact (hs.wellFormed there : n.pipeline.WellFormed)
    · exact hs.wellFormed found
  case tagged =>
    intro tag w found
    obtain ⟨m, known, whole⟩ := hs.tagged found
    rw [get?_annotated]
    split
    · exact ⟨_, rfl, unpruned⟩
    · exact ⟨m, known, whole⟩

theorem Valid.step {s t : Store} {r : Request} (hs : s.Valid) (step : s.Step r t) : t.Valid := by
  cases step with
  | minted mints => exact hs.mints mints
  | selected => exact hs.current _
  | committed live applies =>
    exact hs.extended ((hs.wellFormed (live_eq_ok_iff.1 live).1).applyAll applies)
  | tagged live name =>
    obtain ⟨there, unpruned⟩ := live_eq_ok_iff.1 live
    exact hs.tag there unpruned name
  | annotated live key value => exact hs.annotated live key value
  | pruned ne there => exact hs.without ne there

theorem Step.precedes {s t : Store} {r : Request} (step : s.Step r t) : s.Precedes t := by
  cases step with
  | minted mints => exact mints.precedes
  | _ => exact ⟨Nat.le_refl _, Nat.le_refl _⟩

theorem Request.atomic_perform (r : Request) : r.perform.Atomic := by
  cases r with
  | select | tag | annotate | prune => exact Action.atomic_change _
  | createModule | createConnection => exact nofun
  | commit edits => exact (Action.atomic_commit edits).bind_pure _

theorem Valid.afterAll {s : Store} (hs : s.Valid) (rs : List Request) : (s.afterAll rs).Valid :=
  afterAll_induction (fun s r hs => hs.step (s.step_after r)) hs rs

end Dataflow.Store
