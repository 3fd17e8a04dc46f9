import Dataflow.Pipeline.Basic

/-! A store of pipeline versions. Each version is made by edits on the pipeline of its parent and
never changes after that; pruning one only marks it. A tag names one live version and a version has
at most one tag. The selected version is the one the next commit starts from. -/

namespace Dataflow

structure Version where
  parent : Option VersionId
  action : List Edit
  pipeline : Pipeline
  annotations : OrderedMap String String
  pruned : Bool
deriving DecidableEq

structure Store where
  versions : OrderedMap VersionId Version
  tags : OrderedMap String VersionId
  current : VersionId
  nextVersion : VersionId
  nextModule : ModuleId
  nextConnection : ConnectionId
deriving DecidableEq

namespace Store

/-- The version that every store starts from. -/
def origin : Version := ⟨none, [], .empty, ∅, false⟩

def new : Store :=
  { versions := OrderedMap.insert ∅ VersionId.root origin
    tags := ∅
    current := VersionId.root
    nextVersion := 1
    nextModule := 1
    nextConnection := 1 }

instance : Inhabited Store := ⟨new⟩

/-- A version that is there and was not pruned. -/
def live (s : Store) (v : VersionId) : Except HostFault Version :=
  match s.versions.get? v with
  | some version => if version.pruned then .error (.prunedVersion v) else .ok version
  | none => .error (.noSuchVersion v)

def select (s : Store) (v : VersionId) : Except HostFault Store :=
  (s.live v).map fun _ => { s with current := v }

/-- A module with an identifier that no module had before. -/
def createModule (s : Store) (t : TypeName) : Module × Store :=
  (⟨s.nextModule, t, []⟩, { s with nextModule := s.nextModule + 1 })

/-- A connection with an identifier that no connection had before. -/
def createConnection (s : Store) (source destination : PortRef) : Connection × Store :=
  (⟨s.nextConnection, source, destination⟩, { s with nextConnection := s.nextConnection + 1 })

/-- Make a version by edits on the selected one, and select it. -/
def commit (s : Store) (edits : List Edit) : Except HostFault (VersionId × Store) := do
  let base ← s.live s.current
  let pipeline ← base.pipeline.applyAll edits
  let version : Version := ⟨some s.current, edits, pipeline, ∅, false⟩
  return (s.nextVersion,
    { s with
      versions := s.versions.insert s.nextVersion version
      current := s.nextVersion
      nextVersion := s.nextVersion + 1 })

def pipeline (s : Store) (v : VersionId) : Except HostFault Pipeline :=
  (s.live v).map (·.pipeline)

def parent (s : Store) (v : VersionId) : Except HostFault (Option VersionId) :=
  (s.live v).map (·.parent)

/-- Give a version a tag; the version loses the tag it had, and the tag the version it named. -/
def tag (s : Store) (v : VersionId) (name : String) : Except HostFault Store :=
  (s.live v).map fun _ =>
    { s with tags := (s.tags.filter fun other w => w != v && other != name).insert name v }

def resolveTag (s : Store) (name : String) : Option VersionId := s.tags.get? name

def tagOf (s : Store) (v : VersionId) : Option String :=
  (s.tags.entries.find? fun e => e.2 == v).map Prod.fst

def annotate (s : Store) (v : VersionId) (key value : String) : Except HostFault Store :=
  (s.live v).map fun version =>
    let version := { version with annotations := version.annotations.insert key value }
    { s with versions := s.versions.insert v version }

/-- An annotation of a live version. -/
def annotation (s : Store) (v : VersionId) (key : String) : Option String :=
  match s.live v with
  | .ok version => version.annotations.get? key
  | .error _ => none

/-- Mark a version as pruned and take its tag away. If it was selected, its parent is selected. -/
def prune (s : Store) (v : VersionId) : Except HostFault Store :=
  if v = VersionId.root then .error .pruneOfRoot
  else match s.versions.get? v with
    | none => .error (.noSuchVersion v)
    | some version => .ok
      { s with
        versions := s.versions.insert v { version with pruned := true }
        tags := s.tags.filter fun _ w => w != v
        current := if s.current = v then version.parent.getD VersionId.root else s.current }

theorem live_eq_ok_iff {s : Store} {v : VersionId} {version : Version} :
    s.live v = .ok version ↔ s.versions.get? v = some version ∧ version.pruned = false := by
  unfold live
  cases h : s.versions.get? v with
  | none => simp
  | some w => cases hp : w.pruned <;> simp [hp] <;> rintro rfl <;> simp [hp]

theorem live_select {s t : Store} {v : VersionId} (h : s.select v = .ok t) :
    t.live = s.live ∧ t.current = v := by
  unfold select at h
  cases hl : s.live v with
  | error e => simp [hl, Except.map] at h
  | ok version =>
    simp only [hl, Except.map, Except.ok.injEq] at h
    subst h
    exact ⟨rfl, rfl⟩

/-- A commit adds the version it selects, on the pipeline of the one that was selected. -/
theorem live_of_commit {s t : Store} {edits : List Edit} {v : VersionId}
    (h : s.commit edits = .ok (v, t)) :
    ∃ base p, s.live s.current = .ok base ∧ base.pipeline.applyAll edits = .ok p ∧
      t.current = v ∧ t.live v = .ok ⟨some s.current, edits, p, ∅, false⟩ := by
  unfold commit at h
  cases hb : s.live s.current with
  | error e => simp [hb, bind, Except.bind] at h
  | ok base =>
    cases hp : base.pipeline.applyAll edits with
    | error e => simp [hb, hp, bind, Except.bind] at h
    | ok p =>
      simp only [hb, hp, bind, Except.bind, pure, Except.pure, Except.ok.injEq, Prod.mk.injEq] at h
      obtain ⟨rfl, rfl⟩ := h
      refine ⟨base, p, rfl, hp, rfl, ?_⟩
      exact live_eq_ok_iff.2 ⟨(OrderedMap.get?_insert ..).trans (if_pos rfl), rfl⟩

/-- A tag names the version it was given to last. -/
theorem resolveTag_of_tag {s t : Store} {v : VersionId} {name : String}
    (h : s.tag v name = .ok t) : t.resolveTag name = some v := by
  unfold tag at h
  cases hl : s.live v with
  | error e => simp [hl, Except.map] at h
  | ok version =>
    simp only [hl, Except.map, Except.ok.injEq] at h
    subst h
    exact (OrderedMap.get?_insert ..).trans (if_pos rfl)

end Store

end Dataflow
