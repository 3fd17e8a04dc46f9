import Dataflow.Proofs.TypeName
import Dataflow.Proofs.Variable.Shape

/-! Reading a written variable back. Its version holds the output, and the annotations of the version
hold the type and the provenance, as far as that can be read. -/

namespace Dataflow

namespace Variable

/-- A variable as it is read back: all of it, but for provenance that no reader takes. -/
def reread (x : Variable) : Variable :=
  { x with provenance := x.provenance.bind fun p => Provenance.ofText? p.document }

/-- What a version reads as, if the variables root has the module. -/
def reading (s : Store) (root : ModuleId) (v : VersionId) : Except Error Variable := do
  let pipeline ← (s.pipeline v).mapError .host
  let output ← feed pipeline root
  let type ← writtenType s v pipeline output
  let provenance := (s.annotation v provenanceKey).bind Provenance.ofText?
  return { type, output := some output, provenance, version := some v }

variable {h : Host} {s : Store} {r : VariablesRoot} {x : Variable} {v : VersionId} {n : Version}

/-- Where the variables root is there, a version is read without any change to the store. -/
theorem on_restore (root : h.RootAt s r) (v : VersionId) :
    (restore h v).on s = (reading s r.module v, s) := by
  rw [restore, Action.on_bind_of_ok root.on_variablesRoot, Action.on_bind, Action.on_query]
  cases read : s.pipeline v with
  | error fault => simp [reading, read, Except.mapError, bind, Except.bind]
  | ok p =>
    simp only [Except.mapError, Action.on_bind, Action.on_ofExcept]
    cases fed : feed p r.module with
    | error e => simp [reading, read, fed, Except.mapError, bind, Except.bind]
    | ok o =>
      simp only [Action.on_get]
      cases typed : writtenType s v p o with
      | error e => simp [reading, read, fed, typed, Except.mapError, bind, Except.bind]
      | ok t =>
        simp only [reading, read, fed, typed, Except.mapError, bind, Except.bind]
        rfl

/-- The variables root itself does not read as a variable. -/
theorem reading_root (root : h.RootAt s r) :
    reading s r.module r.version = .error .outputNotDesignated := by
  have read : s.pipeline r.version = .ok (h.rootPipeline r.module) :=
    Store.pipeline_eq_ok_iff.2 ⟨_, root.version, rfl, rfl⟩
  have unfed : feed (h.rootPipeline r.module) r.module = .error .outputNotDesignated := rfl
  simp [reading, read, unfed, Except.mapError, bind, Except.bind]

theorem annotations_typeKey (x : Variable) : x.annotations.get? typeKey = some x.type.text := by
  have ne : typeKey ≠ provenanceKey := by decide
  unfold annotations
  cases x.provenance <;> simp [OrderedMap.get?_insert, ne]

theorem annotations_provenanceKey (x : Variable) :
    x.annotations.get? provenanceKey = x.provenance.map (·.document) := by
  have ne : provenanceKey ≠ typeKey := by decide
  unfold annotations
  cases x.provenance <;> simp [OrderedMap.get?_insert, ne]

/-- A version that is as a variable was written reads as that variable, if a text names its type. -/
theorem reading_of_written {o : PortRef} (version : x.version = some v) (empty : x.draft = .empty)
    (output : x.output = some o) (live : s.live v = .ok n) (shape : h.Shaped r.module o n.pipeline)
    (noted : n.annotations = x.annotations) {text : String}
    (named : TypeName.ofText? text = some x.type) :
    reading s r.module v = .ok x.reread := by
  obtain ⟨there, unpruned⟩ := Store.live_eq_ok_iff.1 live
  obtain ⟨c, only, source⟩ := shape.feed
  have read : s.pipeline v = .ok n.pipeline := Store.pipeline_eq_ok_iff.2 ⟨n, there, unpruned, rfl⟩
  have fed : feed n.pipeline r.module = .ok o := by
    rw [feed, only]
    exact congrArg _ source
  have found : ∀ key, s.annotation v key = x.annotations.get? key := fun key => by
    rw [Store.annotation, live, ← noted]
  have typed : writtenType s v n.pipeline o = .ok x.type := by
    rw [writtenType, found, annotations_typeKey]
    exact TypeName.parse_text named
  have provenance : (s.annotation v provenanceKey).bind Provenance.ofText? =
      x.reread.provenance := by
    rw [found, annotations_provenanceKey, Option.bind_map]
    rfl
  obtain ⟨_, _, _, _, _⟩ := x
  cases version
  cases empty
  cases output
  simp only [reading, read, fed, typed, provenance, Except.mapError, bind, Except.bind]
  rfl

end Variable

end Dataflow
