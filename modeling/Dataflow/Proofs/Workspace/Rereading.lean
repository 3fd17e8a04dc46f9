import Dataflow.Proofs.Provenance
import Dataflow.Proofs.Workspace.Reopening

/-! Provenance in a store that is opened again. A record is written whatever its depth, and the reader
gives up on one that is too deep, so a variable that is computed in too many steps comes back without
its record. -/

namespace Dataflow

/-- What is left of a variable's record when the variable is read back. -/
theorem Variable.provenance_reread {x : Variable}
    (exact : ∀ p, x.provenance = some p →
      ∀ f ∈ p.floats, f.isFinite = true → Provenance.ReadsBack f) :
    x.reread.provenance =
      x.provenance.filter fun p => p.toJson.depth ≤ Provenance.levels ∧ p.Finite := by
  show x.provenance.bind _ = _
  cases recorded : x.provenance with
  | none => rfl
  | some p =>
    rw [Option.bind_some, Provenance.ofText?_document (exact p recorded)]
    simp only [Option.filter, decide_eq_true_eq]

namespace Workspace

/-- The record of a known variable is the same after its store is opened again if it nests at most 127
levels of JSON and all its floats are finite, and otherwise it is lost. -/
theorem provenance_of_opened {host : Host} {catalogue : Catalogue} {w : Workspace}
    (apart : host.settings.TagsApart) (reaches : Reaches (new host catalogue .new) w)
    (types : w.TypesNamed) (catalogue' : Catalogue) {name : String} {x : Variable}
    (known : w.named.get? name = some x)
    (exact : ∀ p, x.provenance = some p →
      ∀ f ∈ p.floats, f.isFinite = true → Provenance.ReadsBack f) :
    ∃ w' y, opened host catalogue' w.store = .ok w' ∧ w'.named.get? name = some y ∧
      y.provenance = x.provenance.filter fun p => p.toJson.depth ≤ 127 ∧ p.Finite := by
  obtain ⟨w', run, rereads⟩ := rereads_of_reaches apart reaches types catalogue'
  exact ⟨w', x.reread, run, rereads.known.2 ⟨x, known, rfl⟩, Variable.provenance_reread exact⟩

/-- Operations on operations, on one half. -/
def nested : Nat → Provenance
  | 0 => .constant (.float (.ofDecimal false 5 (-1)))
  | n + 1 => .operation ⟨"+", "b", ["b:Float"]⟩ [some (nested n)]

/-- A loader of a variable that has as many operations behind it as a reader takes. -/
def nestedLoader : Loader where
  name := "nested"
  source := .callback (.call (.constant (.integer 1) ⟨"b", "Float"⟩) fun _ =>
    .call (.setProvenance 0 (nested 63)) fun _ => .give 0)

/-- A workspace with a loaded variable, and one that is computed from it. -/
def nestedSample : Workspace :=
  (sampleStart.after (.loadVariable nestedLoader (some "x"))).after (.performOperation "y = x + x")

theorem reaches_nestedSample : Reaches sampleStart nestedSample :=
  (Reaches.refl.call (c := .loadVariable nestedLoader (some "x")) trivial).call
    (c := .performOperation "y = x + x") trivial

theorem typesNamed_nestedSample : nestedSample.TypesNamed :=
  typesNamed_of_entries (by decide +kernel)

theorem readsBack_half : Provenance.ReadsBack (.ofDecimal false 5 (-1)) := by
  unfold Provenance.ReadsBack
  decide +kernel

/-- What is known of a record: how deep it nests, and its floats. -/
def outline (x : Variable) : Option (Nat × List Binary64) :=
  x.provenance.map fun p => (p.toJson.depth, p.floats)

theorem exact_of_outline {x : Variable} {depth : Nat} {floats : List Binary64}
    (is : outline x = some (depth, floats)) (exact : ∀ f ∈ floats, Provenance.ReadsBack f) :
    ∀ p, x.provenance = some p → ∀ f ∈ p.floats, f.isFinite = true → Provenance.ReadsBack f := by
  intro p recorded f hf _
  rw [outline, recorded, Option.map_some, Option.some.injEq, Prod.mk.injEq] at is
  exact exact f (is.2 ▸ hf)

theorem provenance_of_opened_nested :
    ∃ x, nestedSample.named.get? "x" = some x ∧
      outline x = some (127, [.ofDecimal false 5 (-1)]) ∧
      ∃ w' y, opened sampleStart.host sampleStart.catalogue nestedSample.store = .ok w' ∧
        w'.named.get? "x" = some y ∧
        y.provenance = x.provenance.filter fun p => p.toJson.depth ≤ 127 ∧ p.Finite := by
  have found : (nestedSample.named.get? "x").map outline =
      some (some (127, [.ofDecimal false 5 (-1)])) := by decide +kernel
  obtain ⟨x, known, is⟩ := Option.map_eq_some_iff.1 found
  have exact := exact_of_outline is fun f hf => List.mem_singleton.1 hf ▸ readsBack_half
  exact ⟨x, known, is, provenance_of_opened (Settings.tagsApart_of_default rfl)
    reaches_nestedSample typesNamed_nestedSample _ known exact⟩

/-- A sum of two variables that both keep their records is registered with a record that is lost. -/
theorem provenance_lost :
    ∃ x p w' y, nestedSample.named.get? "y" = some x ∧ x.provenance = some p ∧
      p.toJson.depth = 129 ∧ p.Finite ∧
      opened sampleStart.host sampleStart.catalogue nestedSample.store = .ok w' ∧
      w'.named.get? "y" = some y ∧ y.provenance = none := by
  have found : (nestedSample.named.get? "y").map outline =
      some (some (129, [.ofDecimal false 5 (-1), .ofDecimal false 5 (-1)])) := by decide +kernel
  obtain ⟨x, known, is⟩ := Option.map_eq_some_iff.1 found
  have halves : ∀ f ∈ [Binary64.ofDecimal false 5 (-1), .ofDecimal false 5 (-1)],
      f = .ofDecimal false 5 (-1) := by simp
  have exact := exact_of_outline is fun f hf => halves f hf ▸ readsBack_half
  obtain ⟨p, recorded, same⟩ := Option.map_eq_some_iff.1 is
  rw [Prod.mk.injEq] at same
  have finite : p.Finite := fun f hf => by
    rw [halves f (same.2 ▸ hf)]
    decide +kernel
  obtain ⟨w', run, rereads⟩ := rereads_of_reaches (Settings.tagsApart_of_default rfl)
    reaches_nestedSample typesNamed_nestedSample sampleStart.catalogue
  refine ⟨x, p, w', x.reread, known, recorded, same.1, finite, run,
    rereads.known.2 ⟨x, known, rfl⟩, ?_⟩
  rw [Variable.provenance_reread exact, recorded]
  simp [Option.filter, same.1, Provenance.levels]

end Workspace

end Dataflow
