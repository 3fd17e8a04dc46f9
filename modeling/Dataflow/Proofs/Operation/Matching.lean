import Dataflow.Operation.Matching
import Dataflow.Proofs.Lattice
import Dataflow.Proofs.Tree.Basic

/-! Choosing among the built-in operations. Only a type itself has no distance from it, so that an
operation whose first parameter is of the first argument's type beats all others. -/

namespace Dataflow

namespace Catalogue

variable {c : Catalogue} {types : TypeRegistry} {score? : Operation → Option Nat}
  {ops : List Operation} {op : Operation} {name : String} {ts : List TypeName}

theorem nearest_subset : nearest score? ops ⊆ ops := by
  unfold nearest
  split
  · exact List.filter_subset_self ..
  · exact List.nil_subset _

/-- If some candidate has the score zero, only such candidates are nearest. -/
theorem score?_of_mem_nearest {b : Operation} (listed : b ∈ ops)
    (zero : score? b = some 0) (near : op ∈ nearest score? ops) : score? op = some 0 := by
  have least : (ops.filterMap score?).min? = some 0 := by
    rw [List.min?_eq_some_iff]
    exact ⟨List.mem_filterMap.2 ⟨b, listed, zero⟩, fun n _ => Nat.zero_le n⟩
  rw [nearest, least] at near
  simpa using (List.mem_filter.1 near).2

theorem narrow_subset (place : Nat) : narrow types place ts ops ⊆ ops := by
  induction ts generalizing place ops with
  | nil => exact List.Subset.refl _
  | cons t ts ih => exact List.Subset.trans (ih (place + 1)) nearest_subset

theorem findOperation_eq_ok {warning : Option Ambiguity}
    (found : c.findOperation types name ts = .ok (op, warning)) :
    op ∈ narrow types 0 ts ((c.candidates name).filter fun op => op.arity == ts.length) := by
  simp only [findOperation] at found
  split at found
  · cases found
  · split at found
    · cases found
    · split at found
      · cases found
      · next single =>
        cases found
        rw [single]
        exact List.mem_cons_self ..
      · next several =>
        cases found
        rw [several]
        exact List.mem_cons_self ..

theorem mem_candidates_of_findOperation {warning : Option Ambiguity}
    (found : c.findOperation types name ts = .ok (op, warning)) : op ∈ c.candidates name :=
  (List.mem_filter.1 (narrow_subset 0 (findOperation_eq_ok found))).1

theorem mem_operations_of_findOperation {warning : Option Ambiguity}
    (found : c.findOperation types name ts = .ok (op, warning)) : op ∈ c.operations :=
  (List.mem_filter.1 (mem_candidates_of_findOperation found)).1

theorem name_of_findOperation {warning : Option Ambiguity}
    (found : c.findOperation types name ts = .ok (op, warning)) : op.name = name := by
  have chosen := (List.mem_filter.1 (mem_candidates_of_findOperation found)).2
  rw [Bool.and_eq_true, beq_iff_eq] at chosen
  exact chosen.1

end Catalogue

namespace Combiner

variable {h : Host} {c k : Combiner}

theorem mem_builtins {s : Settings} {op : Operation} :
    op ∈ Operation.builtins s ↔ ∃ c : Combiner, op = c.operation s := by
  simp only [Operation.builtins, List.mem_append, List.mem_map, List.mem_singleton]
  constructor
  · rintro (⟨a, -, rfl⟩ | rfl)
    · exact ⟨.calculate a, rfl⟩
    · exact ⟨.join, rfl⟩
  · rintro ⟨a | _, rfl⟩
    · exact .inl ⟨a, by cases a <;> decide, rfl⟩
    · exact .inr rfl

theorem name_operation (s : Settings) (c : Combiner) : (c.operation s).name = c.name := by
  cases c <;> rfl

theorem arity_operation (s : Settings) (c : Combiner) : (c.operation s).arity = 2 := by
  cases c <;> rfl

theorem isUsable_operation (s : Settings) (c : Combiner) : (c.operation s).isUsable = true := by
  cases c <;> rfl

theorem returns_operation (h : Host) (c : Combiner) :
    (c.operation h.settings).returns = h.valueType c.isText := by
  cases c <;> rfl

theorem scoreAt?_operation (h : Host) (c : Combiner) (ds : Distances) :
    Catalogue.scoreAt? ds 0 (c.operation h.settings) = ds.distance? (h.valueType c.isText) := by
  have single : ∀ t : TypeName, ([t].filterMap ds.distance?).min? = ds.distance? t := fun t => by
    cases found : ds.distance? t <;> simp [found]
  cases c <;> exact single _

/-- Texts and numbers are both added, and the first argument tells which. -/
theorem exists_name_eq_add (isText : Bool) :
    ∃ k : Combiner, k.name = Arithmetic.add.symbol ∧ k.isText = isText := by
  cases isText
  · exact ⟨.calculate .add, rfl, rfl⟩
  · exact ⟨.join, rfl, rfl⟩

/-- What is found among the built-in operations is one of two arguments, with the name that was asked
for. Where a name is of several, the first argument tells which one is found. -/
theorem findOperation_builtins {catalogue : Catalogue}
    (only : catalogue.operations = Operation.builtins h.settings) {name : String}
    {ts : List TypeName} {op : Operation} {warning : Option Ambiguity}
    (found : catalogue.findOperation h.types name ts = .ok (op, warning)) :
    ∃ c : Combiner, op = c.operation h.settings ∧ name = c.name ∧ ts.length = 2 ∧
      ∀ isText, ts.head? = some (h.valueType isText) → c.name = Arithmetic.add.symbol →
        c.isText = isText := by
  have narrowed := Catalogue.findOperation_eq_ok found
  have listed := Catalogue.narrow_subset 0 narrowed
  simp only [Catalogue.candidates, only, List.mem_filter, mem_builtins, Bool.and_eq_true,
    beq_iff_eq] at listed
  obtain ⟨⟨⟨c, rfl⟩, rfl, -⟩, arity⟩ := listed
  rw [arity_operation] at arity
  refine ⟨c, rfl, name_operation _ c, arity.symm, fun isText first add => ?_⟩
  obtain ⟨k, named, rfl⟩ := exists_name_eq_add isText
  cases ts with
  | nil => cases first
  | cons t ts =>
    obtain rfl : t = h.valueType k.isText := Option.some.inj first
    have near := Catalogue.narrow_subset 1 narrowed
    have zero := Catalogue.score?_of_mem_nearest (b := k.operation h.settings) ?_ ?_ near
    · rw [scoreAt?_operation] at zero
      exact Host.valueType_inj (Distances.eq_of_distance?_eq_zero zero)
    · simp only [Catalogue.candidates, only, List.mem_filter, mem_builtins, Bool.and_eq_true,
        beq_iff_eq, name_operation, arity_operation, isUsable_operation, add, named]
      exact ⟨⟨⟨k, rfl⟩, trivial, trivial⟩, arity⟩
    · rw [scoreAt?_operation]
      exact Distances.distance?_self ..

end Combiner

end Dataflow
