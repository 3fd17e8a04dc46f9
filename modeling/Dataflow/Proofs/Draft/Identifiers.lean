import Mathlib.Data.Set.Lattice
import Mathlib.Order.BourbakiWitt
import Mathlib.Order.CompletePartialOrder
import Mathlib.Order.ConditionallyCompleteLattice.Basic
import Mathlib.Order.Interval.Set.Basic
import Dataflow.Proofs.Host.VariablesRoot
import Dataflow.Variable

/-! Sets of identifiers, of modules and of connections: those of pipelines and drafts, those that a
store has given out, and those that it gave out between two states. -/

namespace Dataflow

/-- Identifiers of modules, and of connections. -/
abbrev Identifiers := Set ModuleId × Set ConnectionId

namespace Edit

/-- The identifiers that an edit brings in. -/
def ids : Edit → Identifiers
  | .addModule m => ({m.id}, ∅)
  | .setFunction .. => ⊥
  | .addConnection c => (∅, {c.id})

def idsOf : List Edit → Identifiers
  | [] => ⊥
  | e :: es => e.ids ⊔ idsOf es

@[simp] theorem idsOf_append (es fs : List Edit) : idsOf (es ++ fs) = idsOf es ⊔ idsOf fs := by
  induction es with
  | nil => simp [idsOf]
  | cons e es ih => simp [idsOf, ih, sup_assoc]

@[simp] theorem idsOf_singleton (e : Edit) : idsOf [e] = e.ids := sup_bot_eq _

@[simp] theorem idsOf_setFunctions (m : ModuleId) (fs : List Module.Function) :
    idsOf (fs.map fun f => .setFunction m f.name f.params) = ⊥ := by
  induction fs with
  | nil => rfl
  | cons f fs ih => simp [idsOf, ids, ih]

end Edit

/-- The identifiers that a draft brings in. -/
def Draft.ids (d : Draft) : Identifiers := Edit.idsOf d.edits

namespace Draft

variable {d e : Draft}

@[simp] theorem ids_addModule (d : Draft) (m : Module) :
    (d.addModule m).ids = d.ids ⊔ ({m.id}, ∅) := by
  simp [ids, addModule, Edit.ids]

@[simp] theorem ids_push (d : Draft) (edit : Edit) : (d.push edit).ids = d.ids ⊔ edit.ids := by
  simp [ids, push]

@[simp] theorem ids_append (d e : Draft) : (d.append e).ids = d.ids ⊔ e.ids := by
  simp [ids, append]

theorem ids_setFunction {m : ModuleId} {name : String} {params : List String}
    (set : d.setFunction m name params = .ok e) : e.ids = d.ids := by
  obtain ⟨-, rfl⟩ := setFunction_eq_ok set
  simp [Edit.ids]

end Draft

/-- The identifiers that a variable under construction brings in. -/
abbrev Variable.ids (x : Variable) : Identifiers := x.draft.ids

/-- The identifiers of a pipeline. -/
def Pipeline.ids (p : Pipeline) : Identifiers :=
  ({id | p.modules.contains id = true}, {id | p.connections.contains id = true})

namespace Pipeline

variable {p q : Pipeline}

@[simp] theorem ids_empty : ids .empty = ⊥ :=
  Prod.ext (Set.eq_empty_of_forall_notMem fun _ h => by cases h)
    (Set.eq_empty_of_forall_notMem fun _ h => by cases h)

@[simp] theorem ids_withConnection (p : Pipeline) (c : Connection) :
    (p.withConnection c).ids = p.ids ⊔ (∅, {c.id}) := by
  refine Prod.ext (Set.ext fun id => ?_) (Set.ext fun id => ?_)
  · simp [ids, withConnection]
  · simp [ids, withConnection, OrderedMap.contains_insert]

theorem ids_apply {e : Edit} (h : p.apply e = .ok q) : q.ids = p.ids ⊔ e.ids := by
  obtain ⟨m, rfl, -, rfl⟩ | ⟨m, name, params, n, rfl, found, rfl⟩ | ⟨c, rfl, -, -, -, rfl⟩ :=
    apply_cases h
  · refine Prod.ext (Set.ext fun id => ?_) (Set.ext fun id => ?_)
    · simp [ids, Edit.ids, OrderedMap.contains_insert]
    · simp [ids, Edit.ids]
  · have there : p.modules.contains m = true := OrderedMap.contains_eq_true_iff.2 ⟨n, found⟩
    refine Prod.ext (Set.ext fun id => ?_) (Set.union_empty _).symm
    simp only [ids, Edit.ids, OrderedMap.contains_insert, sup_bot_eq, Set.mem_ofPred_eq,
      Bool.or_eq_true, decide_eq_true_eq, or_iff_right_iff_imp]
    rintro rfl
    exact there
  · exact ids_withConnection p c

theorem ids_applyAll {es : List Edit} (h : p.applyAll es = .ok q) :
    q.ids = p.ids ⊔ Edit.idsOf es := by
  induction es generalizing p with
  | nil =>
    cases h
    exact (sup_bot_eq _).symm
  | cons e es ih =>
    obtain ⟨r, first, rest⟩ := applyAll_cons.1 h
    rw [ih rest, ids_apply first, Edit.idsOf, sup_assoc]

end Pipeline

theorem Pipeline.apart_of_disjoint {p q : Pipeline} (h : Disjoint p.ids q.ids) : p.Apart q where
  modules _ here := Bool.eq_false_iff.2 fun there =>
    Set.disjoint_left.1 (Prod.disjoint_iff.1 h).1 here there
  connections _ here := Bool.eq_false_iff.2 fun there =>
    Set.disjoint_left.1 (Prod.disjoint_iff.1 h).2 here there

theorem Draft.Draws.ids_eq {d : Draft} {g : Pipeline} (h : d.Draws g) : g.ids = d.ids := by
  rw [Pipeline.ids_applyAll h.edits, Pipeline.ids_empty, bot_sup_eq]
  rfl

@[simp] theorem Host.ids_rootPipeline (h : Host) (m : ModuleId) :
    (h.rootPipeline m).ids = ({m}, ∅) := by
  refine Prod.ext (Set.ext fun id => ?_) (Set.eq_empty_of_forall_notMem fun id hid => by cases hid)
  simp [Pipeline.ids]

namespace Store

/-- The identifiers that a store has given out. -/
def issued (s : Store) : Identifiers := (Set.Iio s.nextModule, Set.Iio s.nextConnection)

/-- The identifiers that a store gave out between two states. -/
def given (s t : Store) : Identifiers :=
  (Set.Ico s.nextModule t.nextModule, Set.Ico s.nextConnection t.nextConnection)

variable {s t u : Store}

theorem Precedes.issued (h : s.Precedes t) : s.issued ≤ t.issued :=
  ⟨Set.Iio_subset_Iio h.module, Set.Iio_subset_Iio h.connection⟩

theorem given_le_issued (s t : Store) : s.given t ≤ t.issued :=
  ⟨Set.Ico_subset_Iio_self, Set.Ico_subset_Iio_self⟩

theorem Precedes.given_later (h : t.Precedes u) (s : Store) : s.given t ≤ s.given u :=
  ⟨Set.Ico_subset_Ico_right h.module, Set.Ico_subset_Ico_right h.connection⟩

theorem Precedes.given_earlier (h : s.Precedes t) (u : Store) : t.given u ≤ s.given u :=
  ⟨Set.Ico_subset_Ico_left h.module, Set.Ico_subset_Ico_left h.connection⟩

theorem disjoint_issued_given (s t : Store) : Disjoint s.issued (s.given t) :=
  Prod.disjoint_iff.2
    ⟨Set.disjoint_left.2 fun _ old new => Nat.not_lt_of_le new.1 old,
      Set.disjoint_left.2 fun _ old new => Nat.not_lt_of_le new.1 old⟩

theorem given_createModule (s : Store) (type : TypeName) :
    s.given (s.createModule type).2 = ({s.nextModule}, ∅) := by
  refine Prod.ext (Set.ext fun id => ⟨?_, ?_⟩) (Set.Ico_self _)
  · rintro ⟨low, high⟩
    exact Nat.le_antisymm (Nat.le_of_lt_succ high) low
  · rintro rfl
    exact ⟨Nat.le_refl _, Nat.lt_succ_self _⟩

theorem given_createConnection (s : Store) (source destination : PortRef) :
    s.given (s.createConnection source destination).2 = (∅, {s.nextConnection}) := by
  refine Prod.ext (Set.Ico_self _) (Set.ext fun id => ⟨?_, ?_⟩)
  · rintro ⟨low, high⟩
    exact Nat.le_antisymm (Nat.le_of_lt_succ high) low
  · rintro rfl
    exact ⟨Nat.le_refl _, Nat.lt_succ_self _⟩

end Store

theorem Pipeline.Minted.ids_le {p : Pipeline} {s t : Store} (h : p.Minted s t) :
    p.ids ≤ s.given t := ⟨h.modules, h.connections⟩

end Dataflow
