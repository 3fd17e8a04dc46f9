import Dataflow.Proofs.Pipeline.Wiring

/-! Pipelines whose identifiers are all greater by the same numbers. What edits do does not depend on
the numbers, so edits with shifted identifiers make the shifted pipeline. -/

namespace Dataflow

namespace OrderedMap

/-- The map with all keys greater by a number, and with other values. -/
def shifted (n : Nat) (f : α → β) (m : OrderedMap Nat α) : OrderedMap Nat β where
  entries := m.entries.map fun e => (e.1 + n, f e.2)
  ascending := List.pairwise_map.2 <| m.ascending.imp fun lt =>
    Nat.compare_eq_lt.2 (Nat.add_lt_add_right (Nat.compare_eq_lt.1 lt) n)

variable {n : Nat} {f : α → β} {m : OrderedMap Nat α}

theorem get?_shifted (n : Nat) (f : α → β) (m : OrderedMap Nat α) (k : Nat) :
    (m.shifted n f).get? (k + n) = (m.get? k).map f := by
  apply Option.ext
  intro b
  simp only [get?_eq_some_iff, Option.map_eq_some_iff, shifted, List.mem_map, Prod.mk.injEq]
  constructor
  · rintro ⟨⟨l, a⟩, listed, same, rfl⟩
    exact ⟨a, Nat.add_right_cancel same ▸ listed, rfl⟩
  · rintro ⟨a, listed, rfl⟩
    exact ⟨(k, a), listed, rfl, rfl⟩

theorem get?_shifted_of_lt {k : Nat} (below : k < n) : (m.shifted n f).get? k = none := by
  refine Option.eq_none_iff_forall_not_mem.2 fun b found => ?_
  obtain ⟨e, -, same⟩ := List.mem_map.1 (get?_eq_some_iff.1 found)
  have : e.1 + n = k := congrArg Prod.fst same
  omega

@[simp] theorem contains_shifted (n : Nat) (f : α → β) (m : OrderedMap Nat α) (k : Nat) :
    (m.shifted n f).contains (k + n) = m.contains k := by
  simp [contains, get?_shifted]

theorem shifted_insert (n : Nat) (f : α → β) (m : OrderedMap Nat α) (k : Nat) (a : α) :
    (m.insert k a).shifted n f = (m.shifted n f).insert (k + n) (f a) := by
  apply ext_get?
  intro l
  rw [get?_insert]
  obtain below | ⟨j, rfl⟩ : l < n ∨ ∃ j, l = j + n := by
    rcases Nat.lt_or_ge l n with below | above
    · exact .inl below
    · exact .inr ⟨l - n, (Nat.sub_add_cancel above).symm⟩
  · have other : l ≠ k + n := by omega
    rw [get?_shifted_of_lt below, get?_shifted_of_lt below, if_neg other]
  · rw [get?_shifted, get?_shifted, get?_insert, apply_ite (Option.map f), Option.map_some]
    simp only [Nat.add_right_cancel_iff]

theorem values_shifted (n : Nat) (f : α → β) (m : OrderedMap Nat α) :
    (m.shifted n f).values = m.values.map f := by
  simp [values, shifted, List.map_map, Function.comp_def]

end OrderedMap

/-- How much greater identifiers are in one place than in another. -/
structure Shift where
  modules : Nat
  connections : Nat

namespace Shift

def module (σ : Shift) (id : ModuleId) : ModuleId := id + σ.modules

def connection (σ : Shift) (id : ConnectionId) : ConnectionId := id + σ.connections

theorem module_inj {σ : Shift} {k l : ModuleId} : σ.module k = σ.module l ↔ k = l :=
  Nat.add_right_cancel_iff

/-- No identifier is shifted. -/
def none : Shift := ⟨0, 0⟩

end Shift

/-- The module under the identifier that stands for its own. -/
def Module.moved (f : ModuleId → ModuleId) (m : Module) : Module := { m with id := f m.id }

def Connection.moved (f : ModuleId → ModuleId) (g : ConnectionId → ConnectionId)
    (c : Connection) : Connection :=
  ⟨g c.id, c.source.moved f, c.destination.moved f⟩

def PortRef.shifted (σ : Shift) (r : PortRef) : PortRef := r.moved σ.module

def Edit.shifted (σ : Shift) : Edit → Edit
  | .addModule m => .addModule (m.moved σ.module)
  | .setFunction id name params => .setFunction (σ.module id) name params
  | .addConnection c => .addConnection (c.moved σ.module σ.connection)

@[simp] theorem Edit.shifted_none (e : Edit) : e.shifted .none = e := by
  cases e <;> rfl

namespace Pipeline

def shifted (σ : Shift) (p : Pipeline) : Pipeline where
  modules := p.modules.shifted σ.modules (Module.moved σ.module)
  connections := p.connections.shifted σ.connections (Connection.moved σ.module σ.connection)

variable {p q : Pipeline}

theorem shifted_withModule (σ : Shift) (p : Pipeline) (m : Module) :
    (p.withModule m).shifted σ = (p.shifted σ).withModule (m.moved σ.module) := by
  simp only [shifted, withModule, OrderedMap.shifted_insert]
  rfl

theorem shifted_withConnection (σ : Shift) (p : Pipeline) (c : Connection) :
    (p.withConnection c).shifted σ =
      (p.shifted σ).withConnection (c.moved σ.module σ.connection) := by
  simp only [shifted, withConnection, OrderedMap.shifted_insert]
  rfl

theorem contains_shifted (σ : Shift) (p : Pipeline) (id : ModuleId) :
    (p.shifted σ).modules.contains (σ.module id) = p.modules.contains id :=
  OrderedMap.contains_shifted ..

theorem apply_shifted (σ : Shift) {e : Edit} (h : p.apply e = .ok q) :
    (p.shifted σ).apply (e.shifted σ) = .ok (q.shifted σ) := by
  obtain ⟨m, rfl, fresh, rfl⟩ | ⟨id, name, params, m, rfl, found, rfl⟩ |
    ⟨c, rfl, fresh, source, destination, rfl⟩ := apply_cases h
  · have fresh' : (p.shifted σ).modules.get? (m.moved σ.module).id = none := by
      show (p.modules.shifted ..).get? (m.id + σ.modules) = none
      rw [OrderedMap.get?_shifted, fresh]
      rfl
    exact (apply_addModule fresh').trans (congrArg _ (shifted_withModule σ p m).symm)
  · have found' : (p.shifted σ).modules.get? (σ.module id) = some (m.moved σ.module) := by
      show (p.modules.shifted ..).get? (id + σ.modules) = _
      rw [OrderedMap.get?_shifted, found]
      rfl
    refine (apply_setFunction name params found').trans (congrArg Except.ok ?_)
    simp only [shifted, OrderedMap.shifted_insert]
    rfl
  · have fresh' : (p.shifted σ).connections.get? (c.moved σ.module σ.connection).id = none := by
      show (p.connections.shifted ..).get? (c.id + σ.connections) = none
      rw [OrderedMap.get?_shifted, fresh]
      rfl
    refine (apply_addConnection fresh' ?_ ?_).trans
      (congrArg _ (shifted_withConnection σ p c).symm)
    · exact (p.contains_shifted σ _).trans source
    · exact (p.contains_shifted σ _).trans destination

theorem applyAll_shifted (σ : Shift) {es : List Edit} (h : p.applyAll es = .ok q) :
    (p.shifted σ).applyAll (es.map (Edit.shifted σ)) = .ok (q.shifted σ) := by
  induction es generalizing p with
  | nil =>
    cases h
    rfl
  | cons e es ih =>
    obtain ⟨r, first, rest⟩ := applyAll_cons.1 h
    exact applyAll_cons.2 ⟨r.shifted σ, apply_shifted σ first, ih rest⟩

end Pipeline

end Dataflow
