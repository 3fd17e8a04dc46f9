import Dataflow.Pipeline.Document
import Dataflow.Proofs.OrderedMap

/-! Which pipelines there are. Whatever edits do, modules and connections stay under their own
identifiers and connections join modules that are there; a document is read as a pipeline only if it
is of that kind. -/

namespace Dataflow

namespace Pipeline

/-- Modules and connections are kept under their own identifiers, and both ends of a connection are
modules of the pipeline. -/
structure WellFormed (p : Pipeline) : Prop where
  module_id : ∀ {id m}, p.modules.get? id = some m → m.id = id
  connection_id : ∀ {id c}, p.connections.get? id = some c → c.id = id
  source : ∀ {id c}, p.connections.get? id = some c → p.modules.contains c.source.module = true
  destination :
    ∀ {id c}, p.connections.get? id = some c → p.modules.contains c.destination.module = true

theorem missingEnd?_eq_none_iff {p : Pipeline} {c : Connection} :
    p.missingEnd? c = none ↔
      p.modules.contains c.source.module = true ∧
        p.modules.contains c.destination.module = true := by
  simp [missingEnd?, List.find?_eq_none]

/-- What an edit that is not refused does. -/
theorem apply_cases {p q : Pipeline} {e : Edit} (h : p.apply e = .ok q) :
    (∃ m, e = .addModule m ∧ p.modules.get? m.id = none ∧
      q = { p with modules := p.modules.insert m.id m }) ∨
    (∃ id name params m, e = .setFunction id name params ∧ p.modules.get? id = some m ∧
      q = { p with modules := p.modules.insert id (m.setFunction name params) }) ∨
    (∃ c, e = .addConnection c ∧ p.connections.get? c.id = none ∧
      p.modules.contains c.source.module = true ∧
      p.modules.contains c.destination.module = true ∧
      q = { p with connections := p.connections.insert c.id c }) := by
  cases e with
  | addModule m =>
    simp only [apply] at h
    split at h
    · cases h
    · next fresh =>
      rw [Bool.not_eq_true, OrderedMap.contains_eq_false_iff] at fresh
      exact .inl ⟨m, rfl, fresh, (Except.ok.inj h).symm⟩
  | setFunction id name params =>
    simp only [apply] at h
    split at h
    · next m found => exact .inr (.inl ⟨id, name, params, m, rfl, found, (Except.ok.inj h).symm⟩)
    · cases h
  | addConnection c =>
    simp only [apply] at h
    split at h
    · cases h
    · next fresh =>
      rw [Bool.not_eq_true, OrderedMap.contains_eq_false_iff] at fresh
      split at h
      · cases h
      · next ends =>
        obtain ⟨source, destination⟩ := missingEnd?_eq_none_iff.1 ends
        exact .inr (.inr ⟨c, rfl, fresh, source, destination, (Except.ok.inj h).symm⟩)

theorem apply_addModule {p : Pipeline} {m : Module} (h : p.modules.get? m.id = none) :
    p.apply (.addModule m) = .ok { p with modules := p.modules.insert m.id m } := by
  simp [apply, OrderedMap.contains_eq_false_iff.2 h]

theorem apply_setFunction {p : Pipeline} {id : ModuleId} {m : Module} (name : String)
    (params : List String) (h : p.modules.get? id = some m) :
    p.apply (.setFunction id name params) =
      .ok { p with modules := p.modules.insert id (m.setFunction name params) } := by
  simp [apply, h]

theorem apply_addConnection {p : Pipeline} {c : Connection} (h : p.connections.get? c.id = none)
    (source : p.modules.contains c.source.module = true)
    (destination : p.modules.contains c.destination.module = true) :
    p.apply (.addConnection c) = .ok { p with connections := p.connections.insert c.id c } := by
  simp [apply, OrderedMap.contains_eq_false_iff.2 h,
    missingEnd?_eq_none_iff.2 ⟨source, destination⟩]

theorem wellFormed_empty : empty.WellFormed := by
  constructor <;> intro id x h <;> simp [empty] at h

theorem WellFormed.apply {p q : Pipeline} {e : Edit} (hp : p.WellFormed) (h : p.apply e = .ok q) :
    q.WellFormed := by
  obtain ⟨m, rfl, -, rfl⟩ | ⟨id, name, params, m, rfl, found, rfl⟩ |
    ⟨c, rfl, -, source, destination, rfl⟩ := apply_cases h
  · constructor
    · intro id n hn
      obtain ⟨rfl, rfl⟩ | ⟨-, before⟩ := OrderedMap.get?_insert_eq_some_iff.1 hn
      · rfl
      · exact hp.module_id before
    · exact hp.connection_id
    · intro id d hd
      simp [OrderedMap.contains_insert, hp.source hd]
    · intro id d hd
      simp [OrderedMap.contains_insert, hp.destination hd]
  · constructor
    · intro k n hn
      obtain ⟨rfl, rfl⟩ | ⟨-, before⟩ := OrderedMap.get?_insert_eq_some_iff.1 hn
      · exact (hp.module_id found : m.id = k)
      · exact hp.module_id before
    · exact hp.connection_id
    · intro k d hd
      simp [OrderedMap.contains_insert, hp.source hd]
    · intro k d hd
      simp [OrderedMap.contains_insert, hp.destination hd]
  · -- the connection that is added has both its ends, since the edit is refused otherwise
    constructor
    · exact hp.module_id
    · intro id d hd
      obtain ⟨rfl, rfl⟩ | ⟨-, before⟩ := OrderedMap.get?_insert_eq_some_iff.1 hd
      · rfl
      · exact hp.connection_id before
    · intro id d hd
      obtain ⟨-, rfl⟩ | ⟨-, before⟩ := OrderedMap.get?_insert_eq_some_iff.1 hd
      · exact source
      · exact hp.source before
    · intro id d hd
      obtain ⟨-, rfl⟩ | ⟨-, before⟩ := OrderedMap.get?_insert_eq_some_iff.1 hd
      · exact destination
      · exact hp.destination before

theorem applyAll_cons {p q : Pipeline} {e : Edit} {es : List Edit} :
    p.applyAll (e :: es) = .ok q ↔ ∃ r, p.apply e = .ok r ∧ r.applyAll es = .ok q := by
  simp only [applyAll]
  cases p.apply e with
  | ok r => simp
  | error fault => simp

theorem applyAll_append_ok {p q : Pipeline} {es fs : List Edit} :
    p.applyAll (es ++ fs) = .ok q ↔ ∃ r, p.applyAll es = .ok r ∧ r.applyAll fs = .ok q := by
  rw [applyAll_append]
  cases p.applyAll es with
  | ok r => simp [Except.bind]
  | error fault => simp [Except.bind]

theorem applyAll_singleton (p : Pipeline) (e : Edit) : p.applyAll [e] = p.apply e := by
  simp only [applyAll]
  cases p.apply e <;> rfl

theorem WellFormed.applyAll {p q : Pipeline} {es : List Edit} (hp : p.WellFormed)
    (h : p.applyAll es = .ok q) : q.WellFormed := by
  induction es generalizing p with
  | nil => cases h; exact hp
  | cons e es ih =>
    obtain ⟨r, first, rest⟩ := applyAll_cons.1 h
    exact ih (hp.apply first) rest

theorem wellFormed_ofParts {modules : List Module} {connections : List Connection} {p : Pipeline}
    (h : ofParts modules connections = .ok p) : p.WellFormed :=
  wellFormed_empty.applyAll h

/-- No connection leaves the module. -/
def Spares (p : Pipeline) (m : ModuleId) : Prop := ∀ c ∈ p.connections.values, c.source.module ≠ m

theorem WellFormed.spares {p : Pipeline} (h : p.WellFormed) {m : ModuleId}
    (absent : p.modules.contains m = false) : p.Spares m := by
  rintro c hc rfl
  obtain ⟨k, found⟩ := OrderedMap.mem_values_iff.1 hc
  rw [h.source found] at absent
  cases absent

theorem wellFormed_of_load {files : Files} {path : String} {p : Pipeline}
    (h : load files path = .ok p) : p.WellFormed := by
  unfold load at h
  split at h
  · cases h
  · next text _ =>
    unfold ofText at h
    split at h
    · cases h
    · next v rest _ =>
      cases hv : ofJson v with
      | error fault =>
        rw [hv] at h
        cases h
      | ok q =>
        obtain rfl : q = p := by
          simp only [hv, bind, Except.bind] at h
          split at h
          · exact Except.ok.inj h
          · cases h
        unfold ofJson at hv
        split at hv
        · next modules connections _ =>
          cases hm : ofParts modules connections with
          | error fault =>
            rw [hm] at hv
            cases hv
          | ok r =>
            rw [hm] at hv
            cases hv
            exact wellFormed_ofParts hm
        · cases hv

end Pipeline

end Dataflow
