import Dataflow.Proofs.Pipeline.WellFormed

/-! Pipelines side by side. Edits that only speak of one pipeline do the same to it when it stands
beside another with other identifiers; so a draft can be understood on its own, whatever it is
committed on. -/

namespace Dataflow

namespace Pipeline

/-- The modules and connections of both pipelines. -/
def join (p q : Pipeline) : Pipeline :=
  ⟨p.modules.union q.modules, p.connections.union q.connections⟩

/-- No identifier is in both pipelines. -/
structure Apart (p q : Pipeline) : Prop where
  modules : ∀ id, p.modules.contains id = true → q.modules.contains id = false
  connections : ∀ id, p.connections.contains id = true → q.connections.contains id = false

theorem Apart.symm {p q : Pipeline} (h : p.Apart q) : q.Apart p where
  modules id hq := by
    rw [← Bool.not_eq_true]
    intro hp
    simp [h.modules id hp] at hq
  connections id hq := by
    rw [← Bool.not_eq_true]
    intro hp
    simp [h.connections id hp] at hq

theorem apart_empty (p : Pipeline) : p.Apart empty := ⟨fun _ _ => rfl, fun _ _ => rfl⟩

theorem join_empty (p : Pipeline) : p.join empty = p := rfl

theorem empty_join (p : Pipeline) : empty.join p = p := by
  simp [join, empty, OrderedMap.empty_union]

theorem join_assoc (p q r : Pipeline) : (p.join q).join r = p.join (q.join r) := by
  simp [join, OrderedMap.union_assoc]

@[simp] theorem contains_join (p q : Pipeline) (id : ModuleId) :
    (p.join q).modules.contains id = (q.modules.contains id || p.modules.contains id) :=
  OrderedMap.contains_union ..

theorem Apart.join_left {p q r : Pipeline} (hp : p.Apart r) (hq : q.Apart r) :
    (p.join q).Apart r where
  modules id h := by
    rw [contains_join, Bool.or_eq_true] at h
    exact h.elim (hq.modules id) (hp.modules id)
  connections id h := by
    rw [join, OrderedMap.contains_union, Bool.or_eq_true] at h
    exact h.elim (hq.connections id) (hp.connections id)

theorem Apart.join_right {p q r : Pipeline} (hq : p.Apart q) (hr : p.Apart r) :
    p.Apart (q.join r) := (hq.symm.join_left hr.symm).symm

theorem Apart.get?_join_left {p q : Pipeline} (h : p.Apart q) {id : ModuleId}
    (hp : p.modules.contains id = true) : (p.join q).modules.get? id = p.modules.get? id := by
  rw [join, OrderedMap.get?_union, OrderedMap.contains_eq_false_iff.1 (h.modules id hp)]
  rfl

theorem contains_of_apply {p q : Pipeline} {e : Edit} (h : p.apply e = .ok q) {id : ModuleId}
    (hp : p.modules.contains id = true) : q.modules.contains id = true := by
  obtain ⟨m, rfl, -, rfl⟩ | ⟨k, name, params, m, rfl, -, rfl⟩ | ⟨c, rfl, -, -, -, rfl⟩ :=
    apply_cases h
  · simp [OrderedMap.contains_insert, hp]
  · simp [OrderedMap.contains_insert, hp]
  · exact hp

theorem Apart.of_apply {p g q : Pipeline} {e : Edit} (h : g.apply e = .ok q) (apart : p.Apart q) :
    p.Apart g where
  modules id hp := by
    have absent := apart.modules id hp
    rw [← Bool.not_eq_true]
    intro hg
    rw [contains_of_apply h hg] at absent
    cases absent
  connections id hp := by
    have absent := apart.connections id hp
    obtain ⟨m, rfl, -, rfl⟩ | ⟨k, name, params, m, rfl, -, rfl⟩ | ⟨c, rfl, -, -, -, rfl⟩ :=
      apply_cases h
    · exact absent
    · exact absent
    · simp only [OrderedMap.contains_insert, Bool.or_eq_false_iff] at absent
      exact absent.2

/-- An edit of one pipeline does the same beside another. -/
theorem apply_join {p g g' : Pipeline} {e : Edit} (h : g.apply e = .ok g') (apart : p.Apart g') :
    (p.join g).apply e = .ok (p.join g') := by
  obtain ⟨m, rfl, fresh, rfl⟩ | ⟨id, name, params, m, rfl, found, rfl⟩ |
    ⟨c, rfl, fresh, source, destination, rfl⟩ := apply_cases h
  · have absent : p.modules.get? m.id = none := by
      rw [← OrderedMap.contains_eq_false_iff]
      exact apart.symm.modules m.id (by simp [OrderedMap.contains_insert])
    rw [apply_addModule (by simp [join, OrderedMap.get?_union, fresh, absent])]
    simp [join, OrderedMap.union_insert]
  · have same : (p.join g).modules.get? id = some m := by
      simp [join, OrderedMap.get?_union, found]
    rw [apply_setFunction name params same]
    simp [join, OrderedMap.union_insert]
  · have absent : p.connections.get? c.id = none := by
      rw [← OrderedMap.contains_eq_false_iff]
      exact apart.symm.connections c.id (by simp [OrderedMap.contains_insert])
    rw [apply_addConnection (by simp [join, OrderedMap.get?_union, fresh, absent])
      (by simp [source]) (by simp [destination])]
    simp [join, OrderedMap.union_insert]

theorem Apart.of_applyAll {p g q : Pipeline} {es : List Edit} (h : g.applyAll es = .ok q)
    (apart : p.Apart q) : p.Apart g := by
  induction es generalizing g with
  | nil => cases h; exact apart
  | cons e es ih =>
    obtain ⟨r, first, rest⟩ := applyAll_cons.1 h
    exact (ih rest).of_apply first

theorem applyAll_join {p g g' : Pipeline} {es : List Edit} (h : g.applyAll es = .ok g')
    (apart : p.Apart g') : (p.join g).applyAll es = .ok (p.join g') := by
  induction es generalizing g with
  | nil => cases h; rfl
  | cons e es ih =>
    obtain ⟨r, first, rest⟩ := applyAll_cons.1 h
    exact applyAll_cons.2 ⟨p.join r, apply_join first (apart.of_applyAll rest), ih rest⟩

end Pipeline

/-- The modules that an edit speaks of are there. -/
def Edit.Within (g : Pipeline) : Edit → Prop
  | .addModule _ => True
  | .setFunction id _ _ => g.modules.contains id = true
  | .addConnection c =>
    g.modules.contains c.source.module = true ∧ g.modules.contains c.destination.module = true

namespace Pipeline

/-- What an edit that speaks of one of two pipelines does to both, it does to that one. -/
theorem apply_of_join {p g q : Pipeline} {e : Edit} (apart : p.Apart g) (within : e.Within g)
    (h : (p.join g).apply e = .ok q) :
    ∃ g', g.apply e = .ok g' ∧ p.Apart g' ∧ q = p.join g' := by
  obtain ⟨m, rfl, fresh, rfl⟩ | ⟨id, name, params, m, rfl, found, rfl⟩ |
    ⟨c, rfl, fresh, source, destination, rfl⟩ := apply_cases h
  · simp only [join, OrderedMap.get?_union, Option.or_eq_none_iff] at fresh
    refine ⟨_, apply_addModule fresh.1, ⟨fun id hp => ?_, apart.connections⟩, ?_⟩
    · have ne : id ≠ m.id := by
        rintro rfl
        simp [OrderedMap.contains_eq_false_iff.2 fresh.2] at hp
      simp [OrderedMap.contains_insert, ne, apart.modules id hp]
    · simp [join, OrderedMap.union_insert]
  · obtain ⟨n, hn⟩ := OrderedMap.contains_eq_true_iff.1 within
    obtain rfl : n = m := by simpa [join, OrderedMap.get?_union, hn] using found
    refine ⟨_, apply_setFunction name params hn, ⟨fun k hp => ?_, apart.connections⟩, ?_⟩
    · have ne : k ≠ id := by
        rintro rfl
        have present : g.modules.contains k = true := within
        simp [apart.modules k hp] at present
      simp [OrderedMap.contains_insert, ne, apart.modules k hp]
    · simp [join, OrderedMap.union_insert]
  · simp only [join, OrderedMap.get?_union, Option.or_eq_none_iff] at fresh
    refine ⟨_, apply_addConnection fresh.1 within.1 within.2,
      ⟨apart.modules, fun id hp => ?_⟩, ?_⟩
    · have ne : id ≠ c.id := by
        rintro rfl
        simp [OrderedMap.contains_eq_false_iff.2 fresh.2] at hp
      simp [OrderedMap.contains_insert, ne, apart.connections id hp]
    · simp [join, OrderedMap.union_insert]

end Pipeline

end Dataflow
