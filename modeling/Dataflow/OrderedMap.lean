/-! Finite maps listed in ascending key order. The order is part of the type, so two maps with the
same lookups are equal, and every listing of a map (modules of a pipeline, tags of a store, names of
a workspace) is sorted without being sorted anew. -/

namespace Dataflow

open Std

structure OrderedMap (κ : Type u) (α : Type v) [Ord κ] where
  entries : List (κ × α)
  ascending : entries.Pairwise fun a b => compare a.1 b.1 = .lt

namespace OrderedMap

variable {κ : Type u} {α : Type v} [Ord κ]

instance : EmptyCollection (OrderedMap κ α) := ⟨⟨[], .nil⟩⟩

instance : Inhabited (OrderedMap κ α) := ⟨∅⟩

instance [DecidableEq κ] [DecidableEq α] : DecidableEq (OrderedMap κ α) := fun m n =>
  if h : m.entries = n.entries then .isTrue (by cases m; cases n; simp_all)
  else .isFalse (by rintro rfl; exact h rfl)

def size (m : OrderedMap κ α) : Nat := m.entries.length

def isEmpty (m : OrderedMap κ α) : Bool := m.entries.isEmpty

def keys (m : OrderedMap κ α) : List κ := m.entries.map Prod.fst

def values (m : OrderedMap κ α) : List α := m.entries.map Prod.snd

/-- The first value listed for a key. -/
def find (k : κ) : List (κ × α) → Option α
  | [] => none
  | e :: rest => if compare k e.1 = .eq then some e.2 else find k rest

def get? (m : OrderedMap κ α) (k : κ) : Option α := find k m.entries

def contains (m : OrderedMap κ α) (k : κ) : Bool := (m.get? k).isSome

/-- Put a value at its place in an ascending list, over the old one if the key is there. -/
def place (k : κ) (a : α) : List (κ × α) → List (κ × α)
  | [] => [(k, a)]
  | e :: rest =>
    match compare k e.1 with
    | .lt => (k, a) :: e :: rest
    | .eq => (k, a) :: rest
    | .gt => e :: place k a rest

def filter (p : κ → α → Bool) (m : OrderedMap κ α) : OrderedMap κ α :=
  ⟨m.entries.filter fun e => p e.1 e.2, m.ascending.filter _⟩

def erase (m : OrderedMap κ α) (k : κ) : OrderedMap κ α :=
  m.filter fun l _ => compare k l != .eq

theorem mem_place {k : κ} {a : α} {e : κ × α} {l : List (κ × α)} (h : e ∈ place k a l) :
    e = (k, a) ∨ e ∈ l := by
  induction l with
  | nil => simpa [place] using h
  | cons d rest ih =>
    unfold place at h
    split at h
    · rcases List.mem_cons.1 h with h | h
      · exact .inl h
      · exact .inr h
    · rcases List.mem_cons.1 h with h | h
      · exact .inl h
      · exact .inr (List.mem_cons_of_mem _ h)
    · rcases List.mem_cons.1 h with h | h
      · exact .inr (h ▸ List.mem_cons_self ..)
      · exact (ih h).imp_right (List.mem_cons_of_mem _)

@[simp] theorem get?_empty (k : κ) : (∅ : OrderedMap κ α).get? k = none := rfl

variable [LawfulEqOrd κ]

theorem find_eq_some_iff {k : κ} {a : α} {es : List (κ × α)}
    (h : es.Pairwise fun x y => compare x.1 y.1 = .lt) : find k es = some a ↔ (k, a) ∈ es := by
  induction es with
  | nil => simp [find]
  | cons e rest ih =>
    obtain ⟨first, tail⟩ := List.pairwise_cons.1 h
    by_cases eq : compare k e.1 = .eq
    · have same : k = e.1 := LawfulEqCmp.eq_of_compare eq
      have absent : (k, a) ∉ rest := fun hm => by
        have := first _ hm
        simp [← same] at this
      simp only [find, eq, ↓reduceIte, Option.some.injEq, List.mem_cons, absent, or_false]
      constructor
      · rintro rfl
        exact Prod.ext same rfl
      · rintro rfl
        rfl
    · have ne : (k, a) ≠ e := fun he => eq (by simp [← he])
      simp [find, eq, ih tail, ne]

theorem get?_eq_some_iff {m : OrderedMap κ α} {k : κ} {a : α} :
    m.get? k = some a ↔ (k, a) ∈ m.entries := find_eq_some_iff m.ascending

theorem contains_iff {m : OrderedMap κ α} {k : κ} : m.contains k = true ↔ k ∈ m.keys := by
  simp only [contains, Option.isSome_iff_exists, get?_eq_some_iff, keys, List.mem_map]
  exact ⟨fun ⟨a, h⟩ => ⟨(k, a), h, rfl⟩, fun ⟨⟨_, a⟩, h, e⟩ => ⟨a, e ▸ h⟩⟩

theorem get?_filter (p : κ → α → Bool) (m : OrderedMap κ α) (k : κ) :
    (m.filter p).get? k = (m.get? k).filter (p k) := by
  apply Option.ext
  intro a
  simp only [get?_eq_some_iff, filter, List.mem_filter, Option.filter_eq_some_iff]

theorem find_place [DecidableEq κ] (k l : κ) (a : α) (es : List (κ × α)) :
    find l (place k a es) = if l = k then some a else find l es := by
  induction es with
  | nil => by_cases h : l = k <;> simp [place, find, h]
  | cons e rest ih =>
    unfold place
    split
    · by_cases h : l = k <;> simp [find, h]
    · next eq =>
      have same : k = e.1 := LawfulEqCmp.eq_of_compare eq
      by_cases h : l = k
      · simp [find, h]
      · simp [find, h, ← same]
    · next gt =>
      by_cases h : l = k
      · subst h
        simp [find, gt, ih]
      · simp [find, ih, h]

theorem get?_erase [DecidableEq κ] (m : OrderedMap κ α) (k l : κ) :
    (m.erase k).get? l = if l = k then none else m.get? l := by
  rw [erase, get?_filter]
  apply Option.ext
  intro a
  by_cases h : l = k
  · simp [h]
  · simp [h, Option.filter_eq_some_iff, Ne.symm h]

variable [TransOrd κ]

theorem place_ascending (k : κ) (a : α) {l : List (κ × α)}
    (h : l.Pairwise fun x y => compare x.1 y.1 = .lt) :
    (place k a l).Pairwise fun x y => compare x.1 y.1 = .lt := by
  induction l with
  | nil => simp [place]
  | cons e rest ih =>
    obtain ⟨first, tail⟩ := List.pairwise_cons.1 h
    unfold place
    split
    · next lt =>
      refine List.pairwise_cons.2 ⟨fun x hx => ?_, h⟩
      rcases List.mem_cons.1 hx with rfl | hx
      · exact lt
      · exact TransCmp.lt_trans lt (first x hx)
    · next eq =>
      have same : k = e.1 := LawfulEqCmp.eq_of_compare eq
      exact List.pairwise_cons.2 ⟨fun x hx => same ▸ first x hx, tail⟩
    · next gt =>
      refine List.pairwise_cons.2 ⟨fun x hx => ?_, ih tail⟩
      rcases mem_place hx with rfl | hx
      · exact OrientedCmp.lt_of_gt gt
      · exact first x hx

def insert (m : OrderedMap κ α) (k : κ) (a : α) : OrderedMap κ α :=
  ⟨place k a m.entries, place_ascending k a m.ascending⟩

/-- The map of a list of pairs; a later pair wins over an earlier one with the same key. -/
def ofList (l : List (κ × α)) : OrderedMap κ α := l.foldl (fun m e => m.insert e.1 e.2) ∅

theorem get?_insert [DecidableEq κ] (m : OrderedMap κ α) (k l : κ) (a : α) :
    (m.insert k a).get? l = if l = k then some a else m.get? l := find_place k l a m.entries

omit [LawfulEqOrd κ] in
/-- Ascending lists with the same members are the same list. -/
theorem entries_unique {l r : List (κ × α)}
    (hl : l.Pairwise fun x y => compare x.1 y.1 = .lt)
    (hr : r.Pairwise fun x y => compare x.1 y.1 = .lt)
    (same : ∀ e, e ∈ l ↔ e ∈ r) : l = r := by
  have irrefl : ∀ {x y : κ × α}, compare x.1 y.1 = .lt → compare y.1 x.1 = .lt → False :=
    fun h g => by simp [OrientedCmp.gt_of_lt g] at h
  induction l generalizing r with
  | nil => exact (List.eq_nil_iff_forall_not_mem.2 fun e he => by simpa using (same e).2 he).symm
  | cons x l ih =>
    cases r with
    | nil => simpa using (same x).1 (List.mem_cons_self ..)
    | cons y r =>
      obtain ⟨xl, tl⟩ := List.pairwise_cons.1 hl
      obtain ⟨yr, tr⟩ := List.pairwise_cons.1 hr
      have heads : x = y := by
        rcases List.mem_cons.1 ((same x).1 (List.mem_cons_self ..)) with h | h
        · exact h
        · rcases List.mem_cons.1 ((same y).2 (List.mem_cons_self ..)) with g | g
          · exact g.symm
          · exact (irrefl (xl y g) (yr x h)).elim
      subst heads
      refine congrArg _ (ih tl tr fun e => ?_)
      have ne : e ∈ l ∨ e ∈ r → e ≠ x := by
        rintro (h | h) rfl
        · exact irrefl (xl e h) (xl e h)
        · exact irrefl (yr e h) (yr e h)
      constructor
      · intro h
        exact (List.mem_cons.1 ((same e).1 (List.mem_cons_of_mem _ h))).resolve_left (ne (.inl h))
      · intro h
        exact (List.mem_cons.1 ((same e).2 (List.mem_cons_of_mem _ h))).resolve_left (ne (.inr h))

theorem ext_get? {m n : OrderedMap κ α} (h : ∀ k, m.get? k = n.get? k) : m = n := by
  have same : m.entries = n.entries := entries_unique m.ascending n.ascending fun e => by
    rw [← get?_eq_some_iff (k := e.1) (a := e.2), ← get?_eq_some_iff (k := e.1) (a := e.2), h]
  cases m
  cases n
  simp_all

end OrderedMap

end Dataflow
