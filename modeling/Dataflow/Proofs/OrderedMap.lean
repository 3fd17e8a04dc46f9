import Dataflow.OrderedMap

/-! Listings and unions of ordered maps. A key above all others is listed last, so a map that is
filled with ever greater keys lists its values in the order in which they came. -/

namespace Dataflow.OrderedMap

open Std

variable {κ : Type u} {α : Type v} [Ord κ] [LawfulEqOrd κ]

theorem mem_keys_iff {m : OrderedMap κ α} {k : κ} : k ∈ m.keys ↔ ∃ a, m.get? k = some a := by
  simp only [keys, List.mem_map, get?_eq_some_iff]
  constructor
  · rintro ⟨e, h, rfl⟩
    exact ⟨e.2, h⟩
  · rintro ⟨a, h⟩
    exact ⟨(k, a), h, rfl⟩

theorem mem_values_iff {m : OrderedMap κ α} {a : α} :
    a ∈ m.values ↔ ∃ k, m.get? k = some a := by
  simp only [values, List.mem_map, get?_eq_some_iff]
  constructor
  · rintro ⟨e, h, rfl⟩
    exact ⟨e.1, h⟩
  · rintro ⟨k, h⟩
    exact ⟨(k, a), h, rfl⟩

omit [LawfulEqOrd κ] in
theorem contains_eq_false_iff {m : OrderedMap κ α} {k : κ} :
    m.contains k = false ↔ m.get? k = none := by
  simp [contains]

omit [LawfulEqOrd κ] in
theorem contains_eq_true_iff {m : OrderedMap κ α} {k : κ} :
    m.contains k = true ↔ ∃ a, m.get? k = some a := by
  simp [contains, Option.isSome_iff_exists]

omit [LawfulEqOrd κ] in
theorem ascending_keys (m : OrderedMap κ α) : m.keys.Pairwise fun k l => compare k l = .lt :=
  List.pairwise_map.2 m.ascending

theorem keys_eq_of_contains [TransOrd κ] {β : Type w} {m : OrderedMap κ α} {n : OrderedMap κ β}
    (same : ∀ k, m.contains k = n.contains k) : m.keys = n.keys := by
  have listed : (m.keys.map fun k => (k, ())) = n.keys.map fun k => (k, ()) := by
    refine entries_unique (List.pairwise_map.2 m.ascending_keys)
      (List.pairwise_map.2 n.ascending_keys) fun e => ?_
    simp [← contains_iff, same]
  simpa [List.map_map, Function.comp_def] using congrArg (List.map Prod.fst) listed

theorem keys_ne_singleton {m : OrderedMap κ α} {k l : κ} (hk : m.contains k = true)
    (hl : m.contains l = true) (other : k ≠ l) (j : κ) : m.keys ≠ [j] := by
  intro single
  rw [contains_iff, single, List.mem_singleton] at hk hl
  exact other (hk.trans hl.symm)

omit [LawfulEqOrd κ] in
theorem isEmpty_iff {m : OrderedMap κ α} : m.isEmpty = true ↔ m = ∅ := by
  constructor
  · intro h
    obtain ⟨entries, ascending⟩ := m
    obtain rfl : entries = [] := by simpa [isEmpty] using h
    rfl
  · rintro rfl
    rfl

theorem nodup_keys (m : OrderedMap κ α) : m.keys.Nodup := by
  refine m.ascending_keys.imp ?_
  rintro k l lt rfl
  simp at lt

theorem nodup_entries (m : OrderedMap κ α) : m.entries.Nodup := by
  refine m.ascending.imp ?_
  rintro a b lt rfl
  simp at lt

variable [TransOrd κ] [DecidableEq κ]

@[simp] theorem get?_insert_self (m : OrderedMap κ α) (k : κ) (a : α) :
    (m.insert k a).get? k = some a := by
  simp [get?_insert]

theorem get?_insert_of_ne {k l : κ} (h : l ≠ k) (m : OrderedMap κ α) (a : α) :
    (m.insert k a).get? l = m.get? l := by
  simp [get?_insert, h]

theorem get?_insert_eq_some_iff {m : OrderedMap κ α} {k l : κ} {a b : α} :
    (m.insert k a).get? l = some b ↔ l = k ∧ b = a ∨ l ≠ k ∧ m.get? l = some b := by
  by_cases h : l = k <;> simp [get?_insert, h, eq_comm]

omit [TransOrd κ] in
theorem get?_erase_eq_some_iff {m : OrderedMap κ α} {k l : κ} {a : α} :
    (m.erase k).get? l = some a ↔ l ≠ k ∧ m.get? l = some a := by
  by_cases h : l = k <;> simp [get?_erase, h]

/-- An entry that is moved to another key takes the place of what was there. -/
theorem get?_insert_erase_eq_some_iff {m : OrderedMap κ α} {j k l : κ} {a b : α} :
    ((m.erase j).insert k a).get? l = some b ↔
      l = k ∧ b = a ∨ l ≠ k ∧ l ≠ j ∧ m.get? l = some b := by
  rw [get?_insert_eq_some_iff, get?_erase_eq_some_iff]

theorem contains_insert (m : OrderedMap κ α) (k l : κ) (a : α) :
    (m.insert k a).contains l = (decide (l = k) || m.contains l) := by
  by_cases h : l = k <;> simp [contains, get?_insert, h]

theorem insert_insert (m : OrderedMap κ α) (k : κ) (a b : α) :
    (m.insert k a).insert k b = m.insert k b := by
  apply ext_get?
  intro l
  by_cases h : l = k <;> simp [get?_insert, h]

theorem insert_of_get? {m : OrderedMap κ α} {k : κ} {a : α} (h : m.get? k = some a) :
    m.insert k a = m := by
  apply ext_get?
  intro l
  rw [get?_insert]
  split
  · next same => rw [same, h]
  · rfl

omit [LawfulEqOrd κ] [DecidableEq κ] in
theorem place_of_forall_lt {k : κ} {a : α} {es : List (κ × α)}
    (h : ∀ e ∈ es, compare e.1 k = .lt) : place k a es = es ++ [(k, a)] := by
  induction es with
  | nil => rfl
  | cons e rest ih =>
    have gt : compare k e.1 = .gt := OrientedCmp.gt_of_lt (h e (List.mem_cons_self ..))
    rw [place, gt, ih fun d hd => h d (List.mem_cons_of_mem _ hd)]
    rfl

omit [DecidableEq κ] in
theorem entries_insert_last {m : OrderedMap κ α} {k : κ} (a : α)
    (h : ∀ l ∈ m.keys, compare l k = .lt) : (m.insert k a).entries = m.entries ++ [(k, a)] :=
  place_of_forall_lt fun e he => h e.1 (List.mem_map_of_mem he)

omit [DecidableEq κ] in
theorem values_insert_last {m : OrderedMap κ α} {k : κ} (a : α)
    (h : ∀ l ∈ m.keys, compare l k = .lt) : (m.insert k a).values = m.values ++ [a] := by
  simp [values, entries_insert_last a h]

/-- Both maps in one; where they share a key, the second counts. -/
def union (m n : OrderedMap κ α) : OrderedMap κ α :=
  n.entries.foldl (fun m e => m.insert e.1 e.2) m

private theorem get?_foldl_insert (k : κ) (es : List (κ × α))
    (h : es.Pairwise fun x y => compare x.1 y.1 = .lt) (m : OrderedMap κ α) :
    (es.foldl (fun m e => m.insert e.1 e.2) m).get? k = (find k es).or (m.get? k) := by
  induction es generalizing m with
  | nil => rfl
  | cons e rest ih =>
    obtain ⟨first, tail⟩ := List.pairwise_cons.1 h
    rw [List.foldl_cons, ih tail, get?_insert, find]
    by_cases same : k = e.1
    · have absent : find e.1 rest = none := by
        refine Option.eq_none_iff_forall_not_mem.2 fun a ha => ?_
        have := first _ ((find_eq_some_iff tail).1 ha)
        simp at this
      simp [same, absent]
    · simp [same]

theorem get?_union (m n : OrderedMap κ α) (k : κ) :
    (m.union n).get? k = (n.get? k).or (m.get? k) :=
  get?_foldl_insert k n.entries n.ascending m

theorem contains_union (m n : OrderedMap κ α) (k : κ) :
    (m.union n).contains k = (n.contains k || m.contains k) := by
  simp [contains, get?_union, Option.isSome_or]

theorem union_insert (m n : OrderedMap κ α) (k : κ) (a : α) :
    m.union (n.insert k a) = (m.union n).insert k a := by
  apply ext_get?
  intro l
  by_cases h : l = k <;> simp [get?_union, get?_insert, h]

omit [DecidableEq κ] in
theorem union_empty (m : OrderedMap κ α) : m.union ∅ = m := rfl

theorem empty_union (m : OrderedMap κ α) : (∅ : OrderedMap κ α).union m = m := by
  apply ext_get?
  intro k
  simp [get?_union]

theorem union_assoc (l m n : OrderedMap κ α) : (l.union m).union n = l.union (m.union n) := by
  apply ext_get?
  intro k
  simp [get?_union, Option.or_assoc]

omit [TransOrd κ] [DecidableEq κ] in
private theorem perm_of_get? {m : OrderedMap κ α} {es : List (κ × α)} (distinct : es.Nodup)
    (same : ∀ k a, m.get? k = some a ↔ (k, a) ∈ es) : m.entries.Perm es := by
  refine (List.perm_ext_iff_of_nodup (nodup_entries m) distinct).2 fun e => ?_
  rw [← same e.1 e.2, get?_eq_some_iff]

theorem entries_insert_perm {m : OrderedMap κ α} {k : κ} (absent : m.get? k = none) (a : α) :
    (m.insert k a).entries.Perm ((k, a) :: m.entries) := by
  refine perm_of_get? (List.nodup_cons.2 ⟨fun there => ?_, nodup_entries m⟩) fun l b => ?_
  · rw [← get?_eq_some_iff, absent] at there
    cases there
  · rw [get?_insert, List.mem_cons, ← get?_eq_some_iff, Prod.mk.injEq]
    by_cases same : l = k
    · subst same
      simp [absent, eq_comm]
    · simp [same]

theorem values_insert_perm {m : OrderedMap κ α} {k : κ} (absent : m.get? k = none) (a : α) :
    (m.insert k a).values.Perm (a :: m.values) :=
  (entries_insert_perm absent a).map Prod.snd

theorem entries_union_perm {m n : OrderedMap κ α}
    (apart : ∀ k, m.contains k = true → n.contains k = false) :
    (m.union n).entries.Perm (m.entries ++ n.entries) := by
  have absent : ∀ {k a}, m.get? k = some a → n.get? k = none := fun {k a} h =>
    contains_eq_false_iff.1 (apart k (contains_eq_true_iff.2 ⟨a, h⟩))
  refine perm_of_get? (List.nodup_append.2 ⟨nodup_entries m, nodup_entries n, ?_⟩) fun k a => ?_
  · rintro ⟨k, a⟩ hm e hn rfl
    rw [← get?_eq_some_iff] at hm hn
    rw [absent hm] at hn
    cases hn
  · rw [get?_union, List.mem_append, ← get?_eq_some_iff, ← get?_eq_some_iff]
    cases hn : n.get? k with
    | none => simp
    | some b =>
      have : m.get? k = none := by
        cases hm : m.get? k with
        | none => rfl
        | some c => rw [absent hm] at hn; cases hn
      simp [this]

theorem values_union_perm {m n : OrderedMap κ α}
    (apart : ∀ k, m.contains k = true → n.contains k = false) :
    (m.union n).values.Perm (m.values ++ n.values) := by
  rw [values, values, values, ← List.map_append]
  exact (entries_union_perm apart).map Prod.snd

end Dataflow.OrderedMap
