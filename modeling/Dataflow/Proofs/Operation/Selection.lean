import Dataflow.Operation.Matching
import Dataflow.Proofs.Lattice
import Mathlib.Data.ENat.Lattice
import Mathlib.Data.List.Lex
import Mathlib.Data.Set.Finite.Lemmas

/-! Which operation a call finds. The distances of an operation's parameters from the arguments make a
vector, where what cannot be reached is infinitely far. Narrowing the candidates from one argument to
the next leaves those with the least vector in the order of words, or none if it is not finite. -/

namespace Dataflow

/-- A score as a distance: what has none is infinitely far. -/
def reach (score : Option ℕ) : ℕ∞ := score.elim ⊤ (↑)

theorem reach_eq_top_iff {score : Option ℕ} : reach score = ⊤ ↔ score = none := by
  cases score <;> simp [reach]

theorem reach_eq_natCast_iff {score : Option ℕ} {n : ℕ} : reach score = n ↔ score = some n := by
  cases score <;> simp [reach, eq_comm]

/-- A parameter accepts the types that it lists and all below them. -/
def Parameter.Accepts (r : TypeRegistry) (t : TypeName) (p : Parameter) : Prop :=
  ∃ u ∈ p.types, ∃ n, r.Climbs t n u

/-- The number of steps from a type up to the nearest one that a parameter lists. -/
noncomputable def Parameter.cost (r : TypeRegistry) (t : TypeName) (p : Parameter) : ℕ∞ :=
  sInf {m | ∃ u ∈ p.types, ∃ n : ℕ, r.Climbs t n u ∧ m = n}

/-- An operation accepts arguments if there is a parameter for each, which accepts it. -/
def Operation.Accepts (r : TypeRegistry) (ts : List TypeName) (op : Operation) : Prop :=
  List.Forall₂ (Parameter.Accepts r) ts op.parameters

noncomputable def Operation.costs (r : TypeRegistry) (ts : List TypeName) (op : Operation) :
    List ℕ∞ :=
  List.zipWith (Parameter.cost r) ts op.parameters

namespace Parameter

variable {r : TypeRegistry} {t : TypeName} {p : Parameter}

theorem cost_of_score? {n : ℕ} (score : p.score? (r.distances t) = some n) : p.cost r t = n := by
  obtain ⟨listed, least⟩ := List.min?_eq_some_iff.1 score
  obtain ⟨u, hu, near⟩ := List.mem_filterMap.1 listed
  refine IsLeast.csInf_eq ⟨⟨u, hu, n, (Distances.distance?_eq_some_iff.1 near).1, rfl⟩, ?_⟩
  rintro _ ⟨v, hv, m, climbs, rfl⟩
  cases near' : (r.distances t).distance? v with
  | none => exact absurd climbs (Distances.distance?_eq_none_iff.1 near' m)
  | some d =>
    have le := least d (List.mem_filterMap.2 ⟨v, hv, near'⟩)
    exact ENat.natCast_le_natCast.2 (Nat.le_trans le ((Distances.distance?_eq_some_iff.1 near').2 climbs))

theorem cost_eq_top_iff : p.cost r t = ⊤ ↔ ¬ p.Accepts r t := by
  rw [cost, sInf_eq_top]
  constructor
  · rintro top ⟨u, hu, n, climbs⟩
    exact ENat.natCast_ne_top n (top n ⟨u, hu, n, climbs, rfl⟩)
  · rintro refuses _ ⟨u, hu, n, climbs, -⟩
    exact absurd ⟨u, hu, n, climbs⟩ refuses

theorem cost_of_score?_none (score : p.score? (r.distances t) = none) : p.cost r t = ⊤ := by
  rw [cost_eq_top_iff]
  rintro ⟨u, hu, n, climbs⟩
  have none := List.filterMap_eq_nil_iff.1 (List.min?_eq_none_iff.1 score) u hu
  exact Distances.distance?_eq_none_iff.1 none n climbs

/-- What the walk up from a type tells of a parameter is how far the parameter is. -/
theorem cost_eq (r : TypeRegistry) (t : TypeName) (p : Parameter) :
    p.cost r t = reach (p.score? (r.distances t)) := by
  cases score : p.score? (r.distances t) with
  | none => exact cost_of_score?_none score
  | some n => exact cost_of_score? score

end Parameter

theorem Operation.top_mem_costs_iff {r : TypeRegistry} {ts : List TypeName} {op : Operation}
    (arity : op.arity = ts.length) : ⊤ ∈ op.costs r ts ↔ ¬ op.Accepts r ts := by
  obtain ⟨_, _, parameters, _, _, _⟩ := op
  unfold Operation.arity at arity
  unfold Operation.costs Operation.Accepts
  dsimp only at arity ⊢
  induction ts generalizing parameters with
  | nil =>
    obtain rfl := List.length_eq_zero_iff.1 arity
    simp
  | cons t ts ih =>
    cases parameters with
    | nil => cases arity
    | cons p ps =>
      rw [List.zipWith_cons_cons, List.mem_cons, List.forall₂_cons, not_and_or,
        ih ps (Nat.succ.inj arity), eq_comm, Parameter.cost_eq_top_iff]

namespace Catalogue

variable {c : Catalogue} {r : TypeRegistry} {ops : List Operation} {op : Operation}
  {name : String} {ts : List TypeName}

/-- The least of what candidates come to. -/
abbrev Least {α : Type} [LE α] (ops : List Operation) (f : Operation → α) (least : α) : Prop :=
  IsLeast {a | ∃ op ∈ ops, a = f op} least

theorem exists_least {α : Type} [LinearOrder α] (some : ops ≠ []) (f : Operation → α) :
    ∃ least, Least ops f least := by
  obtain ⟨op, listed⟩ := List.exists_mem_of_ne_nil _ some
  obtain ⟨first, listed, le⟩ := Set.exists_min_image {op | op ∈ ops} f ops.finite_toSet ⟨op, listed⟩
  refine ⟨f first, ⟨first, listed, rfl⟩, ?_⟩
  rintro _ ⟨op, listed, rfl⟩
  exact le op listed

theorem Least.congr {α : Type} [LE α] {f g : Operation → α} {a : α} (least : Least ops f a)
    (same : ∀ op ∈ ops, f op = g op) : Least ops g a := by
  obtain ⟨⟨first, listed, rfl⟩, le⟩ := least
  refine ⟨⟨first, listed, same first listed⟩, ?_⟩
  rintro _ ⟨op, listed, rfl⟩
  exact le ⟨op, listed, (same op listed).symm⟩

/-- The nearest candidates are those with the least score, if it is finite. -/
theorem nearest_eq_filter {score? : Operation → Option ℕ} {least : ℕ∞}
    (isLeast : Least ops (fun op => reach (score? op)) least) :
    nearest score? ops = if least = ⊤ then [] else ops.filter fun op => reach (score? op) = least := by
  obtain ⟨⟨first, listed, (reached : least = reach (score? first))⟩, le⟩ := isLeast
  unfold nearest
  cases best : (ops.filterMap score?).min? with
  | none =>
    have none := List.filterMap_eq_nil_iff.1 (List.min?_eq_none_iff.1 best) first listed
    rw [if_pos (reached.trans (reach_eq_top_iff.2 none))]
  | some n =>
    obtain ⟨there, below⟩ := List.min?_eq_some_iff.1 best
    obtain ⟨op, listed', score'⟩ := List.mem_filterMap.1 there
    have upper : least ≤ n := le ⟨op, listed', (reach_eq_natCast_iff.2 score').symm⟩
    have lower : (n : ℕ∞) ≤ least := by
      rw [reached]
      cases score : score? first with
      | none => exact le_top
      | some m =>
        exact ENat.natCast_le_natCast.2 (below m (List.mem_filterMap.2 ⟨first, listed, score⟩))
    obtain rfl := le_antisymm upper lower
    rw [if_neg (ENat.natCast_ne_top n)]
    refine List.filter_congr fun op _ => ?_
    rw [Bool.eq_iff_iff, beq_iff_eq, decide_eq_true_iff, reach_eq_natCast_iff]

theorem cons_le_cons_iff {a b : ℕ∞} {v w : List ℕ∞} :
    a :: v ≤ b :: w ↔ a < b ∨ a = b ∧ v ≤ w := by
  rw [le_iff_lt_or_eq, List.cons_lt_cons_iff, le_iff_lt_or_eq, List.cons.injEq]
  tauto

/-- A least vector starts with the least of the first components, and goes on with the least among
those that start so. -/
theorem Least.cons {f : Operation → ℕ∞} {g : Operation → List ℕ∞} {a : ℕ∞} {v : List ℕ∞}
    (least : Least ops (fun op => f op :: g op) (a :: v)) :
    Least ops f a ∧ Least (ops.filter fun op => f op = a) g v := by
  obtain ⟨⟨first, listed, same⟩, le⟩ := least
  obtain ⟨rfl, rfl⟩ := List.cons.inj same
  have below : ∀ op ∈ ops, f first < f op ∨ f first = f op ∧ g first ≤ g op := fun op listed =>
    cons_le_cons_iff.1 (le ⟨op, listed, rfl⟩)
  refine ⟨⟨⟨first, listed, rfl⟩, ?_⟩, ⟨first, List.mem_filter.2 ⟨listed, by simp⟩, rfl⟩, ?_⟩
  · rintro _ ⟨op, listed, rfl⟩
    exact (below op listed).elim le_of_lt fun h => le_of_eq h.1
  · rintro _ ⟨op, listed, rfl⟩
    obtain ⟨listed, here⟩ := List.mem_filter.1 listed
    have here : f op = f first := by simpa using here
    rcases below op listed with less | ⟨-, le⟩
    · exact absurd here (ne_of_gt less)
    · exact le

/-- The distances from the arguments at a place and after it. -/
noncomputable def costsFrom (r : TypeRegistry) (place : Nat) (ts : List TypeName)
    (op : Operation) : List ℕ∞ :=
  List.zipWith (Parameter.cost r) ts (op.parameters.drop place)

theorem costsFrom_cons {place : Nat} {t : TypeName} (arity : op.arity = place + (t :: ts).length) :
    costsFrom r place (t :: ts) op =
      reach (scoreAt? (r.distances t) place op) :: costsFrom r (place + 1) ts op := by
  have bound : place < op.parameters.length := by
    rw [List.length_cons] at arity
    unfold Operation.arity at arity
    omega
  rw [costsFrom, List.drop_eq_getElem_cons bound, List.zipWith_cons_cons, Parameter.cost_eq, scoreAt?,
    List.getElem?_eq_getElem bound]
  rfl

theorem narrow_nil (types : TypeRegistry) (place : Nat) (ts : List TypeName) :
    narrow types place ts [] = [] := by
  induction ts generalizing place with
  | nil => rfl
  | cons t ts ih => exact ih (place + 1)

/-- Narrowing leaves the candidates with the least vector, if that is finite. -/
theorem narrow_eq_filter {place : Nat} {v : List ℕ∞}
    (arity : ∀ op ∈ ops, op.arity = place + ts.length) (least : Least ops (costsFrom r place ts) v) :
    narrow r place ts ops = if ⊤ ∈ v then [] else ops.filter fun op => costsFrom r place ts op = v := by
  induction ts generalizing place ops v with
  | nil =>
    obtain ⟨⟨first, -, rfl⟩, -⟩ := least
    simp [narrow, costsFrom]
  | cons t ts ih =>
    have split : ∀ op ∈ ops, costsFrom r place (t :: ts) op =
        reach (scoreAt? (r.distances t) place op) :: costsFrom r (place + 1) ts op :=
      fun op listed => costsFrom_cons (arity op listed)
    obtain ⟨first, listed, rfl⟩ := least.1
    rw [split first listed] at least ⊢
    obtain ⟨here, further⟩ := (least.congr split).cons
    rw [narrow, nearest_eq_filter here]
    by_cases far : reach (scoreAt? (r.distances t) place first) = ⊤
    · rw [if_pos far, narrow_nil, if_pos (List.mem_cons.2 (.inl far.symm))]
    · have arity' : ∀ op ∈ ops, op.arity = place + 1 + ts.length := fun op listed => by
        rw [arity op listed, List.length_cons]
        omega
      rw [if_neg far, ih (fun op kept => arity' op (List.mem_filter.1 kept).1) further,
        List.filter_filter]
      refine if_congr (by rw [List.mem_cons, or_iff_right (Ne.symm far)]) rfl ?_
      refine List.filter_congr fun op listed => ?_
      rw [split op listed, Bool.eq_iff_iff]
      simp [and_comm]

/-- The usable operations of a name that take so many arguments. -/
def fitting (c : Catalogue) (name : String) (arity : Nat) : List Operation :=
  (c.candidates name).filter fun op => op.arity == arity

theorem mem_fitting {n : Nat} : op ∈ c.fitting name n ↔
    op ∈ c.operations ∧ op.name = name ∧ op.isUsable = true ∧ op.arity = n := by
  simp only [fitting, candidates, List.mem_filter, Bool.and_eq_true, beq_iff_eq, and_assoc]

theorem arity_of_mem_fitting {n : Nat} (listed : op ∈ c.fitting name n) : op.arity = n :=
  (mem_fitting.1 listed).2.2.2

theorem fitting_eq_nil {n : Nat} (unknown : c.candidates name = []) : c.fitting name n = [] := by
  rw [fitting, unknown, List.filter_nil]

theorem findOperation_of_candidates_eq_nil (r : TypeRegistry) (ts : List TypeName)
    (unknown : c.candidates name = []) :
    c.findOperation r name ts = .error (.noSuchOperation name) := by
  simp [findOperation, unknown]

theorem findOperation_of_fitting_eq_nil (r : TypeRegistry) (known : c.candidates name ≠ [])
    (none : c.fitting name ts.length = []) :
    c.findOperation r name ts = .error (.arityMismatch name ts.length) := by
  unfold fitting at none
  simp [findOperation, known, none]

theorem findOperation_of_narrow_eq_nil (fits : c.fitting name ts.length ≠ [])
    (none : narrow r 0 ts (c.fitting name ts.length) = []) :
    c.findOperation r name ts = .error (.noMatchingOperation name ts.length) := by
  have known : c.candidates name ≠ [] := fun unknown => fits (fitting_eq_nil unknown)
  unfold fitting at fits none
  simp [findOperation, known, fits, none]

theorem findOperation_of_narrow_eq_cons {others : List Operation}
    (kept : narrow r 0 ts (c.fitting name ts.length) = op :: others) :
    c.findOperation r name ts = .ok (op,
      if others = [] then none else some ⟨name, ts.length, others.length + 1, op.text⟩) := by
  have fits : c.fitting name ts.length ≠ [] := fun none => by
    rw [none, narrow_nil] at kept
    cases kept
  have known : c.candidates name ≠ [] := fun unknown => fits (fitting_eq_nil unknown)
  unfold fitting at fits kept
  cases others with
  | nil => simp [findOperation, known, fits, kept]
  | cons => simp [findOperation, known, fits, kept]

/-- The outcome of a call that some operation fits, by the least vector of those that do. -/
theorem findOperation_of_least {least : List ℕ∞}
    (isLeast : Least (c.fitting name ts.length) (Operation.costs r ts) least) :
    ⊤ ∈ least ∧ c.findOperation r name ts = .error (.noMatchingOperation name ts.length) ∨
      ⊤ ∉ least ∧ ∃ op others,
        (c.fitting name ts.length).filter (fun op => op.costs r ts = least) = op :: others ∧
        c.findOperation r name ts = .ok (op,
          if others = [] then none else some ⟨name, ts.length, others.length + 1, op.text⟩) := by
  have narrowed : narrow r 0 ts (c.fitting name ts.length) = if ⊤ ∈ least then [] else
      (c.fitting name ts.length).filter fun op => op.costs r ts = least :=
    narrow_eq_filter (fun op listed => by rw [arity_of_mem_fitting listed, Nat.zero_add]) isLeast
  obtain ⟨first, listed, same⟩ := isLeast.1
  by_cases far : ⊤ ∈ least
  · rw [if_pos far] at narrowed
    exact .inl ⟨far, findOperation_of_narrow_eq_nil (List.ne_nil_of_mem listed) narrowed⟩
  · rw [if_neg far] at narrowed
    cases kept : (c.fitting name ts.length).filter fun op => op.costs r ts = least with
    | nil => exact absurd (List.filter_eq_nil_iff.1 kept first listed) (by simp [same])
    | cons op others =>
      exact .inr ⟨far, op, others, rfl, findOperation_of_narrow_eq_cons (narrowed.trans kept)⟩

/-- A call finds the first of the candidates with the least vector of distances, among all vectors in
the order of words, unless what is least is not finite. -/
theorem findOperation_eq_first_least (c : Catalogue) (r : TypeRegistry) (name : String)
    (ts : List TypeName) :
    (c.findOperation r name ts = .error (.noSuchOperation name) ↔ c.candidates name = []) ∧
    (c.candidates name ≠ [] →
      (c.findOperation r name ts = .error (.arityMismatch name ts.length) ↔
        c.fitting name ts.length = [])) ∧
    (c.fitting name ts.length ≠ [] →
      ∃ least, Least (c.fitting name ts.length) (Operation.costs r ts) least ∧
        (c.findOperation r name ts = .error (.noMatchingOperation name ts.length) ↔ ⊤ ∈ least) ∧
        (⊤ ∉ least → ∃ op others,
          (c.fitting name ts.length).filter (fun op => op.costs r ts = least) = op :: others ∧
          c.findOperation r name ts = .ok (op,
            if others = [] then none else some ⟨name, ts.length, others.length + 1, op.text⟩))) := by
  by_cases unknown : c.candidates name = []
  · exact ⟨iff_of_true (findOperation_of_candidates_eq_nil r ts unknown) unknown,
      fun known => absurd unknown known, fun fits => absurd (fitting_eq_nil unknown) fits⟩
  · by_cases none : c.fitting name ts.length = []
    · have refused := findOperation_of_fitting_eq_nil r unknown none
      exact ⟨by simp [refused, unknown], fun _ => iff_of_true refused none,
        fun fits => absurd none fits⟩
    · obtain ⟨least, isLeast⟩ := exists_least none (Operation.costs r ts)
      rcases findOperation_of_least isLeast with ⟨far, refused⟩ | ⟨near, op, others, kept, found⟩
      · exact ⟨by simp [refused, unknown], fun _ => by simp [refused, none],
          fun _ => ⟨least, isLeast, iff_of_true refused far, fun near => absurd far near⟩⟩
      · exact ⟨by simp [found, unknown], fun _ => by simp [found, none],
          fun _ => ⟨least, isLeast, by simp [found, near], fun _ => ⟨op, others, kept, found⟩⟩⟩

/-- What is found accepts the arguments, and no candidate comes before it. -/
theorem least_of_findOperation {warning : Option Ambiguity}
    (found : c.findOperation r name ts = .ok (op, warning)) :
    op ∈ c.fitting name ts.length ∧ op.Accepts r ts ∧
      Least (c.fitting name ts.length) (Operation.costs r ts) (op.costs r ts) := by
  have fits : c.fitting name ts.length ≠ [] := fun none => by
    by_cases unknown : c.candidates name = []
    · rw [findOperation_of_candidates_eq_nil r ts unknown] at found
      cases found
    · rw [findOperation_of_fitting_eq_nil r unknown none] at found
      cases found
  obtain ⟨least, isLeast⟩ := exists_least fits (Operation.costs r ts)
  rcases findOperation_of_least isLeast with ⟨-, refused⟩ | ⟨near, first, others, kept, found'⟩
  · rw [refused] at found
    cases found
  · rw [found'] at found
    cases found
    obtain ⟨listed, same⟩ := List.mem_filter.1 (kept ▸ List.mem_cons_self ..)
    obtain rfl : op.costs r ts = least := by simpa using same
    refine ⟨listed, ?_, isLeast⟩
    rwa [Operation.top_mem_costs_iff (arity_of_mem_fitting listed), not_not] at near

/-- A candidate that refuses an argument comes before all that accept them. -/
def Overshadowed (c : Catalogue) (r : TypeRegistry) (name : String) (ts : List TypeName) : Prop :=
  ∃ b ∈ c.fitting name ts.length, ¬ b.Accepts r ts ∧
    ∀ a ∈ c.fitting name ts.length, a.Accepts r ts → b.costs r ts < a.costs r ts

theorem overshadowed_iff {least : List ℕ∞}
    (isLeast : Least (c.fitting name ts.length) (Operation.costs r ts) least) :
    c.Overshadowed r name ts ↔ ⊤ ∈ least := by
  obtain ⟨⟨first, listed, rfl⟩, le⟩ := isLeast
  rw [Operation.top_mem_costs_iff (arity_of_mem_fitting listed)]
  constructor
  · rintro ⟨b, listed', -, before⟩ accepts
    exact absurd (le ⟨b, listed', rfl⟩) (not_le_of_gt (before first listed accepts))
  · intro refuses
    refine ⟨first, listed, refuses, fun a listed' accepts => ?_⟩
    refine lt_of_le_of_ne (le ⟨a, listed', rfl⟩) fun same => ?_
    rw [← Operation.top_mem_costs_iff (arity_of_mem_fitting listed), same,
      Operation.top_mem_costs_iff (arity_of_mem_fitting listed')] at refuses
    exact refuses accepts

theorem mem_fitting_register {new : Operation} {n : Nat} :
    op ∈ (c.register new).fitting name n ↔
      op ∈ c.fitting name n ∨ op = new ∧ new.name = name ∧ new.isUsable = true ∧ new.arity = n := by
  simp only [mem_fitting, operations, register, List.mem_append, List.mem_singleton]
  constructor
  · rintro ⟨(listed | rfl) | listed, rest⟩
    · exact .inl ⟨.inl listed, rest⟩
    · exact .inr ⟨rfl, rest⟩
    · exact .inl ⟨.inr listed, rest⟩
  · rintro (⟨listed, rest⟩ | ⟨rfl, rest⟩)
    · exact ⟨listed.imp_left .inl, rest⟩
    · exact ⟨.inl (.inr rfl), rest⟩

/-- No candidate is found, although some fit, only when a candidate overshadows those that accept. -/
theorem findOperation_eq_noMatching_iff (fits : op ∈ c.fitting name ts.length) :
    c.findOperation r name ts = .error (.noMatchingOperation name ts.length) ↔
      c.Overshadowed r name ts := by
  obtain ⟨least, isLeast⟩ := exists_least (List.ne_nil_of_mem fits) (Operation.costs r ts)
  rw [overshadowed_iff isLeast]
  rcases findOperation_of_least isLeast with ⟨far, refused⟩ | ⟨near, first, others, -, found⟩
  · exact iff_of_true refused far
  · exact iff_of_false (by simp [found]) near

theorem exists_findOperation (fits : op ∈ c.fitting name ts.length)
    (clear : ¬ c.Overshadowed r name ts) :
    ∃ op warning, c.findOperation r name ts = .ok (op, warning) := by
  obtain ⟨least, isLeast⟩ := exists_least (List.ne_nil_of_mem fits) (Operation.costs r ts)
  rw [overshadowed_iff isLeast] at clear
  rcases findOperation_of_least isLeast with ⟨far, -⟩ | ⟨-, first, others, -, found⟩
  · exact absurd far clear
  · exact ⟨first, _, found⟩

/-- After a call was resolved, one more operation overshadows what was found just if it refuses an
argument and comes before it. -/
theorem overshadowed_register_iff {warning : Option Ambiguity} {new : Operation}
    (found : c.findOperation r name ts = .ok (op, warning)) :
    (c.register new).Overshadowed r name ts ↔
      new.name = name ∧ new.isUsable = true ∧ new.arity = ts.length ∧ ¬ new.Accepts r ts ∧
        new.costs r ts < op.costs r ts := by
  obtain ⟨listed, accepts, isLeast⟩ := least_of_findOperation found
  constructor
  · rintro ⟨b, listed', refuses, before⟩
    have less := before op (mem_fitting_register.2 (.inl listed)) accepts
    rcases mem_fitting_register.1 listed' with listed' | ⟨rfl, called, usable, arity⟩
    · exact absurd (isLeast.2 ⟨b, listed', rfl⟩) (not_le_of_gt less)
    · exact ⟨called, usable, arity, refuses, less⟩
  · rintro ⟨called, usable, arity, refuses, less⟩
    refine ⟨new, mem_fitting_register.2 (.inr ⟨rfl, called, usable, arity⟩), refuses, ?_⟩
    intro a listed' accepts'
    rcases mem_fitting_register.1 listed' with listed' | ⟨rfl, -⟩
    · exact lt_of_lt_of_le less (isLeast.2 ⟨a, listed', rfl⟩)
    · exact absurd accepts' refuses

/-- A call that some candidate accepts is resolved, to one that accepts it, unless what accepts it is
overshadowed. One more operation leaves a call without a match only by overshadowing what it found. -/
theorem findOperation_complete (c : Catalogue) (r : TypeRegistry) (name : String)
    (ts : List TypeName) :
    (∀ op warning, c.findOperation r name ts = .ok (op, warning) → op.Accepts r ts) ∧
    ((∃ a ∈ c.fitting name ts.length, a.Accepts r ts) →
      (c.Overshadowed r name ts →
        c.findOperation r name ts = .error (.noMatchingOperation name ts.length)) ∧
      (¬ c.Overshadowed r name ts →
        ∃ op warning, c.findOperation r name ts = .ok (op, warning) ∧ op.Accepts r ts)) ∧
    (∀ op warning, c.findOperation r name ts = .ok (op, warning) → ∀ new : Operation,
      ((c.register new).findOperation r name ts = .error (.noMatchingOperation name ts.length) ↔
        new.name = name ∧ new.isUsable = true ∧ new.arity = ts.length ∧ ¬ new.Accepts r ts ∧
          new.costs r ts < op.costs r ts)) := by
  refine ⟨fun op warning found => (least_of_findOperation found).2.1, ?_, ?_⟩
  · rintro ⟨a, fits, -⟩
    refine ⟨(findOperation_eq_noMatching_iff fits).2, fun clear => ?_⟩
    obtain ⟨op, warning, found⟩ := exists_findOperation fits clear
    exact ⟨op, warning, found, (least_of_findOperation found).2.1⟩
  · intro op warning found new
    have listed : op ∈ (c.register new).fitting name ts.length :=
      mem_fitting_register.2 (.inl (least_of_findOperation found).1)
    exact (findOperation_eq_noMatching_iff listed).trans (overshadowed_register_iff found)

/-- Below a root are two types, and a third one below the first of them. -/
def sampleTypes : TypeRegistry :=
  (((TypeRegistry.new ⟨"t", "Root"⟩).insert ⟨"t", "A"⟩ [⟨"t", "Root"⟩]).insert
    ⟨"t", "B"⟩ [⟨"t", "A"⟩]).insert ⟨"t", "E"⟩ [⟨"t", "Root"⟩]

def sampleOverload (first second : String) : Operation :=
  ⟨"f", "", [⟨"x", [⟨"t", first⟩]⟩, ⟨"y", [⟨"t", second⟩]⟩], ⟨"t", "A"⟩, true, .nothing⟩

/-- One operation accepts both arguments, the other is nearer to the first and refuses the second. -/
theorem findOperation_overshadowed :
    let near := sampleOverload "B" "E"
    let far := sampleOverload "A" "A"
    let before := Catalogue.empty.register far
    let arguments : List TypeName := [⟨"t", "B"⟩, ⟨"t", "B"⟩]
    before.findOperation sampleTypes "f" arguments = .ok (far, none) ∧
      far ∈ (before.register near).fitting "f" arguments.length ∧ far.Accepts sampleTypes arguments ∧
      (before.register near).findOperation sampleTypes "f" arguments =
        .error (.noMatchingOperation "f" 2) := by
  intro near far before arguments
  have accepts : Parameter.Accepts sampleTypes ⟨"t", "B"⟩ ⟨"x", [⟨"t", "A"⟩]⟩ := by
    refine ⟨⟨"t", "A"⟩, List.mem_singleton.2 rfl, 1, ?_⟩
    exact .step .refl (by decide) (by decide)
  refine ⟨rfl, ?_, .cons accepts (.cons accepts .nil), rfl⟩
  rw [mem_fitting]
  exact ⟨List.mem_cons_self .., rfl, rfl, rfl⟩

end Catalogue

end Dataflow
