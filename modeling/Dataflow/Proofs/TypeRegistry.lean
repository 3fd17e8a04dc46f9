import Dataflow.Proofs.Lattice.Ancestry

/-! Module types are partially ordered by their ancestry, with the root on top. A type is added below
types that are there already and is not added twice. So no way up from a type that was there before
leads to a new one, and what is above a type stays as it was when the type was added. -/

namespace Dataflow.TypeRegistry

variable {r : TypeRegistry} {s : Settings} {t u v p : TypeName} {m n : Nat} {ps : List TypeName}
  {names : List String} {types : List (String × String)}

/-- A type with the parents that it is to have. -/
structure Declaration where
  type : TypeName
  parents : List TypeName

/-- Add a type to a registry in place, one check after the other. -/
def declare (d : Declaration) : ExceptT Error (StateM TypeRegistry) Unit := do
  let r ← get
  if r.contains d.type then throw (.registry (.duplicateType d.type))
  if let some missing := d.parents.find? fun p => !r.contains p then
    throw (.unknownType missing.text)
  modify (·.insert d.type (if d.parents.isEmpty then [r.root] else d.parents))

/-- The answer to a declaration, and the registry after it. -/
def declared (r : TypeRegistry) (d : Declaration) : Except Error Unit × TypeRegistry :=
  Id.run (StateT.run (ExceptT.run (declare d)) r)

/-- The registry after declarations in their order, refused or not. -/
def afterAll (r : TypeRegistry) (ds : List Declaration) : TypeRegistry :=
  ds.foldl (fun r d => (r.declared d).2) r

/-- A declaration that is refused leaves the registry alone. -/
theorem declared_eq (r : TypeRegistry) (d : Declaration) :
    r.declared d = match r.add d.type d.parents with
      | .ok q => (.ok (), q)
      | .error e => (.error e, r) := by
  obtain ⟨t, ps⟩ := d
  show Id.run (StateT.run (ExceptT.run (if r.contains t = true then _ else _)) r) = _
  unfold add
  by_cases known : r.contains t = true
  · rw [if_pos known, if_pos known]
    rfl
  · rw [if_neg known, if_neg known]
    cases ps.find? fun p => !r.contains p with
    | some p => rfl
    | none => rfl

/-- All that an accepted declaration does. -/
theorem add_eq_ok {q : TypeRegistry} (added : r.add t ps = .ok q) :
    r.contains t = false ∧ (∀ p ∈ ps, r.contains p = true) ∧
      q = r.insert t (if ps.isEmpty then [r.root] else ps) := by
  unfold add at added
  split at added
  · cases added
  · next fresh =>
    split at added
    · cases added
    · next known =>
      refine ⟨by simpa using fresh, fun p hp => ?_, (Except.ok.inj added).symm⟩
      simpa using List.find?_eq_none.1 known p hp

theorem parents_insert_self (r : TypeRegistry) (t : TypeName) (ps : List TypeName) :
    (r.insert t ps).parents t = ps := by
  rw [parents, parents?_insert, if_pos rfl]
  rfl

theorem parents_insert_of_ne (other : u ≠ t) : (r.insert t ps).parents u = r.parents u := by
  rw [parents, parents?_insert, if_neg other]
  rfl

theorem parents_of_not_contains (absent : r.contains t = false) : r.parents t = [] := by
  have none : r.parents? t = none := by simpa [contains] using absent
  rw [parents, none]
  rfl

theorem Climbs.trans (lower : r.Climbs t m u) (upper : r.Climbs u n v) : r.Climbs t (m + n) v := by
  induction upper with
  | refl => exact lower
  | step _ ne parent ih => exact ih.step ne parent

theorem Climbs.head (ne : t ≠ r.root) (parent : p ∈ r.parents t) (climbs : r.Climbs p n u) :
    r.Climbs t (1 + n) u :=
  Climbs.trans (.step .refl ne parent) climbs

theorem mem_ancestry_iff_climbs : u ∈ r.ancestry t ↔ ∃ n, r.Climbs t n u := by
  rw [mem_ancestry_iff, ← not_iff_not, Bool.not_eq_true, Option.isSome_eq_false_iff,
    Option.isNone_iff_eq_none, Distances.distance?_eq_none_iff, not_exists]

theorem ancestry_of_not_contains (absent : r.contains t = false) : r.ancestry t = [t] := by
  have nothing : r.above t = [] := by
    unfold above
    split
    · rfl
    · exact parents_of_not_contains absent
  refine (collected_ancestry r t).unique (.expand List.not_mem_nil ?_)
  rw [nothing]
  exact .done

/-- All that is known has a way up to the root, no two types have ways up to each other, and parents
are known. -/
structure Rooted (r : TypeRegistry) : Prop where
  root : r.contains r.root = true
  reaches : ∀ {t}, r.contains t = true → ∃ n, r.Climbs t n r.root
  antisymm : ∀ {t u m n}, r.Climbs t m u → r.Climbs u n t → t = u
  closed : ∀ {t p}, p ∈ r.parents t → r.contains p = true

/-- No way up leads to a type that is not known, unless it starts there. -/
theorem Rooted.ne_of_climbs (rooted : r.Rooted) (fresh : r.contains t = false) (other : u ≠ t)
    (climbs : r.Climbs u n v) : v ≠ t := by
  cases climbs with
  | refl => exact other
  | step _ _ parent =>
    rintro rfl
    rw [rooted.closed parent] at fresh
    cases fresh

/-- What is above other types stays as it is when a type is added. -/
theorem Rooted.climbs_insert (rooted : r.Rooted) (fresh : r.contains t = false) (other : u ≠ t) :
    (r.insert t ps).Climbs u n v ↔ r.Climbs u n v := by
  constructor
  · intro climbs
    induction climbs with
    | refl => exact .refl
    | step _ ne parent ih =>
      rw [parents_insert_of_ne (rooted.ne_of_climbs fresh other ih)] at parent
      exact ih.step ne parent
  · intro climbs
    induction climbs with
    | refl => exact .refl
    | step climbs ne parent ih =>
      refine ih.step ne ?_
      rwa [parents_insert_of_ne (rooted.ne_of_climbs fresh other climbs)]

theorem Rooted.distance?_insert (rooted : r.Rooted) (fresh : r.contains t = false)
    (other : u ≠ t) (v : TypeName) :
    ((r.insert t ps).distances u).distance? v = (r.distances u).distance? v := by
  apply Option.ext
  intro d
  simp only [Distances.distance?_eq_some_iff, rooted.climbs_insert fresh other]

theorem ne_of_contains (known : r.contains u = true) (fresh : r.contains t = false) : u ≠ t := by
  rintro rfl
  rw [known] at fresh
  cases fresh

theorem Rooted.insert (rooted : r.Rooted) (fresh : r.contains t = false)
    (known : ∀ p ∈ ps, r.contains p = true) (some : ps ≠ []) : (r.insert t ps).Rooted := by
  have climbs_insert : ∀ {u n v}, u ≠ t → ((r.insert t ps).Climbs u n v ↔ r.Climbs u n v) :=
    fun other => rooted.climbs_insert fresh other
  constructor
  case root => rw [root_insert, contains_insert, rooted.root, Bool.or_true]
  case reaches =>
    intro u listed
    rw [contains_insert, Bool.or_eq_true, beq_iff_eq] at listed
    rcases listed with rfl | listed
    · obtain ⟨p, hp⟩ := List.exists_mem_of_ne_nil ps some
      obtain ⟨n, climbs⟩ := rooted.reaches (known p hp)
      have below : u ≠ r.root := (ne_of_contains rooted.root fresh).symm
      refine ⟨1 + n, Climbs.head below ?_
        ((climbs_insert (ne_of_contains (known p hp) fresh)).2 climbs)⟩
      rwa [parents_insert_self]
    · obtain ⟨n, climbs⟩ := rooted.reaches listed
      exact ⟨n, (climbs_insert (ne_of_contains listed fresh)).2 climbs⟩
  case antisymm =>
    intro u v m n up down
    by_cases hu : u = t
    · by_cases hv : v = t
      · rw [hu, hv]
      · exact absurd hu (rooted.ne_of_climbs fresh hv ((climbs_insert hv).1 down))
    · have hv : v ≠ t := rooted.ne_of_climbs fresh hu ((climbs_insert hu).1 up)
      exact rooted.antisymm ((climbs_insert hu).1 up) ((climbs_insert hv).1 down)
  case closed =>
    intro u p parent
    rw [contains_insert, Bool.or_eq_true]
    by_cases hu : u = t
    · rw [hu, parents_insert_self] at parent
      exact .inr (known p parent)
    · rw [parents_insert_of_ne hu] at parent
      exact .inr (rooted.closed parent)

theorem contains_new (root t : TypeName) : (new root).contains t = true ↔ t = root := by
  by_cases same : root = t
  · simp [contains, parents?, new, same]
  · simp [contains, parents?, new, same, Ne.symm same]

theorem parents_new (root t : TypeName) : (new root).parents t = [] := by
  by_cases same : root = t <;> simp [parents, parents?, new, same]

theorem rooted_new (root : TypeName) : (new root).Rooted where
  root := (contains_new root root).2 rfl
  reaches listed := ⟨0, (contains_new root _).1 listed ▸ .refl⟩
  antisymm up _ := by
    cases up with
    | refl => rfl
    | step _ _ parent => simp [parents_new] at parent
  closed parent := by simp [parents_new] at parent

/-- Each name is new and comes after its parent, or the parent was there before. -/
def Stacked : List String → List (String × String) → Prop
  | _, [] => True
  | names, (name, parent) :: rest => name ∉ names ∧ parent ∈ names ∧ Stacked (name :: names) rest

/-- The known types are those of the basic package with these names. -/
def Names (r : TypeRegistry) (s : Settings) (names : List String) : Prop :=
  ∀ t, r.contains t = true ↔ ∃ name ∈ names, t = s.basic name

theorem Names.contains_basic (holds : r.Names s names) (name : String) :
    r.contains (s.basic name) = true ↔ name ∈ names := by
  rw [holds]
  constructor
  · rintro ⟨_, listed, same⟩
    cases same
    exact listed
  · intro listed
    exact ⟨name, listed, rfl⟩

theorem Rooted.foldl_insert (stacked : Stacked names types) (rooted : r.Rooted)
    (holds : r.Names s names) :
    let q := types.foldl (fun r e => r.insert (s.basic e.1) [s.basic e.2]) r
    q.Rooted ∧ q.Names s ((types.map Prod.fst).reverse ++ names) := by
  induction types generalizing r names with
  | nil => exact ⟨rooted, holds⟩
  | cons e types ih =>
    obtain ⟨name, parent⟩ := e
    obtain ⟨new, known, stacked⟩ := stacked
    rw [List.map_cons, List.reverse_cons, List.append_assoc, List.singleton_append]
    refine ih stacked (rooted.insert ?_ ?_ (List.cons_ne_nil _ _)) fun t => ?_
    · rwa [← Bool.not_eq_true, holds.contains_basic]
    · intro p hp
      rw [List.mem_singleton.1 hp, holds.contains_basic]
      exact known
    · rw [contains_insert, Bool.or_eq_true, beq_iff_eq, holds]
      simp

theorem rooted_withBasics (s : Settings) : (withBasics s).Rooted := by
  have stacked : Stacked ["Module"] basicTypes := by simp [Stacked, basicTypes]
  have start : (new (s.basic "Module")).Names s ["Module"] := fun t => by
    simp [contains_new]
  obtain ⟨rooted, holds⟩ := (rooted_new (s.basic "Module")).foldl_insert stacked start
  refine rooted.insert ?_ ?_ (List.cons_ne_nil _ _)
  · rw [← Bool.not_eq_true, holds]
    rintro ⟨name, listed, same⟩
    obtain rfl : "PythonCalc" = name := congrArg TypeName.name same
    simp [basicTypes] at listed
  · intro p hp
    rw [List.mem_singleton.1 hp, holds.contains_basic]
    simp

theorem Rooted.declared (rooted : r.Rooted) (d : Declaration) : (r.declared d).2.Rooted := by
  rw [declared_eq]
  cases added : r.add d.type d.parents with
  | error e => exact rooted
  | ok q =>
    obtain ⟨fresh, known, rfl⟩ := add_eq_ok added
    refine rooted.insert fresh ?_ ?_
    · split
      · intro p hp
        rw [List.mem_singleton.1 hp]
        exact rooted.root
      · exact known
    · split
      · exact List.cons_ne_nil _ _
      · next some => simpa using some

theorem Rooted.afterAll (rooted : r.Rooted) (ds : List Declaration) : (r.afterAll ds).Rooted := by
  induction ds generalizing r with
  | nil => exact rooted
  | cons d ds ih => exact ih (rooted.declared d)

/-- What a registry starts as: a root alone, or the types of the basic package. -/
inductive Start
  | bare (root : TypeName)
  | basics (s : Settings)

def Start.registry : Start → TypeRegistry
  | .bare root => new root
  | .basics s => withBasics s

theorem Start.rooted (start : Start) : start.registry.Rooted := by
  cases start with
  | bare root => exact rooted_new root
  | basics s => exact rooted_withBasics s

/-- The ancestry of the types of a registry is a partial order with the root on top. -/
structure Ordered (r : TypeRegistry) : Prop where
  reaches : ∀ t, r.contains t = true → ((r.distances t).distance? r.root).isSome = true
  refl : ∀ t, t ∈ r.ancestry t
  antisymm : ∀ t u, t ∈ r.ancestry u → u ∈ r.ancestry t → t = u
  trans : ∀ t u v, u ∈ r.ancestry t → v ∈ r.ancestry u → v ∈ r.ancestry t
  closed : ∀ t, ∀ p ∈ r.parents t, r.contains p = true
  alone : ∀ t, r.contains t = false → r.ancestry t = [t]

theorem Rooted.ordered (rooted : r.Rooted) : r.Ordered := by
  constructor
  case reaches =>
    exact fun t listed => mem_ancestry_iff.1 (mem_ancestry_iff_climbs.2 (rooted.reaches listed))
  case refl => exact fun t => mem_ancestry_iff_climbs.2 ⟨0, .refl⟩
  case antisymm =>
    intro t u down up
    obtain ⟨m, down⟩ := mem_ancestry_iff_climbs.1 down
    obtain ⟨n, up⟩ := mem_ancestry_iff_climbs.1 up
    exact rooted.antisymm up down
  case trans =>
    intro t u v lower upper
    obtain ⟨m, lower⟩ := mem_ancestry_iff_climbs.1 lower
    obtain ⟨n, upper⟩ := mem_ancestry_iff_climbs.1 upper
    exact mem_ancestry_iff_climbs.2 ⟨m + n, lower.trans upper⟩
  case closed => exact fun t p parent => rooted.closed parent
  case alone => exact fun t absent => ancestry_of_not_contains absent

/-- Whatever is declared, the types of a registry are ordered by their ancestry. A declaration that is
refused changes nothing, and one that is accepted leaves all distances from known types as they are. -/
theorem ordered_afterAll (start : Start) (ds : List Declaration) :
    let r := start.registry.afterAll ds
    r.Ordered ∧ ∀ d, match r.declared d with
      | (.ok _, q) => ∀ t, r.contains t = true →
        ∀ u, (q.distances t).distance? u = (r.distances t).distance? u
      | (.error _, q) => q = r := by
  intro r
  have rooted : r.Rooted := start.rooted.afterAll ds
  refine ⟨rooted.ordered, fun d => ?_⟩
  rw [declared_eq]
  cases added : r.add d.type d.parents with
  | error e => rfl
  | ok q =>
    obtain ⟨fresh, -, rfl⟩ := add_eq_ok added
    exact fun t listed => rooted.distance?_insert fresh (ne_of_contains listed fresh)

end Dataflow.TypeRegistry
