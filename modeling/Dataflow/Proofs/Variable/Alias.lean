import Mathlib.Data.List.Forall2
import Dataflow.Proofs.Draft.Functions
import Dataflow.Proofs.Variable.Parallel

/-! The version of a copy beside that of what was copied. Both are read below one variables root, and
the one is the other with its modules renamed, so that copies of both are the same. -/

namespace Dataflow

theorem OrderedMap.values_filter [Ord κ] (m : OrderedMap κ α) (f : α → Bool) :
    (m.filter fun _ a => f a).values = m.values.filter f := by
  simp only [values, filter, List.filter_map, Function.comp_def]

namespace Pipeline

/-- A pipeline that was written below a version of a single module: what is drawn was added, and at
last a connection from the drawing to that module. -/
structure Fed (p base g : Pipeline) (root : ModuleId) (c : Connection) : Prop where
  whole : p = (base.join g).withConnection c
  keys : base.modules.keys = [root]
  apart : base.Apart g
  base_closed : base.WellFormed
  closed : g.WellFormed
  fresh : (base.join g).connections.get? c.id = none
  last : ∀ k, g.connections.contains k = true → k < c.id
  destination : c.destination.module = root
  source : g.modules.contains c.source.module = true

namespace Fed

variable {p base g : Pipeline} {root : ModuleId} {c : Connection} (fed : p.Fed base g root c)
include fed

theorem contains_base (k : ModuleId) : base.modules.contains k = true ↔ k = root := by
  rw [OrderedMap.contains_iff, fed.keys, List.mem_singleton]

theorem absent : g.modules.contains root = false :=
  fed.apart.modules root ((fed.contains_base root).2 rfl)

theorem ne_root {k : ModuleId} (there : g.modules.contains k = true) : k ≠ root := by
  rintro rfl
  rw [fed.absent] at there
  cases there

theorem contains_cases {k : ModuleId} (there : p.modules.contains k = true) :
    k = root ∨ g.modules.contains k = true := by
  rw [fed.whole] at there
  have there : (base.join g).modules.contains k = true := there
  rw [contains_join, Bool.or_eq_true] at there
  exact there.symm.imp_left (fed.contains_base k).1

theorem keys_ne_singleton (k : ModuleId) : p.modules.keys ≠ [k] := by
  have listed : ∀ l, p.modules.contains l = (base.join g).modules.contains l := fun l => by
    rw [fed.whole]
    rfl
  refine OrderedMap.keys_ne_singleton (k := root) (l := c.source.module) ?_ ?_
    (fed.ne_root fed.source).symm k
  · simp [listed, (fed.contains_base _).2]
  · simp [listed, fed.source]

theorem inner : p.inner root = g.modules.values := by
  have same : (base.modules.union g.modules).filter (fun _ m => m.id != root) = g.modules := by
    apply OrderedMap.ext_get?
    intro k
    rw [OrderedMap.get?_filter, OrderedMap.get?_union]
    cases drawn : g.modules.get? k with
    | some m =>
      have own : m.id ≠ root := by
        rw [fed.closed.module_id drawn]
        exact fed.ne_root (OrderedMap.contains_eq_true_iff.2 ⟨m, drawn⟩)
      simp [own]
    | none =>
      cases there : base.modules.get? k with
      | none => rfl
      | some m =>
        have own : m.id = root := by
          rw [fed.base_closed.module_id there]
          exact (fed.contains_base k).1 (OrderedMap.contains_eq_true_iff.2 ⟨m, there⟩)
        simp [own]
  rw [Pipeline.inner, fed.whole]
  exact (OrderedMap.values_filter ..).symm.trans (congrArg OrderedMap.values same)

/-- Where a single port feeds the module, nothing else was connected to it before. -/
theorem bare {o : PortRef} (feed : Variable.feed p root = .ok o) :
    base.connections = ∅ ∧ o = c.source := by
  obtain ⟨d, into, source⟩ := Variable.feed_eq_ok feed
  have listed : ∀ {k e}, p.connections.get? k = some e → e.destination.module = root → e = d := by
    intro k e found here
    have there : e ∈ p.connectionsInto root :=
      List.mem_filter.2 ⟨OrderedMap.mem_values_iff.2 ⟨k, found⟩, by simpa using here⟩
    rw [into] at there
    exact List.mem_singleton.1 there
  have last : c = d := by
    refine listed (k := c.id) ?_ fed.destination
    rw [fed.whole]
    exact OrderedMap.get?_insert_self ..
  refine ⟨?_, by rw [last, source]⟩
  apply OrderedMap.ext_get?
  intro k
  refine Option.eq_none_iff_forall_not_mem.2 fun e found => ?_
  have own := fed.base_closed.connection_id found
  have joined : (base.join g).connections.get? k = some e := by
    have only := fed.apart.connections k (OrderedMap.contains_eq_true_iff.2 ⟨e, found⟩)
    rw [join, OrderedMap.get?_union, OrderedMap.contains_eq_false_iff.1 only, Option.none_or]
    exact found
  have other : k ≠ c.id := by
    rintro rfl
    rw [fed.fresh] at joined
    cases joined
  refine other (own.symm.trans ?_)
  rw [last]
  refine congrArg Connection.id (listed (k := k) ?_ ?_)
  · rw [fed.whole]
    exact (OrderedMap.get?_insert_of_ne other ..).trans joined
  · exact (fed.contains_base _).1 (fed.base_closed.destination found)

theorem connections (bare : base.connections = ∅) :
    p.connections.values = g.connections.values ++ [c] := by
  have same : p.connections = g.connections.insert c.id c := by
    rw [fed.whole]
    show (base.connections.union g.connections).insert c.id c = _
    rw [bare, OrderedMap.empty_union]
  rw [same]
  refine OrderedMap.values_insert_last _ fun k listed => ?_
  exact Nat.compare_eq_lt.2 (fed.last k (OrderedMap.contains_iff.2 listed))

theorem ends {d : Connection} (listed : d ∈ g.connections.values) :
    g.modules.contains d.source.module = true ∧ g.modules.contains d.destination.module = true := by
  obtain ⟨k, found⟩ := OrderedMap.mem_values_iff.1 listed
  exact ⟨fed.closed.source found, fed.closed.destination found⟩

theorem innerConnections (bare : base.connections = ∅) :
    p.innerConnections root = g.connections.values := by
  have spared : ∀ d ∈ g.connections.values, (d.destination.module != root) = true :=
    fun d listed => bne_iff_ne.2 (fed.ne_root (fed.ends listed).2)
  rw [Pipeline.innerConnections, fed.connections bare, List.filter_append,
    List.filter_eq_self.2 spared, List.filter_cons_of_neg (by simp [fed.destination]),
    List.filter_nil, List.append_nil]

variable {q : Pipeline} {s : Store} {ids : Renaming}

theorem modules_of_copy (copies : Variable.CopyOf s p root ids q) :
    q.modules.values = g.modules.values.map fun m => m.copied (ids.at m.id) := by
  rw [copies.modules, fed.inner]

theorem contains_of_copy (copies : Variable.CopyOf s p root ids q) (closed : q.WellFormed)
    {k : ModuleId} (there : g.modules.contains k = true) :
    q.modules.contains (ids.at k) = true := by
  obtain ⟨m, listed, rfl⟩ := fed.closed.contains_iff.1 there
  refine closed.contains_iff.2 ⟨m.copied (ids.at m.id), ?_, Module.copied_id ..⟩
  rw [fed.modules_of_copy copies]
  exact List.mem_map_of_mem listed

theorem injOn_of_copy (copies : Variable.CopyOf s p root ids q) :
    Set.InjOn ids.at {k | g.modules.contains k = true} := by
  have distinct : (g.modules.values.map fun m => ids.at m.id).Nodup :=
    Renaming.nodup_at (fed.inner ▸ copies.numbers)
  intro k hk l hl same
  obtain ⟨m, hm, rfl⟩ := fed.closed.contains_iff.1 hk
  obtain ⟨n, hn, rfl⟩ := fed.closed.contains_iff.1 hl
  exact congrArg Module.id (List.inj_on_of_nodup_map distinct hm hn same)

end Fed

/-- A copy that was written below the variables root of its original is the original with its modules
renamed. -/
theorem Fed.mates {p q base g g' : Pipeline} {root : ModuleId} {c c' : Connection} {s : Store}
    {ids : Renaming} (fed : p.Fed base g root c) (fed' : q.Fed base g' root c')
    (bare : base.connections = ∅) (tidy : g.Tidy) (copies : Variable.CopyOf s p root ids g')
    (source : c'.source = c.source.moved ids.at) (port : c'.destination = c.destination) :
    ∃ φ D, p.Mates φ D root root q := by
  -- copies stand for what is drawn, and the module of the variables root for itself
  let φ : ModuleId → ModuleId := fun k => if k = root then root else ids.at k
  have at_root : φ root = root := if_pos rfl
  have drawn : ∀ {k}, g.modules.contains k = true → φ k = ids.at k :=
    fun there => if_neg (fed.ne_root there)
  have own : ∀ {m : Module}, m ∈ g.modules.values → g.modules.contains m.id = true :=
    fun listed => fed.closed.contains_iff.2 ⟨_, listed, rfl⟩
  have apart : ∀ {k}, g.modules.contains k = true → ids.at k ≠ root := fun there =>
    fed'.ne_root (fed.contains_of_copy copies fed'.closed there)
  have moved : ∀ {d}, d ∈ g.connections.values → d.wire.moved φ = d.wire.moved ids.at := by
    intro d listed
    obtain ⟨from_own, to_own⟩ := fed.ends listed
    simp only [Wire.moved, PortRef.moved, Connection.wire, drawn from_own, drawn to_own]
  refine ⟨φ, {k | k = root ∨ g.modules.contains k = true}, ?_, at_root, .inl rfl, ?_, ?_, ?_⟩
  · rintro k (rfl | hk) l (rfl | hl) same
    · rfl
    · rw [at_root, drawn hl] at same
      exact absurd same.symm (apart hl)
    · rw [at_root, drawn hk] at same
      exact absurd same (apart hk)
    · rw [drawn hk, drawn hl] at same
      exact fed.injOn_of_copy copies hk hl same
  · rw [fed.inner, fed'.inner, fed.modules_of_copy copies]
    refine List.map_congr_left fun m listed => ?_
    obtain ⟨k, found⟩ := OrderedMap.mem_values_iff.1 listed
    rw [Module.copied_eq (tidy found), Module.moved, drawn (own listed)]
  · rw [fed.inner]
    exact fun m listed => .inr (own listed)
  · have wires := copies.wires
    rw [fed.innerConnections bare] at wires
    rw [fed.connections bare, fed'.connections bare]
    refine List.rel_append ?_ (.cons ⟨?_, .inr fed.source, .inl fed.destination⟩ .nil)
    · have same : List.Forall₂ (fun d d' : Connection => d'.wire = d.wire.moved ids.at)
          g.connections.values g'.connections.values := by
        rw [Pipeline.wires, ← List.forall₂_eq_eq_eq, List.forall₂_map_left_iff,
          List.forall₂_map_right_iff] at wires
        exact wires.flip
      refine List.Forall₂.imp (fun d d' both => ?_)
        ((List.forall₂_and_left _ _).2 ⟨fun d listed => listed, same⟩)
      obtain ⟨from_own, to_own⟩ := fed.ends both.1
      exact ⟨both.2.trans (moved both.1).symm, .inr from_own, .inr to_own⟩
    · show (⟨c'.source, c'.destination⟩ : Wire) = ⟨c.source.moved φ, c.destination.moved φ⟩
      have fixed : c.destination.moved φ = c.destination := by
        rw [PortRef.moved, fed.destination, at_root, ← fed.destination]
      rw [source, port, fixed, PortRef.moved, PortRef.moved, drawn fed.source]

end Pipeline

end Dataflow
