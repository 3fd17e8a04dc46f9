import Dataflow.Proofs.Draft.Identifiers
import Dataflow.Proofs.Pipeline.Isomorphism
import Dataflow.Proofs.Variable.Alias
import Dataflow.Proofs.Variable.Shape

/-! Writing a variable and copying it back. Writing adds one module and one connection for the output;
copying finds the output by them, and leaves out just these two. What remains is what was drawn, under
identifiers that the store gives out meanwhile. -/

namespace Dataflow

namespace Pipeline

/-- The second pipeline is the first one under other identifiers, in the same order. -/
structure Renames (p q : Pipeline) (f : ModuleId → ModuleId) (k : ConnectionId → ConnectionId) :
    Prop where
  modules : q.modules.values = p.modules.values.map (Module.moved f)
  connections : q.connections.values = p.connections.values.map (Connection.moved f k)
  modules_distinct : Set.InjOn f p.ids.1
  connections_distinct : Set.InjOn k p.ids.2

theorem Renames.isomorphic {p q : Pipeline} {f : ModuleId → ModuleId}
    {k : ConnectionId → ConnectionId} (h : p.Renames q f k) (closed : p.WellFormed) :
    p.Isomorphic q :=
  isomorphic_of_injOn closed (.of_eq h.modules) (.of_eq h.connections) h.modules_distinct
    h.connections_distinct

/-- Connections that lead between the same ports in the same order differ by their identifiers only. -/
theorem exists_moved {f : ModuleId → ModuleId} {cs ds : List Connection}
    (distinct : (cs.map Connection.id).Nodup)
    (wires : ds.map Connection.wire = cs.map fun c => c.wire.moved f) :
    ∃ k, ds = cs.map (Connection.moved f k) := by
  induction cs generalizing ds with
  | nil => exact ⟨id, List.map_eq_nil_iff.1 wires⟩
  | cons c cs ih =>
    obtain ⟨d, ds, rfl, first, rest⟩ := List.map_eq_cons_iff.1 wires
    obtain ⟨absent, distinct⟩ := List.nodup_cons.1 distinct
    obtain ⟨k, rfl⟩ := ih distinct rest
    refine ⟨Function.update k c.id d.id, List.cons_eq_cons.2 ⟨?_, List.map_congr_left fun e he => ?_⟩⟩
    · have source : d.source = c.source.moved f := congrArg Wire.source first
      have destination : d.destination = c.destination.moved f := congrArg Wire.destination first
      rw [Connection.moved, Function.update_self, ← source, ← destination]
    · have other : e.id ≠ c.id := fun same => absent (same ▸ List.mem_map_of_mem he)
      rw [Connection.moved, Connection.moved, Function.update_of_ne other]

/-- Where modules are the same but for their identifiers, and wires but for their ends, all is. -/
theorem exists_renames {p q : Pipeline} {f : ModuleId → ModuleId} (hp : p.WellFormed)
    (hq : q.WellFormed) (modules : q.modules.values = p.modules.values.map (Module.moved f))
    (wires : q.wires = p.wires.map (Wire.moved f)) : ∃ k, p.Renames q f k := by
  have wires : q.connections.values.map Connection.wire =
      p.connections.values.map fun c => c.wire.moved f := wires.trans List.map_map
  obtain ⟨k, connections⟩ := exists_moved hp.nodup_connection_ids wires
  refine ⟨k, modules, connections, fun m hm n hn same => ?_, fun c hc d hd same => ?_⟩
  · have distinct := hq.nodup_ids
    rw [modules, List.map_map] at distinct
    obtain ⟨m, listed, rfl⟩ := hp.contains_iff.1 hm
    obtain ⟨n, listed', rfl⟩ := hp.contains_iff.1 hn
    exact congrArg Module.id (List.inj_on_of_nodup_map distinct listed listed' same)
  · have distinct := hq.nodup_connection_ids
    rw [connections, List.map_map] at distinct
    obtain ⟨c', found⟩ := OrderedMap.contains_eq_true_iff.1 hc
    obtain ⟨d', found'⟩ := OrderedMap.contains_eq_true_iff.1 hd
    obtain rfl := hp.connection_id found
    obtain rfl := hp.connection_id found'
    exact congrArg Connection.id (List.inj_on_of_nodup_map distinct
      (OrderedMap.mem_values_iff.2 ⟨_, found⟩) (OrderedMap.mem_values_iff.2 ⟨_, found'⟩) same)

end Pipeline

/-- The pipeline of a variable's version, below a variables root as it is made. -/
theorem Host.fed_variablePipeline {root : ModuleId} {g : Pipeline} {o : PortRef} {id : ConnectionId}
    (h : Host) (closed : g.WellFormed) (absent : g.modules.contains root = false)
    (own : g.modules.contains o.module = true)
    (new : ∀ k, g.connections.contains k = true → k < id) :
    (h.variablePipeline root g o id).Fed (h.rootPipeline root) g root
      (Variable.feeding h root o id) where
  whole := rfl
  keys := keys_rootPipeline h root
  apart := apart_rootPipeline absent
  base_closed := wellFormed_rootPipeline h root
  closed := closed
  fresh := by
    rw [connections_join_rootPipeline, ← OrderedMap.contains_eq_false_iff, ← Bool.not_eq_true]
    exact fun there => Nat.lt_irrefl _ (new _ there)
  last := new
  destination := rfl
  source := own

namespace Variable

variable {h : Host} {x : Variable} {s u : Store} {v : VersionId} {r : VariablesRoot} {n : Version}
  {g base : Pipeline} {c : Connection} {o : PortRef}

theorem feed_of_fed {p : Pipeline} {root : ModuleId} (fed : p.Fed base g root c)
    (bare : base.connections = ∅) : feed p root = .ok c.source := by
  have spared : ∀ e ∈ g.connections.values, ¬ (e.destination.module == root) = true :=
    fun e listed => by simpa using fed.ne_root (fed.ends listed).2
  have into : p.connectionsInto root = [c] := by
    rw [Pipeline.connectionsInto, fed.connections bare, List.filter_append,
      List.filter_eq_nil_iff.2 spared, List.filter_cons_of_pos (by simp [fed.destination])]
    rfl
  rw [feed, into]

theorem copy_of_fed (hs : s.Valid) (version : x.version = some v)
    (asked : h.variablesRoot.on s = (.ok r, s)) (live : s.live v = .ok n)
    (fed : n.pipeline.Fed base g r.module c) (bare : base.connections = ∅) :
    ∃ y t, (x.copy h).on s = (.ok y, t) := by
  obtain ⟨there, unpruned⟩ := Store.live_eq_ok_iff.1 live
  have written : x.written x.type.text = .ok v := by rw [Variable.written, version]
  have read : (Action.query (·.pipeline v)).on s = (.ok n.pipeline, s) :=
    Action.on_query_of_ok (Store.pipeline_eq_ok_iff.2 ⟨n, there, unpruned, rfl⟩)
  obtain ⟨ids, d, g', t, modules, mints, drawn, minted, copies, -⟩ :=
    Draft.draws_empty.copy (Pipeline.minted_empty s s) (.refl s) (hs.wellFormed there)
      fun m => m.id != r.module
  -- all that was drawn has been copied, so all connections but the last have both their ends
  have copied : ∀ {k}, g.modules.contains k = true →
      ids.get? k = some (ids.at k) ∧ d.contains (ids.at k) = true := by
    intro k own
    obtain ⟨m, listed, rfl⟩ := fed.closed.contains_iff.1 own
    have inner : m ∈ n.pipeline.inner r.module := by
      rw [fed.inner]
      exact listed
    refine ⟨(copies.get?_of_mem inner).1, (drawn.contains _).trans ?_⟩
    exact drawn.wellFormed.contains_iff.2 ⟨_, copies.mem_modules inner, Module.copied_id ..⟩
  have ends : ∀ e ∈ n.pipeline.innerConnections r.module, d.Copied ids e := by
    intro e listed
    rw [fed.innerConnections bare] at listed
    obtain ⟨source, destination⟩ := fed.ends listed
    exact ⟨_, _, (copied source).1, (copied destination).1, (copied source).2,
      (copied destination).2⟩
  obtain ⟨e, g'', t', connections, -⟩ := drawn.copyConnections minted mints.precedes _ ends
  refine ⟨{
    type := x.type
    draft := e
    output := some ⟨ids.at c.source.module, c.source.port⟩
    provenance := x.provenance }, t', ?_⟩
  rw [copy, Action.on_bind_of_ok (Action.on_ofExcept_eq_ok.2 ⟨written, rfl⟩),
    Action.on_bind_of_ok asked, Action.on_bind_of_ok read,
    Action.on_bind_of_ok (Action.on_ofExcept_eq_ok.2 ⟨feed_of_fed fed bare, rfl⟩),
    Action.on_bind_of_ok modules]
  refine (Action.on_bind_of_ok connections _).trans ?_
  simp only [(copied fed.source).1]
  rfl

/-- The second variable is a copy of what the first one was before it was written: it has the same type
and provenance, and draws the same but for the identifiers, which the store gave out meanwhile. -/
structure ReadsBack (x : Variable) (s : Store) (y : Variable) (t : Store) : Prop where
  type : y.type = x.type
  provenance : y.provenance = x.provenance
  unwritten : y.version = none
  mints : s.Mints t
  drawing : ∃ p q f k, Pipeline.empty.applyAll x.draft.edits = .ok p ∧
    Pipeline.empty.applyAll y.draft.edits = .ok q ∧ p.Renames q f k ∧ q.ids ≤ s.given t ∧
    y.output = x.output.map (PortRef.moved f)

theorem ReadsBack.isomorphic {y : Variable} {t : Store} (reads : x.ReadsBack s y t) :
    ∃ p q, Pipeline.empty.applyAll x.draft.edits = .ok p ∧
      Pipeline.empty.applyAll y.draft.edits = .ok q ∧ p.Isomorphic q := by
  obtain ⟨p, q, f, k, first, second, renames, -⟩ := reads.drawing
  exact ⟨p, q, first, second, renames.isomorphic (Pipeline.wellFormed_empty.applyAll first)⟩

/-- A copy has nothing in common with what is made of identifiers that were given out before. -/
theorem ReadsBack.disjoint {y : Variable} {t : Store} (reads : x.ReadsBack s y t) {p : Pipeline}
    (issued : p.ids ≤ s.issued) : Disjoint p.ids y.ids := by
  obtain ⟨-, q, -, -, -, second, -, new, -⟩ := reads.drawing
  have ids : q.ids = y.ids := by
    rw [Pipeline.ids_applyAll second, Pipeline.ids_empty, bot_sup_eq]
    rfl
  exact (s.disjoint_issued_given t).mono issued (ids ▸ new)

/-- Copying a variable that was written gives back what was written. -/
theorem readsBack_of_fed (hs : s.Valid) (drawn : x.Drawn g) (own : x.Owned)
    (output : x.output = some c.source) {y : Variable} (type : y.type = x.type)
    (provenance : y.provenance = x.provenance) (version : y.version = some v)
    (asked : h.variablesRoot.on s = (.ok r, s)) (live : s.live v = .ok n)
    (fed : n.pipeline.Fed base g r.module c) (bare : base.connections = ∅) :
    ∃ z t, (y.copy h).on s = (.ok z, t) ∧ x.ReadsBack s z t := by
  obtain ⟨z, t, run⟩ := copy_of_fed hs version asked live fed bare
  refine ⟨z, t, run, ?_⟩
  obtain ⟨type', provenance', -⟩ := described_of_copy run
  obtain ⟨v', r', u, p, o, ids, g', version', asked', read, feed, mints, drawn', minted, copies, -,
    output', -⟩ := copy_eq_ok hs run
  obtain rfl : v = v' := Option.some.inj (version.symm.trans version')
  rw [asked] at asked'
  cases asked'
  obtain ⟨there, unpruned⟩ := Store.live_eq_ok_iff.1 live
  rw [Store.pipeline_eq_ok_iff.2 ⟨n, there, unpruned, rfl⟩] at read
  cases read
  rw [feed_of_fed fed bare] at feed
  cases feed
  -- a copy sets the functions anew, so they come out as they were only where none is set twice
  have tidy : g.Tidy := own.draft.tidy drawn.draws
  have modules : g'.modules.values = g.modules.values.map (Module.moved ids.at) := by
    rw [copies.modules, fed.inner]
    refine List.map_congr_left fun m listed => ?_
    obtain ⟨k, found⟩ := OrderedMap.mem_values_iff.1 listed
    exact Module.copied_eq (tidy found) _
  have wires : g'.wires = g.wires.map (Wire.moved ids.at) := by
    rw [copies.wires, fed.innerConnections bare, Pipeline.wires, List.map_map]
    rfl
  obtain ⟨k, renames⟩ :=
    Pipeline.exists_renames drawn.draws.wellFormed drawn'.draws.wellFormed modules wires
  exact
    { type := type'.trans type
      provenance := provenance'.trans provenance
      unwritten := drawn'.unwritten
      mints
      drawing := ⟨g, g', ids.at, k, drawn.draws.edits, drawn'.draws.edits, renames, minted.ids_le,
        by rw [output', output]; rfl⟩ }

/-- A variable that has nothing to do with the variables root is written below it. -/
theorem materialize_of_drawn (hs : s.Valid) (drawn : x.Drawn g) (output : x.output = some o)
    (minted : g.Minted .new s) (name : String) (asked : h.variablesRoot.on s = (.ok r, u))
    (live : u.live r.version = .ok n) (made : n.pipeline = h.rootPipeline r.module)
    (absent : g.modules.contains r.module = false) :
    let c := feeding h r.module o u.nextConnection
    let p := h.variablePipeline r.module g o u.nextConnection
    p.Fed (h.rootPipeline r.module) g r.module c ∧
      (x.materialize h name).on s =
        (.ok (u.nextVersion, { x with version := some u.nextVersion, draft := .empty }),
          wrote h x name u r.version (x.edits h r.module o u.nextConnection) p) := by
  have later := (Host.preparing_variablesRoot.prepares hs asked).precedes
  have new : ∀ k, g.connections.contains k = true → k < u.nextConnection := fun k there =>
    Nat.lt_of_lt_of_le (minted.connections k there).2 later.connection
  have fed := h.fed_variablePipeline drawn.draws.wellFormed absent (drawn.output output) new
  have fresh : g.connections.get? u.nextConnection = none :=
    (minted.later later).next_connection
  have accepted := Host.applyAll_edits drawn.draws fed.apart (drawn.output output) fresh
  rw [← made] at accepted
  exact ⟨fed, materialize_of_accepted name drawn.unwritten output asked live accepted⟩

end Variable

end Dataflow
