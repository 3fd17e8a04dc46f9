import Dataflow.Proofs.Variable.Built
import Dataflow.Proofs.Variable.Drawing
import Dataflow.Proofs.Variable.Writing

/-! The pipeline of a variable's version: the module of the variables root, what the variable draws
beside it, and one connection from the variable's output to that module. -/

namespace Dataflow.Host

/-- What a variable draws, with its output fed into the module of the variables root. -/
def variablePipeline (h : Host) (root : ModuleId) (g : Pipeline) (output : PortRef)
    (id : ConnectionId) : Pipeline :=
  ((h.rootPipeline root).join g).withConnection (Variable.feeding h root output id)

/-- A pipeline as those of variables are: the module of the variables root has one input, which is
fed by the output, and feeds nothing itself. -/
structure Shaped (h : Host) (root : ModuleId) (output : PortRef) (p : Pipeline) : Prop where
  holds : p.modules.get? root = some (h.rootModule root)
  feed : ∃ c, p.connectionsInto root = [c] ∧ c.source = output
  spares : p.Spares root

variable {h : Host} {root : ModuleId} {g p : Pipeline} {o : PortRef} {id : ConnectionId}
  {x : Variable}

theorem connections_join_rootPipeline :
    ((h.rootPipeline root).join g).connections = g.connections := OrderedMap.empty_union _

theorem apart_rootPipeline (absent : g.modules.contains root = false) :
    (h.rootPipeline root).Apart g where
  modules id hid := by
    obtain rfl : id = root := by simpa using hid
    exact absent
  connections id hid := by cases hid

/-- The edits of a variable that draws something apart from the root's module are accepted. -/
theorem applyAll_edits (draws : x.draft.Draws g) (apart : (h.rootPipeline root).Apart g)
    (own : g.modules.contains o.module = true) (fresh : g.connections.get? id = none) :
    (h.rootPipeline root).applyAll (x.edits h root o id) = .ok (h.variablePipeline root g o id) := by
  have beside := Pipeline.applyAll_join draws.edits apart
  rw [Pipeline.join_empty] at beside
  refine Pipeline.applyAll_append_ok.2 ⟨_, beside, ?_⟩
  rw [Pipeline.applyAll_singleton]
  refine Pipeline.apply_addConnection ?_ ?_ ?_
  · rw [connections_join_rootPipeline]
    exact fresh
  · simp [Variable.feeding, own]
  · simp [Variable.feeding]

/-- If the edits of a variable are accepted at all, they draw beside what was there, and connect the
output. -/
theorem drawn_of_applyAll {base : Pipeline} (own : x.Owned) (unwritten : x.version = none)
    (h' : base.applyAll (x.edits h root o id) = .ok p) :
    ∃ g, x.Drawn g ∧ base.Apart g ∧ (base.join g).connections.get? id = none ∧
      p = (base.join g).withConnection (Variable.feeding h root o id) := by
  obtain ⟨q, first, last⟩ := Pipeline.applyAll_append_ok.1 h'
  obtain ⟨g, draws, apart, rfl⟩ := own.draft.draws first
  have drawn : x.Drawn g :=
    ⟨unwritten, draws, fun ho => (draws.contains _).symm.trans (own.output ho)⟩
  rw [Pipeline.applyAll_singleton] at last
  obtain ⟨_, ⟨⟩, -⟩ | ⟨_, _, _, _, ⟨⟩, -⟩ | ⟨_, ⟨⟩, fresh, -, -, rfl⟩ := Pipeline.apply_cases last
  exact ⟨g, drawn, apart, fresh, rfl⟩

section

variable (apart : (h.rootPipeline root).Apart g) (closed : g.WellFormed)
  (fresh : g.connections.get? id = none)
include apart

theorem contains_root_eq_false : g.modules.contains root = false :=
  apart.modules root (by simp)

theorem values_variablePipeline :
    (h.variablePipeline root g o id).modules.values.Perm (h.rootModule root :: g.modules.values) :=
  OrderedMap.values_union_perm apart.modules

omit apart
include fresh

theorem connections_variablePipeline (h : Host) (root : ModuleId) (o : PortRef) :
    (h.variablePipeline root g o id).connections.values.Perm
      (Variable.feeding h root o id :: g.connections.values) := by
  have same : (h.variablePipeline root g o id).connections =
      g.connections.insert id (Variable.feeding h root o id) := by
    rw [variablePipeline, Pipeline.withConnection, connections_join_rootPipeline]
    rfl
  rw [same]
  exact OrderedMap.values_insert_perm fresh _

include apart closed

theorem shaped_variablePipeline (own : g.modules.contains o.module = true) :
    h.Shaped root o (h.variablePipeline root g o id) := by
  have absent := contains_root_eq_false apart
  have ends : ∀ c ∈ g.connections.values,
      c.source.module ≠ root ∧ c.destination.module ≠ root := by
    intro c hc
    obtain ⟨k, found⟩ := OrderedMap.mem_values_iff.1 hc
    constructor
    · rintro rfl
      have := closed.source found
      simp [absent] at this
    · rintro rfl
      have := closed.destination found
      simp [absent] at this
  have listed := connections_variablePipeline fresh h root o
  refine ⟨?_, ⟨Variable.feeding h root o id, ?_, rfl⟩, fun c hc => ?_⟩
  · have there : (h.rootPipeline root).modules.contains root = true := by simp
    exact (apart.get?_join_left there).trans (get?_rootPipeline h root)
  · have into := listed.filter fun c => c.destination.module == root
    have others : g.connections.values.filter (fun c => c.destination.module == root) = [] := by
      rw [List.filter_eq_nil_iff]
      intro c hc
      simpa using (ends c hc).2
    rw [List.filter_cons_of_pos (by simp [Variable.feeding]), others] at into
    exact List.perm_singleton.1 into
  · rcases List.mem_cons.1 (listed.subset hc) with rfl | hc
    · intro same
      have here : o.module = root := same
      rw [here, absent] at own
      cases own
    · exact (ends c hc).1

end

end Dataflow.Host
