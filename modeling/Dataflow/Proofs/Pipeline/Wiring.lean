import Dataflow.Proofs.Draft.Drawing

/-! Pipelines as lists: their modules, and their connections without identifiers, in the order of the
identifiers. What is drawn with ever new identifiers is listed in the order in which it was drawn. -/

namespace Dataflow

/-- A connection without its identifier. -/
structure Wire where
  source : PortRef
  destination : PortRef
deriving DecidableEq

def Connection.wire (c : Connection) : Wire := ⟨c.source, c.destination⟩

/-- The port on the module that stands for its own. -/
def PortRef.moved (f : ModuleId → ModuleId) (r : PortRef) : PortRef := ⟨f r.module, r.port⟩

def Wire.moved (f : ModuleId → ModuleId) (w : Wire) : Wire :=
  ⟨w.source.moved f, w.destination.moved f⟩

namespace Pipeline

def wires (p : Pipeline) : List Wire := p.connections.values.map Connection.wire

variable {s t : Store} {p : Pipeline}

theorem wires_withModule (p : Pipeline) (m : Module) : (p.withModule m).wires = p.wires := rfl

theorem Minted.wires_withConnection (h : p.Minted s t) (source destination : PortRef) :
    (p.withConnection ⟨t.nextConnection, source, destination⟩).wires =
      p.wires ++ [⟨source, destination⟩] := by
  have last : (p.withConnection ⟨t.nextConnection, source, destination⟩).connections.values =
      p.connections.values ++ [⟨t.nextConnection, source, destination⟩] := by
    refine OrderedMap.values_insert_last _ fun l hl => ?_
    obtain ⟨c, found⟩ := OrderedMap.mem_keys_iff.1 hl
    exact Nat.compare_eq_lt.2 (h.connections l (OrderedMap.contains_eq_true_iff.2 ⟨c, found⟩)).2
  rw [wires, last, List.map_append]
  rfl

theorem WellFormed.mem_values_iff (h : p.WellFormed) {m : Module} :
    m ∈ p.modules.values ↔ p.modules.get? m.id = some m := by
  rw [OrderedMap.mem_values_iff]
  constructor
  · rintro ⟨k, found⟩
    rwa [h.module_id found]
  · intro found
    exact ⟨m.id, found⟩

theorem WellFormed.keys_eq (h : p.WellFormed) : p.modules.keys = p.modules.values.map Module.id := by
  rw [OrderedMap.keys, OrderedMap.values, List.map_map]
  refine List.map_congr_left fun e he => ?_
  exact (h.module_id (OrderedMap.get?_eq_some_iff.2 he)).symm

theorem WellFormed.nodup_ids (h : p.WellFormed) : (p.modules.values.map Module.id).Nodup := by
  rw [← h.keys_eq]
  exact OrderedMap.nodup_keys _

theorem WellFormed.nodup_connection_ids (h : p.WellFormed) :
    (p.connections.values.map Connection.id).Nodup := by
  have same : p.connections.keys = p.connections.values.map Connection.id := by
    rw [OrderedMap.keys, OrderedMap.values, List.map_map]
    refine List.map_congr_left fun e he => ?_
    exact (h.connection_id (OrderedMap.get?_eq_some_iff.2 he)).symm
  rw [← same]
  exact OrderedMap.nodup_keys _

theorem WellFormed.contains_iff (h : p.WellFormed) {id : ModuleId} :
    p.modules.contains id = true ↔ ∃ m ∈ p.modules.values, m.id = id := by
  rw [OrderedMap.contains_iff, h.keys_eq, List.mem_map]

end Pipeline

end Dataflow
