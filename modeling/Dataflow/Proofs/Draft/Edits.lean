import Dataflow.Proofs.Draft.Copying

/-! Drafts as lists of edits. What copying modules and connecting ports append to a draft is written
out, whatever was in it before. -/

namespace Dataflow

/-- The edits that add a copy of a module and set its functions again. -/
def Module.copyEdits (m : Module) (id : ModuleId) : List Edit :=
  .addModule ⟨id, m.type, []⟩ :: m.functions.map fun f => .setFunction id f.name f.params

/-- The edits that add wires as connections, numbered one after another. -/
def Wire.edits (n : ConnectionId) (ws : List Wire) : List Edit :=
  ws.mapIdx fun i w => .addConnection ⟨n + i, w.source, w.destination⟩

theorem Wire.edits_cons (n : ConnectionId) (w : Wire) (ws : List Wire) :
    edits n (w :: ws) = .addConnection ⟨n, w.source, w.destination⟩ :: edits (n + 1) ws := by
  simp only [edits, List.mapIdx_cons, Nat.add_zero, Nat.add_assoc n, Nat.add_comm 1]

namespace Draft

variable {d : Draft} {s : Store}

theorem on_copyModule (d : Draft) (m : Module) (s : Store) :
    (d.copyModule m).on s =
      (.ok (s.nextModule, ⟨d.edits ++ m.copyEdits s.nextModule, d.modules.insert s.nextModule⟩),
        (s.createModule m.type).2) := by
  have copied : (d.copyModule m).on s =
      (.ok (s.nextModule, ⟨d.edits ++ [.addModule ⟨s.nextModule, m.type, []⟩] ++
        m.functions.map fun f => .setFunction s.nextModule f.name f.params,
        d.modules.insert s.nextModule⟩), (s.createModule m.type).2) := rfl
  rw [copied, List.append_assoc]
  rfl

/-- Copies of modules, numbered one after another. Nothing else gets a new identifier. -/
theorem on_copyModules (d : Draft) (done : Renaming) (s : Store) {ms : List Module}
    (distinct : (ms.map Module.id).Nodup) :
    ∃ ids e, (d.copyModules done ms).on s =
        (.ok (ids, e), { s with nextModule := s.nextModule + ms.length }) ∧
      e.edits = d.edits ++ ms.flatMap (fun m => m.copyEdits (ids.at m.id)) ∧
      (∀ id, e.contains id = true ↔ d.contains id = true ∨ ∃ m ∈ ms, ids.at m.id = id) ∧
      ms.map (fun m => ids.get? m.id) = (List.range' s.nextModule ms.length).map some ∧
      ∀ k, (∀ m ∈ ms, m.id ≠ k) → ids.get? k = done.get? k := by
  induction ms generalizing d done s with
  | nil => exact ⟨done, d, rfl, by simp, by simp, rfl, fun _ _ => rfl⟩
  | cons m ms ih =>
    obtain ⟨absent, distinct⟩ := List.nodup_cons.1 distinct
    have absent : ∀ n ∈ ms, n.id ≠ m.id := fun n hn same =>
      absent (List.mem_map.2 ⟨n, hn, same⟩)
    obtain ⟨ids, e, run, edits, contains, numbers, others⟩ :=
      ih ⟨d.edits ++ m.copyEdits s.nextModule, d.modules.insert s.nextModule⟩
        (done.insert m.id s.nextModule) (s.createModule m.type).2 distinct
    -- the other modules have other places, so the number noted first is not overwritten
    have number : ids.get? m.id = some s.nextModule := by
      rw [others m.id absent, OrderedMap.get?_insert_self]
    refine ⟨ids, e, ?_, ?_, fun id => ?_, ?_, fun k hk => ?_⟩
    · rw [copyModules, Action.on_bind_of_ok (on_copyModule d m s)]
      refine run.trans ?_
      rw [List.length_cons, Nat.add_comm ms.length 1, ← Nat.add_assoc]
      rfl
    · rw [edits, List.flatMap_cons, Renaming.at_of_get? number, List.append_assoc]
    · have first : (⟨d.edits ++ m.copyEdits s.nextModule, d.modules.insert s.nextModule⟩ :
          Draft).contains id = (id == s.nextModule || d.contains id) :=
        d.contains_addModule ⟨s.nextModule, m.type, []⟩ id
      rw [contains, first, Bool.or_eq_true, beq_iff_eq, List.exists_mem_cons_iff,
        Renaming.at_of_get? number, or_comm (a := id = s.nextModule), or_assoc, eq_comm (a := id)]
    · rw [List.map_cons, number, numbers, List.length_cons, List.range'_succ, List.map_cons]
      rfl
    · rw [others k fun n hn => hk n (List.mem_cons_of_mem _ hn), OrderedMap.get?_insert_of_ne]
      exact (hk m (List.mem_cons_self ..)).symm

end Draft

end Dataflow
