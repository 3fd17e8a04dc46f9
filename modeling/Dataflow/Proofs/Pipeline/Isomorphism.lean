import Mathlib.SetTheory.Cardinal.Arithmetic
import Dataflow.Proofs.Pipeline.Shifting

/-! Pipelines that are the same up to the identifiers of their modules and connections. -/

namespace Dataflow

/-- Finitely many numbers that are mapped to as many others are so by a permutation of all numbers. -/
theorem exists_perm_of_injOn {s : Set Nat} (finite : s.Finite) {f : Nat → Nat}
    (injective : s.InjOn f) : ∃ e : Equiv.Perm Nat, ∀ k ∈ s, e k = f k := by
  obtain ⟨e, he⟩ := Cardinal.extend_function_of_lt
    (⟨s.domRestrict f, injective.injective⟩ : s ↪ Nat)
    (by rw [Cardinal.mk_nat]; exact finite.lt_aleph0) ⟨.refl Nat⟩
  exact ⟨e, fun k hk => he ⟨k, hk⟩⟩

namespace Pipeline

/-- The modules and connections of the second pipeline are those of the first under other
identifiers: with the same types and functions, and between the same ports. -/
def Isomorphic (p q : Pipeline) : Prop :=
  ∃ (f : Equiv.Perm ModuleId) (g : Equiv.Perm ConnectionId),
    q.modules.values.Perm (p.modules.values.map (Module.moved f)) ∧
    q.connections.values.Perm (p.connections.values.map (Connection.moved f g))

variable {p q : Pipeline}

theorem Isomorphic.refl (p : Pipeline) : p.Isomorphic p :=
  ⟨.refl _, .refl _, .of_eq (List.map_id _).symm, .of_eq (List.map_id _).symm⟩

theorem Isomorphic.symm (h : p.Isomorphic q) : q.Isomorphic p := by
  obtain ⟨f, g, modules, connections⟩ := h
  refine ⟨f.symm, g.symm, ?_, ?_⟩
  · have back := modules.map (Module.moved f.symm)
    have undone : Module.moved f.symm ∘ Module.moved f = id := by
      funext m
      simp [Module.moved]
    rw [List.map_map, undone, List.map_id] at back
    exact back.symm
  · have back := connections.map (Connection.moved f.symm g.symm)
    have undone : Connection.moved f.symm g.symm ∘ Connection.moved f g = id := by
      funext c
      simp [Connection.moved, PortRef.moved]
    rw [List.map_map, undone, List.map_id] at back
    exact back.symm

/-- It is enough to say where the identifiers that occur go to. -/
theorem isomorphic_of_injOn {f : ModuleId → ModuleId} {g : ConnectionId → ConnectionId}
    (closed : p.WellFormed)
    (modules : q.modules.values.Perm (p.modules.values.map (Module.moved f)))
    (connections : q.connections.values.Perm (p.connections.values.map (Connection.moved f g)))
    (hf : Set.InjOn f {id | p.modules.contains id = true})
    (hg : Set.InjOn g {id | p.connections.contains id = true}) : p.Isomorphic q := by
  have finite : ∀ {α : Type} (m : OrderedMap Nat α), {k | m.contains k = true}.Finite :=
    fun m => m.keys.finite_toSet.subset fun k hk =>
      OrderedMap.mem_keys_iff.2 (OrderedMap.contains_eq_true_iff.1 hk)
  obtain ⟨f', hf'⟩ := exists_perm_of_injOn (finite p.modules) hf
  obtain ⟨g', hg'⟩ := exists_perm_of_injOn (finite p.connections) hg
  refine ⟨f', g', modules.trans (.of_eq ?_), connections.trans (.of_eq ?_)⟩
  · refine List.map_congr_left fun m listed => ?_
    have there : p.modules.contains m.id = true :=
      OrderedMap.contains_eq_true_iff.2 ⟨m, closed.mem_values_iff.1 listed⟩
    simp only [Module.moved, hf' _ there]
  · refine List.map_congr_left fun c listed => ?_
    obtain ⟨id, found⟩ := OrderedMap.mem_values_iff.1 listed
    have there : p.connections.contains c.id = true :=
      OrderedMap.contains_eq_true_iff.2 ⟨c, closed.connection_id found ▸ found⟩
    simp only [Connection.moved, PortRef.moved, hg' _ there, hf' _ (closed.source found),
      hf' _ (closed.destination found)]

end Pipeline

end Dataflow
