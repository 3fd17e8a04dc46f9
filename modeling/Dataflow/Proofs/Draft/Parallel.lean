import Mathlib.Data.List.Forall2
import Mathlib.Data.Set.Function
import Dataflow.Proofs.Draft.Drawing
import Dataflow.Proofs.Store.Parallel

/-! Drafts that are built in step. They differ by a shift of the identifiers that were given out, also
where modules and connections are copied from pipelines that differ by a renaming. -/

namespace Dataflow

theorem List.map_insert_of_injective {α β : Type} [BEq α] [LawfulBEq α] [BEq β] [LawfulBEq β]
    {f : α → β} (injective : f.Injective) (a : α) (l : List α) :
    (l.insert a).map f = (l.map f).insert (f a) := by
  simp only [List.insert, List.contains_iff_mem, List.mem_map_of_injective injective]
  split <;> rfl

theorem Shift.module_injective (σ : Shift) : σ.module.Injective := fun _ _ => module_inj.1

namespace Draft

def shifted (σ : Shift) (d : Draft) : Draft :=
  ⟨d.edits.map (Edit.shifted σ), d.modules.map σ.module⟩

variable {σ : Shift} {d e : Draft} {s s' : Store}

@[simp] theorem shifted_empty : empty.shifted σ = empty := rfl

@[simp] theorem shifted_none (d : Draft) : d.shifted .none = d := by
  have edits : d.edits.map (Edit.shifted .none) = d.edits :=
    (List.map_congr_left fun e _ => e.shifted_none).trans (List.map_id _)
  have modules : d.modules.map Shift.none.module = d.modules := List.map_id _
  rw [shifted, edits, modules]

@[simp] theorem contains_shifted (m : ModuleId) :
    (d.shifted σ).contains (σ.module m) = d.contains m := by
  rw [Bool.eq_iff_iff]
  simp [contains, shifted, List.mem_map_of_injective σ.module_injective]

theorem shifted_push (edit : Edit) : (d.push edit).shifted σ = (d.shifted σ).push (edit.shifted σ) := by
  simp [push, shifted]

theorem shifted_addModule (m : Module) :
    (d.addModule m).shifted σ = (d.shifted σ).addModule (m.moved σ.module) := by
  simp [addModule, shifted, Edit.shifted, List.map_insert_of_injective σ.module_injective,
    Module.moved]

theorem shifted_append (d e : Draft) :
    (d.append e).shifted σ = (d.shifted σ).append (e.shifted σ) := by
  have modules : ∀ ms ns : List ModuleId,
      (ms.foldl (fun ks m => ks.insert m) ns).map σ.module =
        (ms.map σ.module).foldl (fun ks m => ks.insert m) (ns.map σ.module) := by
    intro ms
    induction ms with
    | nil => simp
    | cons m ms ih =>
      intro ns
      simp only [List.foldl_cons, List.map_cons, ih,
        List.map_insert_of_injective σ.module_injective]
  simp [append, shifted, modules]

theorem Draws.shifted {g : Pipeline} (h : d.Draws g) (σ : Shift) :
    (d.shifted σ).Draws (g.shifted σ) where
  edits := Pipeline.applyAll_shifted σ h.edits
  contains id := by
    obtain below | ⟨k, rfl⟩ : id < σ.modules ∨ ∃ k, id = σ.module k := by
      rcases Nat.lt_or_ge id σ.modules with below | above
      · exact .inl below
      · exact .inr ⟨id - σ.modules, (Nat.sub_add_cancel above).symm⟩
    · have absent : (g.shifted σ).modules.contains id = false :=
        OrderedMap.contains_eq_false_iff.2 (OrderedMap.get?_shifted_of_lt below)
      rw [absent, ← Bool.not_eq_true]
      intro there
      simp only [Draft.contains, Draft.shifted, List.contains_iff_mem, List.mem_map,
        Shift.module] at there
      obtain ⟨k, -, rfl⟩ := there
      exact absurd (Nat.le_add_left σ.modules k) (Nat.not_le_of_lt below)
    · rw [contains_shifted, Pipeline.contains_shifted, h.contains]

theorem alike_setFunction (m : ModuleId) (name : String) (params : List String) :
    Alike (fun d d' => d' = d.shifted σ) (d.setFunction m name params)
      ((d.shifted σ).setFunction (σ.module m) name params) := by
  unfold setFunction
  rw [contains_shifted]
  split
  · exact .ok (shifted_push (.setFunction m name params)).symm
  · exact .error rfl

theorem foreignEnd?_shifted (source destination : PortRef) :
    (d.shifted σ).foreignEnd? (source.shifted σ) (destination.shifted σ) =
      (d.foreignEnd? source destination).map σ.module := by
  simp only [foreignEnd?, PortRef.shifted, PortRef.moved, List.find?_cons, contains_shifted,
    List.find?_nil]
  cases d.contains source.module <;> cases d.contains destination.module <;> rfl

open Dataflow.Action (Parallel)

theorem parallel_connect (between : σ.Between s s') (source destination : PortRef) :
    Parallel s s' (fun r r' => r'.2 = r.2.shifted σ) (d.connect source destination)
      ((d.shifted σ).connect (source.shifted σ) (destination.shifted σ)) := by
  unfold connect
  rw [foreignEnd?_shifted]
  cases d.foreignEnd? source destination with
  | some m => exact .throw rfl
  | none =>
    refine (Parallel.createConnection between _ _).bind fun c c' same => .pure ?_
    subst same
    exact (shifted_push (.addConnection c)).symm

theorem parallel_copyModule (between : σ.Between s s') (φ : ModuleId → ModuleId) (m : Module) :
    Parallel s s' (fun r r' => r'.1 = σ.module r.1 ∧ r'.2 = r.2.shifted σ) (d.copyModule m)
      ((d.shifted σ).copyModule (m.moved φ)) := by
  refine (Parallel.createModule between m.type).bind fun copy copy' same => .pure ⟨?_, ?_⟩
  · rw [same]
    rfl
  · subst same
    rw [← shifted_addModule]
    simp [shifted, Edit.shifted, Module.moved, Function.comp_def]

end Draft

/-- Modules that stand for each other have copies that are the same but for the shift. -/
def Renaming.Follows (σ : Shift) (φ : ModuleId → ModuleId) (D : Set ModuleId)
    (ids ids' : Renaming) : Prop :=
  ∀ k ∈ D, ids'.get? (φ k) = (ids.get? k).map σ.module

/-- The second connection joins the ports that stand for those that the first one joins. -/
structure Connection.Follows (φ : ModuleId → ModuleId) (D : Set ModuleId) (c c' : Connection) :
    Prop where
  wire : c'.wire = c.wire.moved φ
  source : c.source.module ∈ D
  destination : c.destination.module ∈ D

namespace Draft

open Dataflow.Action (Parallel)

variable {σ : Shift} {d : Draft} {s s' : Store} {φ : ModuleId → ModuleId} {D : Set ModuleId}
  {ids ids' : Renaming}

theorem parallel_copyModules (between : σ.Between s s') (injective : Set.InjOn φ D)
    (follows : ids.Follows σ φ D ids') {ms : List Module} (listed : ∀ m ∈ ms, m.id ∈ D) :
    Parallel s s' (fun r r' => r.1.Follows σ φ D r'.1 ∧ r'.2 = r.2.shifted σ)
      (d.copyModules ids ms) ((d.shifted σ).copyModules ids' (ms.map (Module.moved φ))) := by
  induction ms generalizing d ids ids' with
  | nil => exact .pure ⟨follows, rfl⟩
  | cons m ms ih =>
    refine (parallel_copyModule between φ m).bind fun r r' same => ?_
    obtain ⟨id, e⟩ := r
    obtain ⟨id', e'⟩ := r'
    obtain ⟨rfl, rfl⟩ := same
    refine ih (fun k hk => ?_) fun m' hm' => listed m' (List.mem_cons_of_mem _ hm')
    have own : φ k = φ m.id ↔ k = m.id :=
      ⟨fun same => injective hk (listed m (List.mem_cons_self ..)) same, congrArg φ⟩
    simp only [Module.moved, OrderedMap.get?_insert, own]
    split
    · rfl
    · exact follows k hk

theorem parallel_copy (between : σ.Between s s') (injective : Set.InjOn φ D) {p p' : Pipeline}
    {keep keep' : Module → Bool}
    (kept : p'.modules.values.filter keep' = (p.modules.values.filter keep).map (Module.moved φ))
    (listed : ∀ m ∈ p.modules.values.filter keep, m.id ∈ D) :
    Parallel s s' (fun r r' => r.1.Follows σ φ D r'.1 ∧ r'.2 = r.2.shifted σ)
      (d.copy p keep) ((d.shifted σ).copy p' keep') := by
  rw [copy, copy, kept]
  exact parallel_copyModules between injective (fun k _ => rfl) listed

theorem alike_renamed (follows : ids.Follows σ φ D ids') (c c' : Connection) {r : PortRef}
    (listed : r.module ∈ D) :
    Alike (fun q q' => q' = q.shifted σ) (renamed ids c r) (renamed ids' c' (r.moved φ)) := by
  unfold renamed
  rw [PortRef.moved, follows r.module listed]
  cases ids.get? r.module with
  | none => exact .error rfl
  | some m => exact .ok rfl

theorem parallel_copyConnection (between : σ.Between s s') (follows : ids.Follows σ φ D ids')
    {c c' : Connection} (same : c.Follows φ D c') :
    Parallel s s' (fun r r' => r'.2 = r.2.shifted σ) (d.copyConnection ids c)
      ((d.shifted σ).copyConnection ids' c') := by
  have source : c'.source = c.source.moved φ := congrArg Wire.source same.wire
  have destination : c'.destination = c.destination.moved φ := congrArg Wire.destination same.wire
  unfold copyConnection
  rw [source, destination]
  refine (Parallel.ofExcept (alike_renamed follows c c' same.source)).bind ?_
  rintro p _ rfl
  refine (Parallel.ofExcept (alike_renamed follows c c' same.destination)).bind ?_
  rintro q _ rfl
  exact parallel_connect between p q

theorem parallel_copyConnections (between : σ.Between s s') (follows : ids.Follows σ φ D ids')
    {cs cs' : List Connection} (same : List.Forall₂ (Connection.Follows φ D) cs cs') :
    Parallel s s' (fun e e' => e' = e.shifted σ) (d.copyConnections ids cs)
      ((d.shifted σ).copyConnections ids' cs') := by
  induction same generalizing d with
  | nil => exact .pure rfl
  | cons first _ ih =>
    refine (parallel_copyConnection between follows first).bind fun r r' same => ?_
    obtain ⟨id, e⟩ := r
    obtain ⟨id', e'⟩ := r'
    obtain rfl := same
    exact ih

end Draft

end Dataflow
