import Dataflow.Proofs.Draft.Parallel
import Dataflow.Proofs.Variable.Copying

/-! Variables that are built in step, and copies in step of variables whose versions hold pipelines that
differ by a renaming. -/

namespace Dataflow

open Dataflow.Action (Parallel)

namespace Pipeline

/-- The second pipeline is the first one with modules renamed, where the module of a variables root
stands for that of another; both are listed in the same order. -/
structure Mates (φ : ModuleId → ModuleId) (D : Set ModuleId) (root root' : ModuleId)
    (p p' : Pipeline) : Prop where
  injective : Set.InjOn φ D
  root_eq : φ root = root'
  root_mem : root ∈ D
  inner : p'.inner root' = (p.inner root).map (Module.moved φ)
  inner_mem : ∀ m ∈ p.inner root, m.id ∈ D
  connections : List.Forall₂ (Connection.Follows φ D) p.connections.values p'.connections.values

theorem Mates.refl (p : Pipeline) (root : ModuleId) : p.Mates id Set.univ root root p where
  injective := Set.injOn_id _
  root_eq := rfl
  root_mem := trivial
  inner := (List.map_id _).symm
  inner_mem _ _ := trivial
  connections := List.forall₂_same.2 fun _ _ => ⟨rfl, trivial, trivial⟩

variable {φ : ModuleId → ModuleId} {D : Set ModuleId} {root root' : ModuleId} {p p' : Pipeline}

namespace Mates

variable (mates : p.Mates φ D root root' p')
include mates

theorem feeds_root_iff {c c' : Connection} (follows : c.Follows φ D c') :
    c'.destination.module = root' ↔ c.destination.module = root := by
  have destination : c'.destination = c.destination.moved φ :=
    congrArg Wire.destination follows.wire
  rw [destination, ← mates.root_eq]
  exact ⟨fun same => mates.injective follows.destination mates.root_mem same, congrArg φ⟩

theorem innerConnections : List.Forall₂ (Connection.Follows φ D) (p.innerConnections root)
    (p'.innerConnections root') := by
  refine List.rel_filter (fun c c' follows => ?_) mates.connections
  simp [mates.feeds_root_iff follows]

/-- The ports that feed the module of the variables root are the same, or are missed alike. -/
theorem alike_feed : Alike (fun o o' => o' = o.moved φ ∧ o.module ∈ D) (Variable.feed p root)
    (Variable.feed p' root') := by
  have fed : List.Forall₂ (Connection.Follows φ D) (p.connectionsInto root)
      (p'.connectionsInto root') := by
    refine List.rel_filter (fun c c' follows => ?_) mates.connections
    simp [mates.feeds_root_iff follows]
  unfold Variable.feed
  generalize p.connectionsInto root = cs at fed ⊢
  generalize p'.connectionsInto root' = cs' at fed ⊢
  cases fed with
  | nil => exact .error rfl
  | cons first rest =>
    cases rest with
    | nil => exact .ok ⟨congrArg Wire.source first.wire, first.source⟩
    | cons => exact .error rfl

end Mates

/-- Copies of the pipelines below their variables roots are the same but for the shift, or both fail
since no single port feeds the root. -/
def CopyAlike (root root' : ModuleId) (p p' : Pipeline) : Prop :=
  (∃ φ D, p.Mates φ D root root' p') ∨
    Alike (fun _ _ => False) (Variable.feed p root) (Variable.feed p' root')

end Pipeline

namespace Variable

def shifted (σ : Shift) (x : Variable) : Variable :=
  { x with draft := x.draft.shifted σ, output := x.output.map (PortRef.shifted σ) }

@[simp] theorem shifted_none (x : Variable) : x.shifted .none = x := by
  have output : x.output.map (PortRef.shifted .none) = x.output := Option.map_id_apply
  rw [shifted, Draft.shifted_none, output]

variable {σ : Shift} {h : Host} {x y : Variable} {s s' : Store}

theorem alike_selectOutput (m : ModuleId) (port : String) :
    Alike (fun x x' => x' = x.shifted σ) (x.selectOutput m port)
      ((x.shifted σ).selectOutput (σ.module m) port) := by
  unfold selectOutput
  simp only [shifted, Option.isSome_map, Draft.contains_shifted]
  split
  · exact .error rfl
  · split
    · exact .ok rfl
    · exact .error rfl

theorem alike_setFunction (m : ModuleId) (name : String) (params : List String) :
    Alike (fun x x' => x' = x.shifted σ) (x.setFunction m name params)
      ((x.shifted σ).setFunction (σ.module m) name params) := by
  refine (Draft.alike_setFunction m name params).map ?_
  rintro d _ rfl
  rfl

theorem alike_absorb (x y : Variable) :
    Alike (fun r r' => r'.1 = r.1.shifted σ ∧ r'.2 = r.2.shifted σ) (x.absorb y)
      ((x.shifted σ).absorb (y.shifted σ)) := by
  have same : (y.shifted σ).isMaterialized = y.isMaterialized := rfl
  have output : (y.shifted σ).output = y.output.map (PortRef.shifted σ) := rfl
  unfold absorb
  rw [same, output]
  split
  · exact .error rfl
  · cases y.output with
    | none => exact .error rfl
    | some o => exact .ok ⟨rfl, by simp only [shifted, Draft.shifted_append]⟩

theorem parallel_addModule (between : σ.Between s s') (type : TypeName) :
    Parallel s s' (fun r r' => r'.1 = σ.module r.1 ∧ r'.2 = r.2.shifted σ) (x.addModule type)
      ((x.shifted σ).addModule type) := by
  refine (Parallel.createModule between type).bind ?_
  rintro m _ rfl
  exact .pure ⟨rfl, by simp only [shifted, Draft.shifted_addModule]⟩

theorem parallel_connect (between : σ.Between s s') (source destination : PortRef) :
    Parallel s s' (fun x x' => x' = x.shifted σ) (x.connect source destination)
      ((x.shifted σ).connect (source.shifted σ) (destination.shifted σ)) := by
  refine (Draft.parallel_connect between source destination).bind ?_
  rintro ⟨id, d⟩ ⟨id', d'⟩ same
  obtain rfl : d' = d.shifted σ := same
  exact .pure rfl

theorem parallel_constant (between : σ.Between s s') (value : Constant) (type : TypeName) :
    Parallel s s' (fun x x' => x' = x.shifted σ) (constant h value type) (constant h value type) := by
  refine (parallel_addModule (x := { type }) between type).bind ?_
  rintro ⟨m, x⟩ ⟨_, _⟩ ⟨rfl, rfl⟩
  refine (Parallel.ofExcept (alike_setFunction m _ _)).bind ?_
  rintro x _ rfl
  refine (Parallel.ofExcept (alike_selectOutput m _)).bind ?_
  rintro x _ rfl
  exact .pure rfl

/-- Either both variables were written or neither was, and their versions hold pipelines that are
related. -/
structure ReadAlike (s s' : Store) (R : Pipeline → Pipeline → Prop) (x y : Variable) : Prop where
  version : y.version.isSome = x.version.isSome
  pipelines : ∀ {v v'}, x.version = some v → y.version = some v' →
    Alike R ((s.pipeline v).mapError .host) ((s'.pipeline v').mapError .host)

theorem ReadAlike.mono {R R' : Pipeline → Pipeline → Prop} (read : ReadAlike s s' R x y)
    (imp : ∀ p p', R p p' → R' p p') : ReadAlike s s' R' x y :=
  ⟨read.version, fun version version' => (read.pipelines version version').mono imp⟩

theorem ReadAlike.refl {R : Pipeline → Pipeline → Prop} (same : ∀ p, R p p) (x : Variable) :
    ReadAlike s s R x x := by
  refine ⟨rfl, fun {v v'} version version' => ?_⟩
  obtain rfl : v = v' := Option.some.inj (version.symm.trans version')
  exact .refl fun p _ => same p

/-- Two variables of one type and with one record, whose versions are copied alike below variables
roots that are related. -/
structure Twins (s s' : Store) (Q : VariablesRoot → VariablesRoot → Prop) (x y : Variable) :
    Prop where
  type : y.type = x.type
  provenance : y.provenance = x.provenance
  version : y.version.isSome = x.version.isSome
  reads : ∀ {r r'}, Q r r' → ReadAlike s s' (Pipeline.CopyAlike r.module r'.module) x y

theorem alike_written (same : y.version.isSome = x.version.isSome) (subject subject' : String) :
    Alike (fun v v' => x.version = some v ∧ y.version = some v') (x.written subject)
      (y.written subject') := by
  unfold written
  cases hx : x.version with
  | none =>
    rw [hx, Option.isSome_none, Option.isSome_eq_false_iff, Option.isNone_iff_eq_none] at same
    rw [same]
    exact .error rfl
  | some v =>
    rw [hx, Option.isSome_some, Option.isSome_iff_exists] at same
    obtain ⟨v', hy⟩ := same
    rw [hy]
    exact .ok ⟨rfl, rfl⟩

theorem parallel_pipeline {R : Pipeline → Pipeline → Prop} {v v' : VersionId}
    (alike : Alike R ((s.pipeline v).mapError .host) ((s'.pipeline v').mapError .host)) :
    Parallel s s' R (Action.query (·.pipeline v)) (Action.query (·.pipeline v')) :=
  .query (fun _ _ abreast => ⟨by rw [abreast.left.pipeline], by rw [abreast.right.pipeline]⟩) alike

theorem parallel_copy (between : σ.Between s s') {Q : VariablesRoot → VariablesRoot → Prop}
    (asked : Parallel s s' Q h.variablesRoot h.variablesRoot) (twins : Twins s s' Q x y) :
    Parallel s s' (fun x x' => x' = x.shifted σ) (x.copy h) (y.copy h) := by
  refine (Parallel.ofExcept (alike_written twins.version _ _)).bind ?_
  rintro v v' ⟨hv, hv'⟩
  refine asked.bind fun r r' related => ?_
  refine (parallel_pipeline ((twins.reads related).pipelines hv hv')).bind fun p p' alike => ?_
  rcases alike with ⟨φ, D, mates⟩ | failing
  · refine (Parallel.ofExcept mates.alike_feed).bind ?_
    rintro o _ ⟨rfl, listed⟩
    refine (Draft.parallel_copy (d := .empty) between mates.injective mates.inner
      mates.inner_mem).bind ?_
    rintro ⟨ids, d⟩ ⟨ids', _⟩ ⟨follows, rfl⟩
    refine (Draft.parallel_copyConnections between follows mates.innerConnections).bind ?_
    rintro e _ rfl
    simp only [PortRef.moved, follows o.module listed]
    cases ids.get? o.module with
    | none => exact .throw rfl
    | some m =>
      refine .pure ?_
      rw [twins.type, twins.provenance]
      rfl
  · exact (Parallel.ofExcept failing).bind fun _ _ => False.elim

end Variable

end Dataflow
