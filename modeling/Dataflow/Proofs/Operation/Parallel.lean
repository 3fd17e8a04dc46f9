import Dataflow.Proofs.Operation.Application
import Dataflow.Proofs.Variable.Parallel

/-! Operations that are applied in step. Where no code from outside is called, an operation makes of
arguments with shifted identifiers what it makes of the arguments, shifted. -/

namespace Dataflow

open Dataflow.Action (Parallel)

theorem Action.Parallel.foldlM {s s' : Store} {R : β → β' → Prop} {f : β → α → Action β}
    {f' : β' → α → Action β'}
    (step : ∀ a x x', R x x' → Parallel s s' R (f x a) (f' x' a)) (as : List α) {x : β} {x' : β'}
    (related : R x x') : Parallel s s' R (as.foldlM f x) (as.foldlM f' x') := by
  induction as generalizing x x' with
  | nil => exact .pure related
  | cons a as ih => exact (step a x x' related).bind fun _ _ => ih

namespace Operation

/-- The operation is made of modules or of a template, and calls no code from outside. -/
def IsPlain (op : Operation) : Prop :=
  match op.implementation with
  | .arithmetic _ | .concatenation | .template _ => True
  | _ => False

theorem IsPlain.isLinear {op : Operation} (plain : op.IsPlain) : op.IsLinear := by
  intro c called
  rw [IsPlain, called] at plain
  exact plain.elim

theorem isPlain_of_mem_withBuiltins (s : Settings) :
    ∀ op ∈ (Catalogue.withBuiltins s).operations, op.IsPlain := by
  intro op listed
  rcases List.mem_append.1 (show op ∈ builtins s from listed) with listed | listed
  · obtain ⟨a, -, rfl⟩ := List.mem_map.1 listed
    trivial
  · obtain rfl := List.mem_singleton.1 listed
    trivial

variable {σ : Shift} {s s' : Store} {h : Host} {op : Operation} {ids ids' : Renaming}

theorem alike_pair (op : Operation) (arguments : List Variable) :
    Alike (fun r r' => r'.1 = r.1.shifted σ ∧ r'.2 = r.2.shifted σ) (op.pair arguments)
      (op.pair (arguments.map (Variable.shifted σ))) := by
  unfold pair
  rcases arguments with _ | ⟨x, _ | ⟨y, _ | ⟨z, rest⟩⟩⟩
  · exact .error rfl
  · exact .error rfl
  · exact .ok ⟨rfl, rfl⟩
  · exact .error rfl

theorem parallel_combine (between : σ.Between s s') (x : Variable) (type : TypeName)
    (functions : List (String × String)) (left right : Variable) (leftPort rightPort : String) :
    Parallel s s' (fun y y' => y' = y.shifted σ)
      (combine x type functions left right leftPort rightPort)
      (combine (x.shifted σ) type functions (left.shifted σ) (right.shifted σ) leftPort
        rightPort) := by
  refine (Parallel.ofExcept (Variable.alike_absorb x left)).bind ?_
  rintro ⟨first, x⟩ ⟨_, _⟩ ⟨rfl, rfl⟩
  refine (Parallel.ofExcept (Variable.alike_absorb x right)).bind ?_
  rintro ⟨second, x⟩ ⟨_, _⟩ ⟨rfl, rfl⟩
  refine (Variable.parallel_addModule between type).bind ?_
  rintro ⟨m, x⟩ ⟨_, _⟩ ⟨rfl, rfl⟩
  refine (Parallel.foldlM (R := fun x x' => x' = x.shifted σ) ?_ functions rfl).bind ?_
  · rintro f x _ rfl
    exact .ofExcept (Variable.alike_setFunction m _ _)
  rintro x _ rfl
  refine (Variable.parallel_connect between first ⟨m, leftPort⟩).bind ?_
  rintro x _ rfl
  refine (Variable.parallel_connect between second ⟨m, rightPort⟩).bind ?_
  rintro x _ rfl
  exact .ofExcept (Variable.alike_selectOutput m _)

/-- Inputs on modules with shifted identifiers. -/
def shiftedInputs (σ : Shift) (inputs : List (String × PortRef)) : List (String × PortRef) :=
  inputs.map fun e => (e.1, e.2.shifted σ)

theorem alike_inputOf (op : Operation) (inputs : List (String × PortRef)) (m : Module) :
    Alike (fun q q' => q' = q.shifted σ) (op.inputOf inputs m)
      (op.inputOf (shiftedInputs σ inputs) m) := by
  unfold inputOf
  cases m.value? "name" with
  | none => exact .error rfl
  | some name =>
    simp only [shiftedInputs, ← List.map_reverse, List.find?_map, Function.comp_def]
    cases inputs.reverse.find? fun e => e.1 == name with
    | none => exact .error rfl
    | some e => exact .ok rfl

theorem alike_copied (follows : ids.Follows σ id Set.univ ids') (op : Operation) (m : ModuleId) :
    Alike (fun k k' => k' = σ.module k) (op.copied ids m) (op.copied ids' m) := by
  have same : ids'.get? m = (ids.get? m).map σ.module := follows m trivial
  unfold copied
  rw [same]
  cases ids.get? m with
  | none => exact .error rfl
  | some k => exact .ok rfl

theorem alike_feedOf (follows : ids.Follows σ id Set.univ ids') (op : Operation)
    (types : Placeholders) (inputs : List (String × PortRef)) (source : Module) (port : String) :
    Alike (fun q q' => q' = q.shifted σ) (op.feedOf types ids inputs source port)
      (op.feedOf types ids' (shiftedInputs σ inputs) source port) := by
  unfold feedOf
  split
  · exact alike_inputOf op inputs source
  · refine (alike_copied follows op source.id).map ?_
    rintro k _ rfl
    rfl

theorem parallel_copyTemplate (between : σ.Between s s') (follows : ids.Follows σ id Set.univ ids')
    (op : Operation) (template : Pipeline) (types : Placeholders)
    (inputs : List (String × PortRef)) (x : Variable) (output : Option PortRef)
    (cs : List Connection) :
    Parallel s s' (fun r r' => r'.1 = r.1.shifted σ ∧ r'.2 = r.2.map (PortRef.shifted σ))
      (op.copyTemplate template types ids inputs x output cs)
      (op.copyTemplate template types ids' (shiftedInputs σ inputs) (x.shifted σ)
        (output.map (PortRef.shifted σ)) cs) := by
  induction cs generalizing x output with
  | nil => exact .pure ⟨rfl, rfl⟩
  | cons c cs ih =>
    rw [copyTemplate_cons, copyTemplate_cons]
    refine (Parallel.ofExcept_same _).bind ?_
    rintro source _ rfl
    refine (Parallel.ofExcept_same _).bind ?_
    rintro target _ rfl
    refine (Parallel.ofExcept (alike_feedOf follows op types inputs source _)).bind ?_
    rintro feed _ rfl
    split
    · rw [Option.isSome_map]
      split
      · exact .throw rfl
      · exact ih x (some feed)
    · refine (Parallel.ofExcept (alike_copied follows op target.id)).bind ?_
      rintro m _ rfl
      refine (Variable.parallel_connect between feed ⟨m, c.destination.port⟩).bind ?_
      rintro y _ rfl
      exact ih y output

theorem alike_absorbNamed (x : Variable) (arguments : List (Parameter × Variable)) :
    Alike (fun r r' => r'.1 = shiftedInputs σ r.1 ∧ r'.2 = r.2.shifted σ) (absorbNamed x arguments)
      (absorbNamed (x.shifted σ) (arguments.map fun a => (a.1, a.2.shifted σ))) := by
  induction arguments generalizing x with
  | nil => exact .ok ⟨rfl, rfl⟩
  | cons a rest ih =>
    refine (Variable.alike_absorb x a.2).bind ?_
    rintro ⟨output, x⟩ ⟨_, _⟩ ⟨rfl, rfl⟩
    refine (ih x).bind ?_
    rintro ⟨inputs, x⟩ ⟨_, _⟩ ⟨rfl, rfl⟩
    exact .ok ⟨rfl, rfl⟩

theorem parallel_applyTemplate (between : σ.Between s s') (op : Operation) (template : Pipeline)
    (arguments : List Variable) :
    Parallel s s' (fun x x' => x' = x.shifted σ) (op.applyTemplate h template arguments)
      (op.applyTemplate h template (arguments.map (Variable.shifted σ))) := by
  refine (Parallel.ofExcept_same _).bind ?_
  rintro input _ rfl
  refine (Parallel.ofExcept_same _).bind ?_
  rintro output _ rfl
  have arguments' : op.parameters.zip (arguments.map (Variable.shifted σ)) =
      (op.parameters.zip arguments).map fun a => (a.1, a.2.shifted σ) := List.zip_map_right ..
  rw [arguments']
  refine (Parallel.ofExcept (alike_absorbNamed { type := op.returns } _)).bind ?_
  rintro ⟨inputs, x⟩ ⟨_, _⟩ ⟨rfl, rfl⟩
  refine (Draft.parallel_copy (d := x.draft) (φ := id) (D := Set.univ) between (Set.injOn_id _)
    (List.map_id _).symm fun _ _ => trivial).bind ?_
  rintro ⟨ids, d⟩ ⟨ids', _⟩ ⟨follows, rfl⟩
  refine (parallel_copyTemplate between follows op template ⟨input, output⟩ inputs
    { x with draft := d } none template.connections.values).bind ?_
  rintro ⟨x, found⟩ ⟨_, _⟩ ⟨rfl, rfl⟩
  cases found with
  | none => exact .throw rfl
  | some port => exact .pure rfl

theorem parallel_implement (between : σ.Between s s') (plain : op.IsPlain)
    (arguments : List Variable) :
    Parallel s s' (fun x x' => x' = x.map (Variable.shifted σ)) (op.implement h arguments)
      (op.implement h (arguments.map (Variable.shifted σ))) := by
  unfold IsPlain at plain
  unfold implement
  split at plain
  · next symbol same =>
    rw [same]
    refine (Parallel.ofExcept (alike_pair op arguments)).bind ?_
    rintro ⟨left, right⟩ ⟨_, _⟩ ⟨rfl, rfl⟩
    refine (Parallel.ofExcept_same _).bind ?_
    rintro float _ rfl
    refine (Parallel.ofExcept_same _).bind ?_
    rintro calculator _ rfl
    refine (parallel_combine between { type := float } calculator _ left right _ _).bind ?_
    rintro x _ rfl
    exact .pure rfl
  · next same =>
    rw [same]
    refine (Parallel.ofExcept (alike_pair op arguments)).bind ?_
    rintro ⟨left, right⟩ ⟨_, _⟩ ⟨rfl, rfl⟩
    refine (Parallel.ofExcept_same _).bind ?_
    rintro string _ rfl
    refine (Parallel.ofExcept_same _).bind ?_
    rintro join _ rfl
    refine (parallel_combine between { type := string } join _ left right _ _).bind ?_
    rintro x _ rfl
    exact .pure rfl
  · next template same =>
    rw [same]
    refine (parallel_applyTemplate between op template arguments).bind ?_
    rintro x _ rfl
    exact .pure rfl
  · exact plain.elim

theorem parallel_apply (between : σ.Between s s') (plain : op.IsPlain) (arguments : List Variable) :
    Parallel s s' (fun x x' => x' = x.shifted σ) (op.apply h arguments)
      (op.apply h (arguments.map (Variable.shifted σ))) := by
  refine (parallel_implement between plain arguments).bind ?_
  rintro x _ rfl
  cases x with
  | none => exact .throw rfl
  | some x =>
    have records : (arguments.map (Variable.shifted σ)).map (·.provenance) =
        arguments.map (·.provenance) := by simp [Function.comp_def, Variable.shifted]
    simp only [Option.map_some, records]
    have same : (x.shifted σ).provenance = x.provenance := rfl
    rw [same]
    split
    · exact .pure rfl
    · exact .pure rfl

end Operation

end Dataflow
