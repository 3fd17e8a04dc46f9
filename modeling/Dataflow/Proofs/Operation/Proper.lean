import Dataflow.Proofs.Operation.Minting
import Dataflow.Proofs.Variable.Built

/-! Whatever steps build of proper variables is proper. -/

namespace Dataflow

namespace Assembly

variable {h : Host} {a b : Assembly} {s t : Store}

/-- The variable under construction and the arguments are proper. -/
structure Proper (a : Assembly) : Prop where
  built : a.built.Proper
  arguments : ∀ x ∈ a.arguments, x.Proper

theorem proper_absorbAll {ys : List Variable} (ha : a.Proper) (hy : ∀ y ∈ ys, y.Proper)
    (absorb : a.absorbAll ys = .ok b) : b.Proper := by
  induction ys generalizing a with
  | nil =>
    cases absorb
    exact ha
  | cons y ys ih =>
    obtain ⟨o, x, first, rest⟩ := absorbAll_cons_eq_ok absorb
    have taken := ha.built.absorb (hy y (List.mem_cons_self ..)) first
    exact ih (a := { a with built := x, outputs := a.outputs ++ [o] }) ⟨taken, ha.arguments⟩
      (fun z hz => hy z (List.mem_cons_of_mem _ hz)) rest

theorem proper_connectAll {m : ModuleId} {feeds : List (PortRef × String)} (ha : a.Proper)
    (run : (a.connectAll m feeds).on s = (.ok b, t)) : b.Proper := by
  induction feeds generalizing a s with
  | nil =>
    cases run
    exact ha
  | cons f rest ih =>
    obtain ⟨x, v, connect, tail⟩ := Action.on_bind_eq_ok.1 run
    exact ih (a := { a with built := x }) ⟨ha.built.connect connect, ha.arguments⟩ tail

theorem proper_addModule {type : TypeName} (ha : a.Proper)
    (run : (a.addModule type).on s = (.ok b, t)) : b.Proper := by
  obtain ⟨⟨m, x⟩, v, add, rest⟩ := Action.on_bind_eq_ok.1 run
  cases rest
  exact ⟨ha.built.addModule add, ha.arguments⟩

theorem proper_step {step : Step} (ha : a.Proper) (run : (a.step h step).on s = (.ok b, t)) :
    b.Proper := by
  cases step with
  | module type =>
    obtain ⟨type', v, -, rest⟩ := Action.on_bind_eq_ok.1 run
    exact proper_addModule ha rest
  | moduleNamed package name =>
    obtain ⟨type', v, -, rest⟩ := Action.on_bind_eq_ok.1 run
    exact proper_addModule ha rest
  | function m port values =>
    obtain ⟨x, set, rest⟩ := Action.on_ofExcept_bind_eq_ok.1 run
    cases rest
    exact ⟨ha.built.setFunction set, ha.arguments⟩
  | connect source output target input =>
    obtain ⟨x, v, connect, rest⟩ := Action.on_bind_eq_ok.1 run
    cases rest
    exact ⟨ha.built.connect connect, ha.arguments⟩
  | output m port =>
    obtain ⟨x, select, rest⟩ := Action.on_ofExcept_bind_eq_ok.1 run
    cases rest
    exact ⟨ha.built.selectOutput select, ha.arguments⟩
  | constant value type =>
    obtain ⟨type', v, -, rest⟩ := Action.on_bind_eq_ok.1 run
    obtain ⟨y, v, made, rest⟩ := Action.on_bind_eq_ok.1 rest
    obtain ⟨absorb, rfl⟩ := Action.on_ofExcept_eq_ok.1 rest
    exact proper_absorbAll ha (by simpa using Variable.Proper.constant made) absorb
  | connectOutput source target input => exact proper_connectAll ha run
  | connectOutputs target inputs => exact proper_connectAll ha run
  | absorbArguments =>
    obtain ⟨c, absorb, rest⟩ := Action.on_ofExcept_bind_eq_ok.1 run
    cases rest
    exact ⟨(proper_absorbAll ha ha.arguments absorb).built, by simp⟩
  | connectArgument n target input =>
    simp only [Assembly.step] at run
    split at run
    · exact proper_connectAll ha run
    · cases run
  | provenance record =>
    obtain ⟨p, v, known, rest⟩ := Action.on_bind_eq_ok.1 run
    cases rest
    exact ⟨ha.built.provenance p, ha.arguments⟩

theorem proper_running {steps : List Step} (ha : a.Proper)
    (run : (a.running h steps).on s = (.ok (.ok (), b), t)) : b.Proper := by
  induction steps generalizing a s with
  | nil =>
    cases run
    exact ha
  | cons step rest ih =>
    rw [on_running_cons] at run
    rcases taken : (a.step h step).on s with ⟨_ | c, v⟩
    · simp [taken] at run
    · rw [taken] at run
      exact ih (proper_step ha taken) run

theorem proper_build {steps : List Step} {x : Variable} (ha : a.Proper)
    (run : (a.build h steps).on s = (.ok x, t)) : x.Proper := by
  obtain ⟨⟨result, b⟩, v, ran, rest⟩ := Action.on_bind_eq_ok.1 run
  obtain ⟨_, rfl, rest⟩ := Action.on_ofExcept_bind_eq_ok.1 rest
  cases rest
  exact (proper_running ha ran).built

end Assembly

namespace Operation

variable {s t : Store} {x y left right : Variable}

theorem proper_foldlM {m : ModuleId} {functions : List (String × String)} (hx : x.Proper)
    (run : (functions.foldlM (fun x (f : String × String) =>
      Action.ofExcept (x.setFunction m f.1 [f.2])) x).on s = (.ok y, t)) : y.Proper := by
  induction functions generalizing x s with
  | nil =>
    cases run
    exact hx
  | cons f rest ih =>
    obtain ⟨z, set, tail⟩ := Action.on_ofExcept_bind_eq_ok.1 run
    exact ih (hx.setFunction set) tail

theorem proper_combine {type : TypeName} {functions : List (String × String)}
    {leftPort rightPort : String} (hx : x.Proper) (hl : left.Proper) (hr : right.Proper)
    (run : (combine x type functions left right leftPort rightPort).on s = (.ok y, t)) :
    y.Proper := by
  obtain ⟨⟨first, x₁⟩, absorb, run⟩ := Action.on_ofExcept_bind_eq_ok.1 run
  obtain ⟨⟨second, x₂⟩, absorb', run⟩ := Action.on_ofExcept_bind_eq_ok.1 run
  obtain ⟨⟨m, x₃⟩, v, add, run⟩ := Action.on_bind_eq_ok.1 run
  obtain ⟨x₄, w, sets, run⟩ := Action.on_bind_eq_ok.1 run
  obtain ⟨x₅, w, connect, run⟩ := Action.on_bind_eq_ok.1 run
  obtain ⟨x₆, w', connect', run⟩ := Action.on_bind_eq_ok.1 run
  obtain ⟨select, rfl⟩ := Action.on_ofExcept_eq_ok.1 run
  have set := proper_foldlM (((hx.absorb hl absorb).absorb hr absorb').addModule add) sets
  exact ((set.connect connect).connect connect').selectOutput select

end Operation

end Dataflow
