import Dataflow.Operation.Application
import Dataflow.Proofs.Store.Changes

/-! Building numbers modules and connections and does nothing else to a store, also where it fails.
Of all that makes variables, only a copy of a written one looks at versions. -/

namespace Dataflow

open Dataflow.Action

namespace Draft

theorem minting_connect (d : Draft) (source destination : PortRef) :
    Minting (d.connect source destination) := by
  unfold connect
  split
  · exact minting_throw _
  · exact (minting_createConnection _ _).bind fun _ => minting_pure _

theorem minting_copyModules (d : Draft) (done : Renaming) (ms : List Module) :
    Minting (d.copyModules done ms) := by
  induction ms generalizing d done with
  | nil => exact minting_pure _
  | cons m ms ih =>
    have first : Minting (d.copyModule m) :=
      (minting_createModule m.type).bind fun _ => minting_pure _
    exact first.bind fun (id, e) => ih e (done.insert m.id id)

theorem minting_copy (d : Draft) (p : Pipeline) (keep : Module → Bool) : Minting (d.copy p keep) :=
  d.minting_copyModules _ _

theorem minting_copyConnection (d : Draft) (ids : Renaming) (c : Connection) :
    Minting (d.copyConnection ids c) :=
  (minting_ofExcept _).bind fun _ => (minting_ofExcept _).bind fun _ => d.minting_connect _ _

theorem minting_copyConnections (d : Draft) (ids : Renaming) (cs : List Connection) :
    Minting (d.copyConnections ids cs) := by
  induction cs generalizing d with
  | nil => exact minting_pure _
  | cons c cs ih => exact (d.minting_copyConnection ids c).bind fun (_, e) => ih e

end Draft

namespace Variable

theorem minting_addModule (x : Variable) (t : TypeName) : Minting (x.addModule t) :=
  (minting_createModule t).bind fun _ => minting_pure _

theorem minting_connect (x : Variable) (source destination : PortRef) :
    Minting (x.connect source destination) :=
  (x.draft.minting_connect source destination).bind fun _ => minting_pure _

theorem minting_constant (h : Host) (value : Constant) (t : TypeName) :
    Minting (constant h value t) := by
  refine (minting_addModule _ t).bind fun _ => ?_
  exact (minting_ofExcept _).bind fun _ => (minting_ofExcept _).bind fun _ => minting_pure _

end Variable

namespace Assembly

theorem minting_connectAll (a : Assembly) (m : ModuleId) (feeds : List (PortRef × String)) :
    Minting (a.connectAll m feeds) := by
  induction feeds generalizing a with
  | nil => exact minting_pure _
  | cons f rest ih => exact (a.built.minting_connect _ _).bind fun _ => ih _

theorem minting_addModule (a : Assembly) (t : TypeName) : Minting (a.addModule t) :=
  (a.built.minting_addModule t).bind fun _ => minting_pure _

theorem minting_step (h : Host) (a : Assembly) (step : Step) : Minting (a.step h step) := by
  cases step with
  | module type => exact (minting_ofExcept _).bind fun t => a.minting_addModule t
  | moduleNamed package name => exact (minting_ofExcept _).bind fun t => a.minting_addModule t
  | function m port values => exact (minting_ofExcept _).bind fun _ => minting_pure _
  | connect source output target input =>
    exact (a.built.minting_connect _ _).bind fun _ => minting_pure _
  | output m port => exact (minting_ofExcept _).bind fun _ => minting_pure _
  | constant value type =>
    refine (minting_ofExcept _).bind fun t => ?_
    exact (Variable.minting_constant h value t).bind fun _ => minting_ofExcept _
  | connectOutput source target input => exact a.minting_connectAll _ _
  | connectOutputs target inputs => exact a.minting_connectAll _ _
  | absorbArguments => exact (minting_ofExcept _).bind fun _ => minting_pure _
  | connectArgument n target input =>
    simp only [Assembly.step]
    split
    · exact a.minting_connectAll _ _
    · exact minting_throw _
  | provenance record => exact (minting_ofExcept _).bind fun _ => minting_pure _

theorem absorbAll_cons_eq_ok {a b : Assembly} {y : Variable} {ys : List Variable}
    (absorb : a.absorbAll (y :: ys) = .ok b) :
    ∃ o x, a.built.absorb y = .ok (o, x) ∧
      absorbAll { a with built := x, outputs := a.outputs ++ [o] } ys = .ok b := by
  rw [absorbAll] at absorb
  cases first : a.built.absorb y with
  | error e => simp [first, bind, Except.bind] at absorb
  | ok result => exact ⟨result.1, result.2, rfl, by simpa only [first, bind, Except.bind] using absorb⟩

/-- Steps as an action, which tells what was built also where a step failed. -/
abbrev running (h : Host) (a : Assembly) (steps : List Step) :
    Action (Except Error Unit × Assembly) := liftM (a.run h steps)

private theorem on_liftM_run_cons (h : Host) (a : Assembly) (step : Step) (rest : List Step)
    (s : Store) : (a.running h (step :: rest)).on s =
      (liftM (match ((a.step h step).on s).1 with
        | .ok b => run h b rest
        | .error e => pure (.error e, a)) : Action (Except Error Unit × Assembly)).on
          ((a.step h step).on s).2 := rfl

theorem on_running_cons (h : Host) (a : Assembly) (step : Step) (rest : List Step) (s : Store) :
    (a.running h (step :: rest)).on s = match (a.step h step).on s with
      | (.ok b, t) => (b.running h rest).on t
      | (.error e, t) => (.ok (.error e, a), t) := by
  rw [on_liftM_run_cons]
  rcases (a.step h step).on s with ⟨r, t⟩
  cases r <;> rfl

theorem minting_running (h : Host) (a : Assembly) (steps : List Step) :
    Minting (a.running h steps) := by
  intro s
  induction steps generalizing a s with
  | nil => exact .refl s
  | cons step rest ih =>
    have first := a.minting_step h step s
    rw [on_running_cons]
    split
    · next b t taken =>
      rw [taken] at first
      exact first.trans (ih b t)
    · next e t failed =>
      rw [failed] at first
      exact first

theorem minting_build (h : Host) (a : Assembly) (steps : List Step) : Minting (a.build h steps) :=
  (a.minting_running h steps).bind fun _ => (minting_ofExcept _).bind fun _ => minting_pure _

end Assembly

namespace Operation

theorem minting_combine (x : Variable) (type : TypeName) (functions : List (String × String))
    (left right : Variable) (leftPort rightPort : String) :
    Minting (combine x type functions left right leftPort rightPort) := by
  refine (minting_ofExcept _).bind fun (first, x) => (minting_ofExcept _).bind fun (second, x) => ?_
  refine (x.minting_addModule type).bind fun (m, x) => ?_
  refine (Minting.foldlM (fun _ _ => minting_ofExcept _) x functions).bind fun x => ?_
  exact (x.minting_connect _ _).bind fun x => (x.minting_connect _ _).bind fun x => minting_ofExcept _

/-- Where the copy of a template's connection starts. -/
def feedOf (op : Operation) (types : Placeholders) (ids : Renaming)
    (inputs : List (String × PortRef)) (source : Module) (port : String) : Except Error PortRef :=
  if source.type = types.input then op.inputOf inputs source
  else (op.copied ids source.id).map fun m => ⟨m, port⟩

theorem copyTemplate_cons (op : Operation) (template : Pipeline) (types : Placeholders)
    (ids : Renaming) (inputs : List (String × PortRef)) (x : Variable) (output : Option PortRef)
    (c : Connection) (cs : List Connection) :
    op.copyTemplate template types ids inputs x output (c :: cs) = (do
      let source ← Action.ofExcept (op.moduleOf template c.source.module)
      let target ← Action.ofExcept (op.moduleOf template c.destination.module)
      let feed ← Action.ofExcept (op.feedOf types ids inputs source c.source.port)
      if target.type = types.output then
        if output.isSome then throw (.implementation op.name .severalOutputs)
        else op.copyTemplate template types ids inputs x (some feed) cs
      else do
        let m ← Action.ofExcept (op.copied ids target.id)
        let y ← x.connect feed ⟨m, c.destination.port⟩
        op.copyTemplate template types ids inputs y output cs) := by
  rw [copyTemplate]
  congr 1
  funext source
  congr 1
  funext target
  by_cases input : source.type = types.input <;>
    by_cases final : target.type = types.output <;>
    simp only [feedOf, input, final, if_true, if_false]
  · cases output <;> rfl
  · cases op.copied ids source.id <;> cases output <;> rfl
  · cases op.copied ids source.id <;> rfl

theorem minting_copyTemplate (op : Operation) (template : Pipeline) (types : Placeholders)
    (ids : Renaming) (inputs : List (String × PortRef)) (x : Variable) (output : Option PortRef)
    (cs : List Connection) :
    Minting (op.copyTemplate template types ids inputs x output cs) := by
  induction cs generalizing x output with
  | nil => exact minting_pure _
  | cons c cs ih =>
    rw [copyTemplate_cons]
    refine (minting_ofExcept _).bind fun source => (minting_ofExcept _).bind fun target => ?_
    refine (minting_ofExcept _).bind fun feed => ?_
    split
    · split
      · exact minting_throw _
      · exact ih _ _
    · exact (minting_ofExcept _).bind fun _ => (x.minting_connect _ _).bind fun y => ih y output

theorem minting_applyTemplate (h : Host) (op : Operation) (template : Pipeline)
    (arguments : List Variable) : Minting (op.applyTemplate h template arguments) := by
  refine (minting_ofExcept _).bind fun input => (minting_ofExcept _).bind fun output => ?_
  refine (minting_ofExcept _).bind fun (inputs, x) => ?_
  refine (x.draft.minting_copy _ _).bind fun (ids, d) => ?_
  refine (op.minting_copyTemplate _ _ _ _ _ _ _).bind fun (y, found) => ?_
  cases found with
  | some port => exact minting_pure _
  | none => exact minting_throw _

end Operation

end Dataflow
