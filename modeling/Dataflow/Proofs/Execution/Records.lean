import Dataflow.Operation.Builtin
import Dataflow.Proofs.Execution
import Dataflow.Proofs.Operation.Splicing

/-! An execution builds what its node says: a variable of the node's type, with the record that the
node's tree spells out. Built-in operations and templates start a variable of the type that they
return and only work on its draft and its output, so they leave it to the application to record them;
what was built on the way is taken over for its edits, and its record is taken before that. -/

namespace Dataflow

open Dataflow.Action

theorem Draft.Owned.exists_addModule {d : Draft} {id : ModuleId} (own : d.Owned)
    (there : d.contains id = true) : ∃ m, Edit.addModule m ∈ d.edits ∧ m.id = id := by
  induction own with
  | empty => cases there
  | @addModule d own m _ ih =>
    rw [Draft.contains_addModule, Bool.or_eq_true, beq_iff_eq] at there
    rcases there with rfl | there
    · exact ⟨m, List.mem_append_right _ (List.mem_singleton_self _), rfl⟩
    · obtain ⟨n, added, same⟩ := ih there
      exact ⟨n, List.mem_append_left _ added, same⟩
  | setFunction _ _ _ _ ih | connection _ _ _ ih =>
    obtain ⟨n, added, same⟩ := ih there
    exact ⟨n, List.mem_append_left _ added, same⟩
  | append _ _ ih ih' =>
    rw [Draft.contains_append, Bool.or_eq_true] at there
    rcases there with there | there
    · obtain ⟨n, added, same⟩ := ih' there
      exact ⟨n, List.mem_append_right _ added, same⟩
    · obtain ⟨n, added, same⟩ := ih there
      exact ⟨n, List.mem_append_left _ added, same⟩

namespace Operation

open Variable (Continues)

variable {h : Host} {op : Operation} {s t : Store} {x y : Variable} {arguments : List Variable}

theorem continues_foldlM {m : ModuleId} {functions : List (String × String)}
    (run : (functions.foldlM (fun x (f : String × String) =>
      Action.ofExcept (x.setFunction m f.1 [f.2])) x).on s = (.ok y, t)) : x.Continues y := by
  induction functions generalizing x s with
  | nil =>
    cases run
    exact .refl _
  | cons f rest ih =>
    obtain ⟨z, set, tail⟩ := on_ofExcept_bind_eq_ok.1 run
    exact (Variable.continues_of_setFunction set).trans (ih tail)

theorem continues_combine {type : TypeName} {functions : List (String × String)}
    {left right : Variable} {leftPort rightPort : String}
    (run : (combine x type functions left right leftPort rightPort).on s = (.ok y, t)) :
    x.Continues y ∧ y.output.isSome = true := by
  obtain ⟨⟨first, x₁⟩, absorb, run⟩ := on_ofExcept_bind_eq_ok.1 run
  obtain ⟨⟨second, x₂⟩, absorb', run⟩ := on_ofExcept_bind_eq_ok.1 run
  obtain ⟨⟨m, x₃⟩, v, add, run⟩ := on_bind_eq_ok.1 run
  obtain ⟨x₄, w, sets, run⟩ := on_bind_eq_ok.1 run
  obtain ⟨x₅, w, connect, run⟩ := on_bind_eq_ok.1 run
  obtain ⟨x₆, w', connect', run⟩ := on_bind_eq_ok.1 run
  obtain ⟨select, rfl⟩ := on_ofExcept_eq_ok.1 run
  obtain ⟨selected, output⟩ := Variable.continues_of_selectOutput select
  have taken := (Variable.continues_of_absorb absorb).trans (Variable.continues_of_absorb absorb')
  have placed := (taken.trans (Variable.continues_of_addModule add)).trans (continues_foldlM sets)
  have wired := (placed.trans (Variable.continues_of_connect connect)).trans
    (Variable.continues_of_connect connect')
  exact ⟨wired.trans selected, by rw [output]; rfl⟩

theorem continues_absorbNamed {given : List (Parameter × Variable)}
    {inputs : List (String × PortRef)} (absorb : absorbNamed x given = .ok (inputs, y)) :
    x.Continues y := by
  induction given generalizing x inputs with
  | nil =>
    cases absorb
    exact .refl _
  | cons a rest ih =>
    obtain ⟨o, x', inputs', first, others, -⟩ := absorbNamed_cons_eq_ok absorb
    exact (Variable.continues_of_absorb first).trans (ih others)

theorem continues_applyTemplate {template : Pipeline}
    (run : (op.applyTemplate h template arguments).on s = (.ok y, t)) :
    Continues { type := op.returns } y ∧ y.output.isSome = true := by
  obtain ⟨types, inputs, x, ids, d, v, z, port, absorb, -, connections, rfl⟩ :=
    applyTemplate_eq_ok run
  have taken := continues_absorbNamed absorb
  have copied : Continues { x with draft := d } z := by
    refine copyTemplate_induction (fun _ y _ => Continues { x with draft := d } y) ?_ ?_
      (.refl _) connections
    · intro t u x y output source destination kept connected
      exact kept.trans (Variable.continues_of_connect connected)
    · intro t x feed source port kept _
      exact kept
  exact ⟨⟨copied.type.trans taken.type, copied.provenance.trans taken.provenance,
    copied.version.trans taken.version⟩, rfl⟩

/-- The built-in operations of a configuration, and all operations with a template. -/
def IsStandard (settings : Settings) (op : Operation) : Prop :=
  op ∈ builtins settings ∨ ∃ template, op.implementation = .template template

/-- A standard operation makes a new variable of its own. -/
theorem IsStandard.continues (standard : op.IsStandard h.settings)
    (run : (op.implement h arguments).on s = (.ok (some y), t)) :
    Continues { type := op.returns } y ∧ y.output.isSome = true := by
  rcases standard with listed | ⟨template, implemented⟩
  · rcases List.mem_append.1 listed with listed | listed
    · obtain ⟨a, -, rfl⟩ := List.mem_map.1 listed
      obtain ⟨⟨left, right⟩, -, rest⟩ := on_ofExcept_bind_eq_ok.1 run
      obtain ⟨float, known, rest⟩ := on_ofExcept_bind_eq_ok.1 rest
      obtain ⟨calculator, -, rest⟩ := on_ofExcept_bind_eq_ok.1 rest
      obtain ⟨z, v, build, rest⟩ := on_bind_eq_ok.1 rest
      cases rest
      obtain rfl := Host.basic_eq_ok known
      exact continues_combine build
    · obtain rfl := List.mem_singleton.1 listed
      obtain ⟨⟨left, right⟩, -, rest⟩ := on_ofExcept_bind_eq_ok.1 run
      obtain ⟨string, known, rest⟩ := on_ofExcept_bind_eq_ok.1 rest
      obtain ⟨join, -, rest⟩ := on_ofExcept_bind_eq_ok.1 rest
      obtain ⟨z, v, build, rest⟩ := on_bind_eq_ok.1 rest
      cases rest
      obtain rfl := Host.basic_eq_ok known
      exact continues_combine build
  · rw [implement, implemented] at run
    obtain ⟨z, v, build, rest⟩ := on_bind_eq_ok.1 run
    cases rest
    exact continues_applyTemplate build

end Operation

namespace Node

mutual

/-- The record of what a node describes. -/
def record : Node → Option Provenance
  | .constant value _ => some (.constant value)
  | .reference _ x => x.provenance
  | .application op arguments => some (.operation op.reference (records arguments))

def records : List Node → List (Option Provenance)
  | [] => []
  | n :: ns => record n :: records ns

end

/-- A variable of the node's type and with its record, which was not written yet. -/
structure Describes (n : Node) (x : Variable) : Prop where
  type : x.type = n.type
  provenance : x.provenance = n.record
  unwritten : x.version = none
  designated : x.output.isSome = true

variable {h : Host}

/-- An application is recorded with what is recorded of its arguments. -/
theorem describes_apply {op : Operation} {ns : List Node} {xs : List Variable} {s t : Store}
    {x : Variable} (standard : op.IsStandard h.settings)
    (given : xs.map (·.provenance) = records ns)
    (run : (op.apply h xs).on s = (.ok x, t)) : (application op ns).Describes x := by
  obtain ⟨made, u, implemented, run⟩ := on_bind_eq_ok.1 run
  cases made with
  | none => cases run
  | some y =>
    obtain ⟨continues, output⟩ := standard.continues implemented
    have bare : y.provenance = none := continues.provenance
    simp only [bare, Option.isSome_none, Bool.false_eq_true, if_false] at run
    cases run
    exact ⟨continues.type, congrArg (fun r => some (Provenance.operation op.reference r)) given,
      continues.version, output⟩

mutual

theorem describes_execute : ∀ (n : Node) {s t : Store} {x : Variable},
    n.All (fun _ => True) (·.IsStandard h.settings) → (n.execute h).on s = (.ok x, t) →
      n.Describes x
  | .constant value type, s, t, x, _, run => by
    cases (Variable.on_constant h value type s).symm.trans run
    exact ⟨rfl, rfl, rfl, rfl⟩
  | .reference _ y, s, t, x, _, run => by
    obtain ⟨type, provenance, unwritten, output⟩ := Variable.described_of_copy run
    exact ⟨type, provenance, unwritten, output⟩
  | .application op arguments, s, t, x, ⟨standard, all⟩, run => by
    obtain ⟨xs, u, first, rest⟩ := on_bind_eq_ok.1 run
    exact describes_apply standard (records_executeAll arguments all first) rest

theorem records_executeAll : ∀ (ns : List Node) {s t : Store} {xs : List Variable},
    AllOf (fun _ => True) (·.IsStandard h.settings) ns →
      (executeAll h ns).on s = (.ok xs, t) → xs.map (·.provenance) = records ns
  | [], s, t, xs, _, run => by
    cases run
    rfl
  | n :: ns, s, t, xs, ⟨first, rest⟩, run => by
    obtain ⟨y, u, one, run⟩ := on_bind_eq_ok.1 run
    obtain ⟨ys, v, others, run⟩ := on_bind_eq_ok.1 run
    cases run
    rw [List.map_cons, records, (describes_execute n first one).provenance,
      records_executeAll ns rest others]

end

/-- An execution gives what the node describes, with its output on a module that its draft adds. -/
theorem execute_describes {n : Node} {s t : Store} {x : Variable}
    (standard : n.All (fun _ => True) (·.IsStandard h.settings))
    (run : (n.execute h).on s = (.ok x, t)) :
    n.Describes x ∧ ∃ o m, x.output = some o ∧ x.draft.contains o.module = true ∧
      Edit.addModule m ∈ x.draft.edits ∧ m.id = o.module := by
  have describes := describes_execute n standard run
  have own : x.Owned := proper_execute n run describes.unwritten
  obtain ⟨o, output⟩ := Option.isSome_iff_exists.1 describes.designated
  obtain ⟨m, added, same⟩ := own.draft.exists_addModule (own.output output)
  exact ⟨describes, o, m, output, own.output output, added, same⟩

/-- A whole number that was written as version 2. -/
def sampleWritten : Variable :=
  { type := ⟨"b", "Integer"⟩
    output := some ⟨1, "value"⟩
    provenance := some (.constant (.integer 7))
    version := some 2 }

/-- What writes that number to a new store. -/
def sampleWriting : Action (VersionId × Variable) := do
  let x ← Variable.constant .sample (.integer 7) ⟨"b", "Integer"⟩
  x.materialize .sample "a"

def sampleHistory : Store := (sampleWriting.on Store.new).2

/-- That number plus what a template makes of two others. -/
def sampleNode : Node :=
  .application (.arithmetic Host.sample.settings .add)
    [.reference "a" sampleWritten,
      .application .sampleOperation
        [.constant (.integer 1) ⟨"b", "Integer"⟩, .constant (.integer 2) ⟨"b", "Integer"⟩]]

theorem execute_describes_sample :
    (sampleWriting.on Store.new).1 = .ok (2, sampleWritten) ∧
      ∃ x t, (sampleNode.execute .sample).on sampleHistory = (.ok x, t) ∧ sampleNode.Describes x ∧
        ∃ o m, x.output = some o ∧ x.draft.contains o.module = true ∧
          Edit.addModule m ∈ x.draft.edits ∧ m.id = o.module := by
  have standard :
      sampleNode.All (fun _ => True) (·.IsStandard Host.sample.settings) :=
    ⟨.inl (List.mem_append_left _ (List.mem_map_of_mem (List.mem_cons_self ..))), trivial,
      ⟨.inr ⟨_, rfl⟩, trivial, trivial, trivial⟩, trivial⟩
  have ok : ((sampleNode.execute .sample).on sampleHistory).1.toOption.isSome = true := by
    decide +kernel
  cases run : (sampleNode.execute .sample).on sampleHistory with
  | mk r t =>
    rw [run] at ok
    cases r with
    | error e => cases ok
    | ok x => exact ⟨rfl, x, t, rfl, execute_describes standard run⟩

end Node

end Dataflow
