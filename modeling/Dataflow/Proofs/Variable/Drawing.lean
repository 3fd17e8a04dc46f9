import Mathlib.Data.List.Forall2
import Dataflow.Proofs.Draft.Copying
import Dataflow.Proofs.Variable.Built

/-! Variables that were not written yet, with the pipelines that their drafts draw. Several of them
can be taken over by one as long as they are apart, and identifiers of one store keep them apart. -/

namespace Dataflow.Variable

/-- A variable that was not written, whose draft draws a pipeline with the output in it. -/
structure Drawn (x : Variable) (g : Pipeline) : Prop where
  unwritten : x.version = none
  draws : x.draft.Draws g
  output : ∀ {o}, x.output = some o → g.modules.contains o.module = true

variable {x y z : Variable} {g g' : Pipeline} {s₀ s t u : Store}

theorem drawn_new (type : TypeName) : Drawn { type } .empty where
  unwritten := rfl
  draws := Draft.draws_empty
  output h := by cases h

theorem Drawn.addModule (hx : x.Drawn g) (hg : g.Minted s₀ s) {type : TypeName} {m : ModuleId}
    (run : (x.addModule type).on s = (.ok (m, y), t)) :
    m = s.nextModule ∧ t = (s.createModule type).2 ∧
      y = { x with draft := x.draft.addModule ⟨m, type, []⟩ } ∧
      y.Drawn (g.withModule ⟨m, type, []⟩) := by
  obtain ⟨rfl, rfl, rfl⟩ : m = s.nextModule ∧
      y = { x with draft := x.draft.addModule ⟨s.nextModule, type, []⟩ } ∧
      t = (s.createModule type).2 := by
    cases run
    exact ⟨rfl, rfl, rfl⟩
  refine ⟨rfl, rfl, rfl, hx.unwritten, hx.draws.addModule hg.next_module, fun {o} ho => ?_⟩
  rw [Pipeline.contains_withModule, hx.output ho, Bool.or_true]

theorem Drawn.setFunction (hx : x.Drawn g) {m : ModuleId} {port : String} {values : List String}
    (set : x.setFunction m port values = .ok y) :
    ∃ n, g.modules.get? m = some n ∧ y = { x with draft := y.draft } ∧
      y.Drawn { g with modules := g.modules.insert m (n.setFunction port values) } := by
  obtain ⟨d, drafted, rfl⟩ := setFunction_eq_ok set
  obtain ⟨n, found, drawn⟩ := hx.draws.setFunction drafted
  refine ⟨n, found, rfl, hx.unwritten, drawn, fun {o} ho => ?_⟩
  rw [OrderedMap.contains_insert, hx.output ho, Bool.or_true]

theorem Drawn.connect (hx : x.Drawn g) (hg : g.Minted s₀ s) {source destination : PortRef}
    (run : (x.connect source destination).on s = (.ok y, t)) :
    g.modules.contains source.module = true ∧ g.modules.contains destination.module = true ∧
      t = (s.createConnection source destination).2 ∧ y = { x with draft := y.draft } ∧
      y.Drawn (g.withConnection ⟨s.nextConnection, source, destination⟩) := by
  obtain ⟨⟨id, d⟩, u, connected, rest⟩ := Action.on_bind_eq_ok.1 run
  obtain ⟨own, own', rfl, rfl⟩ := Draft.connect_eq_ok connected
  cases rest
  refine ⟨(hx.draws.contains _).symm.trans own, (hx.draws.contains _).symm.trans own', rfl, rfl,
    hx.unwritten, ?_, fun ho => hx.output ho⟩
  exact hx.draws.connection (c := ⟨s.nextConnection, source, destination⟩) hg.next_connection
    own own'

theorem Drawn.selectOutput (hx : x.Drawn g) {m : ModuleId} {port : String}
    (select : x.selectOutput m port = .ok y) :
    g.modules.contains m = true ∧ y = { x with output := some ⟨m, port⟩ } ∧ y.Drawn g := by
  obtain ⟨own, rfl⟩ := selectOutput_eq_ok select
  rw [hx.draws.contains] at own
  refine ⟨own, rfl, hx.unwritten, hx.draws, fun ho => ?_⟩
  cases ho
  exact own

theorem Drawn.absorb (hx : x.Drawn g) (hy : y.Drawn g') (apart : g.Apart g') {o : PortRef}
    (absorb : x.absorb y = .ok (o, z)) :
    y.output = some o ∧ z = { x with draft := x.draft.append y.draft } ∧ z.Drawn (g.join g') := by
  obtain ⟨-, found, rfl⟩ := absorb_eq_ok absorb
  refine ⟨found, rfl, hx.unwritten, hx.draws.append hy.draws apart, fun {p} hp => ?_⟩
  rw [Pipeline.contains_join, hx.output hp, Bool.or_true]

theorem Drawn.hasOutput (hy : y.Drawn g) : y.HasOutput := fun x o z absorb => by
  obtain ⟨-, output, -⟩ := absorb_eq_ok absorb
  exact (hy.draws.contains _).trans (hy.output output)

def literalDraft (h : Host) (value : Constant) (type : TypeName) (m : ModuleId) : Draft :=
  ⟨[.addModule ⟨m, type, []⟩, .setFunction m h.settings.ports.value [value.text]], [m]⟩

/-- A literal is one module, with the text of the constant under the port of values. -/
theorem on_constant (h : Host) (value : Constant) (type : TypeName) (s : Store) :
    (constant h value type).on s =
      (.ok
        { type
          draft := literalDraft h value type s.nextModule
          output := some ⟨s.nextModule, h.settings.ports.value⟩
          provenance := some (.constant value) },
        (s.createModule type).2) := by
  have own : (Draft.empty.addModule ⟨s.nextModule, type, []⟩).contains s.nextModule = true := by
    simp
  have set : ({ type, draft := Draft.empty.addModule ⟨s.nextModule, type, []⟩ }
      : Variable).setFunction s.nextModule h.settings.ports.value [value.text] =
        .ok { type, draft := literalDraft h value type s.nextModule } := by
    simp only [Variable.setFunction, Draft.setFunction, own, if_true]
    rfl
  have select : ({ type, draft := literalDraft h value type s.nextModule }
      : Variable).selectOutput s.nextModule h.settings.ports.value =
        .ok { type, draft := literalDraft h value type s.nextModule
              output := some ⟨s.nextModule, h.settings.ports.value⟩ } := by
    have own : (literalDraft h value type s.nextModule).contains s.nextModule = true := own
    simp [Variable.selectOutput, own]
  have add : (({ type } : Variable).addModule type).on s =
      (.ok (s.nextModule,
        { type, draft := Draft.empty.addModule ⟨s.nextModule, type, []⟩ }),
        (s.createModule type).2) := rfl
  rw [constant, Action.on_bind_of_ok add]
  simp only [set]
  rw [Action.on_bind_of_ok (Action.on_ofExcept ..)]
  simp only [select]
  exact Action.on_bind_of_ok (Action.on_ofExcept ..) _

/-- The pipeline of a literal. -/
def literalPipeline (h : Host) (value : Constant) (type : TypeName) (m : ModuleId) : Pipeline :=
  Pipeline.empty.withModule ⟨m, type, [⟨h.settings.ports.value, [value.text]⟩]⟩

theorem drawn_constant {h : Host} {value : Constant} {type : TypeName}
    (run : (constant h value type).on s = (.ok x, t)) :
    t = (s.createModule type).2 ∧ x.output = some ⟨s.nextModule, h.settings.ports.value⟩ ∧
      x.type = type ∧ x.Drawn (literalPipeline h value type s.nextModule) ∧
      (literalPipeline h value type s.nextModule).Minted s t := by
  rw [on_constant] at run
  cases run
  have fresh : Pipeline.empty.modules.get? s.nextModule = none := rfl
  have edits : Pipeline.empty.applyAll (literalDraft h value type s.nextModule).edits =
      .ok (literalPipeline h value type s.nextModule) := by
    refine Pipeline.applyAll_cons.2 ⟨_, Pipeline.apply_addModule fresh, ?_⟩
    rw [Pipeline.applyAll_singleton, Pipeline.apply_setFunction _ _ (OrderedMap.get?_insert_self ..),
      OrderedMap.insert_insert]
    rfl
  have contains : ∀ id, (literalDraft h value type s.nextModule).contains id =
      (literalPipeline h value type s.nextModule).modules.contains id := fun id => by
    rw [literalPipeline, Pipeline.contains_withModule, Bool.eq_iff_iff]
    simp [literalDraft, Draft.contains, Pipeline.empty, OrderedMap.contains]
  refine ⟨rfl, rfl, rfl, ⟨rfl, ⟨edits, contains⟩, fun ho => ?_⟩, ?_⟩
  · cases ho
    exact (contains _).symm.trans (by simp [literalDraft, Draft.contains])
  · exact (Pipeline.minted_empty s s).withModule (.refl s) type _

end Dataflow.Variable
