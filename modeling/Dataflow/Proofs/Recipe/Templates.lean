import Dataflow.Proofs.Draft.Settling
import Dataflow.Proofs.Operation.Splicing
import Dataflow.Proofs.Recipe.Compiling
import Dataflow.Proofs.Variable.Writing

/-! The modules of templates as they are committed, by a plot or by an operation. The values of their
functions are set anew, one after another, so a function that a file gives twice is left once. -/

namespace Dataflow

open Dataflow.Action

namespace Recipe

open Draft

variable {h : Host} {n : ModuleId} {d e : Draft} {s t : Store}

theorem continues_copyTemplate {input : TypeName} {template : Pipeline} {ids : Renaming}
    {sockets sockets' : Sockets} {cs : List Connection}
    (run : (copyTemplate input template ids d sockets cs).on s = (.ok (sockets', e), t)) :
    Continues n d e := by
  induction cs generalizing d s sockets with
  | nil =>
    cases run
    exact .refl n _
  | cons c cs ih =>
    unfold copyTemplate at run
    split at run
    · cases run
    · split at run
      · split at run
        · cases run
        · cases run
        · exact ih run
      · obtain ⟨⟨id, d'⟩, u, first, rest⟩ := on_bind_eq_ok.1 run
        exact (continues_copyConnection first).trans (ih rest)

theorem continues_feedAll {source : PortRef} {targets : List PortRef}
    (run : (feedAll source d targets).on s = (.ok e, t)) : Continues n d e := by
  induction targets generalizing d s with
  | nil =>
    cases run
    exact .refl n _
  | cons target rest ih =>
    obtain ⟨⟨id, d'⟩, u, first, rest⟩ := on_bind_eq_ok.1 run
    exact (continues_connect first).trans (ih rest)

theorem continues_copyVariable {output : ModuleId} {ids : Renaming} {targets : List PortRef}
    {cs : List Connection} (run : (copyVariable output ids targets d cs).on s = (.ok e, t)) :
    Continues n d e := by
  induction cs generalizing d s with
  | nil =>
    cases run
    exact .refl n _
  | cons c cs ih =>
    unfold copyVariable at run
    split at run
    · split at run
      · cases run
      · obtain ⟨d', u, first, rest⟩ := on_bind_eq_ok.1 run
        exact (continues_feedAll first).trans (ih rest)
    · obtain ⟨⟨id, d'⟩, u, first, rest⟩ := on_bind_eq_ok.1 run
      exact (continues_copyConnection first).trans (ih rest)

theorem continues_splice {output : ModuleId} {sockets : Sockets} {port : String} {x : Variable}
    (later : n ≤ s.nextModule) (run : (splice output sockets d port x).on s = (.ok e, t)) :
    Continues n d e := by
  obtain ⟨v, -, run⟩ := on_ofExcept_bind_eq_ok.1 run
  obtain ⟨p, u, made, run⟩ := on_bind_eq_ok.1 run
  obtain ⟨-, rfl⟩ := on_query_eq_ok.1 made
  obtain ⟨⟨ids, d'⟩, u, copied, rest⟩ := on_bind_eq_ok.1 run
  exact (continues_copyModules later copied).trans (continues_copyVariable rest)

theorem continues_spliceAll {output : ModuleId} {sockets : Sockets}
    {bound : List (String × Variable)} (later : n ≤ s.nextModule)
    (run : (spliceAll output sockets d bound).on s = (.ok e, t)) : Continues n d e := by
  induction bound generalizing d s with
  | nil =>
    cases run
    exact .refl n _
  | cons b bound ih =>
    obtain ⟨d', u, first, rest⟩ := on_bind_eq_ok.1 run
    have mints := mints_of_run (minting_splice output sockets d b.1 b.2) first
    exact (continues_splice later first).trans
      (ih (Nat.le_trans later mints.precedes.module) rest)

end Recipe

/-- The modules of a template that a plot copies. -/
def Pipeline.besides (p : Pipeline) (input : TypeName) : List Module :=
  p.modules.values.filter fun m => m.type != input

/-- A pipeline has a copy of each module at a place of its own, with the functions set one by one. -/
structure Pipeline.HoldsCopies (p : Pipeline) (place : ModuleId → ModuleId) (ms : List Module) :
    Prop where
  distinct : (ms.map fun m => place m.id).Nodup
  settles : ∀ m ∈ ms, ∃ copy, p.modules.get? (place m.id) = some copy ∧ m.Settles copy

theorem Pipeline.HoldsCopies.of_applyAll {p q : Pipeline} {place : ModuleId → ModuleId}
    {ms : List Module} {before after : List Edit} (distinct : (ms.map fun m => place m.id).Nodup)
    (spared : ∀ m ∈ ms, ∀ e ∈ after, ¬ e.Sets (place m.id))
    (h : p.applyAll (before ++ ms.flatMap (fun m => m.copyEdits (place m.id)) ++ after) = .ok q) :
    q.HoldsCopies place ms :=
  ⟨distinct, fun m hm => ⟨_, get?_applyAll_copies distinct spared h m hm, m.settles_copied _⟩⟩

variable {h : Host} {template : Pipeline} {s t : Store}

/-- The edits of a recipe start with copies of the template's modules, and set no function of these
again. -/
theorem Recipe.edits_of_draft {r : Recipe} {input : TypeName} {d : Draft}
    (typed : h.basic "InputPort" = .ok input) (hs : s.Valid)
    (closed : r.plot.template.WellFormed) (run : (r.draft h).on s = (.ok d, t)) :
    ∃ (place : ModuleId → ModuleId) (after : List Edit),
      ((r.plot.template.besides input).map fun m => place m.id).Nodup ∧
      d.edits = (r.plot.template.besides input).flatMap (fun m => m.copyEdits (place m.id)) ++ after ∧
      ∀ m ∈ r.plot.template.besides input, ∀ e ∈ after, ¬ e.Sets (place m.id) := by
  have distinct : ((r.plot.template.besides input).map Module.id).Nodup :=
    closed.nodup_ids.sublist (List.filter_sublist.map _)
  obtain ⟨ids, e, copied, edits, -, numbers, -⟩ := Draft.empty.on_copyModules ∅ s distinct
  have copied : (Draft.empty.copy r.plot.template fun m => m.type != input).on s = _ := copied
  rw [draft, typed, on_bind_of_ok (on_ofExcept ..), on_bind_of_ok copied] at run
  obtain ⟨⟨sockets, d'⟩, u, connected, run⟩ := on_bind_eq_ok.1 run
  have mints := mints_of_run (minting_copyTemplate _ _ _ _ _ _) connected
  have more : d'.Continues (s.nextModule + (r.plot.template.besides input).length) d := by
    dsimp only at run
    split at run
    · cases run
      exact .refl _ _
    · obtain ⟨root, u', asked, rest⟩ := on_bind_eq_ok.1 run
      have hu := (hs.mints ⟨_, 0, rfl⟩).mints mints
      have prepares := Host.preparing_variablesRoot.prepares hu asked
      exact continues_spliceAll (Nat.le_trans mints.precedes.module prepares.precedes.module) rest
  obtain ⟨after, continued, spared⟩ := (continues_copyTemplate connected).trans more
  refine ⟨ids.at, after, Renaming.nodup_at numbers, ?_, fun m hm => spared _ ?_⟩
  · rw [continued, edits]
    rfl
  · exact (Renaming.get?_of_numbers numbers hm).2.2

/-- What an operation with a template gives has the edits of its arguments first, then copies of the
template's modules, and no edit that sets a function of these again. -/
theorem Operation.edits_of_applyTemplate {op : Operation} {types : Placeholders}
    {arguments : List Variable} {x : Variable} (input : h.basic "InputPort" = .ok types.input)
    (output : h.basic "OutputPort" = .ok types.output) (closed : template.WellFormed)
    (run : (op.applyTemplate h template arguments).on s = (.ok x, t)) :
    ∃ (place : ModuleId → ModuleId) (before after : List Edit),
      ((types.modules template).map fun m => place m.id).Nodup ∧
      x.draft.edits =
        before ++ (types.modules template).flatMap (fun m => m.copyEdits (place m.id)) ++ after ∧
      ∀ m ∈ types.modules template, ∀ e ∈ after, ¬ e.Sets (place m.id) := by
  have distinct : ((types.modules template).map Module.id).Nodup :=
    closed.nodup_ids.sublist (List.filter_sublist.map _)
  rw [applyTemplate, input, on_bind_of_ok (on_ofExcept ..), output,
    on_bind_of_ok (on_ofExcept ..)] at run
  obtain ⟨⟨inputs, y⟩, -, run⟩ := on_ofExcept_bind_eq_ok.1 run
  obtain ⟨ids, d, copied, edits, -, numbers, -⟩ := y.draft.on_copyModules ∅ s distinct
  have copied : (y.draft.copy template fun m => m.type != types.input && m.type != types.output).on
      s = _ := copied
  rw [on_bind_of_ok copied] at run
  obtain ⟨⟨z, found⟩, u, connected, run⟩ := on_bind_eq_ok.1 run
  obtain ⟨after, continued, spared⟩ : d.Continues (s.nextModule +
      (types.modules template).length) z.draft := by
    refine copyTemplate_induction (fun _ z _ => d.Continues (s.nextModule +
      (types.modules template).length) z.draft) (fun kept connect => ?_) (fun kept _ => kept)
      (Draft.Continues.refl _ d) connected
    obtain ⟨⟨id, e⟩, v, first, rest⟩ := on_bind_eq_ok.1 connect
    cases rest
    exact kept.trans (Draft.continues_connect first)
  cases found with
  | none => cases run
  | some port =>
    cases run
    refine ⟨ids.at, y.draft.edits, after, Renaming.nodup_at numbers, ?_, fun m hm => spared _ ?_⟩
    · rw [continued, edits]
    · exact (Renaming.get?_of_numbers numbers hm).2.2

namespace Pipeline

/-- The copies of a template's modules as they are committed, by a plot that was compiled or by a
variable that took over what an operation gave and then sets no function of the copies: each has the
functions that are left when those of the original are set one by one. So it has them all, in their
order and with their values, just if the original gives none twice. -/
theorem committed_copies {files : Files} {path : String}
    (loaded : Pipeline.load files path = .ok template) {types : Operation.Placeholders}
    (input : h.basic "InputPort" = .ok types.input)
    (output : h.basic "OutputPort" = .ok types.output) (hs : s.Valid) :
    (∀ (r : Recipe) v t, r.plot.template = template → (r.compile h).on s = (.ok v, t) →
      ∃ p place, t.pipeline v = .ok p ∧ p.HoldsCopies place (template.besides types.input)) ∧
    ∀ (op : Operation) arguments x t, (op.applyTemplate h template arguments).on s = (.ok x, t) →
      ∃ place, ∀ (y z : Variable) before after u u' name v,
        y.draft.edits = before ++ x.draft.edits ++ after →
        (∀ m ∈ types.modules template, ∀ e ∈ after, ¬ e.Sets (place m.id)) →
        u.Valid → (y.materialize h name).on u = (.ok (v, z), u') →
        ∃ p, u'.pipeline v = .ok p ∧ p.HoldsCopies place (types.modules template) := by
  have closed := wellFormed_of_load loaded
  refine ⟨fun r v t same run => ?_, fun op arguments x t run => ?_⟩
  · subst same
    obtain ⟨u, _, -, ⟨e, failed⟩ | ⟨d, p, valid, drafted, applies, compiled⟩⟩ :=
      Recipe.compile_cases (h := h) hs r
    · cases failed.symm.trans run
    · cases compiled.symm.trans run
      obtain ⟨place, after, distinct, edits, spared⟩ :=
        Recipe.edits_of_draft input hs closed drafted
      rw [edits, ← List.nil_append (List.flatMap ..)] at applies
      exact ⟨p, place, Store.pipeline_eq_ok_iff.2 ⟨_, OrderedMap.get?_insert_self .., rfl, rfl⟩,
        .of_applyAll distinct spared applies⟩
  · obtain ⟨place, first, last, distinct, edits, spared⟩ :=
      Operation.edits_of_applyTemplate input output closed run
    refine ⟨place, fun y z before after u u' name v taken kept hu written => ?_⟩
    obtain ⟨e, failed⟩ | ⟨o, root, w, base, -, -, -, -, ⟨e, fault, -, failed⟩ |
      ⟨p, applies, wrote⟩⟩ := Variable.materialize_cases h name hu y
    · cases failed.symm.trans written
    · cases failed.symm.trans written
    · cases wrote.symm.trans written
      have whole : y.edits h root.module o w.nextConnection = (before ++ first) ++
          (types.modules template).flatMap (fun m => m.copyEdits (place m.id)) ++ (last ++ after ++
            [.addConnection (Variable.feeding h root.module o w.nextConnection)]) := by
        simp only [Variable.edits, taken, edits, List.append_assoc]
      rw [whole] at applies
      refine ⟨p, Store.pipeline_eq_ok_iff.2 ⟨_, OrderedMap.get?_insert_self .., rfl, rfl⟩,
        .of_applyAll distinct (fun m hm e listed => ?_) applies⟩
      rw [List.mem_append, List.mem_append, List.mem_singleton] at listed
      obtain (listed | listed) | rfl := listed
      · exact spared m hm e listed
      · exact kept m hm e listed
      · exact id

open Operation (samplePlaceholders)

/-- A file with a template that gives one function twice. -/
def repeatedFile : Files :=
  ⟨[(["twice"], .file
    "[[[1,[\"b\",\"List\"],[[\"f\",[\"a\"]],[\"f\",[\"c\"]]]],[2,[\"b\",\"OutputPort\"],[]]],[[1,[1,\"value\"],[2,\"pipe\"]]]]")], []⟩

/-- A list and an output module, with what is set in the list. -/
def withFunctions (functions : List Module.Function) : Pipeline :=
  (ofParts [⟨1, ⟨"b", "List"⟩, functions⟩, ⟨2, ⟨"b", "OutputPort"⟩, []⟩]
    [⟨1, ⟨1, "value"⟩, ⟨2, "pipe"⟩⟩]).toOption.getD .empty

def repeated : Pipeline := withFunctions [⟨"f", ["a"]⟩, ⟨"f", ["c"]⟩]

theorem load_repeatedFile : load repeatedFile "twice" = .ok repeated := by decide +kernel

/-- A plot with that template and no ports, and nothing bound. -/
def repeatedRecipe : Recipe := ⟨⟨"plot", none, repeated, []⟩, ∅⟩

def repeatedOperation : Operation := ⟨"op", "p", [], ⟨"b", "List"⟩, true, .template repeated⟩

theorem committed_copies_repeated :
    (∃ v t p place, (repeatedRecipe.compile Host.sample).on .new = (.ok v, t) ∧
      t.pipeline v = .ok p ∧ p.HoldsCopies place (repeated.besides ⟨"b", "InputPort"⟩)) ∧
    ∃ x t v z u p place, (repeatedOperation.applyTemplate Host.sample repeated []).on .new =
        (.ok x, t) ∧ (x.materialize Host.sample "x").on t = (.ok (v, z), u) ∧
      u.pipeline v = .ok p ∧
      p.HoldsCopies place
        (samplePlaceholders.modules repeated) := by
  have input : Host.sample.basic "InputPort" = .ok samplePlaceholders.input := rfl
  have output : Host.sample.basic "OutputPort" = .ok samplePlaceholders.output := rfl
  obtain ⟨plots, operations⟩ := committed_copies load_repeatedFile input output Store.valid_new
  refine ⟨?_, ?_⟩
  · have ok : ((repeatedRecipe.compile Host.sample).on .new).1 = .ok 1 := by decide +kernel
    obtain ⟨p, place, holds⟩ := plots repeatedRecipe 1 _ rfl (Prod.ext ok rfl)
    exact ⟨1, _, p, place, Prod.ext ok rfl, holds⟩
  · have ok : (((repeatedOperation.applyTemplate Host.sample repeated [] >>= fun x =>
        x.materialize Host.sample "x").on .new).1.toOption.map Prod.fst) = some 2 := by
      decide +kernel
    cases run : (repeatedOperation.applyTemplate Host.sample repeated [] >>= fun x =>
        x.materialize Host.sample "x").on .new with
    | mk r u =>
      rw [run] at ok
      cases r with
      | error e => cases ok
      | ok result =>
        obtain ⟨v, z⟩ := result
        obtain ⟨x, t, applied, wrote⟩ := on_bind_eq_ok.1 run
        have valid := Store.valid_new.mints
          (mints_of_run (Operation.minting_applyTemplate _ _ _ _) applied)
        obtain ⟨place, committed⟩ := operations repeatedOperation [] x t applied
        obtain ⟨p, holds⟩ := committed x z [] [] t u "x" v (by simp) (by simp) valid wrote
        exact ⟨x, t, v, z, u, p, place, applied, wrote, holds⟩

/-- In a plot of that template, no module has the functions of the list, or the same value. -/
theorem bindings_lost :
    load repeatedFile "twice" = .ok repeated ∧
      ∃ p, ((repeatedRecipe.compile Host.sample).on .new).1 = .ok 1 ∧
        ((repeatedRecipe.compile Host.sample).on .new).2.pipeline 1 = .ok p ∧
        ∃ m ∈ repeated.modules.values, m.type ≠ ⟨"b", "InputPort"⟩ ∧
          ∀ copy ∈ p.modules.values,
            copy.functions ≠ m.functions ∧ copy.value? "f" ≠ m.value? "f" := by
  refine ⟨load_repeatedFile, withFunctions [⟨"f", ["c"]⟩], by decide +kernel, by decide +kernel,
    ⟨1, ⟨"b", "List"⟩, [⟨"f", ["a"]⟩, ⟨"f", ["c"]⟩]⟩, by decide +kernel, by decide, ?_⟩
  decide +kernel

end Pipeline

end Dataflow
