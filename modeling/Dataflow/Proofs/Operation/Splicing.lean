import Mathlib.Tactic.Choose
import Dataflow.Proofs.Draft.Edits
import Dataflow.Proofs.Draft.Identifiers
import Dataflow.Proofs.Operation.Template

/-! Applying a template is exact. It is said which templates can be put between arguments, and what
their result is then: the arguments, copies of the template's modules that do not stand for something
else, and one connection for each that does not lead to the output. -/

namespace Dataflow

/-- The connection ends in a module of the type. -/
def Pipeline.endsIn (p : Pipeline) (type : TypeName) (c : Connection) : Bool :=
  (p.modules.get? c.destination.module).any fun m => m.type == type

/-- Input modules that feed something are named after one of some parameters, nothing leads out of an
output module or into an input module, and one connection leads to the output. -/
structure Pipeline.Spliceable (types : Operation.Placeholders) (names : List String) (p : Pipeline) :
    Prop where
  named : ∀ c ∈ p.connections.values, ∀ m, p.modules.get? c.source.module = some m →
    m.type = types.input → ∃ name ∈ names, m.value? "name" = some name
  unled : ∀ c ∈ p.connections.values, ∀ m, p.modules.get? c.source.module = some m →
    m.type ≠ types.output
  unfed : ∀ c ∈ p.connections.values, ∀ m, p.modules.get? c.destination.module = some m →
    m.type ≠ types.input
  single : ∃ c, p.connections.values.filter (p.endsIn types.output) = [c]

/-- An argument that was not written yet, with its output on a module of its own. Its identifiers are
those of the store. -/
structure Variable.IsArgument (s : Store) (x : Variable) : Prop where
  unwritten : x.version = none
  designated : ∃ o, x.output = some o ∧ x.draft.contains o.module = true
  issued : x.ids ≤ s.issued

namespace Operation

/-- The modules of a template that are copied. -/
def Placeholders.modules (types : Placeholders) (p : Pipeline) : List Module :=
  p.modules.values.filter fun m => m.type != types.input && m.type != types.output

/-- The connections of a template that become connections of the result. -/
def Placeholders.connections (types : Placeholders) (p : Pipeline) : List Connection :=
  p.connections.values.filter fun c => !p.endsIn types.output c

/-- The result of a template. A connection starts at the output of the argument whose parameter the
input module is named after, or else on the copy of the module that it left. -/
structure Spliced (op : Operation) (types : Placeholders) (template : Pipeline)
    (arguments : List Variable) (s : Store) (place : ModuleId → ModuleId)
    (feed : Connection → PortRef) (x : Variable) (t : Store) : Prop where
  numbers : (types.modules template).map (fun m => place m.id) =
    List.range' s.nextModule (types.modules template).length
  argument : ∀ c ∈ template.connections.values, ∀ m,
    template.modules.get? c.source.module = some m → m.type = types.input →
      ∀ p y, (p, y) ∈ op.parameters.zip arguments → m.value? "name" = some p.name →
        y.output = some (feed c)
  copy : ∀ c ∈ template.connections.values, ∀ m,
    template.modules.get? c.source.module = some m → m.type ≠ types.input →
      feed c = c.source.moved place
  edits : x.draft.edits = arguments.flatMap (·.draft.edits) ++
    (types.modules template).flatMap (fun m => m.copyEdits (place m.id)) ++
      Wire.edits s.nextConnection
        ((types.connections template).map fun c => ⟨feed c, c.destination.moved place⟩)
  contains : ∀ id, x.draft.contains id = true ↔
    (∃ y ∈ arguments, y.draft.contains id = true) ∨ ∃ m ∈ types.modules template, place m.id = id
  output : ∃ c ∈ template.connections.values,
    template.endsIn types.output c = true ∧ x.output = some (feed c)
  type : x.type = op.returns
  unwritten : x.version = none
  unrecorded : x.provenance = none
  fresh : ∀ y ∈ arguments, Disjoint y.ids (s.given t)
  store : t = { s with
    nextModule := s.nextModule + (types.modules template).length
    nextConnection := s.nextConnection + (types.connections template).length }

variable {h : Host} {op : Operation} {s t : Store} {x y : Variable} {types : Placeholders}
  {template : Pipeline} {ids : Renaming} {inputs : List (String × PortRef)}

/-- Arguments with outputs are taken over one after another. -/
theorem exists_absorbNamed (x : Variable) {given : List (Parameter × Variable)}
    (ready : ∀ a ∈ given, a.2.version = none ∧ ∃ o, a.2.output = some o) :
    ∃ inputs d, absorbNamed x given = .ok (inputs, { x with draft := d }) ∧
      d.edits = x.draft.edits ++ given.flatMap (·.2.draft.edits) ∧
      (∀ id, d.contains id = true ↔
        x.draft.contains id = true ∨ ∃ a ∈ given, a.2.draft.contains id = true) ∧
      inputs.map (fun e => (e.1, some e.2)) = given.map fun a => (a.1.name, a.2.output) := by
  induction given generalizing x with
  | nil => exact ⟨[], x.draft, rfl, by simp, by simp, rfl⟩
  | cons a rest ih =>
    obtain ⟨⟨unwritten, o, output⟩, others⟩ := List.forall_mem_cons.1 ready
    have absorb : x.absorb a.2 = .ok (o, { x with draft := x.draft.append a.2.draft }) := by
      simp [Variable.absorb, Variable.isMaterialized, unwritten, output]
    obtain ⟨inputs, d, taken, edits, contains, outputs⟩ :=
      ih { x with draft := x.draft.append a.2.draft } others
    refine ⟨(a.1.name, o) :: inputs, d, ?_, ?_, fun id => ?_, ?_⟩
    · rw [absorbNamed, absorb]
      show (absorbNamed _ rest >>= fun r => pure ((a.1.name, o) :: r.1, r.2)) = _
      rw [taken]
      rfl
    · rw [edits, List.flatMap_cons, ← List.append_assoc]
      rfl
    · rw [contains, Draft.contains_append, Bool.or_eq_true, List.exists_mem_cons_iff,
        or_comm (a := a.2.draft.contains id = true), or_assoc]
    · rw [List.map_cons, List.map_cons, outputs, output]

private theorem find?_reverse_eq_some_iff {inputs : List (String × PortRef)}
    (distinct : (inputs.map Prod.fst).Nodup) {name : String} {e : String × PortRef} :
    (inputs.reverse.find? fun e => e.1 == name) = some e ↔ e ∈ inputs ∧ e.1 = name := by
  constructor
  · intro found
    exact ⟨List.mem_reverse.1 (List.mem_of_find?_eq_some found),
      by simpa using List.find?_some found⟩
  · rintro ⟨listed, rfl⟩
    cases found : inputs.reverse.find? fun e' => e'.1 == e.1 with
    | none => simpa using List.find?_eq_none.1 found e (List.mem_reverse.2 listed)
    | some e' =>
      have listed' := List.mem_reverse.1 (List.mem_of_find?_eq_some found)
      have same : e'.1 = e.1 := by simpa using List.find?_some found
      rw [List.inj_on_of_nodup_map distinct listed' listed same]

theorem inputOf_eq_ok_iff (distinct : (inputs.map Prod.fst).Nodup) {m : Module} {feed : PortRef} :
    op.inputOf inputs m = .ok feed ↔
      ∃ name, m.value? "name" = some name ∧ (name, feed) ∈ inputs := by
  unfold inputOf
  cases m.value? "name" with
  | none => simp
  | some name =>
    have find {e : String × PortRef} : (inputs.reverse.find? fun e => e.1 == name) = some e ↔
        e ∈ inputs ∧ e.1 = name := find?_reverse_eq_some_iff distinct
    dsimp only
    cases found : inputs.reverse.find? fun e => e.1 == name with
    | none =>
      refine ⟨nofun, ?_⟩
      rintro ⟨_, ⟨⟩, listed⟩
      cases found.symm.trans (find.2 ⟨listed, rfl⟩)
    | some e =>
      obtain ⟨listed, rfl⟩ := find.1 found
      refine ⟨?_, ?_⟩
      · rintro ⟨⟩
        exact ⟨_, rfl, listed⟩
      · rintro ⟨_, ⟨⟩, listed'⟩
        rw [List.inj_on_of_nodup_map distinct listed listed' rfl]

theorem feedOf_eq_ok_iff (distinct : (inputs.map Prod.fst).Nodup) {source : Module} {port : String}
    {feed : PortRef} :
    op.feedOf types ids inputs source port = .ok feed ↔
      source.type = types.input ∧
          (∃ name, source.value? "name" = some name ∧ (name, feed) ∈ inputs) ∨
        source.type ≠ types.input ∧ ∃ j, ids.get? source.id = some j ∧ feed = ⟨j, port⟩ := by
  unfold feedOf
  split
  · next isInput => simp [isInput, inputOf_eq_ok_iff distinct]
  · next notInput =>
    have copy : ∀ j, ids.get? source.id = some j ↔ op.copied ids source.id = .ok j :=
      fun j => copied_eq_ok_iff.symm
    simp only [copy]
    cases op.copied ids source.id with
    | error e => simp [notInput, Except.map]
    | ok j => simp [notInput, Except.map, eq_comm (a := feed)]

/-- The connection can be carried over: it starts and ends at ports of the draft, or leads to the
output. -/
structure Carries (op : Operation) (types : Placeholders) (template : Pipeline) (ids : Renaming)
    (inputs : List (String × PortRef)) (d : Draft) (c : Connection) (feed : PortRef) : Prop where
  source : ∃ m, template.modules.get? c.source.module = some m ∧
    op.feedOf types ids inputs m c.source.port = .ok feed
  own : d.contains feed.module = true
  destination : template.endsIn types.output c = true ∨
    ∃ n k, template.modules.get? c.destination.module = some n ∧ n.type ≠ types.output ∧
      ids.get? n.id = some k ∧ n.id = c.destination.module ∧ d.contains k = true

theorem endsIn_iff {p : Pipeline} {type : TypeName} {c : Connection} {n : Module}
    (found : p.modules.get? c.destination.module = some n) :
    p.endsIn type c = true ↔ n.type = type := by
  simp [Pipeline.endsIn, found]

theorem endsIn_eq_true {p : Pipeline} {type : TypeName} {c : Connection}
    (ends : p.endsIn type c = true) :
    ∃ n, p.modules.get? c.destination.module = some n ∧ n.type = type := by
  simpa [Pipeline.endsIn, Option.any_eq_true] using ends

/-- Connections that can be carried over are, if at most one of them leads to the output. -/
theorem on_copyTemplate {cs : List Connection} {feed : Connection → PortRef}
    (x : Variable) (output : Option PortRef) (s : Store)
    (carries : ∀ c ∈ cs, op.Carries types template ids inputs x.draft c (feed c))
    (single : (output.toList ++ (cs.filter (template.endsIn types.output)).map feed).length ≤ 1) :
    (op.copyTemplate template types ids inputs x output cs).on s =
      (.ok ({ x with draft :=
          ⟨x.draft.edits ++ Wire.edits s.nextConnection
            ((cs.filter fun c => !template.endsIn types.output c).map
              fun c => ⟨feed c, c.destination.moved ids.at⟩), x.draft.modules⟩ },
        (output.toList ++ (cs.filter (template.endsIn types.output)).map feed).head?),
      { s with nextConnection := s.nextConnection +
          (cs.filter fun c => !template.endsIn types.output c).length }) := by
  induction cs generalizing x output s with
  | nil =>
    rw [copyTemplate]
    cases output <;> simp [Wire.edits]
  | cons c cs ih =>
    obtain ⟨⟨⟨m, source, fed⟩, own, destination⟩, others⟩ := List.forall_mem_cons.1 carries
    rw [copyTemplate_cons, moduleOf_eq_ok_iff.2 source,
      Action.on_bind_of_ok (Action.on_ofExcept ..)]
    obtain ends | ⟨n, k, target, inner, copy, same, own'⟩ := destination
    · -- the output is told, for the first time
      obtain ⟨n, target, isOutput⟩ := endsIn_eq_true ends
      rw [List.filter_cons_of_pos ends, List.map_cons] at single ⊢
      rw [List.filter_cons_of_neg (by simp [ends])]
      rw [moduleOf_eq_ok_iff.2 target, Action.on_bind_of_ok (Action.on_ofExcept ..), fed,
        Action.on_bind_of_ok (Action.on_ofExcept ..), if_pos isOutput]
      cases output with
      | some port => simp at single
      | none =>
        rw [if_neg (by simp)]
        exact ih x (some (feed c)) s others single
    · -- the connection is carried over
      have notEnds : ¬ template.endsIn types.output c = true := fun ends =>
        inner ((endsIn_iff target).1 ends)
      rw [List.filter_cons_of_neg notEnds] at single ⊢
      rw [List.filter_cons_of_pos (by simp [notEnds])]
      rw [moduleOf_eq_ok_iff.2 target, Action.on_bind_of_ok (Action.on_ofExcept ..), fed,
        Action.on_bind_of_ok (Action.on_ofExcept ..), if_neg inner, copied_eq_ok_iff.2 copy,
        Action.on_bind_of_ok (Action.on_ofExcept ..)]
      have connected : (x.connect (feed c) ⟨k, c.destination.port⟩).on s =
          (.ok { x with
              draft := x.draft.push
                (.addConnection ⟨s.nextConnection, feed c, ⟨k, c.destination.port⟩⟩) },
            (s.createConnection (feed c) ⟨k, c.destination.port⟩).2) := by
        rw [Variable.connect, Action.on_bind_of_ok (Draft.on_connect own own')]
        rfl
      rw [Action.on_bind_of_ok connected]
      refine (ih _ output _ (fun c hc => ?_) single).trans ?_
      · exact ⟨(others c hc).source, (others c hc).own, (others c hc).destination⟩
      have moved : c.destination.moved ids.at = ⟨k, c.destination.port⟩ := by
        rw [PortRef.moved, Renaming.at_of_get? (same ▸ copy)]
      simp only [List.map_cons, Wire.edits_cons, moved, Draft.push, List.append_assoc,
        List.singleton_append, List.length_cons, Store.createConnection]
      simp only [Nat.add_assoc, Nat.add_comm 1]

theorem of_copyTemplate {cs : List Connection} {output found : Option PortRef}
    (run : (op.copyTemplate template types ids inputs x output cs).on s = (.ok (y, found), t)) :
    (∀ c ∈ cs, (∃ m feed, template.modules.get? c.source.module = some m ∧
        op.feedOf types ids inputs m c.source.port = .ok feed) ∧
      ∀ n, template.modules.get? c.destination.module = some n →
        n.type = types.output ∨ ∃ k, ids.get? n.id = some k) ∧
    output.toList.length + (cs.filter (template.endsIn types.output)).length =
      found.toList.length := by
  induction cs generalizing x output s with
  | nil =>
    cases run
    simp
  | cons c cs ih =>
    rw [copyTemplate_cons] at run
    obtain ⟨m, source, run⟩ := Action.on_ofExcept_bind_eq_ok.1 run
    obtain ⟨n, target, run⟩ := Action.on_ofExcept_bind_eq_ok.1 run
    obtain ⟨feed, fed, run⟩ := Action.on_ofExcept_bind_eq_ok.1 run
    rw [moduleOf_eq_ok_iff] at source target
    rw [List.forall_mem_cons]
    split at run
    · next isOutput =>
      rw [List.filter_cons_of_pos ((endsIn_iff target).2 isOutput)]
      cases output with
      | some port => cases run
      | none =>
        obtain ⟨others, count⟩ := ih run
        refine ⟨⟨⟨⟨m, feed, source, fed⟩, fun n' target' => ?_⟩, others⟩, ?_⟩
        · rw [target] at target'
          cases target'
          exact .inl isOutput
        · simpa [Nat.add_comm] using count
    · next inner =>
      obtain ⟨k, copy, run⟩ := Action.on_ofExcept_bind_eq_ok.1 run
      obtain ⟨z, v, -, run⟩ := Action.on_bind_eq_ok.1 run
      obtain ⟨others, count⟩ := ih run
      rw [List.filter_cons_of_neg fun ends => inner ((endsIn_iff target).1 ends)]
      refine ⟨⟨⟨⟨m, feed, source, fed⟩, fun n' target' => ?_⟩, others⟩, count⟩
      rw [target] at target'
      cases target'
      exact .inr ⟨k, copied_eq_ok_iff.1 copy⟩

/-- The arguments were taken over and the template's modules copied, so that only its connections are
left to copy. -/
structure Prepared (op : Operation) (types : Placeholders) (template : Pipeline)
    (arguments : List Variable) (s : Store) (inputs : List (String × PortRef)) (ids : Renaming)
    (x : Variable) : Prop where
  new : x = { type := op.returns, draft := x.draft }
  edits : x.draft.edits = arguments.flatMap (·.draft.edits) ++
    (types.modules template).flatMap fun m => m.copyEdits (ids.at m.id)
  contains : ∀ id, x.draft.contains id = true ↔
    (∃ y ∈ arguments, y.draft.contains id = true) ∨ ∃ m ∈ types.modules template, ids.at m.id = id
  inputs : inputs.map (fun e => (e.1, some e.2)) =
    (op.parameters.zip arguments).map fun a => (a.1.name, a.2.output)
  numbers : (types.modules template).map (fun m => ids.get? m.id) =
    (List.range' s.nextModule (types.modules template).length).map some
  only : ∀ k j, ids.get? k = some j → ∃ m ∈ types.modules template, m.id = k

section

variable {arguments : List Variable}

theorem exists_prepared (input : h.basic "InputPort" = .ok types.input)
    (output : h.basic "OutputPort" = .ok types.output) (closed : template.WellFormed)
    (fitting : arguments.length = op.parameters.length)
    (given : ∀ y ∈ arguments, y.IsArgument s) :
    ∃ inputs ids x, op.Prepared types template arguments s inputs ids x ∧
      (op.applyTemplate h template arguments).on s = (do
        let (x, found) ← op.copyTemplate template types ids inputs x none
          template.connections.values
        match found with
        | some port => return { x with output := some port }
        | none => throw (.implementation op.name .noOutput) : Action Variable).on
          { s with nextModule := s.nextModule + (types.modules template).length } := by
  -- there are as many arguments as parameters, so pairing leaves none out
  have all : (op.parameters.zip arguments).map Prod.snd = arguments :=
    List.map_snd_zip (Nat.le_of_eq fitting)
  have ready : ∀ a ∈ op.parameters.zip arguments,
      a.2.version = none ∧ ∃ o, a.2.output = some o := fun a ha => by
    have fit := given a.2 (List.of_mem_zip ha).2
    exact ⟨fit.unwritten, fit.designated.imp fun o ho => ho.1⟩
  obtain ⟨inputs, d, taken, edits, contains, outputs⟩ :=
    exists_absorbNamed { type := op.returns } ready
  have distinct : ((types.modules template).map Module.id).Nodup :=
    closed.nodup_ids.sublist (List.filter_sublist.map _)
  obtain ⟨ids, e, copied, copies, own, numbers, others⟩ := d.on_copyModules ∅ s distinct
  refine ⟨inputs, ids, { type := op.returns, draft := e }, ⟨rfl, ?_, fun id => ?_, outputs, numbers,
    fun k j found => ?_⟩, ?_⟩
  · have same : (op.parameters.zip arguments).flatMap (·.2.draft.edits) =
        arguments.flatMap (·.draft.edits) := by
      conv_rhs => rw [← all, List.flatMap_map]
    rw [copies, edits, same]
    rfl
  · have same : (∃ a ∈ op.parameters.zip arguments, a.2.draft.contains id = true) ↔
        ∃ y ∈ arguments, y.draft.contains id = true := by
      conv_rhs => rw [← all]
      simp only [List.mem_map, exists_exists_and_eq_and]
    rw [own, contains, same]
    simp [Draft.contains, Draft.empty]
  · by_contra none
    rw [others k fun m hm same => none ⟨m, hm, same⟩] at found
    cases found
  · rw [applyTemplate, input, Action.on_bind_of_ok (Action.on_ofExcept ..), output,
      Action.on_bind_of_ok (Action.on_ofExcept ..), taken,
      Action.on_bind_of_ok (Action.on_ofExcept ..)]
    exact Action.on_bind_of_ok copied _

namespace Prepared

variable (prepared : op.Prepared types template arguments s inputs ids x)
include prepared

theorem mem_inputs_iff {name : String} {o : PortRef} :
    (name, o) ∈ inputs ↔
      ∃ p y, (p, y) ∈ op.parameters.zip arguments ∧ p.name = name ∧ y.output = some o := by
  have listed : (name, o) ∈ inputs ↔
      (name, some o) ∈ inputs.map fun e => (e.1, some e.2) := by
    simp only [List.mem_map, Prod.mk.injEq, Option.some.injEq]
    exact ⟨fun there => ⟨_, there, rfl, rfl⟩, fun ⟨_, there, same, same'⟩ => by
      rwa [← same, ← same']⟩
  rw [listed, prepared.inputs, List.mem_map]
  simp only [Prod.exists, Prod.mk.injEq]

theorem names_inputs (fitting : arguments.length = op.parameters.length) :
    inputs.map Prod.fst = op.parameters.map Parameter.name := by
  have same := congrArg (List.map Prod.fst) prepared.inputs
  simp only [List.map_map, Function.comp_def] at same
  conv_rhs => rw [← List.map_fst_zip (Nat.le_of_eq fitting.symm), List.map_map]
  exact same

theorem of_get? (closed : template.WellFormed) {id j : ModuleId} {m : Module}
    (there : template.modules.get? id = some m) (copy : ids.get? m.id = some j) :
    m.type ≠ types.input ∧ m.type ≠ types.output := by
  obtain ⟨m', kept, same⟩ := prepared.only _ _ copy
  obtain ⟨listed, inner⟩ := List.mem_filter.1 kept
  have found := closed.mem_values_iff.1 listed
  rw [same, closed.module_id there, there, Option.some.injEq] at found
  subst found
  simpa using inner

/-- Whatever could be carried over belongs to a template that can be put between the arguments. -/
theorem spliceable (closed : template.WellFormed) (apart : types.input ≠ types.output)
    (distinct : (inputs.map Prod.fst).Nodup)
    (fitting : arguments.length = op.parameters.length) {u v : Store} {port : PortRef}
    (run : (op.copyTemplate template types ids inputs x none template.connections.values).on u =
      (.ok (y, some port), v)) :
    template.Spliceable types (op.parameters.map Parameter.name) := by
  obtain ⟨carried, count⟩ := of_copyTemplate run
  refine ⟨fun c hc m there isInput => ?_, fun c hc m there isOutput => ?_,
    fun c hc n there isInput => ?_, List.length_eq_one_iff.1 (by simpa using count)⟩
  · obtain ⟨m', feed, there', fed⟩ := (carried c hc).1
    obtain rfl : m = m' := Option.some.inj (there.symm.trans there')
    obtain ⟨-, name, named, listed⟩ | ⟨notInput, -⟩ := (feedOf_eq_ok_iff distinct).1 fed
    · refine ⟨name, ?_, named⟩
      rw [← prepared.names_inputs fitting]
      exact List.mem_map_of_mem listed
    · exact absurd isInput notInput
  · obtain ⟨m', feed, there', fed⟩ := (carried c hc).1
    obtain rfl : m = m' := Option.some.inj (there.symm.trans there')
    obtain ⟨isInput, -⟩ | ⟨-, j, copy, -⟩ := (feedOf_eq_ok_iff distinct).1 fed
    · exact apart (isInput.symm.trans isOutput)
    · exact (prepared.of_get? closed there copy).2 isOutput
  · obtain isOutput | ⟨k, copy⟩ := (carried c hc).2 n there
    · exact apart (isInput.symm.trans isOutput)
    · exact (prepared.of_get? closed there copy).1 isInput

/-- All connections of a template that can be put between the arguments can be carried over. -/
theorem carries (closed : template.WellFormed) (distinct : (inputs.map Prod.fst).Nodup)
    (fitting : arguments.length = op.parameters.length)
    (given : ∀ y ∈ arguments, y.IsArgument s)
    (spliceable : template.Spliceable types (op.parameters.map Parameter.name)) :
    ∀ c ∈ template.connections.values,
      ∃ feed, op.Carries types template ids inputs x.draft c feed := by
  intro c hc
  obtain ⟨key, found⟩ := OrderedMap.mem_values_iff.1 hc
  obtain ⟨m, source⟩ := OrderedMap.contains_eq_true_iff.1 (closed.source found)
  obtain ⟨n, target⟩ := OrderedMap.contains_eq_true_iff.1 (closed.destination found)
  have kept {id : ModuleId} {m : Module} (there : template.modules.get? id = some m)
      (notInput : m.type ≠ types.input) (notOutput : m.type ≠ types.output) :
      ids.get? m.id = some (ids.at m.id) ∧ x.draft.contains (ids.at m.id) = true := by
    have listed : m ∈ types.modules template :=
      List.mem_filter.2 ⟨OrderedMap.mem_values_iff.2 ⟨_, there⟩, by simp [notInput, notOutput]⟩
    exact ⟨(Renaming.get?_of_numbers prepared.numbers listed).1,
      (prepared.contains _).2 (.inr ⟨m, listed, rfl⟩)⟩
  have destination : template.endsIn types.output c = true ∨
      ∃ n k, template.modules.get? c.destination.module = some n ∧ n.type ≠ types.output ∧
        ids.get? n.id = some k ∧ n.id = c.destination.module ∧ x.draft.contains k = true := by
    by_cases isOutput : n.type = types.output
    · exact .inl ((endsIn_iff target).2 isOutput)
    · obtain ⟨copy, own⟩ := kept target (spliceable.unfed c hc n target) isOutput
      exact .inr ⟨n, _, target, isOutput, copy, closed.module_id target, own⟩
  -- a source is the output of an argument or of a copy
  by_cases isInput : m.type = types.input
  · obtain ⟨name, listed, named⟩ := spliceable.named c hc m source isInput
    rw [← prepared.names_inputs fitting] at listed
    obtain ⟨⟨name, o⟩, there, rfl⟩ := List.mem_map.1 listed
    obtain ⟨p, y, paired, -, output⟩ := prepared.mem_inputs_iff.1 there
    have argument := (List.of_mem_zip paired).2
    obtain ⟨o', output', own⟩ := (given y argument).designated
    obtain rfl : o = o' := Option.some.inj (output.symm.trans output')
    exact ⟨o, ⟨m, source, (feedOf_eq_ok_iff distinct).2 (.inl ⟨isInput, _, named, there⟩)⟩,
      (prepared.contains _).2 (.inl ⟨y, argument, own⟩), destination⟩
  · obtain ⟨copy, own⟩ := kept source isInput (spliceable.unled c hc m source)
    exact ⟨⟨ids.at m.id, c.source.port⟩, ⟨m, source,
      (feedOf_eq_ok_iff distinct).2 (.inr ⟨isInput, _, copy, rfl⟩)⟩, own, destination⟩

end Prepared

/-- Applying a template that a file gives succeeds exactly if it can be put between arguments for the
parameters; and then the result holds what it should, and nothing else. -/
theorem applyTemplate_exact (input : h.basic "InputPort" = .ok types.input)
    (output : h.basic "OutputPort" = .ok types.output) {files : Files} {path : String}
    (loaded : Pipeline.load files path = .ok template)
    (distinct : (op.parameters.map Parameter.name).Nodup)
    (fitting : arguments.length = op.parameters.length)
    (given : ∀ y ∈ arguments, y.IsArgument s) :
    ((∃ x, ((op.applyTemplate h template arguments).on s).1 = .ok x) ↔
      template.Spliceable types (op.parameters.map Parameter.name)) ∧
    ∀ x t, (op.applyTemplate h template arguments).on s = (.ok x, t) →
      ∃ place feed, op.Spliced types template arguments s place feed x t := by
  have closed := Pipeline.wellFormed_of_load loaded
  have apart : types.input ≠ types.output := by
    rw [Host.basic_eq_ok input, Host.basic_eq_ok output]
    simp [Settings.basic]
  obtain ⟨inputs, ids, x₀, prepared, start⟩ :=
    exists_prepared input output closed fitting given
  have keys : (inputs.map Prod.fst).Nodup := by rwa [prepared.names_inputs fitting]
  have only {x : Variable} {t : Store}
      (run : (op.applyTemplate h template arguments).on s = (.ok x, t)) :
      template.Spliceable types (op.parameters.map Parameter.name) := by
    rw [start] at run
    obtain ⟨⟨y, found⟩, u, copied, run⟩ := Action.on_bind_eq_ok.1 run
    cases found with
    | none => cases run
    | some port => exact prepared.spliceable closed apart keys fitting copied
  have possible (spliceable : template.Spliceable types (op.parameters.map Parameter.name)) :
      ∃ x t place feed, (op.applyTemplate h template arguments).on s = (.ok x, t) ∧
        op.Spliced types template arguments s place feed x t := by
    have : Nonempty PortRef := ⟨⟨0, ""⟩⟩
    choose! feed carries using prepared.carries closed keys fitting given spliceable
    obtain ⟨final, single⟩ := spliceable.single
    have listed : final ∈ template.connections.values.filter (template.endsIn types.output) := by
      rw [single]
      exact List.mem_singleton_self _
    obtain ⟨there, ends⟩ := List.mem_filter.1 listed
    have copied := on_copyTemplate x₀ none
      { s with nextModule := s.nextModule + (types.modules template).length } carries
      (by simp [single])
    rw [single] at copied
    refine ⟨_, _, ids.at, feed, start.trans (Action.on_bind_of_ok copied _), ?_, ?_, ?_, ?_, ?_, ?_,
      ?_, ?_, ?_, ?_, rfl⟩
    · have numbers := congrArg (List.map fun k => Option.getD k 0) prepared.numbers
      simpa [List.map_map, Function.comp_def, Renaming.at] using numbers
    · intro c hc m source isInput p y paired named
      obtain ⟨m', source', fed⟩ := (carries c hc).source
      obtain rfl : m = m' := Option.some.inj (source.symm.trans source')
      obtain ⟨-, name, named', listed⟩ | ⟨notInput, -⟩ := (feedOf_eq_ok_iff keys).1 fed
      · obtain rfl : p.name = name := Option.some.inj (named.symm.trans named')
        obtain ⟨o, output, -⟩ := (given y (List.of_mem_zip paired).2).designated
        have listed' : (p.name, o) ∈ inputs := prepared.mem_inputs_iff.2 ⟨p, y, paired, rfl, output⟩
        have same := List.inj_on_of_nodup_map keys listed listed' rfl
        rw [output, ← (Prod.mk.inj same).2]
      · exact absurd isInput notInput
    · intro c hc m source notInput
      obtain ⟨m', source', fed⟩ := (carries c hc).source
      obtain rfl : m = m' := Option.some.inj (source.symm.trans source')
      obtain ⟨isInput, -⟩ | ⟨-, j, copy, eq⟩ := (feedOf_eq_ok_iff keys).1 fed
      · exact absurd isInput notInput
      · rw [closed.module_id source] at copy
        rw [eq, PortRef.moved, Renaming.at_of_get? copy]
    · exact congrArg (· ++ _) prepared.edits
    · exact prepared.contains
    · exact ⟨final, there, ends, rfl⟩
    · rw [prepared.new]
    · rw [prepared.new]
    · rw [prepared.new]
    · exact fun y hy => (s.disjoint_issued_given _).mono_left (given y hy).issued
  refine ⟨⟨fun succeeds => ?_, fun spliceable => ?_⟩, fun x t run => ?_⟩
  · obtain ⟨x, ok⟩ := succeeds
    exact only (t := _) (Prod.ext ok rfl)
  · obtain ⟨x, t, -, -, run, -⟩ := possible spliceable
    exact ⟨x, by rw [run]⟩
  · obtain ⟨x', t', place, feed, run', spliced⟩ := possible (only run)
    cases run.symm.trans run'
    exact ⟨place, feed, spliced⟩

end

def samplePlaceholders : Placeholders := ⟨⟨"b", "InputPort"⟩, ⟨"b", "OutputPort"⟩⟩

/-- A file with a template that puts one of its inputs into a list. -/
def sampleFile : Files :=
  ⟨[(["list"], .file
    "[[[1,[\"b\",\"InputPort\"],[[\"name\",[\"x\"]]]],[2,[\"b\",\"List\"],[[\"tail\",[\"\"]]]],[3,[\"b\",\"OutputPort\"],[]]],[[1,[1,\"value\"],[2,\"head\"]],[2,[2,\"value\"],[3,\"pipe\"]]]]")], []⟩

def sampleTemplate : Pipeline :=
  (Pipeline.ofParts
    [⟨1, ⟨"b", "InputPort"⟩, [⟨"name", ["x"]⟩]⟩, ⟨2, ⟨"b", "List"⟩, [⟨"tail", [""]⟩]⟩,
      ⟨3, ⟨"b", "OutputPort"⟩, []⟩]
    [⟨1, ⟨1, "value"⟩, ⟨2, "head"⟩⟩, ⟨2, ⟨2, "value"⟩, ⟨3, "pipe"⟩⟩]).toOption.getD .empty

theorem load_sampleFile : Pipeline.load sampleFile "list" = .ok sampleTemplate := by
  decide +kernel

/-- An operation with that template and a parameter that it leaves out. -/
def sampleOperation : Operation :=
  ⟨"pack", "p", [⟨"x", []⟩, ⟨"y", []⟩], ⟨"b", "List"⟩, true, .template sampleTemplate⟩

/-- A literal whose module is numbered. -/
def sampleLiteral (m : ModuleId) : Variable :=
  { type := ⟨"b", "Integer"⟩
    draft := Variable.literalDraft Host.sample (.integer 7) ⟨"b", "Integer"⟩ m
    output := some ⟨m, "value"⟩ }

def sampleStore : Store := { Store.new with nextModule := 3 }

theorem isArgument_sampleLiteral {m : ModuleId} (low : m < 3) :
    (sampleLiteral m).IsArgument sampleStore := by
  refine ⟨rfl, ⟨_, rfl, by simp [sampleLiteral, Variable.literalDraft, Draft.contains]⟩, ?_⟩
  refine ⟨?_, ?_⟩
  · simpa [sampleLiteral, Variable.literalDraft, Draft.ids, Edit.idsOf, Edit.ids, Store.issued,
      sampleStore] using low
  · simp [sampleLiteral, Variable.literalDraft, Draft.ids, Edit.idsOf, Edit.ids]

theorem applyTemplate_exact_sample :
    sampleTemplate.Spliceable samplePlaceholders ["x", "y"] ∧
      ∃ x t place feed, (sampleOperation.applyTemplate Host.sample sampleTemplate
          [sampleLiteral 1, sampleLiteral 2]).on sampleStore = (.ok x, t) ∧
        sampleOperation.Spliced samplePlaceholders sampleTemplate
          [sampleLiteral 1, sampleLiteral 2] sampleStore place feed x t := by
  have given : ∀ y ∈ [sampleLiteral 1, sampleLiteral 2], y.IsArgument sampleStore := by
    simp [isArgument_sampleLiteral]
  have input : Host.sample.basic "InputPort" = .ok samplePlaceholders.input := rfl
  have output : Host.sample.basic "OutputPort" = .ok samplePlaceholders.output := rfl
  have distinct : (sampleOperation.parameters.map Parameter.name).Nodup := by decide
  obtain ⟨possible, exact⟩ := applyTemplate_exact input output load_sampleFile distinct rfl given
  have ok : ((sampleOperation.applyTemplate Host.sample sampleTemplate
      [sampleLiteral 1, sampleLiteral 2]).on sampleStore).1.toOption.isSome = true := by
    decide +kernel
  cases run : (sampleOperation.applyTemplate Host.sample sampleTemplate
      [sampleLiteral 1, sampleLiteral 2]).on sampleStore with
  | mk r t =>
    rw [run] at ok possible
    cases r with
    | error e => cases ok
    | ok x => exact ⟨possible.1 ⟨x, rfl⟩, x, t, (exact x t run).imp fun place ⟨feed, spliced⟩ =>
        ⟨feed, rfl, spliced⟩⟩

end Operation

end Dataflow
