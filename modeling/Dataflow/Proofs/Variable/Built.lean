import Dataflow.Proofs.Draft.Drawing
import Dataflow.Proofs.Store.Runs
import Dataflow.Variable

/-! Variables that can be built at all, on any host and any store. Their drafts speak only of modules
that they added before; so if such a draft can be committed at all, it draws a pipeline of its own,
apart from what it is committed on. -/

namespace Dataflow

namespace Draft

/-- Every edit speaks only of modules that earlier edits added, and they are added without functions. -/
inductive Owned : Draft → Prop
  | empty : Owned .empty
  | addModule {d : Draft} (own : Owned d) {m : Module} (bare : m.functions = []) :
      Owned (d.addModule m)
  | setFunction {d : Draft} (own : Owned d) {m : ModuleId} (there : d.contains m = true)
      (name : String) (params : List String) : Owned (d.push (.setFunction m name params))
  | connection {d : Draft} (own : Owned d) {c : Connection}
      (source : d.contains c.source.module = true)
      (destination : d.contains c.destination.module = true) : Owned (d.push (.addConnection c))
  | append {d e : Draft} (own : Owned d) (others : Owned e) : Owned (d.append e)

variable {d e : Draft} {p q : Pipeline} {s t : Store}

/-- What an owned draft does to a pipeline, it does beside it. -/
theorem Owned.draws (own : d.Owned) (h : p.applyAll d.edits = .ok q) :
    ∃ g, d.Draws g ∧ p.Apart g ∧ q = p.join g := by
  induction own generalizing p q with
  | empty =>
    cases h
    exact ⟨.empty, draws_empty, p.apart_empty, rfl⟩
  | addModule own m ih =>
    obtain ⟨r, first, last⟩ := Pipeline.applyAll_append_ok.1 h
    rw [Pipeline.applyAll_singleton] at last
    obtain ⟨g, drawn, apart, rfl⟩ := ih first
    obtain ⟨g', applies, apart', rfl⟩ := Pipeline.apply_of_join apart (by trivial) last
    obtain ⟨_, ⟨⟩, fresh, rfl⟩ | ⟨_, _, _, _, ⟨⟩, -⟩ | ⟨_, ⟨⟩, -⟩ := Pipeline.apply_cases applies
    exact ⟨_, drawn.addModule fresh, apart', rfl⟩
  | @setFunction d own m there name params ih =>
    obtain ⟨r, first, last⟩ := Pipeline.applyAll_append_ok.1 h
    rw [Pipeline.applyAll_singleton] at last
    obtain ⟨g, drawn, apart, rfl⟩ := ih first
    rw [drawn.contains] at there
    obtain ⟨g', applies, apart', rfl⟩ := Pipeline.apply_of_join (e := .setFunction m name params)
      apart there last
    refine ⟨g', drawn.push applies fun id => ?_, apart', rfl⟩
    obtain ⟨_, ⟨⟩, -⟩ | ⟨_, _, _, n, ⟨⟩, -, rfl⟩ | ⟨_, ⟨⟩, -⟩ := Pipeline.apply_cases applies
    rw [OrderedMap.contains_insert]
    by_cases same : id = m <;> simp [same, there]
  | @connection d own c source destination ih =>
    obtain ⟨r, first, last⟩ := Pipeline.applyAll_append_ok.1 h
    rw [Pipeline.applyAll_singleton] at last
    obtain ⟨g, drawn, apart, rfl⟩ := ih first
    have within : Edit.Within g (.addConnection c) :=
      ⟨(drawn.contains _).symm.trans source, (drawn.contains _).symm.trans destination⟩
    -- both ends are modules of the draft, so the connection is made beside the rest
    obtain ⟨g', applies, apart', rfl⟩ := Pipeline.apply_of_join apart within last
    obtain ⟨_, ⟨⟩, -⟩ | ⟨_, _, _, _, ⟨⟩, -⟩ | ⟨_, ⟨⟩, fresh, -, -, rfl⟩ :=
      Pipeline.apply_cases applies
    exact ⟨_, drawn.connection fresh source destination, apart', rfl⟩
  | append own others ih ih' =>
    obtain ⟨r, first, last⟩ := Pipeline.applyAll_append_ok.1 h
    obtain ⟨g, drawn, apart, rfl⟩ := ih first
    obtain ⟨g', drawn', apart', rfl⟩ := ih' last
    refine ⟨g.join g', drawn.append drawn' ?_, ?_, Pipeline.join_assoc ..⟩
    · exact ⟨fun id hid => apart'.modules id (by simp [hid]), fun id hid =>
        apart'.connections id (by simp [Pipeline.join, OrderedMap.contains_union, hid])⟩
    · refine apart.join_right ⟨fun id hid => apart'.modules id (by simp [hid]), fun id hid =>
        apart'.connections id (by simp [Pipeline.join, OrderedMap.contains_union, hid])⟩

theorem Owned.of_connect (own : d.Owned) {source destination : PortRef} {id : ConnectionId}
    (run : (d.connect source destination).on s = (.ok (id, e), t)) :
    e.Owned ∧ e.contains = d.contains := by
  obtain ⟨hs, ht, rfl, rfl⟩ := connect_eq_ok run
  exact ⟨own.connection hs ht, rfl⟩

theorem contains_of_copyModule {m : Module} {id : ModuleId}
    (run : (d.copyModule m).on s = (.ok (id, e), t)) :
    e.contains id = true ∧ ∀ k, d.contains k = true → e.contains k = true := by
  have contains := d.contains_addModule ⟨s.nextModule, m.type, []⟩
  cases run
  exact ⟨(contains _).trans (by simp), fun k hk => (contains k).trans (by simp [hk])⟩

theorem contains_of_copyModules {done ids : Renaming} {ms : List Module}
    (copied : ∀ k j, done.get? k = some j → d.contains j = true)
    (run : (d.copyModules done ms).on s = (.ok (ids, e), t)) :
    (∀ k j, ids.get? k = some j → e.contains j = true) ∧
      ∀ k, d.contains k = true → e.contains k = true := by
  induction ms generalizing d done s with
  | nil =>
    cases run
    exact ⟨copied, fun _ there => there⟩
  | cons m ms ih =>
    obtain ⟨⟨id, d'⟩, u, first, rest⟩ := Action.on_bind_eq_ok.1 run
    obtain ⟨there, kept⟩ := contains_of_copyModule first
    have now : ∀ k j, (done.insert m.id id).get? k = some j → d'.contains j = true := by
      intro k j hk
      obtain ⟨-, rfl⟩ | ⟨-, before⟩ := OrderedMap.get?_insert_eq_some_iff.1 hk
      · exact there
      · exact kept j (copied k j before)
    obtain ⟨copied', kept'⟩ := ih now rest
    exact ⟨copied', fun k hk => kept' k (kept k hk)⟩

theorem Owned.of_copyModule (own : d.Owned) {m : Module} {id : ModuleId}
    (run : (d.copyModule m).on s = (.ok (id, e), t)) : e.Owned := by
  have sets : ∀ (fs : List Module.Function) {d : Draft} {k : ModuleId}, d.Owned →
      d.contains k = true →
      Owned ⟨d.edits ++ fs.map fun f => .setFunction k f.name f.params, d.modules⟩ := by
    intro fs
    induction fs with
    | nil =>
      intro d k own _
      simpa using own
    | cons f fs ih =>
      intro d k own there
      have := ih (own.setFunction there f.name f.params) there
      simpa [push, List.append_assoc] using this
  have added := own.addModule (m := ⟨s.nextModule, m.type, []⟩) rfl
  have there : (d.addModule ⟨s.nextModule, m.type, []⟩).contains s.nextModule = true := by simp
  cases run
  exact sets m.functions added there

theorem Owned.of_copyModules (own : d.Owned) {done ids : Renaming} {ms : List Module}
    (run : (d.copyModules done ms).on s = (.ok (ids, e), t)) : e.Owned := by
  induction ms generalizing d done s with
  | nil =>
    cases run
    exact own
  | cons m ms ih =>
    obtain ⟨⟨id, d'⟩, u, first, rest⟩ := Action.on_bind_eq_ok.1 run
    exact ih (own.of_copyModule first) rest

theorem Owned.of_copyConnections (own : d.Owned) {ids : Renaming} {cs : List Connection}
    (run : (d.copyConnections ids cs).on s = (.ok e, t)) :
    e.Owned ∧ e.contains = d.contains := by
  induction cs generalizing d s with
  | nil =>
    cases run
    exact ⟨own, rfl⟩
  | cons c cs ih =>
    obtain ⟨⟨id, d'⟩, u, first, rest⟩ := Action.on_bind_eq_ok.1 run
    obtain ⟨source, -, first⟩ := Action.on_ofExcept_bind_eq_ok.1 first
    obtain ⟨destination, -, first⟩ := Action.on_ofExcept_bind_eq_ok.1 first
    obtain ⟨own', same⟩ := own.of_connect first
    obtain ⟨own'', same'⟩ := ih own' rest
    exact ⟨own'', same'.trans same⟩

end Draft

namespace Variable

/-- What can be built by calls on variables, each on any host and any store. -/
inductive Built : Variable → Prop
  | new (type : TypeName) : Built { type }
  | addModule {x y : Variable} {type : TypeName} {m : ModuleId} {s t : Store} (built : Built x)
      (run : (x.addModule type).on s = (.ok (m, y), t)) : Built y
  | setFunction {x y : Variable} {m : ModuleId} {port : String} {values : List String}
      (built : Built x) (set : x.setFunction m port values = .ok y) : Built y
  | connect {x y : Variable} {source destination : PortRef} {s t : Store} (built : Built x)
      (run : (x.connect source destination).on s = (.ok y, t)) : Built y
  | selectOutput {x y : Variable} {m : ModuleId} {port : String} (built : Built x)
      (select : x.selectOutput m port = .ok y) : Built y
  | absorb {x y z : Variable} {output : PortRef} (built : Built x) (other : Built y)
      (absorb : x.absorb y = .ok (output, z)) : Built z
  | provenance {x : Variable} (built : Built x) (p : Provenance) :
      Built { x with provenance := some p }
  | constant {h : Host} {value : Constant} {type : TypeName} {y : Variable} {s t : Store}
      (run : (Variable.constant h value type).on s = (.ok y, t)) : Built y
  | copy {h : Host} {x y : Variable} {s t : Store} (run : (x.copy h).on s = (.ok y, t)) : Built y
  | materialize {h : Host} {x y : Variable} {name : String} {v : VersionId} {s t : Store}
      (built : Built x) (run : (x.materialize h name).on s = (.ok (v, y), t)) : Built y
  | restore {h : Host} {v : VersionId} {y : Variable} {s t : Store}
      (run : (Variable.restore h v).on s = (.ok y, t)) : Built y

/-- The draft and the output speak of the variable's own modules. -/
structure Owned (x : Variable) : Prop where
  draft : x.draft.Owned
  output : ∀ {o}, x.output = some o → x.draft.contains o.module = true

variable {x y z : Variable} {s t : Store}

theorem Owned.addModule (own : x.Owned) {type : TypeName} {m : ModuleId}
    (run : (x.addModule type).on s = (.ok (m, y), t)) : y.Owned := by
  cases run
  refine ⟨own.draft.addModule rfl, fun {o} ho => ?_⟩
  rw [Draft.contains_addModule, own.output ho, Bool.or_true]

theorem setFunction_eq_ok {m : ModuleId} {port : String} {values : List String}
    (set : x.setFunction m port values = .ok y) :
    ∃ d, x.draft.setFunction m port values = .ok d ∧ y = { x with draft := d } := by
  unfold setFunction at set
  cases hd : x.draft.setFunction m port values with
  | error e => simp [hd, Except.map] at set
  | ok d =>
    rw [hd] at set
    cases set
    exact ⟨d, rfl, rfl⟩

theorem selectOutput_eq_ok {m : ModuleId} {port : String}
    (select : x.selectOutput m port = .ok y) :
    x.draft.contains m = true ∧ y = { x with output := some ⟨m, port⟩ } := by
  unfold selectOutput at select
  split at select
  · cases select
  · split at select
    · next own => exact ⟨own, (Except.ok.inj select).symm⟩
    · cases select

theorem Owned.setFunction (own : x.Owned) {m : ModuleId} {port : String} {values : List String}
    (set : x.setFunction m port values = .ok y) : y.Owned := by
  obtain ⟨d, drafted, rfl⟩ := setFunction_eq_ok set
  obtain ⟨there, rfl⟩ := Draft.setFunction_eq_ok drafted
  exact ⟨own.draft.setFunction there port values, own.output⟩

theorem Owned.selectOutput (own : x.Owned) {m : ModuleId} {port : String}
    (select : x.selectOutput m port = .ok y) : y.Owned := by
  obtain ⟨there, rfl⟩ := selectOutput_eq_ok select
  refine ⟨own.draft, fun ho => ?_⟩
  cases ho
  exact there

theorem Owned.connect (own : x.Owned) {source destination : PortRef}
    (run : (x.connect source destination).on s = (.ok y, t)) : y.Owned := by
  obtain ⟨⟨id, d⟩, u, connected, rest⟩ := Action.on_bind_eq_ok.1 run
  obtain ⟨own', same⟩ := own.draft.of_connect connected
  cases rest
  refine ⟨own', fun ho => ?_⟩
  rw [same]
  exact own.output ho

theorem owned_new (type : TypeName) : Owned { type } := ⟨.empty, fun ho => by cases ho⟩

theorem owned_constant {h : Host} {value : Constant} {type : TypeName}
    (run : (constant h value type).on s = (.ok y, t)) : y.Owned := by
  obtain ⟨⟨m, x⟩, u, add, rest⟩ := Action.on_bind_eq_ok.1 run
  obtain ⟨x', set, rest⟩ := Action.on_ofExcept_bind_eq_ok.1 rest
  obtain ⟨x'', select, rest⟩ := Action.on_ofExcept_bind_eq_ok.1 rest
  cases rest
  have own := (((owned_new type).addModule add).setFunction set).selectOutput select
  exact ⟨own.draft, own.output⟩

theorem owned_copy {h : Host} (run : (x.copy h).on s = (.ok y, t)) : y.Owned := by
  obtain ⟨v, u, -, rest⟩ := Action.on_bind_eq_ok.1 run
  obtain ⟨r, u, -, rest⟩ := Action.on_bind_eq_ok.1 rest
  obtain ⟨p, u, -, rest⟩ := Action.on_bind_eq_ok.1 rest
  obtain ⟨o, u, -, rest⟩ := Action.on_bind_eq_ok.1 rest
  obtain ⟨⟨ids, d⟩, u, modules, rest⟩ := Action.on_bind_eq_ok.1 rest
  obtain ⟨e, u, connections, rest⟩ := Action.on_bind_eq_ok.1 rest
  obtain ⟨copied, -⟩ := Draft.contains_of_copyModules (by simp) modules
  obtain ⟨own', same⟩ := (Draft.Owned.empty.of_copyModules modules).of_copyConnections connections
  cases found : ids.get? o.module with
  | none => simp [found] at rest
  | some m =>
    simp only [found, Action.on_pure, Prod.mk.injEq, Except.ok.injEq] at rest
    obtain ⟨rfl, -⟩ := rest
    refine ⟨own', fun ho => ?_⟩
    cases ho
    rw [same]
    exact copied _ m found

/-- At most the draft and the output of a variable were worked on. -/
structure Continues (x y : Variable) : Prop where
  type : y.type = x.type
  provenance : y.provenance = x.provenance
  version : y.version = x.version

theorem Continues.refl (x : Variable) : x.Continues x := ⟨rfl, rfl, rfl⟩

theorem Continues.trans (first : x.Continues y) (next : y.Continues z) : x.Continues z :=
  ⟨next.type.trans first.type, next.provenance.trans first.provenance,
    next.version.trans first.version⟩

theorem continues_of_addModule {type : TypeName} {m : ModuleId}
    (run : (x.addModule type).on s = (.ok (m, y), t)) : x.Continues y := by
  cases run
  exact ⟨rfl, rfl, rfl⟩

theorem continues_of_setFunction {m : ModuleId} {port : String} {values : List String}
    (set : x.setFunction m port values = .ok y) : x.Continues y := by
  obtain ⟨d, -, rfl⟩ := setFunction_eq_ok set
  exact ⟨rfl, rfl, rfl⟩

theorem continues_of_connect {source destination : PortRef}
    (run : (x.connect source destination).on s = (.ok y, t)) : x.Continues y := by
  obtain ⟨⟨id, d⟩, u, -, rest⟩ := Action.on_bind_eq_ok.1 run
  cases rest
  exact ⟨rfl, rfl, rfl⟩

theorem continues_of_selectOutput {m : ModuleId} {port : String}
    (select : x.selectOutput m port = .ok y) : x.Continues y ∧ y.output = some ⟨m, port⟩ := by
  obtain ⟨-, rfl⟩ := selectOutput_eq_ok select
  exact ⟨⟨rfl, rfl, rfl⟩, rfl⟩

theorem eq_of_materialize {h : Host} {name : String} {v : VersionId}
    (run : (x.materialize h name).on s = (.ok (v, y), t)) :
    y = { x with version := some v, draft := .empty } := by
  cases output : x.output with
  | none =>
    simp only [materialize, output] at run
    split at run <;> cases run
  | some o =>
    simp only [materialize, output] at run
    split at run
    · cases run
    · obtain ⟨r, u, -, rest⟩ := Action.on_bind_eq_ok.1 run
      obtain ⟨_, u, -, rest⟩ := Action.on_bind_eq_ok.1 rest
      obtain ⟨c, u, -, rest⟩ := Action.on_bind_eq_ok.1 rest
      obtain ⟨w, u, -, rest⟩ := Action.on_bind_eq_ok.1 rest
      obtain ⟨_, u, -, rest⟩ := Action.on_bind_eq_ok.1 rest
      split at rest
      · cases rest
        rfl
      · obtain ⟨_, u, -, rest⟩ := Action.on_bind_eq_ok.1 rest
        cases rest

theorem version_of_materialize {h : Host} {name : String} {v : VersionId}
    (run : (x.materialize h name).on s = (.ok (v, y), t)) : y.version = some v := by
  rw [eq_of_materialize run]

theorem version_of_restore {h : Host} {v : VersionId}
    (run : (restore h v).on s = (.ok y, t)) : y.version = some v := by
  obtain ⟨r, u, -, rest⟩ := Action.on_bind_eq_ok.1 run
  obtain ⟨p, u, -, rest⟩ := Action.on_bind_eq_ok.1 rest
  obtain ⟨o, u, -, rest⟩ := Action.on_bind_eq_ok.1 rest
  obtain ⟨_, u, -, rest⟩ := Action.on_bind_eq_ok.1 rest
  obtain ⟨type, u, -, rest⟩ := Action.on_bind_eq_ok.1 rest
  cases rest
  rfl

theorem absorb_eq_ok {o : PortRef} (absorb : x.absorb y = .ok (o, z)) :
    y.version = none ∧ y.output = some o ∧ z = { x with draft := x.draft.append y.draft } := by
  unfold Variable.absorb at absorb
  split at absorb
  · cases absorb
  · next free =>
    split at absorb
    · next output found =>
      cases absorb
      exact ⟨by simpa [isMaterialized] using free, found, rfl⟩
    · cases absorb

theorem continues_of_absorb {o : PortRef} (absorb : x.absorb y = .ok (o, z)) : x.Continues z := by
  obtain ⟨-, -, rfl⟩ := absorb_eq_ok absorb
  exact ⟨rfl, rfl, rfl⟩

/-- Whoever takes the variable over finds its output among the modules that were taken over. -/
def HasOutput (y : Variable) : Prop :=
  ∀ (x : Variable) {o : PortRef} {z : Variable}, x.absorb y = .ok (o, z) →
    y.draft.contains o.module = true

/-- As long as it was not written, a variable speaks of its own modules only. -/
def Proper (x : Variable) : Prop := x.version = none → x.Owned

namespace Proper

theorem new (type : TypeName) : Proper { type } := fun _ => owned_new type

theorem of_version {v : VersionId} (written : x.version = some v) : x.Proper := fun unwritten => by
  rw [written] at unwritten
  cases unwritten

theorem addModule (proper : x.Proper) {type : TypeName} {m : ModuleId}
    (run : (x.addModule type).on s = (.ok (m, y), t)) : y.Proper := fun unwritten => by
  refine (proper ?_).addModule run
  cases run
  exact unwritten

theorem setFunction (proper : x.Proper) {m : ModuleId} {port : String} {values : List String}
    (set : x.setFunction m port values = .ok y) : y.Proper := fun unwritten =>
  (proper ((continues_of_setFunction set).version.symm.trans unwritten)).setFunction set

theorem connect (proper : x.Proper) {source destination : PortRef}
    (run : (x.connect source destination).on s = (.ok y, t)) : y.Proper := fun unwritten =>
  (proper ((continues_of_connect run).version.symm.trans unwritten)).connect run

theorem selectOutput (proper : x.Proper) {m : ModuleId} {port : String}
    (select : x.selectOutput m port = .ok y) : y.Proper := fun unwritten =>
  (proper ((continues_of_selectOutput select).1.version.symm.trans unwritten)).selectOutput select

theorem absorb (proper : x.Proper) (other : y.Proper) {o : PortRef}
    (absorb : x.absorb y = .ok (o, z)) : z.Proper := fun unwritten => by
  obtain ⟨free, -, rfl⟩ := absorb_eq_ok absorb
  have own := proper unwritten
  refine ⟨own.draft.append (other free).draft, fun ho => ?_⟩
  rw [Draft.contains_append, own.output ho, Bool.or_true]

/-- The output that is taken over is on a module that is taken over with it. -/
theorem hasOutput (proper : y.Proper) : y.HasOutput := fun x o z absorb => by
  obtain ⟨free, output, -⟩ := absorb_eq_ok absorb
  exact (proper free).output output

theorem provenance (proper : x.Proper) (record : Provenance) :
    Proper { x with provenance := some record } := fun unwritten =>
  ⟨(proper unwritten).draft, (proper unwritten).output⟩

theorem constant {h : Host} {value : Constant} {type : TypeName}
    (run : (Variable.constant h value type).on s = (.ok y, t)) : y.Proper := fun _ =>
  owned_constant run

theorem copy {h : Host} (run : (x.copy h).on s = (.ok y, t)) : y.Proper := fun _ => owned_copy run

theorem restore {h : Host} {v : VersionId} (run : (Variable.restore h v).on s = (.ok y, t)) :
    y.Proper := of_version (version_of_restore run)

end Proper

theorem Built.proper (built : x.Built) : x.Proper := by
  induction built with
  | new type => exact .new type
  | addModule _ run ih => exact ih.addModule run
  | setFunction _ set ih => exact ih.setFunction set
  | connect _ run ih => exact ih.connect run
  | selectOutput _ select ih => exact ih.selectOutput select
  | absorb _ _ absorb ih ih' => exact ih.absorb ih' absorb
  | provenance _ record ih => exact ih.provenance record
  | constant run => exact .constant run
  | copy run => exact .copy run
  | materialize _ run => exact .of_version (version_of_materialize run)
  | restore run => exact .restore run

end Variable

end Dataflow
