import Dataflow.Draft
import Dataflow.Proofs.Pipeline.Join
import Dataflow.Proofs.Store.Changes

/-! What a draft draws: the pipeline that its edits make on their own. A draft that is built with
identifiers of one store always draws something, and each way of building adds to the drawing what
its name says. -/

namespace Dataflow

namespace Module

/-- The module after functions were set one by one. -/
def setAll (m : Module) (fs : List Function) : Module :=
  fs.foldl (fun m f => m.setFunction f.name f.params) m

/-- A copy under another identifier, with the functions set anew. -/
def copied (m : Module) (id : ModuleId) : Module := setAll ⟨id, m.type, []⟩ m.functions

@[simp] theorem setAll_id (m : Module) (fs : List Function) : (m.setAll fs).id = m.id := by
  induction fs generalizing m with
  | nil => rfl
  | cons f fs ih => exact ih (m.setFunction f.name f.params)

@[simp] theorem setAll_type (m : Module) (fs : List Function) : (m.setAll fs).type = m.type := by
  induction fs generalizing m with
  | nil => rfl
  | cons f fs ih => exact ih (m.setFunction f.name f.params)

@[simp] theorem copied_id (m : Module) (id : ModuleId) : (m.copied id).id = id := setAll_id ..

@[simp] theorem copied_type (m : Module) (id : ModuleId) : (m.copied id).type = m.type :=
  setAll_type ..

theorem setAll_functions {m : Module} {fs : List Function}
    (h : ((m.functions ++ fs).map Function.name).Nodup) :
    (m.setAll fs).functions = m.functions ++ fs := by
  induction fs generalizing m with
  | nil => simp [setAll]
  | cons f fs ih =>
    have fresh : ∀ g ∈ m.functions, g.name ≠ f.name := by
      intro g hg same
      rw [List.map_append, List.nodup_append] at h
      exact h.2.2 g.name (List.mem_map_of_mem hg) f.name (by simp) same
    have here : (m.setFunction f.name f.params).functions = m.functions ++ [f] :=
      setFunctions_of_fresh fresh
    have rest := ih (m := m.setFunction f.name f.params) (by simpa [here] using h)
    rw [here, List.append_assoc] at rest
    exact rest

/-- A copy has the functions of the original, unless that sets one function twice. -/
theorem copied_functions {m : Module} {id : ModuleId}
    (h : (m.functions.map Function.name).Nodup) : (m.copied id).functions = m.functions :=
  setAll_functions h

end Module

namespace Pipeline

def withModule (p : Pipeline) (m : Module) : Pipeline :=
  { p with modules := p.modules.insert m.id m }

def withConnection (p : Pipeline) (c : Connection) : Pipeline :=
  { p with connections := p.connections.insert c.id c }

@[simp] theorem contains_withModule (p : Pipeline) (m : Module) (id : ModuleId) :
    (p.withModule m).modules.contains id = (decide (id = m.id) || p.modules.contains id) :=
  OrderedMap.contains_insert ..

/-- All identifiers were given out between two states of a store. -/
structure Minted (s t : Store) (p : Pipeline) : Prop where
  modules : ∀ id, p.modules.contains id = true → s.nextModule ≤ id ∧ id < t.nextModule
  connections : ∀ id, p.connections.contains id = true →
    s.nextConnection ≤ id ∧ id < t.nextConnection

theorem minted_empty (s t : Store) : empty.Minted s t where
  modules id h := by cases h
  connections id h := by cases h

variable {s t u : Store} {p q : Pipeline}

theorem Minted.later (h : p.Minted s t) (later : t.Precedes u) : p.Minted s u where
  modules id hp := ⟨(h.modules id hp).1, Nat.lt_of_lt_of_le (h.modules id hp).2 later.module⟩
  connections id hp :=
    ⟨(h.connections id hp).1, Nat.lt_of_lt_of_le (h.connections id hp).2 later.connection⟩

theorem Minted.earlier (h : p.Minted t u) (earlier : s.Precedes t) : p.Minted s u where
  modules id hp := ⟨Nat.le_trans earlier.module (h.modules id hp).1, (h.modules id hp).2⟩
  connections id hp :=
    ⟨Nat.le_trans earlier.connection (h.connections id hp).1, (h.connections id hp).2⟩

theorem Minted.join (hp : p.Minted s t) (hq : q.Minted s t) : (p.join q).Minted s t where
  modules id h := by
    rw [contains_join, Bool.or_eq_true] at h
    exact h.elim (hq.modules id) (hp.modules id)
  connections id h := by
    rw [Pipeline.join, OrderedMap.contains_union, Bool.or_eq_true] at h
    exact h.elim (hq.connections id) (hp.connections id)

theorem Minted.apart (hp : p.Minted s t) (hq : q.Minted t u) : p.Apart q where
  modules id h := by
    rw [← Bool.not_eq_true]
    intro g
    exact absurd (hp.modules id h).2 (Nat.not_lt_of_le (hq.modules id g).1)
  connections id h := by
    rw [← Bool.not_eq_true]
    intro g
    exact absurd (hp.connections id h).2 (Nat.not_lt_of_le (hq.connections id g).1)

theorem Minted.next_module (h : p.Minted s t) : p.modules.get? t.nextModule = none := by
  rw [← OrderedMap.contains_eq_false_iff, ← Bool.not_eq_true]
  intro g
  exact absurd (h.modules _ g).2 (Nat.lt_irrefl _)

theorem Minted.next_connection (h : p.Minted s t) :
    p.connections.get? t.nextConnection = none := by
  rw [← OrderedMap.contains_eq_false_iff, ← Bool.not_eq_true]
  intro g
  exact absurd (h.connections _ g).2 (Nat.lt_irrefl _)

theorem Minted.withModule (h : p.Minted s t) (later : s.Precedes t) (type : TypeName)
    (fs : List Module.Function) :
    (p.withModule ⟨t.nextModule, type, fs⟩).Minted s (t.createModule type).2 where
  modules id hid := by
    rw [contains_withModule, Bool.or_eq_true, decide_eq_true_eq] at hid
    rcases hid with rfl | hid
    · exact ⟨later.module, Nat.lt_succ_self _⟩
    · exact ⟨(h.modules id hid).1, Nat.lt_succ_of_lt (h.modules id hid).2⟩
  connections := h.connections

theorem Minted.withConnection (h : p.Minted s t) (later : s.Precedes t) (source destination : PortRef) :
    (p.withConnection ⟨t.nextConnection, source, destination⟩).Minted s
      (t.createConnection source destination).2 where
  modules := h.modules
  connections id hid := by
    rw [Pipeline.withConnection, OrderedMap.contains_insert, Bool.or_eq_true,
      decide_eq_true_eq] at hid
    rcases hid with rfl | hid
    · exact ⟨later.connection, Nat.lt_succ_self _⟩
    · exact ⟨(h.connections id hid).1, Nat.lt_succ_of_lt (h.connections id hid).2⟩

theorem applyAll_setFunctions {id : ModuleId} {m : Module} (fs : List Module.Function)
    (h : p.modules.get? id = some m) :
    p.applyAll (fs.map fun f => .setFunction id f.name f.params) =
      .ok { p with modules := p.modules.insert id (m.setAll fs) } := by
  induction fs generalizing p m with
  | nil =>
    simp [applyAll, Module.setAll, OrderedMap.insert_of_get? h]
  | cons f fs ih =>
    refine applyAll_cons.2 ⟨_, apply_setFunction f.name f.params h, ?_⟩
    rw [ih (OrderedMap.get?_insert_self ..), OrderedMap.insert_insert]
    rfl

end Pipeline

namespace Draft

/-- The edits of a draft make a pipeline of their own, whose modules are those that the draft calls
its own. -/
structure Draws (d : Draft) (g : Pipeline) : Prop where
  edits : Pipeline.empty.applyAll d.edits = .ok g
  contains : ∀ id, d.contains id = g.modules.contains id

theorem draws_empty : empty.Draws Pipeline.empty := ⟨rfl, fun _ => rfl⟩

variable {d e : Draft} {g g' : Pipeline}

theorem Draws.wellFormed (h : d.Draws g) : g.WellFormed := Pipeline.wellFormed_empty.applyAll h.edits

theorem Draws.addModule (h : d.Draws g) {m : Module} (fresh : g.modules.get? m.id = none) :
    (d.addModule m).Draws (g.withModule m) where
  edits := Pipeline.applyAll_append_ok.2
    ⟨g, h.edits, by rw [Pipeline.applyAll_singleton, Pipeline.apply_addModule fresh]; rfl⟩
  contains id := by
    rw [contains_addModule, h.contains, Pipeline.contains_withModule]
    rfl

theorem Draws.push (h : d.Draws g) {edit : Edit} (applies : g.apply edit = .ok g')
    (same : ∀ id, g'.modules.contains id = g.modules.contains id) : (d.push edit).Draws g' where
  edits := Pipeline.applyAll_append_ok.2
    ⟨g, h.edits, by rw [Pipeline.applyAll_singleton, applies]⟩
  contains id := (h.contains id).trans (same id).symm

theorem setFunction_eq_ok {id : ModuleId} {name : String} {params : List String}
    (set : d.setFunction id name params = .ok e) :
    d.contains id = true ∧ e = d.push (.setFunction id name params) := by
  unfold setFunction at set
  split at set
  · next own => exact ⟨own, (Except.ok.inj set).symm⟩
  · cases set

theorem Draws.setFunction (h : d.Draws g) {id : ModuleId} {name : String} {params : List String}
    (set : d.setFunction id name params = .ok e) :
    ∃ m, g.modules.get? id = some m ∧
      e.Draws { g with modules := g.modules.insert id (m.setFunction name params) } := by
  obtain ⟨own, rfl⟩ := setFunction_eq_ok set
  rw [h.contains] at own
  obtain ⟨m, found⟩ := OrderedMap.contains_eq_true_iff.1 own
  refine ⟨m, found, h.push (Pipeline.apply_setFunction name params found) fun k => ?_⟩
  rw [OrderedMap.contains_insert]
  by_cases same : k = id <;> simp [same, own]

theorem contains_append (d e : Draft) (id : ModuleId) :
    (d.append e).contains id = (e.contains id || d.contains id) := by
  have absorbed : ∀ (ms ns : List ModuleId),
      (ms.foldl (fun ks m => ks.insert m) ns).contains id = (ms.contains id || ns.contains id) := by
    intro ms
    induction ms with
    | nil => simp
    | cons m ms ih =>
      intro ns
      rw [List.foldl_cons, ih, Bool.eq_iff_iff]
      simp only [List.contains_iff_mem, Bool.or_eq_true, List.mem_insert_iff, List.mem_cons]
      rw [or_left_comm, or_assoc]
  exact absorbed e.modules d.modules

theorem Draws.append (hd : d.Draws g) (he : e.Draws g') (apart : g.Apart g') :
    (d.append e).Draws (g.join g') where
  edits := by
    refine Pipeline.applyAll_append_ok.2 ⟨g, hd.edits, ?_⟩
    have := Pipeline.applyAll_join he.edits apart
    rwa [Pipeline.join_empty] at this
  contains id := by rw [contains_append, Pipeline.contains_join, hd.contains, he.contains]

theorem foreignEnd?_eq_none_iff {source destination : PortRef} :
    d.foreignEnd? source destination = none ↔
      d.contains source.module = true ∧ d.contains destination.module = true := by
  simp [foreignEnd?, List.find?_eq_none]

theorem on_connect {s : Store} {source destination : PortRef}
    (own : d.contains source.module = true) (own' : d.contains destination.module = true) :
    (d.connect source destination).on s =
      (.ok (s.nextConnection, d.push (.addConnection ⟨s.nextConnection, source, destination⟩)),
        (s.createConnection source destination).2) := by
  rw [connect, foreignEnd?_eq_none_iff.2 ⟨own, own'⟩]
  rfl

theorem connect_eq_ok {s t : Store} {source destination : PortRef} {id : ConnectionId}
    (h : (d.connect source destination).on s = (.ok (id, e), t)) :
    d.contains source.module = true ∧ d.contains destination.module = true ∧
      e = d.push (.addConnection ⟨s.nextConnection, source, destination⟩) ∧
      t = (s.createConnection source destination).2 := by
  cases foreign : d.foreignEnd? source destination with
  | some m =>
    rw [connect, foreign] at h
    cases h
  | none =>
    obtain ⟨own, own'⟩ := foreignEnd?_eq_none_iff.1 foreign
    rw [on_connect own own'] at h
    cases h
    exact ⟨own, own', rfl, rfl⟩

theorem Draws.connection (h : d.Draws g) {c : Connection}
    (fresh : g.connections.get? c.id = none) (own : d.contains c.source.module = true)
    (own' : d.contains c.destination.module = true) :
    (d.push (.addConnection c)).Draws (g.withConnection c) := by
  rw [h.contains] at own own'
  exact h.push (Pipeline.apply_addConnection fresh own own') fun _ => rfl

end Draft

end Dataflow
