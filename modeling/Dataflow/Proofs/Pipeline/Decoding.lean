import Dataflow.Proofs.Pipeline.WellFormed
import Dataflow.Proofs.Provenance
import Mathlib.Data.List.Nodup

/-! Reading pipelines from their two lists, and listing them again. Lists are read as a pipeline if
identifiers are distinct and connections join listed modules, in whatever order they come; a pipeline
lists what it holds by identifier, and what any edits lead to is read back from its own lists. A value
of JSON keeps the lists as they are, as long as identifiers have 64 bits. -/

namespace Dataflow

namespace OrderedMap

variable {α : Type u} {key : α → Nat} {m : OrderedMap Nat α} {as : List α} {a : α} {k : Nat}

/-- Values put in one after the other, under the keys that they carry. -/
def filled (key : α → Nat) (m : OrderedMap Nat α) (as : List α) : OrderedMap Nat α :=
  as.foldl (fun m a => m.insert (key a) a) m

/-- Values with keys of their own that are not in the map yet. -/
def Fresh (key : α → Nat) (m : OrderedMap Nat α) (as : List α) : Prop :=
  (as.map key).Nodup ∧ ∀ a ∈ as, m.get? (key a) = none

theorem fresh_nil : Fresh key m [] := ⟨.nil, fun _ h => absurd h List.not_mem_nil⟩

theorem fresh_empty : Fresh key ∅ as ↔ (as.map key).Nodup :=
  and_iff_left fun _ _ => rfl

theorem fresh_cons :
    Fresh key m (a :: as) ↔ m.get? (key a) = none ∧ Fresh key (m.insert (key a) a) as := by
  simp only [Fresh, List.map_cons, List.nodup_cons, List.forall_mem_cons, get?_insert,
    List.mem_map, not_exists, not_and]
  constructor
  · rintro ⟨⟨apart, distinct⟩, new, news⟩
    exact ⟨new, distinct, fun b hb => by rw [if_neg (apart b hb), news b hb]⟩
  · rintro ⟨new, distinct, news⟩
    have apart : ∀ b ∈ as, key b ≠ key a := fun b hb same => by simpa [same] using news b hb
    exact ⟨⟨apart, distinct⟩, new, fun b hb => by simpa [apart b hb] using news b hb⟩

theorem get?_filled (fresh : Fresh key m as) :
    (filled key m as).get? k = some a ↔ m.get? k = some a ∨ a ∈ as ∧ key a = k := by
  induction as generalizing m with
  | nil => simp [filled]
  | cons b as ih =>
    obtain ⟨new, fresh⟩ := fresh_cons.1 fresh
    rw [filled, List.foldl_cons]
    refine (ih fresh).trans ?_
    rw [get?_insert, List.mem_cons]
    grind

theorem values_empty : (∅ : OrderedMap Nat α).values = [] := rfl

theorem values_filled_perm (fresh : Fresh key m as) :
    (filled key m as).values.Perm (as ++ m.values) := by
  induction as generalizing m with
  | nil => exact .refl _
  | cons a as ih =>
    obtain ⟨new, fresh⟩ := fresh_cons.1 fresh
    exact (ih fresh).trans (((values_insert_perm new a).append_left as).trans List.perm_middle)

/-- Every value is under the key that it carries. -/
def Keyed (key : α → Nat) (m : OrderedMap Nat α) : Prop := ∀ {k a}, m.get? k = some a → key a = k

theorem Keyed.map_values (keyed : m.Keyed key) : m.values.map key = m.keys := by
  rw [values, keys, List.map_map]
  exact List.map_congr_left fun e he => keyed (get?_eq_some_iff.2 he)

theorem Keyed.ascending (keyed : m.Keyed key) : m.values.Pairwise fun a b => key a < key b := by
  have := m.ascending_keys
  rw [← keyed.map_values, List.pairwise_map] at this
  exact this.imp Nat.compare_eq_lt.1

/-- A list in the order of the keys of its members. -/
def inOrder (key : α → Nat) (as : List α) : List α := as.mergeSort fun a b => decide (key a ≤ key b)

theorem pairwise_inOrder (key : α → Nat) (as : List α) :
    (inOrder key as).Pairwise fun a b => key a ≤ key b := by
  have sorted : (inOrder key as).Pairwise fun a b => decide (key a ≤ key b) = true :=
    List.pairwise_mergeSort (fun a b c => by simpa using Nat.le_trans)
      (fun a b => by simpa using Nat.le_total ..) as
  simpa using sorted

/-- Distinct keys leave one order only. -/
theorem Keyed.values_eq (keyed : m.Keyed key) (perm : m.values.Perm as) :
    m.values = inOrder key as := by
  have distinct : (m.values.map key).Nodup := keyed.map_values ▸ m.nodup_keys
  have same : m.values.Perm (inOrder key as) := perm.trans (List.mergeSort_perm ..).symm
  refine List.Perm.eq_of_pairwise (fun a b ha hb le ge => ?_)
    (keyed.ascending.imp Nat.le_of_lt) (pairwise_inOrder key as) same
  exact List.inj_on_of_nodup_map distinct ha (same.mem_iff.2 hb) (Nat.le_antisymm le ge)

theorem Keyed.filled_values (keyed : m.Keyed key) : filled key ∅ m.values = m := by
  have distinct : Fresh key ∅ m.values := fresh_empty.2 (keyed.map_values ▸ m.nodup_keys)
  refine ext_get? fun k => Option.ext fun a => ?_
  rw [get?_filled distinct, mem_values_iff]
  constructor
  · rintro (absent | ⟨⟨l, found⟩, rfl⟩)
    · cases absent
    · rwa [keyed found]
  · intro found
    exact .inr ⟨⟨k, found⟩, keyed found⟩

end OrderedMap

/-! Each part of a document is read back from its own value. -/

section Values

open Json (Decoded)

open Provenance (takeMembers_cons_of_ok mapM_asString)

theorem Json.asId_nat {n : Nat} (small : n < UInt64.size) : asId (.nat n) = .ok n := by
  simp only [asId, asNat, nat, Number.integer?_ofInt]
  exact if_pos small

theorem Json.asList_map {α : Type} {f : α → Json} {read : Json → Decoded α} {as : List α}
    (reads : ∀ a ∈ as, read (f a) = .ok a) : asList read (.array (as.map f)) = .ok as := by
  rw [asList]
  induction as with
  | nil => rfl
  | cons a as ih =>
    obtain ⟨first, reads⟩ := List.forall_mem_cons.1 reads
    rw [List.map_cons, List.mapM_cons, first, ih reads]
    rfl

theorem Module.Function.ofJson_toJson (f : Module.Function) : ofJson f.toJson = .ok f := by
  have params := congrArg (Except.map fun a => (some f.name, some a)) (mapM_asString f.params)
  rw [ofJson, toJson, Json.record,
    takeMembers_cons_of_ok (v := .string f.name) (by rintro ⟨⟩) rfl rfl _ rfl,
    takeMembers_cons_of_ok (v := Json.ofStrings f.params) (by rintro ⟨⟩) rfl rfl _ params]
  rfl

theorem Module.ofJson_toJson {m : Module} (small : m.id < UInt64.size) :
    ofJson m.toJson = .ok m := by
  have id := congrArg
    (Except.map fun a => (some a, (none : Option TypeName), (none : Option (List Function))))
    (Json.asId_nat small)
  have functions := congrArg (Except.map fun a => (some m.id, some m.type, some a))
    (Json.asList_map fun (f : Function) (_ : f ∈ m.functions) => f.ofJson_toJson)
  rw [ofJson, toJson, members, Json.record,
    takeMembers_cons_of_ok (v := .nat m.id) (by rintro ⟨⟩) rfl rfl _ id,
    takeMembers_cons_of_ok (v := m.type.toJson) (by rintro ⟨⟩) rfl rfl _ rfl,
    takeMembers_cons_of_ok (v := .array _) (by rintro ⟨⟩) rfl rfl _ functions]
  rfl

theorem PortRef.ofJson_toJson {r : PortRef} (small : r.module < UInt64.size) :
    ofJson r.toJson = .ok r := by
  have module := congrArg (Except.map fun a => (some a, (none : Option String)))
    (Json.asId_nat small)
  rw [ofJson, toJson, Json.record,
    takeMembers_cons_of_ok (v := .nat r.module) (by rintro ⟨⟩) rfl rfl _ module,
    takeMembers_cons_of_ok (v := .string r.port) (by rintro ⟨⟩) rfl rfl _ rfl]
  rfl

theorem Connection.ofJson_toJson {c : Connection} (small : c.id < UInt64.size)
    (source : c.source.module < UInt64.size) (destination : c.destination.module < UInt64.size) :
    ofJson c.toJson = .ok c := by
  have id := congrArg
    (Except.map fun a => (some a, (none : Option PortRef), (none : Option PortRef)))
    (Json.asId_nat small)
  have source := congrArg (Except.map fun a => (some c.id, some a, (none : Option PortRef)))
    (PortRef.ofJson_toJson source)
  have destination := congrArg (Except.map fun a => (some c.id, some c.source, some a))
    (PortRef.ofJson_toJson destination)
  rw [ofJson, toJson, members, Json.record,
    takeMembers_cons_of_ok (v := .nat c.id) (by rintro ⟨⟩) rfl rfl _ id,
    takeMembers_cons_of_ok (v := c.source.toJson) (by rintro ⟨⟩) rfl rfl _ source,
    takeMembers_cons_of_ok (v := c.destination.toJson) (by rintro ⟨⟩) rfl rfl _ destination]
  rfl

end Values

namespace Pipeline

open OrderedMap (Fresh filled fresh_nil fresh_cons fresh_empty get?_filled inOrder
  values_filled_perm)

variable {p q : Pipeline} {ms : List Module} {cs : List Connection}

/-- An edit of a pipeline in place, one check after the other. -/
def perform : Edit → ExceptT HostFault (StateM Pipeline) Unit
  | .addModule m => do
    if (← get).modules.contains m.id then throw (.duplicateModule m.id)
    modify fun p => { p with modules := p.modules.insert m.id m }
  | .setFunction id name params => do
    match (← get).modules.get? id with
    | some m => modify fun p => { p with modules := p.modules.insert id (m.setFunction name params) }
    | none => throw (.functionOnMissing id)
  | .addConnection c => do
    let p ← get
    if p.connections.contains c.id then throw (.duplicateConnection c.id)
    if let some m := p.missingEnd? c then throw (.danglingConnection c.id m)
    modify fun p => { p with connections := p.connections.insert c.id c }

/-- The answer to an edit, and the pipeline after it. -/
def edited (p : Pipeline) (e : Edit) : Except HostFault Unit × Pipeline :=
  Id.run (StateT.run (ExceptT.run (perform e)) p)

/-- An edit that is refused leaves the pipeline alone. -/
theorem edited_eq (p : Pipeline) (e : Edit) :
    p.edited e = match p.apply e with
      | .ok q => (.ok (), q)
      | .error fault => (.error fault, p) := by
  cases e with
  | addModule m =>
    show Id.run (StateT.run (ExceptT.run
      (if p.modules.contains m.id = true then _ else _)) p) = _
    rw [apply]
    split <;> rfl
  | setFunction id name params =>
    show Id.run (StateT.run (ExceptT.run
      (match p.modules.get? id with | some m => _ | none => _)) p) = _
    rw [apply]
    cases p.modules.get? id with
    | some m => rfl
    | none => rfl
  | addConnection c =>
    show Id.run (StateT.run (ExceptT.run
      (if p.connections.contains c.id = true then _ else _)) p) = _
    rw [apply]
    split
    · rfl
    · cases p.missingEnd? c with
      | some m => rfl
      | none => rfl

/-- The two lists of a pipeline's file. -/
def parts (p : Pipeline) : List Module × List Connection := (p.modules.values, p.connections.values)

/-- Lists without an identifier that comes twice or a connection whose ends are not listed. -/
structure Consistent (ms : List Module) (cs : List Connection) : Prop where
  modules : (ms.map Module.id).Nodup
  connections : (cs.map Connection.id).Nodup
  source : ∀ c ∈ cs, c.source.module ∈ ms.map Module.id
  destination : ∀ c ∈ cs, c.destination.module ∈ ms.map Module.id

/-- A pipeline of all that is listed and nothing else, which it lists by identifier. -/
structure Holds (p : Pipeline) (ms : List Module) (cs : List Connection) : Prop where
  module : ∀ id m, p.modules.get? id = some m ↔ m ∈ ms ∧ m.id = id
  connection : ∀ id c, p.connections.get? id = some c ↔ c ∈ cs ∧ c.id = id
  parts : p.parts = (inOrder Module.id ms, inOrder Connection.id cs)

theorem partsOfJson_toJson (modules : ∀ m ∈ p.modules.values, m.id < UInt64.size)
    (connections : ∀ c ∈ p.connections.values, c.id < UInt64.size ∧
      c.source.module < UInt64.size ∧ c.destination.module < UInt64.size) :
    partsOfJson p.toJson = .ok p.parts := by
  have modules := congrArg (Except.map fun a => (some a, (none : Option (List Connection))))
    (Json.asList_map fun m hm => Module.ofJson_toJson (modules m hm))
  have connections := congrArg (Except.map fun a => (some p.modules.values, some a))
    (Json.asList_map fun c hc => by
      obtain ⟨id, source, destination⟩ := connections c hc
      exact Connection.ofJson_toJson id source destination)
  rw [partsOfJson, toJson, Json.record,
    Provenance.takeMembers_cons_of_ok (v := .array _) (by rintro ⟨⟩) rfl rfl _ modules,
    Provenance.takeMembers_cons_of_ok (v := .array _) (by rintro ⟨⟩) rfl rfl _ connections]
  rfl

theorem apply_addModule_iff {m : Module} :
    p.apply (.addModule m) = .ok q ↔
      p.modules.get? m.id = none ∧ q = { p with modules := p.modules.insert m.id m } := by
  constructor
  · intro applied
    obtain ⟨_, same, new, rfl⟩ | ⟨_, _, _, _, other, _⟩ | ⟨_, other, _⟩ := apply_cases applied
    · cases same
      exact ⟨new, rfl⟩
    · cases other
    · cases other
  · rintro ⟨new, rfl⟩
    exact apply_addModule new

theorem apply_addConnection_iff {c : Connection} :
    p.apply (.addConnection c) = .ok q ↔
      p.connections.get? c.id = none ∧ p.modules.contains c.source.module = true ∧
        p.modules.contains c.destination.module = true ∧
        q = { p with connections := p.connections.insert c.id c } := by
  constructor
  · intro applied
    obtain ⟨_, other, _⟩ | ⟨_, _, _, _, other, _⟩ | ⟨_, same, new, source, destination, rfl⟩ :=
      apply_cases applied
    · cases other
    · cases other
    · cases same
      exact ⟨new, source, destination, rfl⟩
  · rintro ⟨new, source, destination, rfl⟩
    exact apply_addConnection new source destination

theorem applyAll_addModules :
    p.applyAll (ms.map .addModule) = .ok q ↔
      Fresh Module.id p.modules ms ∧ q = { p with modules := filled Module.id p.modules ms } := by
  induction ms generalizing p with
  | nil =>
    rw [and_iff_right fresh_nil, List.map_nil, applyAll, Except.ok.injEq]
    exact eq_comm
  | cons m ms ih =>
    simp only [List.map_cons, applyAll_cons, apply_addModule_iff, ih, fresh_cons]
    constructor
    · rintro ⟨_, ⟨new, rfl⟩, fresh, rfl⟩
      exact ⟨⟨new, fresh⟩, rfl⟩
    · rintro ⟨⟨new, fresh⟩, rfl⟩
      exact ⟨_, ⟨new, rfl⟩, fresh, rfl⟩

theorem applyAll_addConnections :
    p.applyAll (cs.map .addConnection) = .ok q ↔
      Fresh Connection.id p.connections cs ∧
        (∀ c ∈ cs, p.modules.contains c.source.module = true ∧
          p.modules.contains c.destination.module = true) ∧
        q = { p with connections := filled Connection.id p.connections cs } := by
  induction cs generalizing p with
  | nil =>
    rw [and_iff_right fresh_nil, and_iff_right fun _ h => absurd h List.not_mem_nil, List.map_nil,
      applyAll, Except.ok.injEq]
    exact eq_comm
  | cons c cs ih =>
    simp only [List.map_cons, applyAll_cons, apply_addConnection_iff, ih, fresh_cons,
      List.forall_mem_cons]
    constructor
    · rintro ⟨_, ⟨new, source, destination, rfl⟩, fresh, joined, rfl⟩
      exact ⟨⟨new, fresh⟩, ⟨⟨source, destination⟩, joined⟩, rfl⟩
    · rintro ⟨⟨new, fresh⟩, ⟨⟨source, destination⟩, joined⟩, rfl⟩
      exact ⟨_, ⟨new, source, destination, rfl⟩, fresh, joined, rfl⟩

theorem contains_filled {id : ModuleId} (distinct : (ms.map Module.id).Nodup) :
    (filled Module.id ∅ ms).contains id = true ↔ id ∈ ms.map Module.id := by
  simp only [OrderedMap.contains_eq_true_iff, get?_filled (fresh_empty.2 distinct),
    OrderedMap.get?_empty, List.mem_map, reduceCtorEq, false_or]

theorem ofParts_eq_ok :
    ofParts ms cs = .ok p ↔
      Consistent ms cs ∧ p = ⟨filled Module.id ∅ ms, filled Connection.id ∅ cs⟩ := by
  simp only [ofParts, applyAll_append_ok, applyAll_addModules, applyAll_addConnections]
  constructor
  · rintro ⟨_, ⟨modules, rfl⟩, connections, joined, rfl⟩
    have modules := fresh_empty.1 modules
    refine ⟨⟨modules, fresh_empty.1 connections, fun c hc => ?_, fun c hc => ?_⟩, rfl⟩
    · exact (contains_filled modules).1 (joined c hc).1
    · exact (contains_filled modules).1 (joined c hc).2
  · rintro ⟨⟨modules, connections, source, destination⟩, rfl⟩
    refine ⟨_, ⟨fresh_empty.2 modules, rfl⟩, fresh_empty.2 connections, fun c hc => ?_, rfl⟩
    exact ⟨(contains_filled modules).2 (source c hc),
      (contains_filled modules).2 (destination c hc)⟩

theorem holds_of_ofParts (read : ofParts ms cs = .ok p) : p.Holds ms cs := by
  obtain ⟨consistent, rfl⟩ := ofParts_eq_ok.1 read
  have modules := fresh_empty.2 consistent.modules
  have connections := fresh_empty.2 consistent.connections
  have wellFormed := wellFormed_ofParts read
  constructor
  case module =>
    intro id m
    rw [get?_filled modules, OrderedMap.get?_empty, or_iff_right nofun]
  case connection =>
    intro id c
    rw [get?_filled connections, OrderedMap.get?_empty, or_iff_right nofun]
  case parts =>
    have moduleKeys : (filled Module.id ∅ ms).Keyed Module.id := wellFormed.module_id
    have connectionKeys : (filled Connection.id ∅ cs).Keyed Connection.id :=
      wellFormed.connection_id
    have moduleValues := values_filled_perm modules
    have connectionValues := values_filled_perm connections
    rw [OrderedMap.values_empty, List.append_nil] at moduleValues connectionValues
    exact congrArg₂ Prod.mk (moduleKeys.values_eq moduleValues)
      (connectionKeys.values_eq connectionValues)

theorem WellFormed.ofParts_parts (h : p.WellFormed) : ofParts p.parts.1 p.parts.2 = .ok p := by
  have modules : p.modules.Keyed Module.id := h.module_id
  have connections : p.connections.Keyed Connection.id := h.connection_id
  rw [parts, ofParts_eq_ok, modules.filled_values, connections.filled_values]
  have listed : ∀ {id}, p.modules.contains id = true → id ∈ p.modules.values.map Module.id :=
    fun there => by rwa [modules.map_values, ← OrderedMap.contains_iff]
  refine ⟨⟨?_, ?_, fun c hc => ?_, fun c hc => ?_⟩, rfl⟩
  · exact modules.map_values ▸ p.modules.nodup_keys
  · exact connections.map_values ▸ p.connections.nodup_keys
  · obtain ⟨id, found⟩ := OrderedMap.mem_values_iff.1 hc
    exact listed (h.source found)
  · obtain ⟨id, found⟩ := OrderedMap.mem_values_iff.1 hc
    exact listed (h.destination found)

/-- What a pipeline is written as is read as that pipeline. -/
theorem WellFormed.ofJson_toJson (h : p.WellFormed)
    (modules : ∀ id, p.modules.contains id = true → id < UInt64.size)
    (connections : ∀ id, p.connections.contains id = true → id < UInt64.size) :
    ofJson p.toJson = .ok p := by
  have written : partsOfJson p.toJson = .ok p.parts := by
    refine partsOfJson_toJson (fun m hm => ?_) fun c hc => ?_
    · obtain ⟨id, found⟩ := OrderedMap.mem_values_iff.1 hm
      rw [h.module_id found]
      exact modules id (OrderedMap.contains_eq_true_iff.2 ⟨m, found⟩)
    · obtain ⟨id, found⟩ := OrderedMap.mem_values_iff.1 hc
      refine ⟨?_, modules _ (h.source found), modules _ (h.destination found)⟩
      rw [h.connection_id found]
      exact connections id (OrderedMap.contains_eq_true_iff.2 ⟨c, found⟩)
  unfold ofJson
  rw [written]
  exact congrArg (Except.mapError _) h.ofParts_parts

/-- Lists are read as a pipeline if they are consistent, and then as one of all that is listed, which
lists it by identifier. Whatever edits lead to is read back from what it lists, and an edit that is
refused changes nothing. -/
theorem decoding_exact (ms : List Module) (cs : List Connection) :
    ((∃ p, ofParts ms cs = .ok p) ↔ Consistent ms cs) ∧
      (∀ p, ofParts ms cs = .ok p → p.Holds ms cs) ∧
      (∀ es p, empty.applyAll es = .ok p → ofParts p.parts.1 p.parts.2 = .ok p) ∧
      ∀ p e, match edited p e with
        | (.ok _, q) => p.apply e = .ok q
        | (.error _, q) => q = p := by
  refine ⟨⟨?_, ?_⟩, fun p => holds_of_ofParts, fun es p reached => ?_, fun p e => ?_⟩
  · rintro ⟨p, read⟩
    exact (ofParts_eq_ok.1 read).1
  · exact fun consistent => ⟨_, ofParts_eq_ok.2 ⟨consistent, rfl⟩⟩
  · exact (wellFormed_empty.applyAll reached).ofParts_parts
  · rw [edited_eq]
    cases applied : p.apply e with
    | ok q => rfl
    | error fault => rfl

end Pipeline

end Dataflow
