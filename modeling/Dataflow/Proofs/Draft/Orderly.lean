import Mathlib.Data.List.Induction
import Dataflow.Proofs.Draft.Identifiers

/-! Edits in order. A list of edits is orderly if each edit speaks only of modules that were added before
it, and adds nothing that was added before it. Just such lists apply to the empty pipeline, and they apply
to every pipeline without their identifiers, where they add what is listed and change nothing else. -/

namespace Dataflow

variable {es : List Edit} {e : Edit} {p q : Pipeline}

namespace Edit

/-- One of the edits adds the module. -/
def Adds (es : List Edit) (id : ModuleId) : Prop := ∃ m, addModule m ∈ es ∧ m.id = id

/-- One of the edits adds the connection. -/
def Connects (es : List Edit) (id : ConnectionId) : Prop := ∃ c, addConnection c ∈ es ∧ c.id = id

/-- The edit adds what was not added yet, and speaks of modules that were added. -/
def Follows (before : List Edit) : Edit → Prop
  | .addModule m => ¬ Adds before m.id
  | .setFunction id _ _ => Adds before id
  | .addConnection c =>
    ¬ Connects before c.id ∧ Adds before c.source.module ∧ Adds before c.destination.module

def Orderly (es : List Edit) : Prop :=
  ∀ before e after, es = before ++ e :: after → e.Follows before

/-- The function of a module that an edit sets. -/
def setting? (id : ModuleId) : Edit → Option Module.Function
  | .setFunction m name params => if m = id then some ⟨name, params⟩ else none
  | _ => none

/-- The functions of a module that edits set, in their order. -/
def settings (id : ModuleId) (es : List Edit) : List Module.Function := es.filterMap (setting? id)

theorem settings_concat (id : ModuleId) (es : List Edit) (e : Edit) :
    settings id (es ++ [e]) = settings id es ++ (setting? id e).toList := by
  rw [settings, List.filterMap_append]
  cases set : setting? id e <;> simp [settings, set]

theorem orderly_nil : Orderly [] := by
  intro before e after split
  cases before <;> cases split

theorem orderly_concat_iff : Orderly (es ++ [e]) ↔ Orderly es ∧ e.Follows es := by
  constructor
  · intro orderly
    refine ⟨fun before f after split => orderly before f (after ++ [e]) ?_, orderly es e [] rfl⟩
    rw [split, List.append_assoc, List.cons_append]
  · rintro ⟨orderly, follows⟩ before f after split
    obtain rfl | ⟨after, last, rfl⟩ := List.eq_nil_or_concat after
    · obtain ⟨rfl, same⟩ := List.append_inj' split rfl
      cases same
      exact follows
    · rw [List.concat_eq_append, ← List.cons_append, ← List.append_assoc] at split
      obtain ⟨rfl, -⟩ := List.append_inj' split rfl
      exact orderly before f after rfl

theorem mem_idsOf {es : List Edit} : (∀ id, id ∈ (idsOf es).1 ↔ Adds es id) ∧
    ∀ id, id ∈ (idsOf es).2 ↔ Connects es id := by
  induction es with
  | nil => simp [idsOf, Adds, Connects]
  | cons e es ih =>
    obtain ⟨adds, connects⟩ := ih
    cases e <;> simp [idsOf, ids, Adds, Connects, adds, connects, eq_comm]

/-- Only modules that were added have functions set. -/
theorem Orderly.adds_of_setting (orderly : Orderly es) {id : ModuleId} {f : Module.Function}
    (set : f ∈ settings id es) : Adds es id := by
  obtain ⟨e, listed, sets⟩ := List.mem_filterMap.1 set
  obtain ⟨before, after, rfl⟩ := List.append_of_mem listed
  have follows := orderly before e after rfl
  cases e with
  | addModule | addConnection => cases sets
  | setFunction m name params =>
    simp only [setting?, Option.ite_none_right_eq_some] at sets
    obtain ⟨rfl, -⟩ := sets
    obtain ⟨n, added, same⟩ := follows
    exact ⟨n, List.mem_append_left _ added, same⟩

end Edit

open Edit (Adds Connects Orderly settings)

namespace Pipeline

/-- A pipeline with just the modules and connections more that edits add; the modules have the functions
that are set. -/
structure Plus (p : Pipeline) (es : List Edit) (q : Pipeline) : Prop where
  modules : ∀ {id m}, q.modules.get? id = some m ↔ p.modules.get? id = some m ∨
    ∃ n, .addModule n ∈ es ∧ n.id = id ∧ m = n.setAll (settings id es)
  connections : ∀ {id c}, q.connections.get? id = some c ↔
    p.connections.get? id = some c ∨ .addConnection c ∈ es ∧ c.id = id

theorem plus_nil (p : Pipeline) : p.Plus [] p := ⟨by simp, by simp⟩

variable {id : ModuleId}

theorem Plus.contains_iff (plus : p.Plus es q) :
    q.modules.contains id = true ↔ p.modules.contains id = true ∨ Adds es id := by
  rw [OrderedMap.contains_eq_true_iff, OrderedMap.contains_eq_true_iff]
  constructor
  · rintro ⟨m, found⟩
    obtain old | ⟨n, added, same, -⟩ := plus.modules.1 found
    · exact .inl ⟨m, old⟩
    · exact .inr ⟨n, added, same⟩
  · rintro (⟨m, old⟩ | ⟨n, added, same⟩)
    · exact ⟨m, plus.modules.2 (.inl old)⟩
    · exact ⟨_, plus.modules.2 (.inr ⟨n, added, same, rfl⟩)⟩

theorem Plus.absent_iff (plus : p.Plus es q) :
    q.modules.get? id = none ↔ p.modules.get? id = none ∧ ¬ Adds es id := by
  rw [← OrderedMap.contains_eq_false_iff, ← OrderedMap.contains_eq_false_iff, ← Bool.not_eq_true,
    ← Bool.not_eq_true, plus.contains_iff, not_or]

theorem Plus.unconnected_iff (plus : p.Plus es q) {id : ConnectionId} :
    q.connections.get? id = none ↔ p.connections.get? id = none ∧ ¬ Connects es id := by
  simp only [Option.eq_none_iff_forall_ne_some, ne_eq, plus.connections, not_or, forall_and,
    not_and, Connects, not_exists]

theorem Plus.addModule (plus : p.Plus es q) (orderly : Orderly es) {m : Module}
    (absent : p.modules.get? m.id = none) (new : ¬ Adds es m.id) :
    p.Plus (es ++ [.addModule m]) (q.withModule m) where
  connections {k c} := by
    rw [withModule, plus.connections]
    simp
  modules {k n} := by
    have unset : settings k (es ++ [.addModule m]) = settings k es := by
      rw [Edit.settings_concat]
      exact List.append_nil _
    rw [withModule, OrderedMap.get?_insert, unset]
    split
    · next same =>
      subst same
      have none : settings m.id es = [] :=
        List.eq_nil_iff_forall_not_mem.2 fun f set => new (orderly.adds_of_setting set)
      simp only [absent, none, reduceCtorEq, false_or]
      constructor
      · rintro ⟨⟩
        exact ⟨m, by simp, rfl, rfl⟩
      · rintro ⟨n, added, same, rfl⟩
        obtain old | last := List.mem_append.1 added
        · exact absurd ⟨n, old, same⟩ new
        · cases List.mem_singleton.1 last
          rfl
    · next other =>
      rw [plus.modules]
      refine or_congr_right (exists_congr fun l => and_congr_left fun ⟨same, _⟩ => ?_)
      have ne : l ≠ m := fun eq => other (same.symm.trans (congrArg Module.id eq))
      simp [ne]

theorem Plus.setFunction (plus : p.Plus es q) {k : ModuleId} {m : Module}
    (absent : p.modules.get? k = none) (found : q.modules.get? k = some m) (name : String)
    (params : List String) :
    p.Plus (es ++ [.setFunction k name params])
      { q with modules := q.modules.insert k (m.setFunction name params) } where
  connections {l c} := by
    rw [plus.connections]
    simp
  modules {l n} := by
    rw [OrderedMap.get?_insert, Edit.settings_concat]
    split
    · next same =>
      subst same
      have set : Edit.setting? l (.setFunction l name params) = some ⟨name, params⟩ := if_pos rfl
      have next : ∀ a : Module, a.setAll (settings l es ++ [⟨name, params⟩]) =
          (a.setAll (settings l es)).setFunction name params :=
        fun a => List.foldl_append
      simp only [absent, set, Option.toList_some, next, reduceCtorEq, false_or]
      constructor
      · rintro ⟨⟩
        obtain gone | ⟨a, added, same, rfl⟩ := plus.modules.1 found
        · cases absent.symm.trans gone
        · exact ⟨a, List.mem_append_left _ added, same, rfl⟩
      · rintro ⟨a, added, same, rfl⟩
        obtain old | last := List.mem_append.1 added
        · have found' := plus.modules.2 (.inr ⟨a, old, same, rfl⟩)
          rw [Option.some.inj (found.symm.trans found')]
        · cases List.mem_singleton.1 last
    · next other =>
      have unset : Edit.setting? l (.setFunction k name params) = none := if_neg (Ne.symm other)
      rw [unset, plus.modules]
      simp

theorem Plus.addConnection (plus : p.Plus es q) {c : Connection}
    (absent : p.connections.get? c.id = none) (new : ¬ Connects es c.id) :
    p.Plus (es ++ [.addConnection c]) (q.withConnection c) where
  modules {k n} := by
    have unset : settings k (es ++ [.addConnection c]) = settings k es := by
      rw [Edit.settings_concat]
      exact List.append_nil _
    rw [withConnection, plus.modules, unset]
    simp
  connections {k a} := by
    rw [withConnection, OrderedMap.get?_insert]
    split
    · next same =>
      subst same
      simp only [absent, reduceCtorEq, false_or]
      constructor
      · rintro ⟨⟩
        exact ⟨by simp, rfl⟩
      · rintro ⟨added, same⟩
        obtain old | last := List.mem_append.1 added
        · exact absurd ⟨a, old, same⟩ new
        · cases List.mem_singleton.1 last
          rfl
    · next other =>
      rw [plus.connections]
      refine or_congr_right (and_congr_left fun same => ?_)
      have ne : a ≠ c := fun eq => other (same.symm.trans (congrArg Connection.id eq))
      simp [ne]

theorem absent_of_disjoint {A : Identifiers} (apart : Disjoint p.ids A) :
    (∀ id ∈ A.1, p.modules.get? id = none) ∧ ∀ id ∈ A.2, p.connections.get? id = none := by
  obtain ⟨modules, connections⟩ := Prod.disjoint_iff.1 apart
  constructor
  · intro id new
    rw [← OrderedMap.contains_eq_false_iff, ← Bool.not_eq_true]
    exact fun old => Set.disjoint_left.1 modules old new
  · intro id new
    rw [← OrderedMap.contains_eq_false_iff, ← Bool.not_eq_true]
    exact fun old => Set.disjoint_left.1 connections old new

theorem Plus.apply (plus : p.Plus es q) (orderly : Orderly es)
    (apart : Disjoint p.ids (Edit.idsOf es ⊔ e.ids)) (follows : e.Follows es) :
    ∃ r, q.apply e = .ok r ∧ p.Plus (es ++ [e]) r := by
  have adds : ∀ id, id ∈ (Edit.idsOf es).1 ↔ Adds es id := Edit.mem_idsOf.1
  obtain ⟨absent, absent'⟩ := absent_of_disjoint apart
  cases e with
  | addModule m =>
    have gone : p.modules.get? m.id = none := absent m.id (.inr rfl)
    have fresh : q.modules.get? m.id = none := plus.absent_iff.2 ⟨gone, follows⟩
    exact ⟨_, apply_addModule fresh, plus.addModule orderly gone follows⟩
  | setFunction k name params =>
    have gone : p.modules.get? k = none := absent k (.inl ((adds k).2 follows))
    obtain ⟨m, found⟩ := OrderedMap.contains_eq_true_iff.1 (plus.contains_iff.2 (.inr follows))
    exact ⟨_, apply_setFunction name params found, plus.setFunction gone found name params⟩
  | addConnection c =>
    obtain ⟨new, source, destination⟩ := follows
    have gone : p.connections.get? c.id = none := absent' c.id (.inr rfl)
    have fresh : q.connections.get? c.id = none := plus.unconnected_iff.2 ⟨gone, new⟩
    exact ⟨_, apply_addConnection fresh (plus.contains_iff.2 (.inr source))
      (plus.contains_iff.2 (.inr destination)), plus.addConnection gone new⟩

theorem Plus.follows (plus : empty.Plus es q) {r : Pipeline} (applies : q.apply e = .ok r) :
    e.Follows es := by
  have added : ∀ {id}, q.modules.contains id = true → Adds es id := fun there =>
    (plus.contains_iff.1 there).resolve_left nofun
  obtain ⟨m, rfl, fresh, -⟩ | ⟨id, name, params, m, rfl, found, -⟩ |
    ⟨c, rfl, fresh, source, destination, -⟩ := apply_cases applies
  · exact (plus.absent_iff.1 fresh).2
  · exact added (OrderedMap.contains_eq_true_iff.2 ⟨m, found⟩)
  · exact ⟨(plus.unconnected_iff.1 fresh).2, added source, added destination⟩

/-- Orderly edits apply where none of their identifiers is, and add just what they list. -/
theorem plus_of_orderly (orderly : Orderly es) (apart : Disjoint p.ids (Edit.idsOf es)) :
    ∃ q, p.applyAll es = .ok q ∧ p.Plus es q := by
  -- by the last edit, since each speaks of those before it
  induction es using List.reverseRecOn with
  | nil => exact ⟨p, rfl, p.plus_nil⟩
  | append_singleton es e ih =>
    obtain ⟨before, follows⟩ := Edit.orderly_concat_iff.1 orderly
    rw [Edit.idsOf_append, Edit.idsOf_singleton] at apart
    obtain ⟨q, applies, plus⟩ := ih before (apart.mono_right le_sup_left)
    obtain ⟨r, last, plus'⟩ := plus.apply before apart follows
    refine ⟨r, applyAll_append_ok.2 ⟨q, applies, ?_⟩, plus'⟩
    rw [applyAll_singleton, last]

end Pipeline

/-- Just the orderly edits apply to the empty pipeline. -/
theorem Edit.orderly_iff : Orderly es ↔ ∃ g, Pipeline.empty.applyAll es = .ok g := by
  have apart : ∀ A, Disjoint Pipeline.empty.ids A := fun A => by
    rw [Pipeline.ids_empty]
    exact disjoint_bot_left
  constructor
  · intro orderly
    obtain ⟨g, applies, -⟩ := Pipeline.plus_of_orderly orderly (apart _)
    exact ⟨g, applies⟩
  · intro applies
    induction es using List.reverseRecOn with
    | nil => exact orderly_nil
    | append_singleton es e ih =>
      obtain ⟨r, applies⟩ := applies
      obtain ⟨q, first, last⟩ := Pipeline.applyAll_append_ok.1 applies
      have before := ih ⟨q, first⟩
      obtain ⟨q', first', plus⟩ := Pipeline.plus_of_orderly before (apart _)
      cases first.symm.trans first'
      rw [Pipeline.applyAll_singleton] at last
      exact orderly_concat_iff.2 ⟨before, plus.follows last⟩

namespace Draft

variable {d : Draft} {g : Pipeline}

theorem Draws.orderly (draws : d.Draws g) : Orderly d.edits := Edit.orderly_iff.2 ⟨g, draws.edits⟩

theorem Draws.applies (draws : d.Draws g) (apart : Disjoint p.ids d.ids) :
    ∃ q, p.applyAll d.edits = .ok q ∧ p.Plus d.edits q :=
  Pipeline.plus_of_orderly draws.orderly apart

theorem Draws.contains_iff_adds (draws : d.Draws g) (id : ModuleId) :
    d.contains id = true ↔ Adds d.edits id := by
  rw [← Edit.mem_idsOf.1, draws.contains]
  exact Set.ext_iff.1 (congrArg Prod.fst draws.ids_eq) id

end Draft

end Dataflow
