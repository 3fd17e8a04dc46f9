import Mathlib.Data.List.Induction
import Dataflow.Proofs.Draft.Edits
import Dataflow.Proofs.Draft.Functions

/-! What is left of a list of functions that are set one after another, and where copies end up whose
functions are set so: whatever edits come before and after them, unless a function of theirs is set. -/

namespace Dataflow

namespace Module

/-- What a function is set to last, if it is set to `f` first and then comes a list. -/
def lastSetting (f : Function) (fs : List Function) : Function :=
  (fs.reverse.find? fun g => g.name == f.name).getD f

/-- Each function once, at its first place in the list, with the values that it is set to last. -/
def settled : List Function → List Function
  | [] => []
  | f :: fs => lastSetting f fs :: (settled fs).filter fun g => g.name != f.name

@[simp] theorem name_lastSetting (f : Function) (fs : List Function) :
    (lastSetting f fs).name = f.name := by
  unfold lastSetting
  cases last : fs.reverse.find? fun g => g.name == f.name with
  | none => rfl
  | some g => simpa using List.find?_some last

theorem lastSetting_concat (f : Function) (fs : List Function) (g : Function) :
    lastSetting f (fs ++ [g]) = if g.name = f.name then g else lastSetting f fs := by
  unfold lastSetting
  by_cases same : g.name = f.name <;> simp [same]

theorem filter_setFunctions_self (f : Function) (fs : List Function) :
    (setFunctions f.name f.params fs).filter (fun g => g.name != f.name) =
      fs.filter fun g => g.name != f.name := by
  induction fs with
  | nil => simp [setFunctions]
  | cons g fs ih =>
    rw [setFunctions]
    split
    · next same => simp [same]
    · next other => rw [List.filter_cons, List.filter_cons, ih]

theorem filter_setFunctions_of_ne {name : String} {f : Function} (other : f.name ≠ name)
    (fs : List Function) :
    (setFunctions f.name f.params fs).filter (fun g => g.name != name) =
      setFunctions f.name f.params (fs.filter fun g => g.name != name) := by
  induction fs with
  | nil => simp [setFunctions, other]
  | cons g fs ih =>
    by_cases same : g.name = f.name
    · simp [setFunctions, same, other]
    · by_cases out : g.name = name
      · rw [setFunctions, if_neg same, List.filter_cons_of_neg (by simp [out]), ih,
          List.filter_cons_of_neg (by simp [out])]
      · rw [setFunctions, if_neg same, List.filter_cons_of_pos (by simp [out]), ih,
          List.filter_cons_of_pos (by simp [out]), setFunctions, if_neg same]

theorem settled_concat (fs : List Function) (f : Function) :
    settled (fs ++ [f]) = setFunctions f.name f.params (settled fs) := by
  induction fs with
  | nil => rfl
  | cons g fs ih =>
    rw [List.cons_append, settled, settled, setFunctions, name_lastSetting, lastSetting_concat, ih]
    by_cases same : g.name = f.name
    · rw [if_pos same, if_pos same.symm, same, filter_setFunctions_self]
    · rw [if_neg same, if_neg (Ne.symm same), filter_setFunctions_of_ne (Ne.symm same)]

/-- A copy has the functions that are left when those of the original were set one by one. -/
theorem functions_copied (m : Module) (id : ModuleId) :
    (m.copied id).functions = settled m.functions := by
  suffices all : ∀ fs : List Function, (setAll ⟨id, m.type, []⟩ fs).functions = settled fs from
    all m.functions
  intro fs
  induction fs using List.reverseRecOn with
  | nil => rfl
  | append_singleton fs f ih =>
    rw [settled_concat, ← ih, setAll, List.foldl_append]
    rfl

theorem nodup_settled (fs : List Function) : ((settled fs).map Function.name).Nodup := by
  induction fs using List.reverseRecOn with
  | nil => exact List.nodup_nil
  | append_singleton fs f ih =>
    rw [settled_concat]
    exact nodup_setFunctions f.name f.params ih

/-- All functions are left as they are just if none is set twice. -/
theorem settled_eq_self_iff {fs : List Function} :
    settled fs = fs ↔ (fs.map Function.name).Nodup := by
  refine ⟨fun same => same ▸ nodup_settled fs, fun distinct => ?_⟩
  have copy := functions_copied ⟨0, ⟨"", ""⟩, fs⟩ 0
  rwa [copied_functions distinct, eq_comm] at copy

/-- A function is set to what it was set to last. -/
theorem find?_settled (fs : List Function) (name : String) :
    (settled fs).find? (fun f => f.name == name) = fs.reverse.find? fun f => f.name == name := by
  induction fs with
  | nil => rfl
  | cons f fs ih =>
    rw [settled, List.reverse_cons, List.find?_append]
    by_cases same : f.name = name
    · rw [List.find?_cons_of_pos (by simp [same])]
      unfold lastSetting
      subst same
      cases fs.reverse.find? fun g => g.name == f.name <;> simp
    · have unlisted : (settled fs).find? (fun g => decide ((g.name != f.name) = true ∧
          (g.name == name) = true)) = (settled fs).find? fun g => g.name == name := by
        refine congrArg (fun p => (settled fs).find? p) (funext fun g => ?_)
        by_cases here : g.name = name
        · simp [here, Ne.symm same]
        · simp [here]
      rw [List.find?_cons_of_neg (by simp [same]), List.find?_filter, unlisted, ih]
      simp [same]

/-- A copy whose functions were set one by one: what is left of them, so all of them as they were just
if none is set twice; and each function has the values that it was set to last. -/
structure Settles (m copy : Module) : Prop where
  type : copy.type = m.type
  functions : copy.functions = settled m.functions
  verbatim : copy.functions = m.functions ↔ (m.functions.map Function.name).Nodup
  value : ∀ name, copy.value? name =
    (m.functions.reverse.find? fun f => f.name == name).bind (·.params.head?)

theorem settles_copied (m : Module) (id : ModuleId) : m.Settles (m.copied id) where
  type := copied_type m id
  functions := functions_copied m id
  verbatim := by rw [functions_copied, settled_eq_self_iff]
  value name := by
    rw [value?, functions_copied, find?_settled]
    cases m.functions.reverse.find? fun f => f.name == name <;> rfl

end Module

/-- The edit sets a function of the module. -/
def Edit.Sets (id : ModuleId) : Edit → Prop
  | .setFunction m _ _ => m = id
  | _ => False

namespace Pipeline

variable {p q : Pipeline} {id : ModuleId} {m : Module}

theorem get?_apply_of_not_sets {e : Edit} (found : p.modules.get? id = some m)
    (spared : ¬ e.Sets id) (h : p.apply e = .ok q) : q.modules.get? id = some m := by
  obtain ⟨n, rfl, fresh, rfl⟩ | ⟨k, name, params, n, rfl, -, rfl⟩ | ⟨c, rfl, -, -, -, rfl⟩ :=
    apply_cases h
  · rw [OrderedMap.get?_insert_of_ne, found]
    rintro rfl
    cases found.symm.trans fresh
  · rw [OrderedMap.get?_insert_of_ne, found]
    exact fun same => spared same.symm
  · exact found

theorem get?_applyAll_of_not_sets {es : List Edit} (found : p.modules.get? id = some m)
    (spared : ∀ e ∈ es, ¬ e.Sets id) (h : p.applyAll es = .ok q) : q.modules.get? id = some m := by
  induction es generalizing p with
  | nil =>
    cases h
    exact found
  | cons e es ih =>
    obtain ⟨r, first, rest⟩ := applyAll_cons.1 h
    obtain ⟨spared, others⟩ := List.forall_mem_cons.1 spared
    exact ih (get?_apply_of_not_sets found spared first) others rest

theorem get?_applyAll_copyEdits (h : p.applyAll (m.copyEdits id) = .ok q) :
    q.modules.get? id = some (m.copied id) := by
  obtain ⟨r, first, rest⟩ := applyAll_cons.1 h
  obtain ⟨n, same, -, rfl⟩ | ⟨_, _, _, _, ⟨⟩, -⟩ | ⟨_, ⟨⟩, -⟩ := apply_cases first
  cases same
  have sets := applyAll_setFunctions (p := { p with modules := p.modules.insert id ⟨id, m.type, []⟩ })
    m.functions (OrderedMap.get?_insert_self ..)
  cases sets.symm.trans rest
  exact OrderedMap.get?_insert_self ..

/-- Where copies of modules are among the edits, and no function of theirs is set after them, they are
in the pipeline. -/
theorem get?_applyAll_copies {before after : List Edit} {ms : List Module} {f : ModuleId → ModuleId}
    (distinct : (ms.map fun m => f m.id).Nodup)
    (spared : ∀ m ∈ ms, ∀ e ∈ after, ¬ e.Sets (f m.id))
    (h : p.applyAll (before ++ ms.flatMap (fun m => m.copyEdits (f m.id)) ++ after) = .ok q) :
    ∀ m ∈ ms, q.modules.get? (f m.id) = some (m.copied (f m.id)) := by
  intro m hm
  obtain ⟨as, bs, rfl⟩ := List.append_of_mem hm
  rw [List.flatMap_append, List.flatMap_cons] at h
  obtain ⟨_, first, last⟩ := applyAll_append_ok.1 h
  obtain ⟨_, -, copies⟩ := applyAll_append_ok.1 first
  obtain ⟨_, -, copies⟩ := applyAll_append_ok.1 copies
  obtain ⟨_, copy, others⟩ := applyAll_append_ok.1 copies
  refine get?_applyAll_of_not_sets ?_ (spared m hm) last
  refine get?_applyAll_of_not_sets (get?_applyAll_copyEdits copy) (fun e he sets => ?_) others
  obtain ⟨n, hn, he⟩ := List.mem_flatMap.1 he
  have other : f m.id ≠ f n.id := by
    rw [List.map_append, List.map_cons, List.nodup_append] at distinct
    obtain ⟨-, distinct, -⟩ := distinct
    exact fun same => (List.nodup_cons.1 distinct).1 (List.mem_map.2 ⟨n, hn, same.symm⟩)
  obtain rfl | he := List.mem_cons.1 he
  · exact sets
  · obtain ⟨g, -, rfl⟩ := List.mem_map.1 he
    exact other sets.symm

end Pipeline

namespace Draft

/-- A draft was continued by edits that set no function of modules below a number. -/
def Continues (n : ModuleId) (d e : Draft) : Prop :=
  ∃ es, e.edits = d.edits ++ es ∧ ∀ id < n, ∀ edit ∈ es, ¬ edit.Sets id

variable {n : ModuleId} {d e e' : Draft} {s t : Store}

theorem Continues.refl (n : ModuleId) (d : Draft) : Continues n d d := ⟨[], by simp, by simp⟩

theorem Continues.trans (first : Continues n d e) (rest : Continues n e e') : Continues n d e' := by
  obtain ⟨es, edits, spared⟩ := first
  obtain ⟨es', edits', spared'⟩ := rest
  refine ⟨es ++ es', by rw [edits', edits, List.append_assoc], fun id low edit listed => ?_⟩
  exact (List.mem_append.1 listed).elim (spared id low edit) (spared' id low edit)

theorem continues_connect {source destination : PortRef} {id : ConnectionId}
    (run : (d.connect source destination).on s = (.ok (id, e), t)) : Continues n d e := by
  obtain ⟨-, -, rfl, rfl⟩ := connect_eq_ok run
  exact ⟨[_], rfl, fun _ _ edit listed => by simp [List.mem_singleton.1 listed, Edit.Sets]⟩

theorem continues_copyConnection {ids : Renaming} {c : Connection} {id : ConnectionId}
    (run : (d.copyConnection ids c).on s = (.ok (id, e), t)) : Continues n d e := by
  obtain ⟨source, -, run⟩ := Action.on_ofExcept_bind_eq_ok.1 run
  obtain ⟨destination, -, run⟩ := Action.on_ofExcept_bind_eq_ok.1 run
  exact continues_connect run

theorem continues_copyModules {done ids : Renaming} {ms : List Module} (later : n ≤ s.nextModule)
    (run : (d.copyModules done ms).on s = (.ok (ids, e), t)) : Continues n d e := by
  induction ms generalizing d done s with
  | nil =>
    cases run
    exact .refl n _
  | cons m ms ih =>
    rw [copyModules, Action.on_bind_of_ok (on_copyModule d m s)] at run
    refine Continues.trans ⟨m.copyEdits s.nextModule, rfl, fun id low edit listed sets => ?_⟩
      (ih (Nat.le_succ_of_le later) run)
    obtain rfl | listed := List.mem_cons.1 listed
    · exact sets
    · obtain ⟨f, -, rfl⟩ := List.mem_map.1 listed
      exact absurd sets (Nat.ne_of_gt (Nat.lt_of_lt_of_le low later))

end Draft

end Dataflow
