import Dataflow.Proofs.Variable.Built

/-! No module that is drawn sets a function twice, so copies of it have exactly its functions. -/

namespace Dataflow

namespace Module

/-- Setting a function keeps the names of functions, or adds its own at the end. -/
theorem names_setFunctions (name : String) (params : List String) (fs : List Function) :
    (setFunctions name params fs).map Function.name = fs.map Function.name ∨
      (∀ f ∈ fs, f.name ≠ name) ∧
        (setFunctions name params fs).map Function.name = fs.map Function.name ++ [name] := by
  by_cases fresh : ∀ f ∈ fs, f.name ≠ name
  · exact .inr ⟨fresh, by rw [setFunctions_of_fresh fresh, List.map_append]; rfl⟩
  · refine .inl ?_
    induction fs with
    | nil => simp at fresh
    | cons f fs ih =>
      unfold setFunctions
      split
      · rfl
      · next other =>
        rw [List.map_cons, List.map_cons, ih fun all => fresh (List.forall_mem_cons.2 ⟨other, all⟩)]

theorem nodup_setFunctions (name : String) (params : List String) {fs : List Function}
    (distinct : (fs.map Function.name).Nodup) :
    ((setFunctions name params fs).map Function.name).Nodup := by
  obtain same | ⟨fresh, more⟩ := names_setFunctions name params fs
  · rw [same]
    exact distinct
  · rw [more, List.nodup_append]
    refine ⟨distinct, by simp, fun n listed k last same => ?_⟩
    obtain ⟨f, hf, rfl⟩ := List.mem_map.1 listed
    exact fresh f hf (same.trans (List.mem_singleton.1 last))

theorem copied_eq {m : Module} (distinct : (m.functions.map Function.name).Nodup) (id : ModuleId) :
    m.copied id = { m with id } := by
  have functions : (m.copied id).functions = m.functions := copied_functions distinct
  have type := copied_type m id
  have own := copied_id m id
  generalize m.copied id = copy at *
  cases copy
  simp_all

end Module

/-- The edit does not add a module that has functions already. -/
def Edit.IsBare : Edit → Prop
  | .addModule m => m.functions = []
  | _ => True

namespace Pipeline

/-- Each module sets each of its functions once. -/
def Tidy (p : Pipeline) : Prop :=
  ∀ {id m}, p.modules.get? id = some m → (m.functions.map Module.Function.name).Nodup

variable {p q : Pipeline}

theorem tidy_empty : empty.Tidy := by
  intro id m found
  cases found

theorem Tidy.apply (tidy : p.Tidy) {e : Edit} (bare : e.IsBare) (h : p.apply e = .ok q) :
    q.Tidy := by
  intro id m found
  obtain ⟨n, rfl, -, rfl⟩ | ⟨k, name, params, n, rfl, there, rfl⟩ | ⟨c, rfl, -, -, -, rfl⟩ :=
    apply_cases h
  · obtain ⟨-, rfl⟩ | ⟨-, before⟩ := OrderedMap.get?_insert_eq_some_iff.1 found
    · rw [show m.functions = [] from bare]
      exact List.nodup_nil
    · exact tidy before
  · obtain ⟨-, rfl⟩ | ⟨-, before⟩ := OrderedMap.get?_insert_eq_some_iff.1 found
    · exact Module.nodup_setFunctions name params (tidy there)
    · exact tidy before
  · exact tidy found

theorem Tidy.applyAll (tidy : p.Tidy) {es : List Edit} (bare : ∀ e ∈ es, e.IsBare)
    (h : p.applyAll es = .ok q) : q.Tidy := by
  induction es generalizing p with
  | nil =>
    cases h
    exact tidy
  | cons e es ih =>
    obtain ⟨r, first, rest⟩ := applyAll_cons.1 h
    obtain ⟨bare, others⟩ := List.forall_mem_cons.1 bare
    exact ih (tidy.apply bare first) others rest

end Pipeline

namespace Draft

variable {d : Draft}

theorem Owned.isBare (own : d.Owned) : ∀ e ∈ d.edits, e.IsBare := by
  induction own with
  | empty => simp [Draft.empty]
  | addModule _ bare ih => exact List.forall_mem_append.2 ⟨ih, by simpa [Edit.IsBare] using bare⟩
  | setFunction _ _ _ _ ih => exact List.forall_mem_append.2 ⟨ih, by simp [Edit.IsBare]⟩
  | connection _ _ _ ih => exact List.forall_mem_append.2 ⟨ih, by simp [Edit.IsBare]⟩
  | append _ _ ih ih' => exact List.forall_mem_append.2 ⟨ih, ih'⟩

theorem Owned.tidy (own : d.Owned) {g : Pipeline} (draws : d.Draws g) : g.Tidy :=
  Pipeline.tidy_empty.applyAll own.isBare draws.edits

end Draft

end Dataflow
