import Dataflow.Proofs.Execution
import Dataflow.Proofs.Variable.Growth

/-! Which identifiers get into what steps, operations, code of packages and loaders build: those of
what was handed over, and such as the store gave out meanwhile. -/

namespace Dataflow

open Dataflow.Action
open Host (Builds)

variable {h : Host} {A : Identifiers}

namespace Assembly

/-- The identifiers of the variable under construction and of the arguments. -/
def ids (a : Assembly) : Identifiers := a.built.ids ⊔ Variable.idsOf a.arguments

variable {a b : Assembly}

theorem ids_absorbAll {ys : List Variable} (absorb : a.absorbAll ys = .ok b) :
    b.built.ids = a.built.ids ⊔ Variable.idsOf ys ∧ b.arguments = a.arguments := by
  induction ys generalizing a with
  | nil =>
    cases absorb
    exact ⟨(sup_bot_eq _).symm, rfl⟩
  | cons y ys ih =>
    obtain ⟨o, x, first, rest⟩ := absorbAll_cons_eq_ok absorb
    obtain ⟨built, same⟩ := ih (a := { a with built := x, outputs := a.outputs ++ [o] }) rest
    refine ⟨built.trans ?_, same⟩
    rw [Variable.ids_absorb first, Variable.idsOf, sup_assoc]

/-- Whatever is made of the variable under construction, the arguments stay. -/
theorem ids_le_of_built {x : Variable} {modules : List ModuleId} {outputs : List PortRef}
    (hx : x.ids ≤ A) (arguments : a.ids ≤ A) : ids ⟨x, modules, outputs, a.arguments⟩ ≤ A :=
  sup_le hx (le_sup_right.trans arguments)

theorem builds_addModule (a : Assembly) (type : TypeName) :
    h.Builds a.ids ids (a.addModule type) :=
  ((a.built.builds_addModule type).mono le_sup_left).bind fun _ =>
    .pure (ids_le_of_built le_sup_right le_sup_left)

theorem builds_connectAll (a : Assembly) (m : ModuleId) (feeds : List (PortRef × String)) :
    h.Builds a.ids ids (a.connectAll m feeds) := by
  induction feeds generalizing a with
  | nil => exact .pure le_rfl
  | cons f rest ih =>
    refine ((a.built.builds_connect f.1 ⟨m, f.2⟩).mono le_sup_left).bind fun x => ?_
    exact (ih { a with built := x }).mono (ids_le_of_built le_sup_right le_sup_left)

theorem builds_step (a : Assembly) (step : Step) :
    h.Builds a.ids ids (a.step h step) := by
  cases step with
  | module type => exact .bind_ofExcept fun type' _ => a.builds_addModule type'
  | moduleNamed package name => exact .bind_ofExcept fun type' _ => a.builds_addModule type'
  | function m port values =>
    refine .bind_ofExcept fun x set => .pure (ids_le_of_built ?_ le_rfl)
    exact (Variable.ids_setFunction set).le.trans le_sup_left
  | connect source output target input =>
    refine ((a.built.builds_connect _ _).mono le_sup_left).bind fun x => ?_
    exact .pure (ids_le_of_built le_sup_right le_sup_left)
  | output m port =>
    refine .bind_ofExcept fun x select => .pure (ids_le_of_built ?_ le_rfl)
    exact (Variable.ids_selectOutput select).le.trans le_sup_left
  | constant value type =>
    refine .bind_ofExcept fun type' _ => ?_
    refine ((Variable.builds_constant value type').mono bot_le).bind fun y => ?_
    refine .ofExcept fun b absorb => ?_
    obtain ⟨built, same⟩ := ids_absorbAll absorb
    rw [ids, built, same, Variable.idsOf, Variable.idsOf, sup_bot_eq]
    exact sup_le (sup_le_sup_right le_sup_left _) (le_sup_right.trans le_sup_left)
  | connectOutput source target input => exact a.builds_connectAll _ _
  | connectOutputs target inputs => exact a.builds_connectAll _ _
  | absorbArguments =>
    refine .bind_ofExcept fun b absorb => .pure ?_
    obtain ⟨built, -⟩ := ids_absorbAll absorb
    exact sup_le built.le bot_le
  | connectArgument n target input =>
    simp only [Assembly.step]
    split
    · exact a.builds_connectAll _ _
    · exact .throw _
  | provenance record => exact .bind_ofExcept fun p _ => .pure le_rfl

theorem builds_running (a : Assembly) (steps : List Step) :
    h.Builds a.ids (fun r => r.2.ids) (a.running h steps) := by
  induction steps generalizing a with
  | nil => exact .pure le_rfl
  | cons step rest ih =>
    intro s t r hs run
    have mints := a.minting_step h step s
    rw [on_running_cons] at run
    rcases taken : (a.step h step).on s with ⟨e | b, u⟩
    · rw [taken] at run mints
      cases run
      exact ⟨.mints mints, le_sup_left⟩
    · rw [taken] at run
      have both := (a.builds_step step).bind fun b => (ih b).mono le_sup_right
      exact both hs ((Action.on_bind_of_ok taken _).trans run)

theorem builds_build (a : Assembly) (steps : List Step) :
    h.Builds a.ids Variable.ids (a.build h steps) :=
  (a.builds_running steps).bind fun _ => .bind_ofExcept fun _ _ =>
    .pure (le_sup_left.trans le_sup_right)

end Assembly

namespace Operation

open Variable (idsOf)

variable {op : Operation}

theorem builds_foldlM (x : Variable) (m : ModuleId) (functions : List (String × String)) :
    h.Builds x.ids Variable.ids (functions.foldlM (fun x (f : String × String) =>
      Action.ofExcept (x.setFunction m f.1 [f.2])) x) := by
  induction functions generalizing x with
  | nil => exact .pure le_rfl
  | cons f rest ih =>
    refine .bind_ofExcept fun y set => ?_
    exact (ih y).mono (Variable.ids_setFunction set).le

theorem builds_combine (x : Variable) (type : TypeName) (functions : List (String × String))
    (left right : Variable) (leftPort rightPort : String) :
    h.Builds (x.ids ⊔ left.ids ⊔ right.ids) Variable.ids
      (combine x type functions left right leftPort rightPort) := by
  refine .bind_ofExcept fun (first, x₁) absorb => .bind_ofExcept fun (second, x₂) absorb' => ?_
  rw [← Variable.ids_absorb absorb, ← Variable.ids_absorb absorb']
  refine (x₂.builds_addModule type).bind fun (m, x₃) => ?_
  refine ((builds_foldlM x₃ m functions).mono le_sup_right).bind fun x₄ => ?_
  refine ((x₄.builds_connect _ _).mono le_sup_right).bind fun x₅ => ?_
  refine ((x₅.builds_connect _ _).mono le_sup_right).bind fun x₆ => ?_
  exact .ofExcept fun y select => (Variable.ids_selectOutput select).le.trans le_sup_right

theorem ids_absorbNamed {x y : Variable} {arguments : List (Parameter × Variable)}
    {inputs : List (String × PortRef)} (absorb : absorbNamed x arguments = .ok (inputs, y)) :
    y.ids = x.ids ⊔ idsOf (arguments.map Prod.snd) := by
  induction arguments generalizing x inputs with
  | nil =>
    cases absorb
    exact (sup_bot_eq _).symm
  | cons a rest ih =>
    obtain ⟨o, x', inputs', first, others, rfl⟩ := absorbNamed_cons_eq_ok absorb
    rw [ih others, Variable.ids_absorb first, List.map_cons, idsOf, sup_assoc]

theorem builds_copyTemplate (op : Operation) (template : Pipeline) (types : Placeholders)
    (names : Renaming) (inputs : List (String × PortRef)) (x : Variable) (output : Option PortRef)
    (cs : List Connection) :
    h.Builds x.ids (fun r => r.1.ids) (op.copyTemplate template types names inputs x output cs) := by
  induction cs generalizing x output with
  | nil => exact .pure le_rfl
  | cons c cs ih =>
    rw [copyTemplate_cons]
    refine .bind_ofExcept fun source _ => .bind_ofExcept fun target _ => ?_
    refine .bind_ofExcept fun feed _ => ?_
    split
    · split
      · exact .throw _
      · exact ih x _
    · refine .bind_ofExcept fun m _ => (x.builds_connect _ _).bind fun y => ?_
      exact (ih y output).mono le_sup_right

theorem builds_applyTemplate (op : Operation) (template : Pipeline)
    (arguments : List Variable) :
    h.Builds (idsOf arguments) Variable.ids (op.applyTemplate h template arguments) := by
  refine .bind_ofExcept fun input _ => .bind_ofExcept fun output _ => ?_
  refine .bind_ofExcept fun (inputs, x) absorb => ?_
  have given : x.ids ≤ idsOf arguments := by
    rw [ids_absorbNamed absorb]
    refine sup_le bot_le (Variable.idsOf_le_iff.2 fun y hy => Variable.ids_le_idsOf ?_)
    obtain ⟨a, ha, rfl⟩ := List.mem_map.1 hy
    exact (List.of_mem_zip ha).2
  refine ((x.draft.builds_copyModules ∅ _).mono given).bind fun (names, d) => ?_
  refine ((op.builds_copyTemplate _ _ _ _ { x with draft := d } _ _).mono le_sup_right).bind
    fun (y, found) => ?_
  cases found with
  | some port => exact .pure le_sup_right
  | none => exact .throw _

end Operation

namespace Callback

open Variable (idsOf)

variable {p q : Held} {s t : Store}

/-- The variable that a call makes or changes. -/
def Call.subject (p : Held) : Call → Option Nat
  | .new .. | .constant .. | .copy .. | .restore .. | .clone .. => some p.next
  | .inspect .. | .resolve .. => none
  | .addModule n .. | .setFunction n .. | .connect n .. | .selectOutput n .. | .absorb n _
  | .setProvenance n .. => some n

/-- The variables that a call makes its variable of. -/
def Call.parts : Call → List Nat
  | .new .. | .constant .. | .copy .. | .restore .. | .inspect .. | .resolve .. => []
  | .clone n | .addModule n .. | .setFunction n .. | .connect n .. | .selectOutput n ..
  | .setProvenance n .. => [n]
  | .absorb n k => [n, k]

/-- The variables under some numbers have no identifiers but those given. -/
def Held.Within (p : Held) (ns : Nat → Prop) (A : Identifiers) : Prop :=
  ∀ n x, ns n → p.get? n = some x → x.ids ≤ A

/-- All variables stay that were held, except for one at most. -/
def Held.Changes (p q : Held) (subject : Option Nat) (A : Identifiers) : Prop :=
  ∀ n x, q.get? n = some x → if subject = some n then x.ids ≤ A else p.get? n = some x

theorem Held.changes_put {n : Nat} {x : Variable} (hx : x.ids ≤ A) :
    p.Changes (p.put n x) (some n) A := fun k y found => by
  obtain ⟨same, rfl⟩ | ⟨other, held⟩ := of_put found
  · rw [if_pos (by rw [same])]
    exact hx
  · rw [if_neg fun same => other (Option.some.inj same).symm]
    exact held

theorem Held.changes_push {x : Variable} (hx : x.ids ≤ A) :
    p.Changes (p.push x).2 (some p.next) A := Held.changes_put hx

theorem Held.Changes.of_drop {n k : Nat} (h : (p.drop k).Changes q (some n) A) :
    p.Changes q (some n) A := fun j y found => by
  have kept := h j y found
  split at kept
  · next same => rwa [if_pos same]
  · next other =>
    rw [if_neg other]
    exact (Held.of_drop kept).2

/-- A call changes one variable at most, and makes it of its parts and of new identifiers. -/
theorem changes_perform {c : Call} {a : Answer} (hs : s.Valid) (parts : p.Within (· ∈ c.parts) A)
    (run : (c.perform h p).on s = (.ok (a, q), t)) :
    p.Changes q (c.subject p) (A ⊔ s.given t) := by
  have part : ∀ {n x}, p.get? n = some x → n ∈ c.parts → x.ids ≤ A := fun found listed =>
    parts _ _ listed found
  cases does_of_perform run with
  | new type => exact Held.changes_push bot_le
  | constant made =>
    exact Held.changes_push ((Variable.builds_constant _ _).mono bot_le hs made).2
  | copy made => exact Held.changes_push ((Variable.builds_copy _).mono bot_le hs made).2
  | restore made => exact Held.changes_push ((Variable.builds_restore _).mono bot_le hs made).2
  | clone found =>
    exact Held.changes_push ((part found (List.mem_cons_self ..)).trans le_sup_left)
  | inspect n => exact fun _ _ => id
  | resolve type => exact fun _ _ => id
  | @addModule n type x y m t found added =>
    have le := part found (List.mem_cons_self ..)
    exact Held.changes_put ((x.builds_addModule (h := h) type).mono le hs added).2
  | setFunction found set =>
    have le := (Variable.ids_setFunction set).le.trans (part found (List.mem_cons_self ..))
    exact Held.changes_put (le.trans le_sup_left)
  | @connect n source destination x y t found connected =>
    have le := part found (List.mem_cons_self ..)
    exact Held.changes_put ((x.builds_connect (h := h) source destination).mono le hs connected).2
  | selectOutput found select =>
    have le := (Variable.ids_selectOutput select).le.trans (part found (List.mem_cons_self ..))
    exact Held.changes_put (le.trans le_sup_left)
  -- only here are there two parts
  | absorb found taken absorbed =>
    have first := part (Held.of_drop found).2 (by simp [Call.parts])
    have second := part taken (by simp [Call.parts])
    have le := (Variable.ids_absorb absorbed).le.trans (sup_le first second)
    exact (Held.changes_put (le.trans le_sup_left)).of_drop
  | setProvenance found record =>
    exact Held.changes_put ((part found (List.mem_cons_self ..)).trans le_sup_left)

/-- The variables that a call takes to make its variable of. -/
def Held.taken (p : Held) (c : Call) : List Variable := c.parts.filterMap p.get?

theorem Held.mem_taken {c : Call} {x : Variable} :
    x ∈ p.taken c ↔ ∃ k ∈ c.parts, p.get? k = some x := List.mem_filterMap

/-- What is held after a call is the variable that it made of what it took, or was held before. -/
theorem made_of_perform {c : Call} {a : Answer} (hs : s.Valid)
    (run : (c.perform h p).on s = (.ok (a, q), t)) {n : Nat} {y : Variable}
    (found : q.get? n = some y) :
    (c.subject p = some n ∧ y.ids ≤ idsOf (p.taken c) ⊔ s.given t) ∨
      c.subject p ≠ some n ∧ p.get? n = some y := by
  have changed := changes_perform (A := idsOf (p.taken c)) hs
    (fun k x listed held => Variable.ids_le_idsOf (Held.mem_taken.2 ⟨k, listed, held⟩)) run n y found
  split at changed
  · next subject => exact .inl ⟨subject, changed⟩
  · next other => exact .inr ⟨other, changed⟩

/-- What is apart from all that a call took is apart from what the call makes of it. -/
theorem disjoint_made {c : Call} {y z : Variable} (made : y.ids ≤ idsOf (p.taken c) ⊔ s.given t)
    (issued : z.ids ≤ s.issued)
    (apart : ∀ k ∈ c.parts, ∀ x, p.get? k = some x → Disjoint x.ids z.ids) :
    Disjoint y.ids z.ids := by
  refine Disjoint.mono_left made (Disjoint.sup_left (Variable.disjoint_idsOf fun x listed => ?_) ?_)
  · obtain ⟨k, part, held⟩ := Held.mem_taken.1 listed
    exact apart k part x held
  · exact ((s.disjoint_issued_given t).mono_left issued).symm

/-- What code gives has no identifiers but those of its arguments, and new ones. -/
theorem builds_run (code : Callback) (held : ∀ n x, p.get? n = some x → x.ids ≤ A) :
    h.Builds A (fun r => idsOf r.toList) (code.run h p) := by
  induction code generalizing p A with
  | fail e => exact .throw e
  | nothing => exact .pure bot_le
  | give n =>
    refine .bind_ofExcept fun x found => .pure ?_
    exact sup_le (held n x (Held.find_eq_ok found)) bot_le
  | call c next ih =>
    intro s u r hs run
    have prepares := c.preparing_perform h p s hs
    rw [on_run_call] at run
    rcases performed : (c.perform h p).on s with ⟨e | ⟨a, q⟩, t⟩
    all_goals
      rw [performed] at run prepares
      have later := prepares.precedes.given_earlier u
    · obtain ⟨rest, le⟩ := ih (.error e) held (prepares.valid hs) run
      exact ⟨prepares.trans rest, le.trans (sup_le_sup_left later A)⟩
    · have held' : ∀ n x, q.get? n = some x → x.ids ≤ A ⊔ s.given t := fun n x found => by
        have changed := changes_perform hs (fun n x _ => held n x) performed n x found
        split at changed
        · exact changed
        · exact (held n x changed).trans le_sup_left
      obtain ⟨rest, le⟩ := ih (.ok a) held' (prepares.valid hs) run
      refine ⟨prepares.trans rest, le.trans (sup_le (sup_le_sup_left ?_ A) ?_)⟩
      · exact rest.precedes.given_later s
      · exact later.trans le_sup_right

end Callback

namespace Operation

variable {op : Operation} {arguments : List Variable} {s t : Store} {x : Variable}

theorem Made.ids_le (made : Made h op arguments s x t) (hs : s.Valid) :
    x.ids ≤ Variable.idsOf arguments ⊔ s.given t := by
  cases made with
  | argument here _ => exact (Variable.ids_le_idsOf here).trans le_sup_left
  | @assembly steps run =>
    have build := Assembly.builds_build (h := h) { built := { type := op.returns }, arguments } steps
    exact (build.mono (sup_le bot_le le_rfl) hs run).2
  | @callback code _ run =>
    have held : ∀ n y, (Callback.Held.of arguments).get? n = some y →
        y.ids ≤ Variable.idsOf arguments := fun _ _ found =>
      Variable.ids_le_idsOf (List.mem_of_getElem? found)
    exact le_sup_left.trans (code.builds_run held hs run).2
  | @combination result type functions left right leftPort rightPort pair run =>
    subst pair
    have build := builds_combine (h := h) { type := result } type functions left right leftPort
      rightPort
    refine (build.mono (sup_le (sup_le bot_le ?_) ?_) hs run).2
    · exact Variable.ids_le_idsOf (by simp)
    · exact Variable.ids_le_idsOf (by simp)
  | template run => exact (op.builds_applyTemplate _ arguments hs run).2

theorem builds_apply (op : Operation) (arguments : List Variable) :
    h.Builds (Variable.idsOf arguments) Variable.ids (op.apply h arguments) := by
  intro s t x hs run
  have prepares := (op.preparing_apply h arguments).prepares hs run
  obtain made | ⟨y, p, made, rfl⟩ := made_of_apply run
  · exact ⟨prepares, made.ids_le hs⟩
  · exact ⟨prepares, (made.ids_le hs :)⟩

end Operation

namespace Node

mutual

theorem builds_execute : ∀ n : Node, h.Builds ⊥ Variable.ids (n.execute h)
  | .constant value type => Variable.builds_constant value type
  | .reference _ x => x.builds_copy
  | .application op arguments =>
    (builds_executeAll arguments).bind fun xs => (op.builds_apply xs).mono le_sup_right

theorem builds_executeAll : ∀ ns : List Node, h.Builds ⊥ Variable.idsOf (executeAll h ns)
  | [] => .pure bot_le
  | n :: ns =>
    (builds_execute n).bind fun _ => ((builds_executeAll ns).mono bot_le).bind fun _ =>
      .pure (sup_le (le_sup_right.trans le_sup_left) le_sup_right)

end

end Node

theorem Loader.builds_load (l : Loader) : h.Builds ⊥ Variable.ids (l.load h) := by
  unfold load
  split
  · exact .throw _
  · exact .bind_ofExcept fun type _ => Variable.builds_constant _ type
  · refine .bind_ofExcept fun type _ => (Assembly.builds_build _ _).mono ?_
    exact sup_le bot_le bot_le
  · next code _ =>
    refine (code.builds_run (fun n x found => ?_)).bind fun made => ?_
    · cases found
    · cases made with
      | some x => exact .pure (le_sup_left.trans le_sup_right)
      | none => exact .throw _

end Dataflow
