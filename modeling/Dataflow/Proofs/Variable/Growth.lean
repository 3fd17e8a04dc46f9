import Dataflow.Proofs.Draft.Identifiers
import Dataflow.Proofs.Variable.Built
import Dataflow.Proofs.Variable.Copying

/-! Which identifiers get into a variable. Whatever way it is built, they are those of the variables
that it was made of, and such as the store gave out while it was built. -/

namespace Dataflow

/-- Runs that succeed prepare the store, and what they give has no identifiers but those of `A` and
those that the store gave out meanwhile. -/
def Host.Builds (h : Host) (A : Identifiers) (ids : α → Identifiers) (a : Action α) : Prop :=
  ∀ ⦃s t : Store⦄ ⦃x : α⦄, s.Valid → a.on s = (.ok x, t) →
    h.Prepares s t ∧ ids x ≤ A ⊔ s.given t

namespace Host.Builds

variable {h : Host} {A B : Identifiers} {ids : α → Identifiers} {ids' : β → Identifiers}
  {a : Action α} {f : α → Action β}

theorem mono (ha : h.Builds A ids a) (le : A ≤ B) : h.Builds B ids a := fun _ _ _ hs run =>
  ⟨(ha hs run).1, (ha hs run).2.trans (sup_le_sup_right le _)⟩

protected theorem pure {x : α} (le : ids x ≤ A) : h.Builds A ids (pure x) := fun s t y hs run => by
  cases run
  exact ⟨.mints (.refl s), le.trans le_sup_left⟩

protected theorem throw (e : Error) : h.Builds A ids (throw e) := fun s t x hs run => by
  cases run

theorem ofExcept {r : Except Error α} (le : ∀ x, r = .ok x → ids x ≤ A) :
    h.Builds A ids (Action.ofExcept r) := fun s t x hs run => by
  obtain ⟨rfl, rfl⟩ := Action.on_ofExcept_eq_ok.1 run
  exact ⟨.mints (.refl s), (le x rfl).trans le_sup_left⟩

theorem bind (ha : h.Builds A ids a) (hf : ∀ x, h.Builds (A ⊔ ids x) ids' (f x)) :
    h.Builds A ids' (a >>= f) := fun s u y hs run => by
  obtain ⟨x, t, first, rest⟩ := Action.on_bind_eq_ok.1 run
  obtain ⟨before, hx⟩ := ha hs first
  obtain ⟨after, hy⟩ := hf x (before.valid hs) rest
  refine ⟨before.trans after, hy.trans (sup_le (sup_le le_sup_left (hx.trans ?_)) ?_)⟩
  · exact sup_le_sup_left (after.precedes.given_later s) A
  · exact (before.precedes.given_earlier u).trans le_sup_right

/-- What is found out on the way does not get in. -/
theorem bind_preparing (ha : h.Preparing a) (hf : ∀ x, h.Builds A ids' (f x)) :
    h.Builds A ids' (a >>= f) := by
  have plain : h.Builds A (fun _ => ⊥) a := fun s t x hs run => by
    have prepares := ha s hs
    rw [run] at prepares
    exact ⟨prepares, bot_le⟩
  exact plain.bind fun x => (hf x).mono le_sup_left

theorem bind_ofExcept {r : Except Error α} (hf : ∀ x, r = .ok x → h.Builds A ids' (f x)) :
    h.Builds A ids' (Action.ofExcept r >>= f) := fun s t y hs run => by
  obtain ⟨x, known, rest⟩ := Action.on_ofExcept_bind_eq_ok.1 run
  exact hf x known hs rest

end Host.Builds

open Host (Builds)

variable {h : Host} {A : Identifiers} {s t : Store}

theorem Action.builds_createModule (type : TypeName) :
    h.Builds ⊥ (fun m => ({m.id}, ∅)) (Action.createModule type) := fun s t m hs run => by
  cases run
  exact ⟨.mints (s.mints_createModule type),
    (s.given_createModule type).ge.trans le_sup_right⟩

namespace Draft

theorem builds_connect (d : Draft) (source destination : PortRef) :
    h.Builds d.ids (fun r => r.2.ids) (d.connect source destination) := by
  rintro s t ⟨id, e⟩ hs run
  obtain ⟨-, -, rfl, rfl⟩ := connect_eq_ok run
  simp only [ids_push, Store.given_createConnection]
  exact ⟨.mints (s.mints_createConnection source destination), le_rfl⟩

theorem builds_copyModule (d : Draft) (m : Module) :
    h.Builds d.ids (fun r => r.2.ids) (d.copyModule m) := by
  refine ((Action.builds_createModule m.type).mono bot_le).bind fun copy => .pure ?_
  have settings := Edit.idsOf_setFunctions copy.id m.functions
  have added : ids (d.addModule copy) = _ := ids_addModule d copy
  rw [ids] at added
  simp only [ids, Edit.idsOf_append, settings, sup_bot_eq, added]
  exact le_rfl

theorem builds_copyModules (d : Draft) (done : Renaming) (ms : List Module) :
    h.Builds d.ids (fun r => r.2.ids) (d.copyModules done ms) := by
  induction ms generalizing d done with
  | nil => exact .pure le_rfl
  | cons m ms ih => exact (d.builds_copyModule m).bind fun (id, e) => (ih e _).mono le_sup_right

end Draft

namespace Variable

def idsOf : List Variable → Identifiers
  | [] => ⊥
  | x :: xs => x.ids ⊔ idsOf xs

theorem idsOf_le_iff {xs : List Variable} : idsOf xs ≤ A ↔ ∀ x ∈ xs, x.ids ≤ A := by
  induction xs with
  | nil => simp [idsOf]
  | cons x xs ih => rw [idsOf, sup_le_iff, ih, List.forall_mem_cons]

theorem disjoint_idsOf {xs : List Variable} (disjoint : ∀ x ∈ xs, Disjoint x.ids A) :
    Disjoint (idsOf xs) A := by
  induction xs with
  | nil => exact disjoint_bot_left
  | cons x xs ih =>
    obtain ⟨first, rest⟩ := List.forall_mem_cons.1 disjoint
    exact first.sup_left (ih rest)

theorem ids_le_idsOf {x : Variable} {xs : List Variable} (listed : x ∈ xs) : x.ids ≤ idsOf xs :=
  idsOf_le_iff.1 le_rfl x listed

variable {x y z : Variable}

theorem ids_setFunction {m : ModuleId} {port : String} {values : List String}
    (set : x.setFunction m port values = .ok y) : y.ids = x.ids := by
  obtain ⟨d, drafted, rfl⟩ := setFunction_eq_ok set
  exact Draft.ids_setFunction drafted

theorem ids_selectOutput {m : ModuleId} {port : String} (select : x.selectOutput m port = .ok y) :
    y.ids = x.ids := by
  obtain ⟨-, rfl⟩ := selectOutput_eq_ok select
  rfl

theorem ids_absorb {o : PortRef} (absorb : x.absorb y = .ok (o, z)) : z.ids = x.ids ⊔ y.ids := by
  obtain ⟨-, -, rfl⟩ := absorb_eq_ok absorb
  exact Draft.ids_append ..

theorem builds_addModule (x : Variable) (type : TypeName) :
    h.Builds x.ids (fun r => r.2.ids) (x.addModule type) :=
  ((Action.builds_createModule type).mono bot_le).bind fun _ => .pure (Draft.ids_addModule ..).le

theorem builds_connect (x : Variable) (source destination : PortRef) :
    h.Builds x.ids ids (x.connect source destination) :=
  (x.draft.builds_connect source destination).bind fun _ => .pure le_sup_right

theorem builds_constant (value : Constant) (type : TypeName) :
    h.Builds ⊥ ids (constant h value type) := by
  refine (builds_addModule _ type).bind fun (_, x) => ?_
  refine .bind_ofExcept fun y set => .bind_ofExcept fun z select => .pure ?_
  exact ((ids_selectOutput select).trans (ids_setFunction set)).le.trans le_sup_right

theorem builds_copy (x : Variable) : h.Builds ⊥ ids (x.copy h) := fun s t y hs run => by
  have prepares := preparing_copy h x s hs
  obtain ⟨v, r, u, p, o, names, g, -, asked, -, -, -, drawn, minted, -⟩ := copy_eq_ok hs run
  have before := Host.preparing_variablesRoot (h := h) s hs
  rw [run] at prepares
  rw [asked] at before
  refine ⟨prepares, ?_⟩
  rw [ids, ← drawn.draws.ids_eq, bot_sup_eq]
  exact minted.ids_le.trans (before.precedes.given_earlier t)

theorem builds_restore (v : VersionId) : h.Builds ⊥ ids (restore h v) := by
  refine .bind_preparing Host.preparing_variablesRoot fun r => ?_
  refine .bind_preparing (Host.preparing_of_minting (Action.minting_query _)) fun p => ?_
  refine .bind_ofExcept fun o _ => ?_
  refine .bind_preparing (Host.preparing_of_minting (Action.moves_get .refl)) fun s => ?_
  exact .bind_ofExcept fun type _ => .pure bot_le

end Variable

end Dataflow
