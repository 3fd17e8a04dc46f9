import Dataflow.Proofs.Pipeline.Shifting
import Dataflow.Proofs.Store.Changes

/-! Runs in step. Two actions that start on different stores, or at different times, and that number
modules and connections at the same points, answer alike up to the numbers. -/

namespace Dataflow

/-- Errors of one kind, whatever else they tell. -/
def Error.Like (e e' : Error) : Prop := e.ctorIdx = e'.ctorIdx

/-- Two answers are values that are related, or errors of one kind. -/
inductive Alike (R : α → β → Prop) : Except Error α → Except Error β → Prop
  | ok {x : α} {y : β} (related : R x y) : Alike R (.ok x) (.ok y)
  | error {e e' : Error} (like : e.Like e') : Alike R (.error e) (.error e')

namespace Alike

variable {R : α → β → Prop} {Q : γ → δ → Prop} {r : Except Error α} {r' : Except Error β}

theorem cases (alike : Alike R r r') :
    (∃ e e', r = .error e ∧ r' = .error e' ∧ e.Like e') ∨ ∃ x y, r = .ok x ∧ r' = .ok y ∧ R x y := by
  cases alike with
  | ok related => exact .inr ⟨_, _, rfl, rfl, related⟩
  | error like => exact .inl ⟨_, _, rfl, rfl, like⟩

theorem mono {R' : α → β → Prop} (alike : Alike R r r') (imp : ∀ x y, R x y → R' x y) :
    Alike R' r r' := by
  cases alike with
  | ok related => exact .ok (imp _ _ related)
  | error like => exact .error like

theorem refl {R : α → α → Prop} {r : Except Error α} (same : ∀ x, r = .ok x → R x x) :
    Alike R r r := by
  cases r with
  | ok x => exact .ok (same x rfl)
  | error e => exact .error rfl

theorem bind (alike : Alike R r r') {f : α → Except Error γ} {g : β → Except Error δ}
    (next : ∀ x y, R x y → Alike Q (f x) (g y)) : Alike Q (r >>= f) (r' >>= g) := by
  cases alike with
  | ok related => exact next _ _ related
  | error like => exact .error like

theorem map (alike : Alike R r r') {f : α → γ} {g : β → δ} (next : ∀ x y, R x y → Q (f x) (g y)) :
    Alike Q (r.map f) (r'.map g) := by
  cases alike with
  | ok related => exact .ok (next _ _ related)
  | error like => exact .error like

end Alike

/-- Two runs give the same, or fail alike, and leave the same behind. -/
def SameRun (run run' : Except Error α × β) : Prop := Alike Eq run.1 run'.1 ∧ run.2 = run'.2

theorem SameRun.refl (run : Except Error α × β) : SameRun run run := ⟨.refl fun _ _ => rfl, rfl⟩

theorem SameRun.cases {run run' : Except Error α × β} (same : SameRun run run') :
    run = run' ∨ ∃ e e' s, run = (.error e, s) ∧ run' = (.error e', s) ∧ e.Like e' := by
  obtain ⟨r, s⟩ := run
  obtain ⟨r', s'⟩ := run'
  obtain ⟨alike, rfl⟩ := same
  obtain ⟨e, e', rfl, rfl, like⟩ | ⟨x, y, rfl, rfl, rfl⟩ := alike.cases
  · exact .inr ⟨e, e', s, rfl, rfl, like⟩
  · exact .inl rfl

namespace Store

/-- As many modules and connections were numbered from one state to another as between two others. -/
def Abreast (s s' t t' : Store) : Prop :=
  ∃ m c,
    t = { s with
      nextModule := s.nextModule + m
      nextConnection := s.nextConnection + c } ∧
    t' = { s' with
      nextModule := s'.nextModule + m
      nextConnection := s'.nextConnection + c }

namespace Abreast

theorem refl (s s' : Store) : s.Abreast s' s s' := ⟨0, 0, rfl, rfl⟩

theorem trans {s s' t t' u u' : Store} :
    s.Abreast s' t t' → t.Abreast t' u u' → s.Abreast s' u u' := by
  rintro ⟨m, c, rfl, rfl⟩ ⟨n, d, rfl, rfl⟩
  exact ⟨m + n, c + d, by simp [Nat.add_assoc], by simp [Nat.add_assoc]⟩

variable {s s' t t' : Store} (h : s.Abreast s' t t')
include h

theorem left : s.Mints t := by
  obtain ⟨m, c, rfl, -⟩ := h
  exact ⟨m, c, rfl⟩

theorem right : s'.Mints t' := by
  obtain ⟨m, c, -, rfl⟩ := h
  exact ⟨m, c, rfl⟩

omit h in
theorem eq {s t t' : Store} : s.Abreast s t t' → t = t' := by
  rintro ⟨m, c, rfl, rfl⟩
  rfl

end Abreast

theorem Mints.abreast {s t : Store} : s.Mints t → s.Abreast s t t := by
  rintro ⟨m, c, rfl⟩
  exact ⟨m, c, rfl, rfl⟩

end Store

/-- The numbers that the second store gives out next are those of the first, shifted. -/
structure Shift.Between (σ : Shift) (s s' : Store) : Prop where
  modules : s'.nextModule = σ.module s.nextModule
  connections : s'.nextConnection = σ.connection s.nextConnection

theorem Shift.Between.abreast {σ : Shift} {s s' t t' : Store} (between : σ.Between s s') :
    s.Abreast s' t t' → σ.Between t t' := by
  rintro ⟨m, c, rfl, rfl⟩
  exact ⟨by simp [between.modules, Shift.module, Nat.add_right_comm],
    by simp [between.connections, Shift.connection, Nat.add_right_comm]⟩

theorem Shift.between_none (s : Store) : Shift.none.Between s s := ⟨rfl, rfl⟩

/-- The shift from an earlier state of a store to a later one. -/
def Shift.of (s t : Store) : Shift :=
  ⟨t.nextModule - s.nextModule, t.nextConnection - s.nextConnection⟩

theorem Store.Precedes.between {s t : Store} (h : s.Precedes t) : (Shift.of s t).Between s t :=
  ⟨(Nat.add_sub_cancel' h.module).symm, (Nat.add_sub_cancel' h.connection).symm⟩

namespace Action

/-- Wherever the runs are abreast of each other, they answer alike and stay abreast. -/
def Parallel (s s' : Store) (R : α → β → Prop) (a : Action α) (a' : Action β) : Prop :=
  ∀ t t', s.Abreast s' t t' →
    Alike R (a.on t).1 (a'.on t').1 ∧ s.Abreast s' (a.on t).2 (a'.on t').2

namespace Parallel

variable {σ : Shift} {s s' : Store} {R : α → β → Prop} {Q : γ → δ → Prop}

theorem mono {R' : α → β → Prop} {a : Action α} {a' : Action β} (h : Parallel s s' R a a')
    (imp : ∀ x y, R x y → R' x y) : Parallel s s' R' a a' :=
  fun t t' abreast => ⟨(h t t' abreast).1.mono imp, (h t t' abreast).2⟩

/-- Runs that start from the two stores fail alike, or give related values and end abreast. -/
theorem cases {a : Action α} {a' : Action β} (h : Parallel s s' R a a') :
    (∃ e e' t t', a.on s = (.error e, t) ∧ a'.on s' = (.error e', t') ∧ e.Like e' ∧
      s.Abreast s' t t') ∨
    ∃ x y t t', a.on s = (.ok x, t) ∧ a'.on s' = (.ok y, t') ∧ R x y ∧ s.Abreast s' t t' := by
  obtain ⟨alike, after⟩ := h s s' (.refl s s')
  obtain ⟨e, e', failed, failed', like⟩ | ⟨x, y, ok, ok', related⟩ := alike.cases
  · exact .inl ⟨e, e', _, _, Prod.ext failed rfl, Prod.ext failed' rfl, like, after⟩
  · exact .inr ⟨x, y, _, _, Prod.ext ok rfl, Prod.ext ok' rfl, related, after⟩

/-- In one store, runs that give equal values are the same run. -/
theorem sameRun {a a' : Action α} (h : Parallel s s Eq a a') : SameRun (a.on s) (a'.on s) :=
  ⟨(h s s (.refl s s)).1, (h s s (.refl s s)).2.eq⟩

theorem pure {x : α} {y : β} (related : R x y) :
    Parallel s s' R (Pure.pure x) (Pure.pure y) := fun _ _ abreast => ⟨.ok related, abreast⟩

theorem throw {e e' : Error} (like : e.Like e') :
    Parallel s s' R (throw e : Action α) (throw e' : Action β) :=
  fun _ _ abreast => ⟨.error like, abreast⟩

theorem ofExcept {r : Except Error α} {r' : Except Error β} (alike : Alike R r r') :
    Parallel s s' R (ofExcept r) (ofExcept r') := fun t t' abreast => by
  rw [on_ofExcept, on_ofExcept]
  exact ⟨alike, abreast⟩

theorem ofExcept_same (r : Except Error α) :
    Parallel s s' Eq (Action.ofExcept r) (Action.ofExcept r) :=
  .ofExcept (.refl fun _ _ => rfl)

theorem query {f : Store → Except HostFault α} {f' : Store → Except HostFault β}
    (same : ∀ t t', s.Abreast s' t t' → f t = f s ∧ f' t' = f' s')
    (alike : Alike R ((f s).mapError .host) ((f' s').mapError .host)) :
    Parallel s s' R (query f) (query f') := fun t t' abreast => by
  rw [on_query, on_query, (same t t' abreast).1, (same t t' abreast).2]
  exact ⟨alike, abreast⟩

theorem bind {a : Action α} {a' : Action β} {f : α → Action γ} {f' : β → Action δ}
    (first : Parallel s s' R a a') (next : ∀ x y, R x y → Parallel s s' Q (f x) (f' y)) :
    Parallel s s' Q (a >>= f) (a' >>= f') := fun t t' abreast => by
  obtain ⟨alike, after⟩ := first t t' abreast
  rw [on_bind, on_bind]
  rcases run : a.on t with ⟨r, u⟩
  rcases run' : a'.on t' with ⟨r', u'⟩
  rw [run, run'] at alike after
  cases alike with
  | ok related => exact next _ _ related u u' after
  | error like => exact ⟨.error like, after⟩

theorem same {R : α → α → Prop} {a : Action α} (minting : ∀ t, s.Mints t → t.Mints (a.on t).2)
    (related : ∀ t x, s.Mints t → (a.on t).1 = .ok x → R x x) : Parallel s s R a a := by
  intro t t' abreast
  obtain rfl := abreast.eq
  have mints := abreast.left
  exact ⟨.refl fun x run => related t x mints run, (mints.trans (minting t mints)).abreast⟩

theorem createModule (between : σ.Between s s') (type : TypeName) :
    Parallel s s' (fun m m' => m' = m.moved σ.module) (createModule type) (createModule type) := by
  intro t t' abreast
  refine ⟨.ok ?_, abreast.trans ⟨1, 0, rfl, rfl⟩⟩
  simp only [Module.moved, (between.abreast abreast).modules]

theorem createConnection (between : σ.Between s s') (source destination : PortRef) :
    Parallel s s' (fun c c' => c' = c.moved σ.module σ.connection)
      (createConnection source destination)
      (createConnection (source.shifted σ) (destination.shifted σ)) := by
  intro t t' abreast
  refine ⟨.ok ?_, abreast.trans ⟨0, 1, rfl, rfl⟩⟩
  simp only [Connection.moved, PortRef.shifted, (between.abreast abreast).connections]

end Parallel

end Action

end Dataflow
