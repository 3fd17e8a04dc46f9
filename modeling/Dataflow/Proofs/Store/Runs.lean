import Dataflow.Store.Action

/-! Runs of actions: how a run of a sequence of actions splits into runs of its parts, relations
between the store before and after a run, whether it succeeds or fails, and how a run can fail. -/

namespace Dataflow.Action

theorem on_bind_eq_ok {a : Action α} {f : α → Action β} {s t : Store} {y : β} :
    (a >>= f).on s = (.ok y, t) ↔ ∃ x u, a.on s = (.ok x, u) ∧ (f x).on u = (.ok y, t) := by
  rw [on_bind]
  rcases h : a.on s with ⟨r, u⟩
  cases r with
  | ok x =>
    constructor
    · intro g
      exact ⟨x, u, rfl, g⟩
    · rintro ⟨_, _, ⟨⟩, g⟩
      exact g
  | error e => simp

theorem on_bind_eq_error {a : Action α} {f : α → Action β} {s t : Store} {e : Error} :
    (a >>= f).on s = (.error e, t) ↔ a.on s = (.error e, t) ∨
      ∃ x u, a.on s = (.ok x, u) ∧ (f x).on u = (.error e, t) := by
  rw [on_bind]
  rcases h : a.on s with ⟨r, u⟩
  cases r with
  | ok x =>
    constructor
    · intro g
      exact .inr ⟨x, u, rfl, g⟩
    · rintro (g | ⟨_, _, ⟨⟩, g⟩)
      · cases g
      · exact g
  | error e' => simp

theorem on_bind_of_ok {a : Action α} {s u : Store} {x : α} (h : a.on s = (.ok x, u))
    (f : α → Action β) : (a >>= f).on s = (f x).on u := by
  rw [on_bind, h]

theorem on_bind_of_error {a : Action α} {s u : Store} {e : Error} (h : a.on s = (.error e, u))
    (f : α → Action β) : (a >>= f).on s = (.error e, u) := by
  rw [on_bind, h]

theorem on_ofExcept_eq_ok {r : Except Error α} {s t : Store} {x : α} :
    (ofExcept r).on s = (.ok x, t) ↔ r = .ok x ∧ s = t := by
  rw [on_ofExcept, Prod.mk.injEq]

theorem on_ofExcept_bind_eq_ok {r : Except Error α} {f : α → Action β} {s t : Store} {y : β} :
    (ofExcept r >>= f).on s = (.ok y, t) ↔ ∃ x, r = .ok x ∧ (f x).on s = (.ok y, t) := by
  cases r <;> simp [on_bind, on_ofExcept]

theorem on_query_eq_ok {f : Store → Except HostFault α} {s t : Store} {x : α} :
    (query f).on s = (.ok x, t) ↔ f s = .ok x ∧ s = t := by
  rw [on_query, Prod.mk.injEq]
  cases f s with
  | ok y =>
    constructor
    · rintro ⟨⟨⟩, rfl⟩
      exact ⟨rfl, rfl⟩
    · rintro ⟨⟨⟩, rfl⟩
      exact ⟨rfl, rfl⟩
  | error fault =>
    constructor
    · rintro ⟨⟨⟩, -⟩
    · rintro ⟨⟨⟩, -⟩

theorem on_query_of_ok {f : Store → Except HostFault α} {s : Store} {x : α} (h : f s = .ok x) :
    (query f).on s = (.ok x, s) := on_query_eq_ok.2 ⟨h, rfl⟩

/-- Every run leads to a store that the relation allows. -/
def Moves (R : Store → Store → Prop) (a : Action α) : Prop := ∀ s, R s (a.on s).2

section

variable {R : Store → Store → Prop} (refl : ∀ s, R s s)
include refl

theorem moves_pure (x : α) : Moves R (pure x : Action α) := fun s => refl s

theorem moves_throw (e : Error) : Moves R (throw e : Action α) := fun s => refl s

theorem moves_get : Moves R (get : Action Store) := fun s => refl s

theorem moves_ofExcept (r : Except Error α) : Moves R (ofExcept r) := fun s => by
  rw [on_ofExcept]
  exact refl s

theorem moves_query (f : Store → Except HostFault α) : Moves R (query f) := fun s => by
  rw [on_query]
  exact refl s

end

theorem Moves.bind {R : Store → Store → Prop} (trans : ∀ s t u, R s t → R t u → R s u)
    {a : Action α} {f : α → Action β} (ha : Moves R a) (hf : ∀ x, Moves R (f x)) :
    Moves R (a >>= f) := fun s => by
  have first := ha s
  rw [on_bind]
  rcases h : a.on s with ⟨r, u⟩
  rw [h] at first
  cases r with
  | ok x => exact trans _ _ _ first (hf x u)
  | error e => exact first

theorem Moves.within {R : Store → Store → Prop} {a : Action α} (ha : Moves R a)
    (context : String) : Moves R (a.within context) := fun s => by
  rw [on_within]
  exact ha s

/-- A run that fails leaves the store as it was. -/
def Atomic (a : Action α) : Prop := ∀ ⦃s e t⦄, a.on s = (.error e, t) → t = s

theorem atomic_pure (x : α) : Atomic (pure x) := nofun

theorem atomic_throw (e : Error) : Atomic (throw e : Action α) := by
  rintro s _ _ ⟨⟩
  rfl

theorem atomic_ofExcept (r : Except Error α) : Atomic (ofExcept r) := by
  cases r with
  | ok x => exact atomic_pure x
  | error e => exact atomic_throw e

theorem atomic_change (f : Store → Except HostFault Store) : Atomic (change f) := by
  intro s e t failed
  rw [on_change] at failed
  split at failed <;> cases failed
  rfl

theorem atomic_commit (edits : List Edit) : Atomic (commit edits) := by
  intro s e t failed
  rw [on_commit] at failed
  split at failed <;> cases failed
  rfl

theorem Atomic.bind_pure {a : Action α} (atomic : Atomic a) (f : α → β) :
    Atomic (a >>= fun x => pure (f x)) := by
  intro s e t failed
  obtain first | ⟨x, u, -, rest⟩ := on_bind_eq_error.1 failed
  · exact atomic first
  · cases rest

theorem Atomic.ofExcept_bind {r : Except Error α} {f : α → Action β} (atomic : ∀ x, Atomic (f x)) :
    Atomic (ofExcept r >>= f) := by
  cases r with
  | ok x => exact atomic x
  | error e => exact atomic_throw e

/-- A run does not fail. -/
def Succeeds (a : Action α) : Prop := ∀ s, ∃ x t, a.on s = (.ok x, t)

theorem succeeds_pure (x : α) : Succeeds (pure x : Action α) := fun s => ⟨x, s, rfl⟩

theorem Succeeds.bind {a : Action α} {f : α → Action β} (first : Succeeds a)
    (rest : ∀ x, Succeeds (f x)) : Succeeds (a >>= f) := by
  intro s
  obtain ⟨x, t, run⟩ := first s
  rw [on_bind_of_ok run]
  exact rest x t

theorem Succeeds.atomic {a : Action α} (succeeds : Succeeds a) : Atomic a := by
  intro s e t failed
  obtain ⟨x, u, run⟩ := succeeds s
  cases run.symm.trans failed

/-- Every error that a run ends in is of a kind, whatever the store. -/
def Raises (P : Error → Prop) (a : Action α) : Prop := ∀ s e, (a.on s).1 = .error e → P e

section

variable {P : Error → Prop}

theorem raises_pure (x : α) : Raises P (pure x) := nofun

theorem raises_throw {e : Error} (raised : P e) : Raises P (throw e : Action α) := by
  rintro s _ ⟨⟩
  exact raised

theorem Raises.bind {a : Action α} {f : α → Action β} (first : Raises P a)
    (second : ∀ x, Raises P (f x)) : Raises P (a >>= f) := by
  intro s e raised
  rw [on_bind] at raised
  rcases ran : a.on s with ⟨e' | x, t⟩
  · rw [ran] at raised
    cases raised
    exact first s e (congrArg Prod.fst ran)
  · rw [ran] at raised
    exact second x t e raised

theorem raises_get : Raises P (get : Action Store) := nofun

theorem raises_set (s : Store) : Raises P (set s : Action PUnit) := nofun

theorem raises_ofExcept {r : Except Error α} (raised : ∀ e, r = .error e → P e) :
    Raises P (ofExcept r) := by
  intro s e failed
  rw [on_ofExcept] at failed
  exact raised e failed

theorem raises_createModule (t : TypeName) : Raises P (createModule t) := nofun

theorem raises_createConnection (source destination : PortRef) :
    Raises P (createConnection source destination) := nofun

variable (host : ∀ fault, P (.host fault))
include host

theorem raises_ofHost (r : Except HostFault α) : Raises P (ofHost r) := by
  cases r with
  | ok x => exact raises_pure x
  | error fault => exact raises_throw (host fault)

theorem raises_query (f : Store → Except HostFault α) : Raises P (query f) :=
  raises_get.bind fun s => raises_ofHost host (f s)

theorem raises_change (f : Store → Except HostFault Store) : Raises P (change f) :=
  raises_get.bind fun s => (raises_ofHost host (f s)).bind raises_set

theorem raises_commit (edits : List Edit) : Raises P (commit edits) :=
  raises_get.bind fun s => (raises_ofHost host (s.commit edits)).bind fun (v, s) =>
    (raises_set s).bind fun _ => raises_pure v

end

end Dataflow.Action
