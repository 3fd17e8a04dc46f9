import Dataflow.Operation.Lifecycle
import Mathlib.Data.List.DropRight

/-! The packages of a process share one registry of operations. What it accepts, and what it gives out once
it is sealed, is told by the requests that it accepted since it was last reset, and by nothing else. -/

namespace Dataflow.Lifecycle

/-- What the shared registry can be asked to do. -/
inductive Request
  | init (s : Settings)
  | install (p : Provider)
  | register (op : Operation)
  | finish
  | snapshot
  | reset

/-- What a request that is accepted gives back. -/
inductive Answer
  | done
  | installed (count : Nat)
  | given (c : Catalogue)

namespace Request

def isReset : Request → Bool
  | reset => true
  | _ => false

/-- The operations that a request brings; those of a provider that name no package are of its own. -/
def operations : Request → List Operation
  | install p => p.operations.map (Catalogue.stamped p.package)
  | register op => [op]
  | _ => []

def plots : Request → List Plot
  | install p => p.plots
  | _ => []

end Request

/-- The answer to a request, and the registry after it. -/
def ask (l : Lifecycle) : Request → Except Error (Answer × Lifecycle)
  | .init s => (init s l).map fun l => (.done, l)
  | .install p => (install p l).map fun (n, l) => (.installed n, l)
  | .register op => (register op l).map fun l => (.done, l)
  | .finish => (finish l).map fun (c, l) => (.given c, l)
  | .snapshot => (snapshot l).map fun c => (.given c, l)
  | .reset => .ok (.done, .absent)

def accepts (l : Lifecycle) (r : Request) : Bool := (l.ask r).isOk

/-- The registry after a request, which is the same where that is refused. -/
def after (l : Lifecycle) (r : Request) : Lifecycle :=
  match l.ask r with
  | .ok (_, l) => l
  | .error _ => l

def afterAll (l : Lifecycle) : List Request → Lifecycle
  | [] => l
  | r :: rs => (l.after r).afterAll rs

/-- Those of the requests that are accepted as they come. -/
def accepted (l : Lifecycle) : List Request → List Request
  | [] => []
  | r :: rs => if l.accepts r then r :: (l.after r).accepted rs else (l.after r).accepted rs

/-- The requests that were accepted since the last reset. -/
def session (rs : List Request) : List Request :=
  (accepted .absent rs).rtakeWhile fun r => !r.isReset

variable {l : Lifecycle} {c : Catalogue} {d rs : List Request}

theorem afterAll_concat (l : Lifecycle) (rs : List Request) (r : Request) :
    l.afterAll (rs ++ [r]) = (l.afterAll rs).after r := by
  induction rs generalizing l with
  | nil => rfl
  | cons q rs ih => exact ih _

theorem accepted_concat (l : Lifecycle) (rs : List Request) (r : Request) :
    l.accepted (rs ++ [r]) =
      l.accepted rs ++ if (l.afterAll rs).accepts r then [r] else [] := by
  induction rs generalizing l with
  | nil => rfl
  | cons q rs ih =>
    simp only [List.cons_append, accepted, afterAll, ih]
    split <;> rfl

/-- A session that goes on with a request. -/
def continued (l : Lifecycle) (d : List Request) (r : Request) : List Request :=
  if l.accepts r then (if r.isReset then [] else d ++ [r]) else d

theorem session_concat (rs : List Request) (r : Request) :
    session (rs ++ [r]) = continued (afterAll .absent rs) (session rs) r := by
  rw [session, accepted_concat, continued]
  cases (afterAll .absent rs).accepts r with
  | false => simp [session]
  | true =>
    rw [if_pos rfl, if_pos rfl, List.rtakeWhile_concat]
    cases r.isReset <;> rfl

/-- What the requests of a session bring, before the built-in operations. -/
def brought (s : Settings) (d : List Request) : Catalogue :=
  ⟨d.flatMap Request.operations, Operation.builtins s, d.flatMap Request.plots⟩

/-- The registry as a session leaves it: open from its first request on, until it is sealed. -/
inductive Leaves : List Request → Lifecycle → Prop
  | absent : Leaves [] .absent
  | filling {s : Settings} {d : List Request} (once : ∀ s', .init s' ∉ d) (unsealed : .finish ∉ d) :
      Leaves (.init s :: d) (.filling (brought s d))
  | sealed {s : Settings} {d : List Request} (once : ∀ s', .init s' ∉ d) (closed : .finish ∈ d) :
      Leaves (.init s :: d) (.sealed (brought s d))

theorem brought_register (s : Settings) (d : List Request) (op : Operation) :
    (brought s d).register op = brought s (d ++ [.register op]) := by
  simp [brought, Catalogue.register, Request.operations, Request.plots]

theorem brought_install (s : Settings) (d : List Request) (p : Provider) :
    (brought s d).install p = brought s (d ++ [.install p]) := by
  simp [brought, Catalogue.install, Request.operations, Request.plots]

theorem brought_concat (s : Settings) (d : List Request) {r : Request} (operations : r.operations = [])
    (plots : r.plots = []) : brought s (d ++ [r]) = brought s d := by
  simp [brought, operations, plots]

/-- Whatever is asked for next, the registry is as the session leaves it. -/
theorem Leaves.step (leaves : Leaves d l) (r : Request) :
    Leaves (continued l d r) (l.after r) := by
  cases r with
  | init s =>
    cases leaves with
    | absent => exact .filling nofun nofun
    | filling once unsealed => exact .filling once unsealed
    | sealed once closed => exact .sealed once closed
  | install p =>
    cases leaves with
    | absent => exact .absent
    | @filling s d once unsealed =>
      show Leaves (.init s :: (d ++ [.install p])) (.filling ((brought s d).install p))
      rw [brought_install]
      exact .filling (by simpa using once) (by simpa using unsealed)
    | sealed once closed => exact .sealed once closed
  | register op =>
    cases leaves with
    | absent => exact .absent
    | @filling s d once unsealed =>
      show Leaves (.init s :: (d ++ [.register op])) (.filling ((brought s d).register op))
      rw [brought_register]
      exact .filling (by simpa using once) (by simpa using unsealed)
    | sealed once closed => exact .sealed once closed
  | finish =>
    cases leaves with
    | absent => exact .absent
    | @filling s d once unsealed =>
      show Leaves (.init s :: (d ++ [.finish])) (.sealed (brought s d))
      rw [← brought_concat s d (r := .finish) rfl rfl]
      exact .sealed (by simpa using once) (by simp)
    -- a sealed registry is not changed, so finishing it again adds nothing
    | @sealed s d once closed =>
      show Leaves (.init s :: (d ++ [.finish])) (.sealed (brought s d))
      rw [← brought_concat s d (r := .finish) rfl rfl]
      exact .sealed (by simpa using once) (by simp)
  | snapshot =>
    cases leaves with
    | absent => exact .absent
    | filling once unsealed => exact .filling once unsealed
    | @sealed s d once closed =>
      show Leaves (.init s :: (d ++ [.snapshot])) (.sealed (brought s d))
      rw [← brought_concat s d (r := .snapshot) rfl rfl]
      exact .sealed (by simpa using once) (by simpa using closed)
  | reset => exact .absent

theorem leaves_session (rs : List Request) : Leaves (session rs) (afterAll .absent rs) := by
  induction rs using List.reverseRecOn with
  | nil => exact .absent
  | append_singleton rs r ih =>
    rw [session_concat, afterAll_concat]
    exact ih.step r

/-- Only a registry that can be sealed, or is, gives out a catalogue, and is sealed after that. -/
theorem ask_eq_given {r : Request} {l' : Lifecycle} (given : l.ask r = .ok (.given c, l')) :
    (l = .filling c ∨ l = .sealed c) ∧ l' = .sealed c := by
  cases r <;> cases l <;> cases given
  · exact ⟨.inl rfl, rfl⟩
  · exact ⟨.inr rfl, rfl⟩
  · exact ⟨.inr rfl, rfl⟩

theorem afterAll_sealed (kept : ∀ r ∈ rs, r.isReset = false) :
    (sealed c).afterAll rs = .sealed c := by
  induction rs with
  | nil => rfl
  | cons r rs ih =>
    rw [List.forall_mem_cons] at kept
    have same : (sealed c).after r = .sealed c := by
      cases r with
      | reset => cases kept.1
      | _ => rfl
    rw [afterAll, same, ih kept.2]

theorem Leaves.accepts_init (leaves : Leaves d l) (s : Settings) :
    l.accepts (.init s) = true ↔ ∀ s', .init s' ∉ d := by
  cases leaves with
  | absent => exact ⟨fun _ => nofun, fun _ => rfl⟩
  | filling => exact ⟨nofun, fun none => absurd (List.mem_cons_self ..) (none _)⟩
  | sealed => exact ⟨nofun, fun none => absurd (List.mem_cons_self ..) (none _)⟩

theorem Leaves.accepts_install (leaves : Leaves d l) (p : Provider) :
    l.accepts (.install p) = true ↔ (∃ s, .init s ∈ d) ∧ .finish ∉ d := by
  cases leaves with
  | absent => exact ⟨nofun, nofun⟩
  | filling _ unsealed => exact ⟨fun _ => ⟨⟨_, List.mem_cons_self ..⟩, by simpa⟩, fun _ => rfl⟩
  | sealed _ closed => exact ⟨nofun, fun ⟨_, open'⟩ => absurd (List.mem_cons_of_mem _ closed) open'⟩

/-- An operation is taken just where a provider is. -/
theorem accepts_register (l : Lifecycle) (op : Operation) (p : Provider) :
    l.accepts (.register op) = l.accepts (.install p) := by
  cases l <;> rfl

theorem Leaves.accepts_finish (leaves : Leaves d l) :
    l.accepts .finish = true ↔ ∃ s, .init s ∈ d := by
  cases leaves with
  | absent => exact ⟨nofun, nofun⟩
  | filling => exact ⟨fun _ => ⟨_, List.mem_cons_self ..⟩, fun _ => rfl⟩
  | sealed => exact ⟨fun _ => ⟨_, List.mem_cons_self ..⟩, fun _ => rfl⟩

theorem Leaves.accepts_snapshot (leaves : Leaves d l) :
    l.accepts .snapshot = true ↔ .finish ∈ d := by
  cases leaves with
  | absent => exact ⟨nofun, nofun⟩
  | filling _ unsealed => exact ⟨nofun, fun closed => absurd closed (by simpa)⟩
  | sealed _ closed => exact ⟨fun _ => List.mem_cons_of_mem _ closed, fun _ => rfl⟩

theorem after_of_refused {r : Request} (refused : l.accepts r = false) : l.after r = l := by
  unfold accepts at refused
  unfold after
  cases asked : l.ask r with
  | ok answer =>
    rw [asked] at refused
    cases refused
  | error e => rfl

/-- What is given out is what the session brought since it was opened, in its one way. -/
theorem Leaves.given (leaves : Leaves d l) {r : Request} {l' : Lifecycle}
    (given : l.ask r = .ok (.given c, l')) :
    ∃ s, (∀ s', .init s' ∈ d ↔ s' = s) ∧ c = brought s d ∧ l' = .sealed c := by
  obtain ⟨state, rfl⟩ := ask_eq_given given
  cases leaves with
  | absent => simp at state
  | @filling s d once _ =>
    obtain rfl : brought s d = c := by simpa using state
    exact ⟨s, by simp [once], rfl, rfl⟩
  | @sealed s d once _ =>
    obtain rfl : brought s d = c := by simpa using state
    exact ⟨s, by simp [once], rfl, rfl⟩

/-- Where `d` are the requests that were accepted since the last reset: the registry is opened just if
there are none that opened it, filled just between that and its sealing, sealed just if it was opened, and
read just if it was sealed. A request that is refused changes nothing. What is given out lists the
operations and plots that `d` brought, in their order, before the built-in operations of the settings that
it was opened with; and until the next reset it is all that is ever given out. -/
theorem session_exact (rs : List Request) :
    let l := afterAll .absent rs
    let d := session rs
    (∀ s, l.accepts (.init s) = true ↔ ∀ s', .init s' ∉ d) ∧
    (∀ p, l.accepts (.install p) = true ↔ (∃ s, .init s ∈ d) ∧ .finish ∉ d) ∧
    (∀ op, l.accepts (.register op) = true ↔ (∃ s, .init s ∈ d) ∧ .finish ∉ d) ∧
    (l.accepts .finish = true ↔ ∃ s, .init s ∈ d) ∧
    (l.accepts .snapshot = true ↔ .finish ∈ d) ∧
    (∀ r, l.accepts r = false → l.after r = l) ∧
    ∀ r c l', l.ask r = .ok (.given c, l') → ∃ s, (∀ s', .init s' ∈ d ↔ s' = s) ∧
      c.operations = d.flatMap Request.operations ++ Operation.builtins s ∧
      c.plots = d.flatMap Request.plots ∧
      ∀ more r' c' l'', (∀ q ∈ more, q.isReset = false) →
        (l'.afterAll more).ask r' = .ok (.given c', l'') → c' = c := by
  intro l d
  have leaves : Leaves d l := leaves_session rs
  refine ⟨leaves.accepts_init, leaves.accepts_install, fun op => ?_, leaves.accepts_finish,
    leaves.accepts_snapshot, fun r => after_of_refused, fun r c l' given => ?_⟩
  · rw [accepts_register l op ⟨"", [], []⟩]
    exact leaves.accepts_install _
  · obtain ⟨s, once, rfl, rfl⟩ := leaves.given given
    refine ⟨s, once, rfl, rfl, fun more r' c' l'' kept later => ?_⟩
    rw [afterAll_sealed kept] at later
    obtain ⟨same | same, -⟩ := ask_eq_given later
    · cases same
    · exact (Lifecycle.sealed.inj same).symm

end Dataflow.Lifecycle
