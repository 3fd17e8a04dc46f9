import Dataflow.Proofs.Operation.Growth
import Dataflow.Proofs.Store.History
import Dataflow.Proofs.Variable.RoundTrip

/-! Work on one store: variables are built call by call, written and copied, while the store may be asked
for anything else at any time. As long as the variables root is one that was made for variables, all that
is built can be written below it, and be copied back from there. -/

namespace Dataflow

namespace Store

variable {s t u : Store}

/-- A store after more work: it is valid, knows what it gave out, and has all its versions still. -/
structure Advances (s t : Store) : Prop where
  valid : t.Valid
  precedes : s.Precedes t
  ages : s.Ages t

theorem Advances.trans (first : s.Advances t) (rest : t.Advances u) : s.Advances u :=
  ⟨rest.valid, first.precedes.trans rest.precedes, first.ages.trans rest.ages⟩

theorem Valid.advances_refl (hs : s.Valid) : s.Advances s := ⟨hs, .refl s, .refl s⟩

theorem Step.advances {r : Request} (step : s.Step r t) (hs : s.Valid) : s.Advances t where
  valid := hs.step step
  precedes := step.precedes
  ages := step.ages hs

end Store

theorem Host.Prepares.advances {h : Host} {s t : Store} (prepares : h.Prepares s t) (hs : s.Valid) :
    s.Advances t :=
  ⟨prepares.valid hs, prepares.precedes, fun _ n found => ⟨n, prepares.kept hs found, .refl n⟩⟩

namespace Variable

variable {h : Host} {s u : Store}

theorem advances_wrote {x : Variable} {name : String} {parent : VersionId} {edits : List Edit}
    {base : Version} {p : Pipeline} (hs : s.Valid) (live : s.live parent = .ok base)
    (accepted : base.pipeline.applyAll edits = .ok p) :
    s.Advances (wrote h x name s parent edits p) where
  valid := by
    have selected : Store.Valid { s with
        current := parent, nextConnection := s.nextConnection + 1 } :=
      (hs.mints ⟨0, 1, rfl⟩).current parent
    have closed : p.WellFormed := (hs.wellFormed (Store.live_eq_ok_iff.1 live).1).applyAll accepted
    exact (selected.extended (n := x.versionBelow parent edits p) closed).tag
      (OrderedMap.get?_insert_self ..) rfl _
  precedes := ⟨Nat.le_refl _, Nat.le_succ _⟩
  ages v n found := ⟨n, get?_wrote h x name hs parent edits p found, .refl n⟩

/-- Writing a variable keeps all that was there, also where it fails. -/
theorem advances_materialize (h : Host) (x : Variable) (name : String) :
    Action.Moves (fun s t => s.Valid → s.Advances t) (x.materialize h name) := fun s hs => by
  obtain ⟨e, run⟩ | ⟨o, r, u, base, -, -, asked, live, outcome⟩ := materialize_cases h name hs x
  · rw [run]
    exact hs.advances_refl
  · have first := (Host.preparing_variablesRoot.prepares hs asked).advances hs
    refine first.trans ?_
    obtain ⟨e, fault, -, run⟩ | ⟨p, accepted, run⟩ := outcome <;> rw [run]
    · exact ⟨(first.valid.mints ⟨0, 1, rfl⟩).current r.version, ⟨Nat.le_refl _, Nat.le_succ _⟩,
        .refl u⟩
    · exact advances_wrote first.valid live accepted

end Variable

namespace Callback

open Variable (Drawings)

variable {h : Host} {p q : Held} {s t u : Store}

/-- What a call makes of variables that draw pipelines apart from each other draws one as well. -/
theorem drawings_of_perform (before : s.Precedes t) (ht : t.Valid) {c : Call} {a : Answer}
    (run : (c.perform h p).on t = (.ok (a, q), u)) {n : Nat} {y : Variable}
    (subject : c.subject p = some n) (found : q.get? n = some y) (unwritten : y.version = none)
    (parts : ∀ xs, List.Forall₂ (fun k x => p.get? k = some x ∧ x.version = none) c.parts xs →
      Drawings s t xs) : Drawings s u [y] := by
  have part : ∀ {k x}, c.parts = [k] → p.get? k = some x → x.version = none → Drawings s t [x] := by
    intro k x single held free
    exact parts [x] (single ▸ .cons ⟨held, free⟩ .nil)
  have is {p : Held} {z : Variable} (found : (p.put n z).get? n = some y) : z = y :=
    Option.some.inj ((Held.get?_put_self ..).symm.trans found)
  cases does_of_perform run with
  | new type =>
    cases subject
    obtain rfl := is found
    exact Variable.drawings_nil.new type
  | constant made =>
    cases subject
    obtain rfl := is found
    obtain ⟨-, -, -, drawn, minted⟩ := Variable.drawn_constant made
    exact Variable.drawings_singleton drawn (minted.earlier before)
  | copy made =>
    cases subject
    obtain rfl := is found
    obtain ⟨v, r, u, o, p, ids, g, -, asked, -, -, -, drawn, minted, -⟩ := Variable.copy_eq_ok ht made
    have rooted := Host.preparing_variablesRoot.prepares ht asked
    exact Variable.drawings_singleton drawn (minted.earlier (before.trans rooted.precedes))
  | restore made =>
    cases subject
    obtain rfl := is found
    rw [Variable.version_of_restore made] at unwritten
    cases unwritten
  | clone held =>
    cases subject
    obtain rfl := is found
    exact part rfl held unwritten
  | inspect k => cases subject
  | resolve type => cases subject
  | addModule held added =>
    cases subject
    obtain rfl := is found
    have free := by
      cases added
      exact unwritten
    exact (part rfl held free).addModule before added
  | setFunction held set =>
    cases subject
    obtain rfl := is found
    have free := (Variable.continues_of_setFunction set).version.symm.trans unwritten
    exact (part rfl held free).setFunction set
  | connect held connected =>
    cases subject
    obtain rfl := is found
    have free := (Variable.continues_of_connect connected).version.symm.trans unwritten
    exact (part rfl held free).connect before connected
  | selectOutput held select =>
    cases subject
    obtain rfl := is found
    have free := (Variable.continues_of_selectOutput select).1.version.symm.trans unwritten
    exact (part rfl held free).selectOutput select
  | @absorb n k x x' z output held taken absorbed =>
    cases subject
    obtain rfl := is found
    obtain ⟨free, -, rfl⟩ := Variable.absorb_eq_ok absorbed
    exact Drawings.absorb (parts [x, x']
      (.cons ⟨(Held.of_drop held).2, unwritten⟩ (.cons ⟨taken, free⟩ .nil))) absorbed
  | setProvenance held record =>
    cases subject
    obtain rfl := is found
    exact (part rfl held unwritten).congr_head fun g hx => ⟨hx.unwritten, hx.draws, hx.output⟩

end Callback

/-- A store with the variables that are held on it. Noted are the numbers of those that each was made of,
as often as they were taken over, and all variables roots that were made for variables. -/
structure Workbench where
  store : Store
  held : Callback.Held
  lineage : Nat → List Nat
  roots : List VariablesRoot

namespace Workbench

/-- What is done on a workbench: the store is asked for anything at all, a call on variables is made, the
variables root is asked for, or a variable is written. -/
inductive Act
  | request (r : Store.Request)
  | call (c : Callback.Call)
  | root
  | write (n : Nat) (name : String)

/-- The work of an act, which gives what is held after it. -/
def Act.perform (h : Host) (p : Callback.Held) : Act → Action Callback.Held
  | .request r => do
    r.perform
    return p
  | .call c => do
    let (_, p) ← c.perform h p
    return p
  | .root => do
    let _ ← h.variablesRoot
    return p
  | .write n name => do
    let x ← Action.ofExcept (p.find n)
    let (_, y) ← x.materialize h name
    return p.put n y

/-- The act looks for the variables root. -/
def Act.asks (p : Callback.Held) : Act → Bool
  | .call (.copy x) => x.isMaterialized
  | .call (.restore _) | .root => true
  | .request _ | .call _ => false
  | .write n _ => (p.get? n).any fun x => !x.isMaterialized && x.output.isSome

def new : Workbench := ⟨.new, .of [], fun _ => [], []⟩

section

variable (h : Host) (b : Workbench)

/-- The variables roots after an act, which has made one if it looked for it and there was none. -/
def rootsAfter (act : Act) : List VariablesRoot :=
  if act.asks b.held && (b.store.tags.get? h.rootTag).isNone then
    (h.variablesRoot.on b.store).1.toOption.toList ++ b.roots
  else b.roots

/-- What a variable is made of after an act that succeeded. One that was made of no other is made of
itself. -/
def lineageAfter (n : Nat) : Act → List Nat
  | .call c =>
    if c.subject b.held = some n then
      match c.parts.flatMap b.lineage with
      | [] => [n]
      | ns => ns
    else b.lineage n
  | _ => b.lineage n

/-- The workbench after an act, whether it succeeded or not. -/
def after (act : Act) : Workbench :=
  match (act.perform h b.held).on b.store with
  | (.ok p, s) => ⟨s, p, (b.lineageAfter · act), b.rootsAfter h act⟩
  | (.error _, s) => ⟨s, b.held, b.lineage, b.rootsAfter h act⟩

end

def afterAll (h : Host) (b : Workbench) : List Act → Workbench
  | [] => b
  | act :: acts => (b.after h act).afterAll h acts

/-- A variables root as it was made, with a module that is no part of any variable. -/
structure Founded (h : Host) (b : Workbench) (r : VariablesRoot) : Prop where
  version : ∃ n, b.store.versions.get? r.version = some n ∧ n.pipeline = h.rootPipeline r.module
  module : r.module < b.store.nextModule
  apart : ∀ n x, b.held.get? n = some x → r.module ∉ x.ids.1

/-- Variables that were not written draw pipelines if they took over each of their parts once, and are apart
from all that have no part in common with them, and from all variables roots. -/
structure Sound (h : Host) (b : Workbench) : Prop where
  valid : b.store.Valid
  later : Store.new.Precedes b.store
  proper : b.held.Proper
  issued : ∀ {n x}, b.held.get? n = some x → x.ids ≤ b.store.issued
  drawn : ∀ {n x}, b.held.get? n = some x → x.version = none → (b.lineage n).Nodup →
    ∃ g, x.Drawn g ∧ g.Minted .new b.store
  itself : ∀ {n x}, b.held.get? n = some x → b.lineage n ≠ []
  apart : ∀ {n k x y}, b.held.get? n = some x → b.held.get? k = some y →
    List.Disjoint (b.lineage n) (b.lineage k) → Disjoint x.ids y.ids
  roots : ∀ r ∈ b.roots, b.Founded h r

variable {h : Host} {b : Workbench} {act : Act} {p q : Callback.Held} {s t u : Store}
  {r : VariablesRoot}

theorem sound_new (h : Host) : new.Sound h where
  valid := Store.valid_new
  later := .refl _
  proper := .of (by simp)
  issued found := by cases found
  drawn found := by cases found
  itself found := by cases found
  apart found := by cases found
  roots := by simp [new]

theorem Act.advances_perform (h : Host) (p : Callback.Held) (act : Act) :
    Action.Moves (fun s t => s.Valid → s.Advances t) (act.perform h p) := by
  have trans : ∀ s t u : Store, (s.Valid → s.Advances t) → (t.Valid → t.Advances u) →
      s.Valid → s.Advances u := fun s t u first rest hs =>
    (first hs).trans (rest (first hs).valid)
  have refl : ∀ s : Store, s.Valid → s.Advances s := fun s hs => hs.advances_refl
  have preparing {α : Type} {a : Action α} (ha : h.Preparing a) :
      Action.Moves (fun s t => s.Valid → s.Advances t) a := fun s hs => (ha s hs).advances hs
  cases act with
  | request r =>
    refine .bind trans (fun s hs => ?_) fun _ => Action.moves_pure refl _
    exact (s.step_after r).advances hs
  | call c => exact .bind trans (preparing (c.preparing_perform h p)) fun _ => Action.moves_pure refl _
  | root => exact .bind trans (preparing Host.preparing_variablesRoot) fun _ => Action.moves_pure refl _
  | write n name =>
    refine .bind trans (Action.moves_ofExcept refl _) fun x => ?_
    exact .bind trans (x.advances_materialize h name) fun _ => Action.moves_pure refl _

theorem after_cases (h : Host) (b : Workbench) (act : Act) :
    (∃ p s, (act.perform h b.held).on b.store = (.ok p, s) ∧
      b.after h act = ⟨s, p, (b.lineageAfter · act), b.rootsAfter h act⟩) ∨
    ∃ e s, (act.perform h b.held).on b.store = (.error e, s) ∧
      b.after h act = ⟨s, b.held, b.lineage, b.rootsAfter h act⟩ := by
  unfold after
  rcases run : (act.perform h b.held).on b.store with ⟨e | p, s⟩
  · exact .inr ⟨e, s, rfl, rfl⟩
  · exact .inl ⟨p, s, rfl, rfl⟩

theorem advances_after (hs : b.store.Valid) (act : Act) :
    b.store.Advances (b.after h act).store := by
  have advances := act.advances_perform h b.held b.store hs
  obtain ⟨p, s, run, same⟩ | ⟨e, s, run, same⟩ := after_cases h b act <;>
    rw [run] at advances <;> rw [same] <;> exact advances

theorem advances_afterAll (hs : b.store.Valid) (acts : List Act) :
    b.store.Advances (b.afterAll h acts).store := by
  induction acts generalizing b with
  | nil => exact hs.advances_refl
  | cons act acts ih =>
    have first := advances_after (h := h) hs act
    exact first.trans (ih first.valid)

theorem Founded.kept {c : Workbench} (founded : b.Founded h r) (advances : b.store.Advances c.store)
    (apart : ∀ n x, c.held.get? n = some x → r.module ∉ x.ids.1) : c.Founded h r where
  version := by
    obtain ⟨n, there, made⟩ := founded.version
    obtain ⟨m, there', ages⟩ := advances.ages _ n there
    exact ⟨m, there', ages.pipeline.trans made⟩
  module := Nat.lt_of_lt_of_le founded.module advances.precedes.module
  apart := apart

/-- Variables that take over nothing twice together draw pipelines apart from each other. -/
theorem Sound.drawings (sound : b.Sound h) {ns : List Nat} {xs : List Variable}
    (once : (ns.flatMap b.lineage).Nodup)
    (held : List.Forall₂ (fun n x => b.held.get? n = some x ∧ x.version = none) ns xs) :
    Variable.Drawings .new b.store xs := by
  induction held with
  | nil => exact Variable.drawings_nil
  | @cons n x ns xs here rest ih =>
    rw [List.flatMap_cons, List.nodup_append'] at once
    obtain ⟨own, others, disjoint⟩ := once
    have tail := ih others
    refine ⟨List.forall_mem_cons.2 ⟨sound.drawn here.1 here.2 own, tail.drawn⟩,
      List.pairwise_cons.2 ⟨fun y hy => ?_, tail.apart⟩⟩
    obtain ⟨i, hi, rfl⟩ := List.mem_iff_getElem.1 hy
    have listed : i < ns.length := by rw [rest.length_eq]; exact hi
    have there := (rest.get listed hi).1
    have apart := sound.apart here.1 there fun m hm hk =>
      disjoint hm (List.mem_flatMap.2 ⟨_, List.getElem_mem listed, hk⟩)
    intro g g' hg hg'
    refine Pipeline.apart_of_disjoint ?_
    rw [hg.draws.ids_eq, hg'.draws.ids_eq]
    exact apart

/-- Where only the store goes on, all stays apart. -/
theorem Sound.advance (sound : b.Sound h) (advances : b.store.Advances t) :
    Sound h { b with store := t } where
  valid := advances.valid
  later := sound.later.trans advances.precedes
  proper := sound.proper
  issued found := (sound.issued found).trans advances.precedes.issued
  drawn found unwritten once := by
    obtain ⟨g, drawn, minted⟩ := sound.drawn found unwritten once
    exact ⟨g, drawn, minted.later advances.precedes⟩
  itself := sound.itself
  apart := sound.apart
  roots r listed := (sound.roots r listed).kept advances (sound.roots r listed).apart

/-- A variable that was written brings in nothing any more. -/
theorem Sound.written (sound : b.Sound h) {n : Nat} {x y : Variable} {v : VersionId}
    (held : b.held.get? n = some x) (version : y.version = some v) (bare : y.draft = .empty) :
    Sound h { b with held := b.held.put n y } := by
  have none : y.ids = ⊥ := by
    rw [Variable.ids, bare]
    rfl
  refine ⟨sound.valid, sound.later, sound.proper.put (.of_version version), fun found => ?_,
    fun found unwritten once => ?_, fun found => ?_, fun found found' disjoint => ?_,
    fun r listed => ?_⟩
  · obtain ⟨-, rfl⟩ | ⟨-, held⟩ := Callback.Held.of_put found
    · exact none.le.trans bot_le
    · exact sound.issued held
  · obtain ⟨-, rfl⟩ | ⟨-, held⟩ := Callback.Held.of_put found
    · rw [version] at unwritten
      cases unwritten
    · exact sound.drawn held unwritten once
  · obtain ⟨rfl, -⟩ | ⟨-, held⟩ := Callback.Held.of_put found
    · exact sound.itself held
    · exact sound.itself held
  · obtain ⟨-, rfl⟩ | ⟨-, held⟩ := Callback.Held.of_put found
    · exact none ▸ disjoint_bot_left
    · obtain ⟨-, rfl⟩ | ⟨-, held'⟩ := Callback.Held.of_put found'
      · exact none ▸ disjoint_bot_right
      · exact sound.apart held held' disjoint
  · refine (sound.roots r listed).kept sound.valid.advances_refl fun k z found own => ?_
    obtain ⟨-, rfl⟩ | ⟨-, held⟩ := Callback.Held.of_put found
    · rw [none] at own
      exact own
    · exact (sound.roots r listed).apart k z held own

section

variable {c : Callback.Call} {a : Callback.Answer} {n k : Nat} {y z : Variable}

theorem lineageAfter_ne_nil (subject : c.subject b.held = some n) :
    b.lineageAfter n (.call c) ≠ [] := by
  rw [lineageAfter, if_pos subject]
  split
  · exact List.cons_ne_nil n []
  · next some => exact some

theorem mem_lineageAfter (subject : c.subject b.held = some n) {i : Nat}
    (listed : i ∈ c.parts.flatMap b.lineage) : i ∈ b.lineageAfter n (.call c) := by
  rw [lineageAfter, if_pos subject]
  split
  · next none =>
    rw [none] at listed
    cases listed
  · exact listed

theorem nodup_of_lineageAfter (subject : c.subject b.held = some n)
    (once : (b.lineageAfter n (.call c)).Nodup) : (c.parts.flatMap b.lineage).Nodup := by
  rw [lineageAfter, if_pos subject] at once
  split at once
  · next none =>
    rw [none]
    exact List.nodup_nil
  · exact once

theorem lineageAfter_of_ne (other : c.subject b.held ≠ some n) :
    b.lineageAfter n (.call c) = b.lineage n := if_neg other

variable (sound : b.Sound h)
include sound

/-- What has no part in common with the parts of a call is apart from what the call makes of them. -/
theorem Sound.made_apart (subject : c.subject b.held = some n)
    (made : y.ids ≤ Variable.idsOf (b.held.taken c) ⊔ b.store.given t)
    (held : b.held.get? k = some z)
    (disjoint : List.Disjoint (b.lineageAfter n (.call c)) (b.lineage k)) : Disjoint y.ids z.ids := by
  refine Callback.disjoint_made made (sound.issued held) fun j part x there => ?_
  refine sound.apart there held fun i hi hk => disjoint (mem_lineageAfter subject ?_) hk
  exact List.mem_flatMap.2 ⟨j, part, hi⟩

/-- A call makes a variable of its parts and of new identifiers. -/
theorem Sound.call (run : (c.perform h b.held).on b.store = (.ok (a, q), t)) :
    Sound h ⟨t, q, (b.lineageAfter · (.call c)), b.roots⟩ := by
  have advances := ((c.preparing_perform h b.held).prepares sound.valid run).advances sound.valid
  have kept := sound.advance advances
  have fate {n y} (found : q.get? n = some y) := Callback.made_of_perform sound.valid run found
  refine
    { valid := kept.valid
      later := kept.later
      proper := Callback.proper_perform sound.proper run
      issued := fun found => ?issued
      drawn := fun {n y} found unwritten once => ?drawn
      itself := fun found => ?itself
      apart := fun {n k y z} found found'
        (disjoint : List.Disjoint (b.lineageAfter n (.call c)) (b.lineageAfter k (.call c))) => ?apart
      roots := fun r listed => ?roots }
  case issued =>
    obtain ⟨-, made⟩ | ⟨-, held⟩ := fate found
    · refine made.trans (sup_le (Variable.idsOf_le_iff.2 fun x listed => ?_) (Store.given_le_issued ..))
      obtain ⟨k, -, there⟩ := Callback.Held.mem_taken.1 listed
      exact kept.issued there
    · exact kept.issued held
  case drawn =>
    obtain ⟨subject, -⟩ | ⟨other, held⟩ := fate found
    · have drawings := Callback.drawings_of_perform sound.later sound.valid run subject found unwritten
        fun xs => sound.drawings (nodup_of_lineageAfter subject once)
      exact drawings.drawn y (List.mem_singleton_self y)
    · exact kept.drawn held unwritten (lineageAfter_of_ne other ▸ once)
  case itself =>
    obtain ⟨subject, -⟩ | ⟨other, held⟩ := fate found
    · exact lineageAfter_ne_nil subject
    · exact ne_of_eq_of_ne (lineageAfter_of_ne other) (sound.itself held)
  case apart =>
    obtain ⟨subject, made⟩ | ⟨other, held⟩ := fate found <;>
      obtain ⟨subject', made'⟩ | ⟨other', held'⟩ := fate found'
    · -- a call makes one variable at most
      obtain rfl : n = k := Option.some.inj (subject.symm.trans subject')
      obtain ⟨i, listed⟩ := List.exists_mem_of_ne_nil _ (lineageAfter_ne_nil subject)
      exact (disjoint listed listed).elim
    · rw [lineageAfter_of_ne other'] at disjoint
      exact sound.made_apart subject made held' disjoint
    · rw [lineageAfter_of_ne other] at disjoint
      exact (sound.made_apart subject' made' held disjoint.symm).symm
    · rw [lineageAfter_of_ne other, lineageAfter_of_ne other'] at disjoint
      exact sound.apart held held' disjoint
  case roots =>
    have founded := sound.roots r listed
    refine founded.kept advances fun n y found own => ?_
    obtain ⟨-, made⟩ | ⟨-, held⟩ := fate found
    · have others : Variable.idsOf (b.held.taken c) ≤ ({r.module}ᶜ, ⊤) := by
        refine Variable.idsOf_le_iff.2 fun x listed => ⟨fun m here same => ?_, le_top⟩
        obtain ⟨k, -, there⟩ := Callback.Held.mem_taken.1 listed
        exact founded.apart k x there (same ▸ here)
      obtain part | new := made.1 own
      · exact others.1 part rfl
      · exact absurd founded.module (Nat.not_lt_of_le new.1)
    · exact founded.apart n y held own

end

/-- An act that makes no variables root keeps all apart. -/
theorem Sound.after_of_kept (sound : b.Sound h) (kept : b.rootsAfter h act = b.roots) :
    (b.after h act).Sound h := by
  have advances := advances_after (h := h) sound.valid act
  obtain ⟨q, t, run, same⟩ | ⟨e, t, run, same⟩ := after_cases h b act
  all_goals
    rw [same] at advances
    rw [same, kept]
  · cases act with
    | request r | root =>
      obtain ⟨_, _, -, rest⟩ := Action.on_bind_eq_ok.1 run
      cases rest
      exact sound.advance advances
    | call c =>
      obtain ⟨⟨a, q'⟩, _, performed, rest⟩ := Action.on_bind_eq_ok.1 run
      cases rest
      exact sound.call performed
    | write n name =>
      obtain ⟨x, held, rest⟩ := Action.on_ofExcept_bind_eq_ok.1 run
      obtain ⟨⟨v, y⟩, _, wrote, rest⟩ := Action.on_bind_eq_ok.1 rest
      cases rest
      obtain rfl := Variable.eq_of_materialize wrote
      exact (sound.advance advances).written (Callback.Held.find_eq_ok held) rfl rfl
  · exact sound.advance advances

/-- A variables root that is made has a new module. -/
theorem Sound.founded (sound : b.Sound h) (absent : b.store.tags.get? h.rootTag = none)
    (asked : h.variablesRoot.on b.store = (.ok r, u)) :
    Sound h { b with store := u, roots := r :: b.roots } := by
  have advances := (Host.preparing_variablesRoot.prepares sound.valid asked).advances sound.valid
  have kept := sound.advance advances
  have others (r') (listed : r' ∈ b.roots) :
      Founded h { b with store := u, roots := r :: b.roots } r' :=
    (sound.roots r' listed).kept advances (sound.roots r' listed).apart
  refine { kept with roots := List.forall_mem_cons.2 ⟨?_, others⟩ }
  obtain ⟨e, run⟩ | ⟨r', n, run, tag, -⟩ | ⟨-, run⟩ := Host.variablesRoot_cases (h := h) sound.valid
  · rw [run] at asked
    cases asked
  · rw [tag] at absent
    cases absent
  · rw [run] at asked
    cases asked
    have root := Host.rootAt_withRoot (h := h) b.store
    refine ⟨⟨_, root.version, rfl⟩, root.module, fun n x found own => ?_⟩
    exact Nat.lt_irrefl _ ((sound.issued found).1 own)

/-- An act that looks for the variables root goes on in the same way where that was done before. -/
theorem Act.perform_again {u : Store} (asks : act.asks p = true)
    (asked : h.variablesRoot.on s = (.ok r, u)) (again : h.variablesRoot.on u = (.ok r, u)) :
    (act.perform h p).on s = (act.perform h p).on u := by
  cases act with
  | request r => cases asks
  | root =>
    rw [perform, Action.on_bind_of_ok asked, Action.on_bind_of_ok again]
  | call c =>
    -- only copying and restoring ask for the variables root
    have same : (c.perform h p).on s = (c.perform h p).on u := by
      cases c with
      | copy x =>
        obtain ⟨v, version⟩ := Option.isSome_iff_exists.1 asks
        have first : ∀ s, (Action.ofExcept (x.written x.type.text)).on s = (.ok v, s) := fun s =>
          Action.on_ofExcept_eq_ok.2 ⟨by rw [Variable.written, version], rfl⟩
        have copied : (x.copy h).on s = (x.copy h).on u := by
          rw [Variable.copy, Action.on_bind_of_ok (first s), Action.on_bind_of_ok (first u),
            Action.on_bind_of_ok asked, Action.on_bind_of_ok again]
        rw [Callback.Call.perform, Action.on_bind, Action.on_bind, copied]
      | restore v =>
        have restored : (Variable.restore h v).on s = (Variable.restore h v).on u := by
          rw [Variable.restore, Action.on_bind_of_ok asked, Action.on_bind_of_ok again]
        rw [Callback.Call.perform, Action.on_bind, Action.on_bind, restored]
      | _ => cases asks
    rw [perform, Action.on_bind, Action.on_bind, same]
  | write n name =>
    obtain ⟨x, found, free⟩ := Option.any_eq_true _ _ |>.1 asks
    rw [Bool.and_eq_true, Bool.not_eq_true'] at free
    obtain ⟨o, output⟩ := Option.isSome_iff_exists.1 free.2
    have unwritten : x.version = none := by simpa [Variable.isMaterialized] using free.1
    have same : (x.materialize h name).on s = (x.materialize h name).on u := by
      rw [Variable.on_materialize h name unwritten output, Action.on_bind_of_ok asked,
        Variable.on_materialize h name unwritten output, Action.on_bind_of_ok again]
    have first : ∀ s, (Action.ofExcept (p.find n)).on s = (.ok x, s) := fun s =>
      Action.on_ofExcept_eq_ok.2 ⟨by rw [Callback.Held.find, found], rfl⟩
    rw [perform, Action.on_bind_of_ok (first s), Action.on_bind_of_ok (first u), Action.on_bind,
      Action.on_bind, same]

/-- Whatever is done on a workbench, all stays apart. -/
theorem Sound.after (sound : b.Sound h) (act : Act) : (b.after h act).Sound h := by
  by_cases makes : act.asks b.held = true ∧ b.store.tags.get? h.rootTag = none
  · obtain ⟨asks, absent⟩ := makes
    rcases asked : h.variablesRoot.on b.store with ⟨e | r, u⟩
    · refine sound.after_of_kept ?_
      rw [rootsAfter, asked]
      exact ite_self _
    · -- the act does what it does where the variables root has been made before
      have again := Host.variablesRoot_again sound.valid asked (.refl u)
      have tag := (Host.variablesRoot_eq_ok sound.valid asked).1
      let c : Workbench := { b with store := u, roots := r :: b.roots }
      have kept : c.rootsAfter h act = c.roots := by simp [rootsAfter, tag, c]
      have same : b.after h act = c.after h act := by
        have roots : b.rootsAfter h act = c.rootsAfter h act := by
          rw [kept]
          simp [rootsAfter, asks, absent, asked, Except.toOption, c]
        have lineage : (b.lineageAfter · act) = (c.lineageAfter · act) := rfl
        simp only [Workbench.after, roots, lineage, Act.perform_again asks asked again, c]
      rw [same]
      exact (sound.founded absent asked).after_of_kept kept
  · refine sound.after_of_kept ?_
    rw [rootsAfter, if_neg (by simpa using makes)]

theorem Sound.afterAll (sound : b.Sound h) (acts : List Act) : (b.afterAll h acts).Sound h := by
  induction acts generalizing b with
  | nil => exact sound
  | cons act acts ih => exact ih (sound.after act)

theorem store_after_write {n : Nat} {x : Variable} {name : String} (held : b.held.get? n = some x) :
    (b.after h (.write n name)).store = ((x.materialize h name).on b.store).2 := by
  have found : (Action.ofExcept (b.held.find n)).on b.store = (.ok x, b.store) :=
    Action.on_ofExcept_eq_ok.2 ⟨by rw [Callback.Held.find, held], rfl⟩
  rw [Workbench.after, Act.perform, Action.on_bind_of_ok found, Action.on_bind]
  rcases (x.materialize h name).on b.store with ⟨e | y, s⟩ <;> rfl

/-- The variables root is one that was made for variables, or it was not made yet and can be. -/
def Rooted (h : Host) (b : Workbench) : Prop :=
  (∃ r ∈ b.roots, b.store.tags.get? h.rootTag = some r.version) ∨
    b.store.tags.get? h.rootTag = none ∧ ∃ type, h.basic "OutputPort" = .ok type

/-- A variables root that is rooted is found or made, and is apart from all that is under construction. -/
theorem Sound.variablesRoot_eq_ok (sound : b.Sound h) (rooted : b.Rooted h) :
    ∃ r u n, h.variablesRoot.on b.store = (.ok r, u) ∧ u.live r.version = .ok n ∧
      n.pipeline = h.rootPipeline r.module ∧
      ∀ k x, b.held.get? k = some x → r.module ∉ x.ids.1 := by
  obtain ⟨r, listed, tag⟩ | ⟨absent, type, known⟩ := rooted
  · have founded := sound.roots r listed
    obtain ⟨n, there, made⟩ := founded.version
    obtain ⟨m, there', unpruned⟩ := sound.valid.tagged tag
    obtain rfl : n = m := Option.some.inj (there.symm.trans there')
    have live := Store.live_eq_ok_iff.2 ⟨there, unpruned⟩
    have keys : n.pipeline.modules.keys = [r.module] := by rw [made, Host.keys_rootPipeline]
    exact ⟨r, _, n, Host.on_variablesRoot_of_live tag live keys, live, made, founded.apart⟩
  · have run := Host.on_variablesRoot_of_absent (h := h) sound.valid absent
    rw [known] at run
    refine ⟨_, _, _, run, (Host.rootAt_withRoot b.store).live, rfl, fun k x found own => ?_⟩
    exact Nat.lt_irrefl _ ((sound.issued found).1 own)

/-- Writing a variable and copying it back. A variable that took over each of its parts once, and whose
output is designated, can be written wherever the variables root is one that was made for variables, or can be
made. Whatever is done then, as long as the version is not pruned and the variables root's tag names the
version that it was written below, a copy has the type and the provenance of the variable, and draws what it
drew under identifiers that the store had never given out. Copying changes no version and no tag. -/
theorem readsBack_of_write {acts : List Act} {n : Nat} {x : Variable} {o : PortRef}
    (held : (new.afterAll h acts).held.get? n = some x) (unwritten : x.version = none)
    (once : ((new.afterAll h acts).lineage n).Nodup) (output : x.output = some o)
    (rooted : (new.afterAll h acts).Rooted h) (name : String) :
    let b := new.afterAll h acts
    let w := b.after h (.write n name)
    ∃ v y, (x.materialize h name).on b.store = (.ok (v, y), w.store) ∧
      y = { x with version := some v, draft := .empty } ∧
      w.store.tags.get? (h.settings.variableTag name) = some v ∧
      ∀ later node, let c := w.afterAll h later
        c.store.live v = .ok node → c.store.tags.get? h.rootTag = node.parent →
          ∃ z t, (y.copy h).on c.store = (.ok z, t) ∧ x.ReadsBack c.store z t ∧
            ∀ k m, c.store.versions.get? k = some m → m.pipeline.ids ≤ c.store.issued →
              Disjoint m.pipeline.ids z.ids := by
  intro b w
  have sound : b.Sound h := (sound_new h).afterAll acts
  obtain ⟨g, drawn, minted⟩ := sound.drawn held unwritten once
  have own : x.Owned := sound.proper n x held unwritten
  obtain ⟨r, u, base, asked, live, made, apart⟩ := sound.variablesRoot_eq_ok rooted
  have absent : g.modules.contains r.module = false := Bool.eq_false_iff.2 fun inside => by
    have ids : x.ids = g.ids := drawn.draws.ids_eq.symm
    exact apart n x held (ids ▸ inside)
  obtain ⟨fed, run⟩ := Variable.materialize_of_drawn sound.valid drawn output minted name asked live
    made absent
  have wrote : w.store = Variable.wrote h x name u r.version
      (x.edits h r.module o u.nextConnection)
      (h.variablePipeline r.module g o u.nextConnection) := by
    rw [store_after_write held, run]
  have named : w.store.tags.get? (h.settings.variableTag name) = some u.nextVersion := by
    rw [wrote]
    exact (Store.get?_tagged ..).trans (if_pos rfl)
  refine ⟨u.nextVersion, _, run.trans (by rw [wrote]), rfl, named, fun later node => ?_⟩
  intro c there tag
  have hu := (Host.preparing_variablesRoot.prepares sound.valid asked).valid sound.valid
  have valid : w.store.Valid := (sound.after _).valid
  have advances : w.store.Advances c.store := advances_afterAll valid later
  rw [wrote] at advances
  -- the version and the one above it are what they were when the variable was written
  obtain ⟨m, found, ages⟩ := advances.ages _ _ (Store.live_eq_ok_iff.1 (Variable.live_wrote ..)).1
  obtain rfl : m = node := Option.some.inj (found.symm.trans (Store.live_eq_ok_iff.1 there).1)
  rw [ages.parent] at tag
  obtain ⟨above, known, ages'⟩ := advances.ages _ _
    (Variable.get?_wrote h x name hu _ _ _ (Store.live_eq_ok_iff.1 live).1)
  obtain ⟨above', known', unpruned⟩ := advances.valid.tagged tag
  obtain rfl : above = above' := Option.some.inj (known.symm.trans known')
  have again : h.variablesRoot.on c.store = (.ok r, c.store) := by
    refine Host.on_variablesRoot_of_live tag (Store.live_eq_ok_iff.2 ⟨known, unpruned⟩) ?_
    rw [ages'.pipeline, made, Host.keys_rootPipeline]
  have whole : m.pipeline = h.variablePipeline r.module g o u.nextConnection := ages.pipeline
  obtain ⟨z, t, copied, reads⟩ := Variable.readsBack_of_fed
    (y := { x with version := some u.nextVersion, draft := .empty }) advances.valid drawn own output
    rfl rfl rfl again there (whole ▸ fed) rfl
  exact ⟨z, t, copied, reads, fun k m found issued => reads.disjoint issued⟩

/-- A list that takes over a literal, of which there is a clone. -/
def sampleActs : List Act :=
  [.call (.new ⟨"b", "List"⟩), .call (.addModule 0 ⟨"b", "List"⟩),
    .call (.constant (.integer 1) ⟨"b", "Integer"⟩), .call (.clone 1), .call (.absorb 0 1),
    .call (.connect 0 ⟨2, "value"⟩ ⟨1, "head"⟩), .call (.selectOutput 0 1 "value")]

/-- What is held then under the number 0. -/
def sampleVariable : Variable :=
  { type := ⟨"b", "List"⟩
    draft := ⟨[.addModule ⟨1, ⟨"b", "List"⟩, []⟩, .addModule ⟨2, ⟨"b", "Integer"⟩, []⟩,
      .setFunction 2 "value" ["1"], .addConnection ⟨1, ⟨2, "value"⟩, ⟨1, "head"⟩⟩], [2, 1]⟩
    output := some ⟨1, "value"⟩ }

theorem held_sampleActs :
    (new.afterAll .sample sampleActs).held.get? 0 = some sampleVariable := by rfl

theorem readsBack_of_write_sample :
    let w := (new.afterAll .sample sampleActs).after .sample (.write 0 "x")
    let c := w.afterAll .sample [.request (.select 0), .request (.commit []), .root]
    ∃ v y, (sampleVariable.materialize .sample "x").on (new.afterAll .sample sampleActs).store =
        (.ok (v, y), w.store) ∧
      ∃ z t, (y.copy .sample).on c.store = (.ok z, t) ∧ sampleVariable.ReadsBack c.store z t := by
  intro w c
  have rooted : (new.afterAll .sample sampleActs).Rooted .sample :=
    .inr ⟨by decide +kernel, ⟨"b", "OutputPort"⟩, by decide +kernel⟩
  obtain ⟨v, y, wrote, -, named, back⟩ :=
    readsBack_of_write held_sampleActs rfl (by decide +kernel) rfl rooted "x"
  have written : w.store.tags.get? (Host.sample.settings.variableTag "x") = some 2 := by
    decide +kernel
  obtain rfl : 2 = v := Option.some.inj (written.symm.trans named)
  have live : ((c.store.live 2).toOption.map Version.parent) = some (some 1) := by decide +kernel
  have tag : c.store.tags.get? Host.sample.rootTag = some 1 := by decide +kernel
  cases found : c.store.live 2 with
  | error fault =>
    rw [found] at live
    cases live
  | ok node =>
    rw [found] at live
    have parent : node.parent = some 1 := Option.some.inj live
    obtain ⟨z, t, copied, reads, -⟩ := back _ node found (tag.trans parent.symm)
    exact ⟨2, y, wrote, z, t, copied, reads⟩

/-- Two ways to lose a variable that was written. Where its variables root was pruned, it is not copied any
more; and where a version was made with a number that the store had not given out, the copy has that number
as well. -/
theorem readsBack_lost :
    let b := new.afterAll .sample sampleActs
    let written := (sampleVariable.materialize .sample "x").on b.store
    let copied (s : Store) := ((Action.ofExcept written.1 >>= fun r => r.2.copy .sample).on s).1
    let pruned := b.afterAll .sample [.write 0 "x", .request (.prune 1)]
    let foreign := b.afterAll .sample [.write 0 "x", .request (.select 0),
      .request (.commit [.addModule ⟨4, ⟨"b", "List"⟩, []⟩])]
    b.held.get? 0 = some sampleVariable ∧ (b.lineage 0).Nodup ∧ b.Rooted .sample ∧
      written.1.map Prod.fst = .ok 2 ∧
      (pruned.store.live 2).map Version.parent = .ok (some 1) ∧
      (copied pruned.store).map Variable.version = .error .outputNotDesignated ∧
      (foreign.store.live 2).map Version.parent = .ok (some 1) ∧
      (foreign.store.pipeline 3).map (·.modules.contains 4) = .ok true ∧
      (copied foreign.store).map (·.draft.contains 4) = .ok true := by
  refine ⟨held_sampleActs, by decide +kernel,
    .inr ⟨by decide +kernel, ⟨"b", "OutputPort"⟩, by decide +kernel⟩, ?_⟩
  decide +kernel

end Workbench

end Dataflow
