import Mathlib.Logic.Function.Basic
import Dataflow.Proofs.Draft.Edits
import Dataflow.Proofs.Draft.Orderly
import Dataflow.Proofs.Store.Requests
import Dataflow.Proofs.Variable.Growth

/-! Drafts that are drawn side by side with identifiers of one store, while the store may be asked for
anything else at any time. A module is added once, and a draft that is appended is used up; so no two drafts
have an identifier in common, and each of them applies wherever its identifiers are not. -/

namespace Dataflow

namespace Draft

theorem atomic_connect (d : Draft) (source destination : PortRef) :
    (d.connect source destination).Atomic := by
  unfold connect
  split
  · exact Action.atomic_throw _
  · exact nofun

theorem atomic_copyConnection (d : Draft) (ids : Renaming) (c : Connection) :
    (d.copyConnection ids c).Atomic :=
  .ofExcept_bind fun source => .ofExcept_bind fun destination => d.atomic_connect source destination

theorem succeeds_copyModules (d : Draft) (done : Renaming) (ms : List Module) :
    (d.copyModules done ms).Succeeds := by
  induction ms generalizing d done with
  | nil => exact Action.succeeds_pure _
  | cons m ms ih =>
    refine Action.Succeeds.bind (fun s => ⟨_, _, d.on_copyModule m s⟩) fun (id, e) => ?_
    exact ih e (done.insert m.id id)

theorem builds_copyConnection {h : Host} (d : Draft) (ids : Renaming) (c : Connection) :
    h.Builds d.ids (fun r => r.2.ids) (d.copyConnection ids c) :=
  .bind_ofExcept fun source _ => .bind_ofExcept fun destination _ =>
    d.builds_connect source destination

end Draft

/-- Drafts by numbers, and the modules that the store numbered for them and that were not added yet. -/
structure Desk where
  store : Store
  loose : List ModuleId
  drafts : Nat → Draft

namespace Desk

def new : Desk := ⟨.new, [], fun _ => .empty⟩

/-- What is done at a desk. The store is asked for anything at all or for the number of a module, a draft
is drawn on, or all of it is moved to the end of another. -/
inductive Act
  | request (r : Store.Request)
  | mint (type : TypeName)
  | add (n : Nat) (m : Module)
  | setFunction (n : Nat) (m : ModuleId) (name : String) (params : List String)
  | connect (n : Nat) (source destination : PortRef)
  | copy (n : Nat) (p : Pipeline) (keep : Module → Bool)
  | copyConnection (n : Nat) (ids : Renaming) (c : Connection)
  | append (n k : Nat)

def put (b : Desk) (n : Nat) (d : Draft) : Desk := { b with drafts := Function.update b.drafts n d }

/-- Add a module that was not added yet. -/
def add (b : Desk) (n : Nat) (m : Module) : Desk :=
  if m.id ∈ b.loose then { b with loose := b.loose.erase m.id }.put n ((b.drafts n).addModule m)
  else b

/-- Move a draft to the end of another one. -/
def append (b : Desk) (n k : Nat) : Desk :=
  if n = k then b else (b.put k .empty).put n ((b.drafts n).append (b.drafts k))

/-- The work of an act, which gives what is on the desk after it. -/
def perform (b : Desk) : Act → Action Desk
  | .request r => do
    r.perform
    return b
  | .mint type => do
    let m ← Action.createModule type
    return { b with loose := m.id :: b.loose }
  | .add n m => return b.add n m
  | .setFunction n m name params => do
    let d ← Action.ofExcept ((b.drafts n).setFunction m name params)
    return b.put n d
  | .connect n source destination => do
    let (_, d) ← (b.drafts n).connect source destination
    return b.put n d
  | .copy n p keep => do
    let (_, d) ← (b.drafts n).copy p keep
    return b.put n d
  | .copyConnection n ids c => do
    let (_, d) ← (b.drafts n).copyConnection ids c
    return b.put n d
  | .append n k => return b.append n k

/-- The desk after an act, whether it succeeded or not. -/
def after (b : Desk) (act : Act) : Desk :=
  match (b.perform act).on b.store with
  | (.ok c, s) => { c with store := s }
  | (.error _, s) => { b with store := s }

def afterAll (b : Desk) : List Act → Desk
  | [] => b
  | act :: acts => (b.after act).afterAll acts

/-- Each draft draws a pipeline with identifiers of the store. No two of them have an identifier in common,
and none has that of a module that was not added yet. -/
structure Sound (b : Desk) : Prop where
  valid : b.store.Valid
  later : Store.new.Precedes b.store
  drawn : ∀ n, ∃ g, (b.drafts n).Draws g ∧ g.Minted .new b.store
  apart : ∀ {n k}, n ≠ k → Disjoint (b.drafts n).ids (b.drafts k).ids
  minted : ∀ m ∈ b.loose, Store.new.nextModule ≤ m ∧ m < b.store.nextModule
  free : ∀ m ∈ b.loose, ∀ n, m ∉ (b.drafts n).ids.1
  distinct : b.loose.Nodup

variable {b c : Desk} {t : Store} {n k : Nat} {d : Draft} {act : Act}

theorem sound_new : new.Sound where
  valid := Store.valid_new
  later := .refl _
  drawn _ := ⟨.empty, Draft.draws_empty, Pipeline.minted_empty _ _⟩
  apart _ := disjoint_bot_left
  minted := by simp [new]
  free := by simp [new]
  distinct := List.nodup_nil

theorem Sound.issued (sound : b.Sound) (n : Nat) : (b.drafts n).ids ≤ b.store.issued := by
  obtain ⟨g, draws, minted⟩ := sound.drawn n
  rw [← draws.ids_eq]
  exact minted.ids_le.trans (Store.given_le_issued _ _)

/-- What the store numbers for nobody is of no matter. -/
theorem Sound.advance (sound : b.Sound) (valid : t.Valid) (later : b.store.Precedes t) :
    Sound { b with store := t } where
  valid := valid
  later := sound.later.trans later
  drawn n := by
    obtain ⟨g, draws, minted⟩ := sound.drawn n
    exact ⟨g, draws, minted.later later⟩
  apart := sound.apart
  minted m hm := ⟨(sound.minted m hm).1, Nat.lt_of_lt_of_le (sound.minted m hm).2 later.module⟩
  free := sound.free
  distinct := sound.distinct

@[simp] theorem drafts_put_self (b : Desk) (n : Nat) (d : Draft) : (b.put n d).drafts n = d :=
  Function.update_self ..

theorem drafts_put_of_ne (b : Desk) (other : k ≠ n) (d : Draft) :
    (b.put n d).drafts k = b.drafts k := Function.update_of_ne other ..

/-- A draft gets identifiers that are in no other draft, and are not those of modules that are left. -/
theorem Sound.replace (sound : b.Sound) {loose : List ModuleId} (left : loose.Sublist b.loose)
    {A : Identifiers} (drawn : ∃ g, d.Draws g ∧ g.Minted .new b.store)
    (ids : d.ids ≤ (b.drafts n).ids ⊔ A) (apart : ∀ k, k ≠ n → Disjoint A (b.drafts k).ids)
    (free : ∀ m ∈ loose, m ∉ A.1) : Sound { b.put n d with loose } := by
  -- what the draft had was in no other one, and what it gets is not either
  have others : ∀ k, k ≠ n → Disjoint d.ids (b.drafts k).ids := fun k other =>
    ((sound.apart other.symm).sup_left (apart k other)).mono_left ids
  constructor
  case valid => exact sound.valid
  case later => exact sound.later
  case minted => exact fun m hm => sound.minted m (left.subset hm)
  case distinct => exact sound.distinct.sublist left
  case drawn =>
    intro k
    show ∃ g, ((b.put n d).drafts k).Draws g ∧ g.Minted .new b.store
    rcases eq_or_ne k n with rfl | other
    · rwa [drafts_put_self]
    · rw [drafts_put_of_ne b other]
      exact sound.drawn k
  case apart =>
    intro i j ne
    show Disjoint ((b.put n d).drafts i).ids ((b.put n d).drafts j).ids
    rcases eq_or_ne i n with rfl | hi
    · rw [drafts_put_self, drafts_put_of_ne b ne.symm]
      exact others j ne.symm
    · rw [drafts_put_of_ne b hi]
      rcases eq_or_ne j n with rfl | hj
      · rw [drafts_put_self]
        exact (others i hi).symm
      · rw [drafts_put_of_ne b hj]
        exact sound.apart ne
  case free =>
    intro m hm k
    show m ∉ ((b.put n d).drafts k).ids.1
    rcases eq_or_ne k n with rfl | other
    · rw [drafts_put_self]
      intro inside
      exact (ids.1 inside).elim (sound.free m (left.subset hm) k) (free m hm)
    · rw [drafts_put_of_ne b other]
      exact sound.free m (left.subset hm) k

theorem Sound.draw (sound : b.Sound) (valid : t.Valid) (later : b.store.Precedes t)
    (drawn : ∃ g, d.Draws g ∧ g.Minted .new t) (ids : d.ids ≤ (b.drafts n).ids ⊔ b.store.given t) :
    Sound { b.put n d with store := t } := by
  refine (sound.advance valid later).replace (.refl _) drawn ids (fun k _ => ?_) fun m hm new => ?_
  · exact ((Store.disjoint_issued_given b.store t).mono_left (sound.issued k)).symm
  · exact Nat.not_lt_of_le new.1 (sound.minted m hm).2

theorem Sound.mint (sound : b.Sound) (type : TypeName) :
    Sound { b with
      store := (b.store.createModule type).2, loose := b.store.nextModule :: b.loose } := by
  have mints := b.store.mints_createModule type
  have advanced := sound.advance (sound.valid.mints mints) mints.precedes
  refine { advanced with minted := ?_, free := ?_, distinct := ?_ }
  · intro m hm
    rcases List.mem_cons.1 hm with rfl | old
    · exact ⟨sound.later.module, Nat.lt_succ_self _⟩
    · exact advanced.minted m old
  · intro m hm k
    rcases List.mem_cons.1 hm with rfl | old
    · exact fun inside => Nat.lt_irrefl _ ((sound.issued k).1 inside)
    · exact sound.free m old k
  · refine List.nodup_cons.2 ⟨fun old => ?_, sound.distinct⟩
    exact Nat.lt_irrefl _ (sound.minted _ old).2

theorem Sound.add (sound : b.Sound) (n : Nat) (m : Module) : (b.add n m).Sound := by
  unfold Desk.add
  split
  · next loose =>
    obtain ⟨g, draws, minted⟩ := sound.drawn n
    have fresh : g.modules.get? m.id = none := by
      rw [← OrderedMap.contains_eq_false_iff, ← Bool.not_eq_true]
      intro inside
      exact sound.free m.id loose n (draws.ids_eq ▸ inside)
    have minted' : (g.withModule m).Minted .new b.store := by
      refine ⟨fun id inside => ?_, minted.connections⟩
      rw [Pipeline.contains_withModule, Bool.or_eq_true, decide_eq_true_eq] at inside
      rcases inside with rfl | inside
      · exact sound.minted m.id loose
      · exact minted.modules id inside
    refine sound.replace List.erase_sublist ⟨_, draws.addModule fresh, minted'⟩
      (Draft.ids_addModule _ m).le (fun k _ => ?_) fun k hk same => ?_
    · refine Prod.disjoint_iff.2 ⟨?_, Set.empty_disjoint _⟩
      exact Set.disjoint_singleton_left.2 (sound.free m.id loose k)
    · exact (sound.distinct.mem_erase_iff.1 hk).1 same
  · exact sound

theorem Sound.append (sound : b.Sound) (n k : Nat) : (b.append n k).Sound := by
  unfold Desk.append
  split
  · exact sound
  · next ne =>
    -- the draft that is moved is emptied first, so that its identifiers are in no draft any more
    have emptied : (b.put k .empty).Sound :=
      sound.replace (.refl _) ⟨.empty, Draft.draws_empty, Pipeline.minted_empty _ _⟩ bot_le
        (fun _ _ => disjoint_bot_left) fun _ _ => id
    obtain ⟨g, draws, minted⟩ := sound.drawn n
    obtain ⟨g', draws', minted'⟩ := sound.drawn k
    have apart : Disjoint g.ids g'.ids := by
      rw [draws.ids_eq, draws'.ids_eq]
      exact sound.apart ne
    refine emptied.replace (.refl _)
      ⟨_, draws.append draws' (Pipeline.apart_of_disjoint apart), minted.join minted'⟩
      (A := (b.drafts k).ids) ?_ (fun j other => ?_) fun m hm => sound.free m hm k
    · rw [drafts_put_of_ne b ne]
      exact (Draft.ids_append _ _).le
    · rcases eq_or_ne j k with rfl | hj
      · rw [drafts_put_self]
        exact disjoint_bot_right
      · rw [drafts_put_of_ne b hj]
        exact sound.apart hj.symm

/-- A draft is drawn on by a run that brings in nothing but what the store gives out. -/
theorem Sound.build (sound : b.Sound) {a : Action (β × Draft)} {h : Host}
    (builds : h.Builds (b.drafts n).ids (fun r => r.2.ids) a)
    (drawn : ∀ {r t}, a.on b.store = (.ok r, t) → ∃ g, r.2.Draws g ∧ g.Minted .new t)
    (run : (a >>= fun r => pure (b.put n r.2)).on b.store = (.ok c, t)) :
    Sound { c with store := t } := by
  obtain ⟨r, u, first, rest⟩ := Action.on_bind_eq_ok.1 run
  obtain ⟨prepares, ids⟩ := builds sound.valid first
  cases rest
  exact sound.draw (prepares.valid sound.valid) prepares.precedes (drawn first) ids

theorem atomic_perform (b : Desk) (act : Act) : (b.perform act).Atomic := by
  cases act with
  | request r => exact r.atomic_perform.bind_pure _
  | mint | add | append => exact nofun
  | setFunction => exact (Action.atomic_ofExcept _).bind_pure _
  | connect n source destination =>
    exact ((b.drafts n).atomic_connect source destination).bind_pure _
  | copy n p keep => exact ((b.drafts n).succeeds_copyModules ∅ _).atomic.bind_pure _
  | copyConnection n ids c => exact ((b.drafts n).atomic_copyConnection ids c).bind_pure _

theorem after_of_ok (run : (b.perform act).on b.store = (.ok c, t)) :
    b.after act = { c with store := t } := by
  rw [after, run]

theorem after_of_error {e : Error} (failed : (b.perform act).on b.store = (.error e, t)) :
    b.after act = b := by
  rw [after, failed, b.atomic_perform act failed]

theorem Sound.setFunction (sound : b.Sound) {m : ModuleId} {name : String} {params : List String}
    (set : (b.drafts n).setFunction m name params = .ok d) : (b.put n d).Sound := by
  obtain ⟨g, draws, minted⟩ := sound.drawn n
  obtain ⟨k, found, draws'⟩ := draws.setFunction set
  refine sound.draw sound.valid (.refl _) ⟨_, draws', fun id inside => ?_, minted.connections⟩
    ((Draft.ids_setFunction set).le.trans le_sup_left)
  rw [OrderedMap.contains_insert, Bool.or_eq_true, decide_eq_true_eq] at inside
  rcases inside with rfl | inside
  · exact minted.modules id (OrderedMap.contains_eq_true_iff.2 ⟨k, found⟩)
  · exact minted.modules id inside

theorem Sound.after (sound : b.Sound) (act : Act) : (b.after act).Sound := by
  rcases run : (b.perform act).on b.store with ⟨e | c, t⟩
  · rw [after_of_error run]
    exact sound
  · rw [after_of_ok run]
    cases act with
    | request r =>
      obtain ⟨_, u, first, rest⟩ := Action.on_bind_eq_ok.1 run
      cases rest
      have step := b.store.step_after r
      rw [Store.after, first] at step
      exact sound.advance (sound.valid.step step) step.precedes
    | mint type =>
      cases run
      exact sound.mint type
    | add n m =>
      cases run
      have same : { b.add n m with store := b.store } = b.add n m := by
        unfold Desk.add
        split <;> rfl
      exact same ▸ sound.add n m
    | append n k =>
      cases run
      have same : { b.append n k with store := b.store } = b.append n k := by
        unfold Desk.append
        split <;> rfl
      exact same ▸ sound.append n k
    | setFunction n m name params =>
      obtain ⟨d, set, rest⟩ := Action.on_ofExcept_bind_eq_ok.1 run
      cases rest
      exact sound.setFunction set
    -- what is left adds to one draft, so it is told by how that draft is built
    | connect n source destination =>
      obtain ⟨g, draws, minted⟩ := sound.drawn n
      refine sound.build (h := .sample) ((b.drafts n).builds_connect source destination)
        (fun first => ?_) run
      obtain ⟨g', draws', minted', -⟩ := draws.of_connect minted sound.later first
      exact ⟨g', draws', minted'⟩
    | copy n p keep =>
      obtain ⟨g, draws, minted⟩ := sound.drawn n
      refine sound.build (h := .sample) ((b.drafts n).builds_copyModules ∅ _) (fun first => ?_) run
      obtain ⟨g', draws', minted', -⟩ := draws.of_copyModules minted sound.later first
      exact ⟨g', draws', minted'⟩
    | copyConnection n ids c =>
      obtain ⟨g, draws, minted⟩ := sound.drawn n
      refine sound.build (h := .sample) ((b.drafts n).builds_copyConnection ids c)
        (fun first => ?_) run
      obtain ⟨g', draws', minted', -⟩ := draws.of_copyConnection minted sound.later first
      exact ⟨g', draws', minted'⟩

theorem Sound.afterAll (sound : b.Sound) (acts : List Act) : (b.afterAll acts).Sound := by
  induction acts generalizing b with
  | nil => exact sound
  | cons act acts ih => exact ih (sound.after act)

/-- A draft always applies. However drafts are drawn side by side with modules that one store numbered, each
of which is added once, and moved to the end of each other: the modules of a draft are those that it adds,
its edits speak only of what was added before and add nothing twice, and they apply to every pipeline without
their identifiers and give that pipeline with just what they list more. An act that is refused leaves
everything as it was. -/
theorem drafts_apply (acts : List Act) (n : Nat) :
    let b := new.afterAll acts
    let d := b.drafts n
    (∀ id, d.contains id = true ↔ Edit.Adds d.edits id) ∧ Edit.Orderly d.edits ∧
      (∀ p : Pipeline, Disjoint p.ids d.ids →
        ∃ q, p.applyAll d.edits = .ok q ∧ p.Plus d.edits q) ∧
      ∀ act e t, (b.perform act).on b.store = (.error e, t) → b.after act = b := by
  intro b d
  obtain ⟨g, draws, -⟩ := (sound_new.afterAll acts).drawn n
  exact ⟨draws.contains_iff_adds, draws.orderly, fun p apart => draws.applies apart,
    fun act e t failed => after_of_error failed⟩

/-- Two drafts are drawn on and put together. A connection to a module of the other draft is refused, and a
module that was added is not added again. -/
def sampleActs : List Act :=
  [.mint ⟨"b", "List"⟩, .mint ⟨"b", "Integer"⟩, .add 0 ⟨1, ⟨"b", "List"⟩, []⟩,
    .add 1 ⟨2, ⟨"b", "Integer"⟩, []⟩, .connect 1 ⟨2, "value"⟩ ⟨1, "head"⟩,
    .add 1 ⟨1, ⟨"b", "List"⟩, []⟩, .append 0 1, .connect 0 ⟨2, "value"⟩ ⟨1, "head"⟩,
    .setFunction 0 2 "value" ["1"]]

theorem drafts_apply_sample :
    let d := (new.afterAll sampleActs).drafts 0
    let p := Host.sample.rootPipeline 9
    d.edits =
        [.addModule ⟨1, ⟨"b", "List"⟩, []⟩, .addModule ⟨2, ⟨"b", "Integer"⟩, []⟩,
          .addConnection ⟨1, ⟨2, "value"⟩, ⟨1, "head"⟩⟩, .setFunction 2 "value" ["1"]] ∧
      Disjoint p.ids d.ids ∧
      ∃ q, p.applyAll d.edits = .ok q ∧ p.Plus d.edits q := by
  intro d p
  have edits : d.edits =
      [.addModule ⟨1, ⟨"b", "List"⟩, []⟩, .addModule ⟨2, ⟨"b", "Integer"⟩, []⟩,
        .addConnection ⟨1, ⟨2, "value"⟩, ⟨1, "head"⟩⟩, .setFunction 2 "value" ["1"]] := by
    decide +kernel
  have apart : Disjoint p.ids d.ids := by
    rw [Draft.ids, edits, Host.ids_rootPipeline]
    simp [Edit.idsOf, Edit.ids, Prod.disjoint_iff]
  exact ⟨edits, apart, (drafts_apply sampleActs 0).2.2.1 p apart⟩

end Desk

end Dataflow
