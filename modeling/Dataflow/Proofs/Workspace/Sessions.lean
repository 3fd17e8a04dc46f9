import Mathlib.Data.List.Lattice
import Dataflow.Proofs.Recipe.Exactness
import Dataflow.Proofs.Workspace.Sharing

/-! Sessions with a workspace, in which variables are also built from outside, call by call, and handed
over. Of what was built so, each piece may be handed over once; and then no version ever shares a
module or a connection with another, but for the module of the variables root. -/

namespace Dataflow

/-- A workspace with the variables that are built for it from outside, each with the numbers of those
that it was made of. Noted are the numbers of all that was made part of a known variable, and the
versions of recipes. -/
structure Session where
  workspace : Workspace
  held : Callback.Held
  lineage : Nat → List Nat
  registered : List Nat
  compiled : List VersionId

namespace Session

/-- A call that builds a variable on the store of the workspace, the registration of a variable that
was built so, or a call of the workspace. -/
inductive Step
  | build (c : Callback.Call)
  | add (name : String) (n : Nat)
  | call (c : Call)

def start (host : Host) (catalogue : Catalogue) : Session :=
  ⟨.new host catalogue .new, .of [], fun _ => [], [], []⟩

section

variable (e : Session)

/-- The variables that a call takes to make its variable of. -/
def parts (c : Callback.Call) : List Variable := c.parts.filterMap e.held.get?

/-- What a variable is made of after a call that builds. -/
def lineageAfter (c : Callback.Call) (n : Nat) : List Nat :=
  if c.subject e.held = some n then n :: c.parts.flatMap e.lineage else e.lineage n

/-- The session after a step, whether that succeeded or not. -/
def after : Step → Session
  | .build c => match (c.perform e.workspace.host e.held).on e.workspace.store with
    | (.ok (_, held), s) =>
      { e with workspace := { e.workspace with store := s }, held, lineage := e.lineageAfter c }
    | (.error _, s) => { e with workspace := { e.workspace with store := s } }
  | .add name n => match e.held.get? n with
    | none => e
    | some x => match Workspace.on (Workspace.addVariable name x) e.workspace with
      | (.ok _, w) => { e with workspace := w, registered := e.registered ++ e.lineage n }
      | (.error _, w) => { e with workspace := w }
  | .call c =>
    { e with
      workspace := e.workspace.after c
      compiled := e.compiled ++ (e.workspace.made c).toList }

/-- Nothing of the variable was registered. -/
def Free (n : Nat) : Prop := ∀ k ∈ e.lineage n, k ∉ e.registered

/-- A variable may be registered if nothing of it was registered before. -/
def Admissible : Step → Prop
  | .build _ => True
  | .add _ n => e.Free n
  | .call c => ∀ name x, c ≠ .addVariable name x

end

/-- The sessions that admissible steps lead to, in any order and whether they succeed or fail. -/
inductive Reaches (e : Session) : Session → Prop
  | refl : Reaches e e
  | step {e' : Session} (reaches : Reaches e e') {step : Step} (admissible : e'.Admissible step) :
      Reaches e (e'.after step)

/-- The versions are separate, and so are the variables under construction that have no part in
common, from each other and from the versions. -/
structure Sound (h : Host) (e : Session) : Prop where
  host : e.workspace.host = h
  agrees : e.workspace.Agrees
  separate : h.Separate e.workspace.store
  proper : e.held.Proper
  itself : ∀ {n x}, e.held.get? n = some x → n ∈ e.lineage n
  issued : ∀ {n x}, e.held.get? n = some x → x.ids ≤ e.workspace.store.issued
  unused : ∀ {n x}, e.held.get? n = some x → e.Free n → h.Unused e.workspace.store x.ids
  apart : ∀ {n k x y}, e.held.get? n = some x → e.held.get? k = some y →
    List.Disjoint (e.lineage n) (e.lineage k) → Disjoint x.ids y.ids
  solitary : ∀ v ∈ e.compiled, h.Solitary e.workspace.store v

theorem separate_new (h : Host) : h.Separate .new := by
  have bare : ∀ {v n}, Store.new.versions.get? v = some n → n.pipeline.ids = ⊥ := by
    intro v n found
    obtain ⟨-, rfl⟩ := Store.get?_new_eq_some_iff.1 found
    exact Pipeline.ids_empty
  constructor
  case issued =>
    intro v n found
    exact (bare found).le.trans bot_le
  case apart =>
    intro v w n m _ found _
    exact inf_le_left.trans ((bare found).le.trans bot_le)

theorem sound_start (host : Host) (catalogue : Catalogue) : Sound host (start host catalogue) where
  host := rfl
  agrees := Workspace.agrees_new host catalogue
  separate := separate_new host
  proper := fun _ _ found => by cases found
  itself found := by cases found
  issued found := by cases found
  unused found := by cases found
  apart found := by cases found
  solitary _ listed := by cases listed

variable {h : Host} {e : Session} {w : Workspace}

theorem mem_parts {c : Callback.Call} {x : Variable} :
    x ∈ e.parts c ↔ ∃ k ∈ c.parts, e.held.get? k = some x := List.mem_filterMap

theorem Sound.keeps (sound : e.Sound h) (host : w.host = h) (agrees : w.Agrees)
    (keeps : h.Keeps e.workspace.store w.store) : Sound h { e with workspace := w } where
  host := host
  agrees := agrees
  separate := keeps.separate
  proper := sound.proper
  itself := sound.itself
  issued found := (sound.issued found).trans keeps.precedes.issued
  unused found free := keeps.unused (sound.unused found free)
  apart := sound.apart
  solitary v listed := keeps.solitary (sound.solitary v listed)

theorem Sound.call (sound : e.Sound h) (apart : h.settings.TagsApart) {c : Call}
    (own : ∀ name x, c ≠ .addVariable name x) : (e.after (.call c)).Sound h := by
  obtain ⟨rfl⟩ := sound.host
  obtain ⟨keeps, alone⟩ := Workspace.keeps_after sound.agrees apart sound.separate own
  have admissible : c.Admissible := by
    cases c with
    | addVariable name x => exact absurd rfl (own name x)
    | _ => trivial
  have effect := Workspace.effect_after sound.agrees.valid admissible
  have kept := sound.keeps effect.host.1 (sound.agrees.effect apart effect) keeps
  refine { kept with solitary := fun v listed => ?_ }
  rcases List.mem_append.1 listed with listed | new
  · exact kept.solitary v listed
  · exact alone v (Option.mem_toList.1 new)

/-- A variable that is registered takes nothing from those that have no part in common with it. -/
theorem Sound.add (sound : e.Sound h) (apart : h.settings.TagsApart) (name : String) {n : Nat}
    (free : e.Free n) : (e.after (.add name n)).Sound h := by
  obtain ⟨rfl⟩ := sound.host
  simp only [after]
  split
  · exact sound
  · next x found =>
    have hs := sound.agrees.valid
    have effect := Workspace.effect_register hs (.mints (.refl _)) name (sound.proper n x found)
    have agrees := sound.agrees.effect apart effect
    have host := effect.host.1
    obtain ⟨w, ⟨fault, run, grows⟩ | ⟨y, run, grows⟩⟩ :=
      Workspace.grows_register hs sound.agrees.root apart name x
    all_goals
      have run' : Workspace.on (Workspace.addVariable name x) e.workspace = _ := run
      rw [run] at agrees host
      simp only [run']
    · exact sound.keeps host agrees (grows.keeps sound.separate)
    · exact
        { host
          agrees
          separate := grows.separate sound.separate (sound.unused found free)
          proper := sound.proper
          itself := sound.itself
          issued := fun found => (sound.issued found).trans grows.precedes.issued
          unused := fun {k z} there free' => by
            have before : e.Free k := fun j hj old => free' j hj (List.mem_append_left _ old)
            have other : List.Disjoint (e.lineage k) (e.lineage n) := fun j hj listed =>
              free' j hj (List.mem_append_right _ listed)
            exact grows.unused (sound.unused there before) (sound.apart there found other)
          apart := sound.apart
          solitary := fun v listed => grows.solitary sound.separate (sound.solitary v listed) }

section

variable {c : Callback.Call} {a : Callback.Answer} {q : Callback.Held} {t : Store} {n k : Nat}
  {x y : Variable}

/-- What is held after a call that builds is the variable of that call, or was held before. -/
theorem made_of_perform (hs : e.workspace.store.Valid)
    (run : (c.perform e.workspace.host e.held).on e.workspace.store = (.ok (a, q), t))
    (found : q.get? n = some y) :
    (c.subject e.held = some n ∧ e.lineageAfter c n = n :: c.parts.flatMap e.lineage ∧
      y.ids ≤ Variable.idsOf (e.parts c) ⊔ e.workspace.store.given t) ∨
    (c.subject e.held ≠ some n ∧ e.lineageAfter c n = e.lineage n ∧ e.held.get? n = some y) := by
  obtain ⟨subject, made⟩ | ⟨other, held⟩ := Callback.made_of_perform hs run found
  · exact .inl ⟨subject, if_pos subject, made⟩
  · exact .inr ⟨other, if_neg other, held⟩

namespace Sound

variable (sound : e.Sound h)
include sound

theorem parts_issued : Variable.idsOf (e.parts c) ≤ e.workspace.store.issued :=
  Variable.idsOf_le_iff.2 fun _ listed => by
    obtain ⟨k, -, held⟩ := mem_parts.1 listed
    exact sound.issued held

theorem parts_unused (free : ∀ i ∈ c.parts.flatMap e.lineage, i ∉ e.registered) :
    h.Unused e.workspace.store (Variable.idsOf (e.parts c)) :=
  Host.unused_idsOf fun _ listed => by
    obtain ⟨k, part, held⟩ := mem_parts.1 listed
    exact sound.unused held fun i hi => free i (List.mem_flatMap.2 ⟨k, part, hi⟩)

/-- What has no part in common with the parts of a call has none with what comes of it. -/
theorem made_apart (there : e.held.get? k = some x)
    (other : List.Disjoint (n :: c.parts.flatMap e.lineage) (e.lineage k))
    (made : y.ids ≤ Variable.idsOf (e.parts c) ⊔ e.workspace.store.given t) :
    Disjoint y.ids x.ids := by
  refine Callback.disjoint_made made (sound.issued there) fun j part z held => ?_
  refine sound.apart held there fun i hi hk => other (List.mem_cons_of_mem _ ?_) hk
  exact List.mem_flatMap.2 ⟨j, part, hi⟩

/-- A call that builds makes a variable of its parts and of new identifiers. -/
theorem build (c : Callback.Call) : (e.after (.build c)).Sound h := by
  obtain ⟨rfl⟩ := sound.host
  have hs := sound.agrees.valid
  have rooted := sound.agrees.root
  have prepares := c.preparing_perform e.workspace.host e.held e.workspace.store hs
  simp only [after]
  split
  · next a q t run =>
    rw [run] at prepares
    have keeps := (prepares.grows hs rooted).keeps sound.separate
    have kept := sound.keeps (w := { e.workspace with store := t }) rfl
      (sound.agrees.prepares prepares) keeps
    have itself : ∀ {n y}, q.get? n = some y → n ∈ e.lineageAfter c n := fun found => by
      obtain ⟨-, lineage, -⟩ | ⟨-, lineage, held⟩ := made_of_perform hs run found
      · rw [lineage]
        exact List.mem_cons_self ..
      · rw [lineage]
        exact sound.itself held
    refine ⟨rfl, kept.agrees, kept.separate, Callback.proper_perform sound.proper run, itself,
      fun found => ?issued, fun {n y} found (free : ∀ i ∈ e.lineageAfter c n, _) => ?unused,
      fun {n k y z} found there
        (other : List.Disjoint (e.lineageAfter c n) (e.lineageAfter c k)) => ?apart, kept.solitary⟩
    case issued =>
      obtain ⟨-, -, made⟩ | ⟨-, -, held⟩ := made_of_perform hs run found
      · exact made.trans (sup_le (sound.parts_issued.trans keeps.precedes.issued)
          (Store.given_le_issued ..))
      · exact kept.issued held
    -- neither the parts nor the new identifiers are in a variable that is known
    case unused =>
      obtain ⟨-, lineage, made⟩ | ⟨-, lineage, held⟩ := made_of_perform hs run found
      · rw [lineage] at free
        have parts := sound.parts_unused fun i hi => free i (List.mem_cons_of_mem _ hi)
        have new := prepares.unused rooted sound.separate le_rfl
        exact ((keeps.unused parts).sup new).mono made
      · rw [lineage] at free
        exact kept.unused held free
    case apart =>
      have first := made_of_perform hs run found
      have second := made_of_perform hs run there
      obtain ⟨subject, lineage, made⟩ | ⟨-, lineage, held⟩ := first
      · obtain ⟨subject', -, -⟩ | ⟨-, lineage', held'⟩ := second
        · obtain rfl : n = k := Option.some.inj (subject.symm.trans subject')
          exact absurd (itself found) (other (itself found))
        · rw [lineage, lineage'] at other
          exact sound.made_apart held' other made
      · obtain ⟨-, lineage', made'⟩ | ⟨-, lineage', held'⟩ := second
        · rw [lineage, lineage'] at other
          exact (sound.made_apart held other.symm made').symm
        · rw [lineage, lineage'] at other
          exact sound.apart held held' other
  · next fault t run =>
    rw [run] at prepares
    have keeps := (prepares.grows hs rooted).keeps sound.separate
    exact sound.keeps rfl (sound.agrees.prepares prepares) keeps

theorem step (apart : h.settings.TagsApart) {step : Step} (admissible : e.Admissible step) :
    (e.after step).Sound h := by
  cases step with
  | build c => exact sound.build c
  | add name n => exact sound.add apart name admissible
  | call c => exact sound.call apart admissible

end Sound

end

theorem Sound.reaches {e' : Session} (sound : e.Sound h) (apart : h.settings.TagsApart)
    (reaches : e.Reaches e') : e'.Sound h := by
  induction reaches with
  | refl => exact sound
  | step _ admissible ih => exact ih.step apart admissible

/-- Copy, never share. Identifiers of versions, of pruned ones too, were given out by the store; two
versions have no module in common but that of the variables root, and no connection; and the version of
a recipe has nothing in common with any other. -/
structure Unshared (e : Session) : Prop where
  issued : ∀ {v n}, e.workspace.store.versions.get? v = some n →
    (∀ id, n.pipeline.modules.contains id = true → id < e.workspace.store.nextModule) ∧
      ∀ id, n.pipeline.connections.contains id = true → id < e.workspace.store.nextConnection
  apart : ∀ {v w n m}, v ≠ w → e.workspace.store.versions.get? v = some n →
    e.workspace.store.versions.get? w = some m →
      (∀ id, n.pipeline.modules.contains id = true → m.pipeline.modules.contains id = true →
        ∃ r, e.workspace.host.RootAt e.workspace.store r ∧ id = r.module) ∧
      ∀ id, ¬ (n.pipeline.connections.contains id = true ∧
        m.pipeline.connections.contains id = true)
  compiled : ∀ v ∈ e.compiled, ∃ n, e.workspace.store.versions.get? v = some n ∧
    ∀ {w m}, v ≠ w → e.workspace.store.versions.get? w = some m → n.pipeline.Apart m.pipeline

theorem Sound.unshared (sound : e.Sound h) : e.Unshared where
  issued found := sound.separate.issued found
  apart {v w n m} other found found' := by
    obtain ⟨rfl⟩ := sound.host
    obtain ⟨modules, connections⟩ := sound.separate.apart other found found'
    refine ⟨fun id here there => ?_, fun id both => connections both⟩
    obtain ⟨r, root, same⟩ := modules ⟨here, there⟩
    exact ⟨r, root, same.symm⟩
  compiled v listed := by
    obtain ⟨n, found, alone⟩ := sound.solitary v listed
    refine ⟨n, found, fun {w m} other found' => Pipeline.apart_of_disjoint ?_⟩
    have common := le_inf (sound.separate.apart other found found') inf_le_left
    exact disjoint_iff_inf_le.2 (common.trans alone.symm.le_bot)

/-- Whatever a session does, its versions do not share. -/
theorem unshared_of_reaches {host : Host} {catalogue : Catalogue} (apart : host.settings.TagsApart)
    {e : Session} (reaches : (start host catalogue).Reaches e) : e.Unshared :=
  ((sound_start host catalogue).reaches apart reaches).unshared

/-- One variable is computed, another one is built, of which a clone stays behind, and a recipe is
written. -/
def sampleSession : Session :=
  start Workspace.sampleStart.host Workspace.sampleStart.catalogue
    |>.after (.call (.performOperation "x = 1"))
    |>.after (.build (.constant (.integer 2) ⟨"b", "Integer"⟩))
    |>.after (.build (.clone 0))
    |>.after (.add "y" 0)
    |>.after (.call (.createPipeline Workspace.sampleRecipe))

theorem unshared_of_reaches_sample :
    sampleSession.workspace.named.keys = ["x", "y"] ∧ sampleSession.compiled = [4] ∧
      sampleSession.Unshared := by
  have reaches : (start Workspace.sampleStart.host Workspace.sampleStart.catalogue).Reaches
      sampleSession := by
    refine .step (.step (.step (.step (.step .refl ?_) ?_) ?_) ?_) ?_
    · exact fun _ _ same => by cases same
    · exact trivial
    · exact trivial
    · exact fun _ _ listed => by cases listed
    · exact fun _ _ same => by cases same
  exact ⟨by decide +kernel, by decide +kernel,
    unshared_of_reaches (Settings.tagsApart_of_default rfl) reaches⟩

end Session

end Dataflow
