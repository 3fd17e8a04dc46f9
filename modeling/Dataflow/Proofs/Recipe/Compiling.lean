import Dataflow.Proofs.Draft.Copying
import Dataflow.Proofs.Host.VariablesRoot
import Dataflow.Proofs.Operation.Minting
import Dataflow.Recipe

/-! What compiling a recipe does to a store: until the edits are complete it is only prepared, and
then one version is added below the root. -/

namespace Dataflow

open Dataflow.Action

namespace Recipe

theorem minting_copyTemplate (input : TypeName) (template : Pipeline) (ids : Renaming) (d : Draft)
    (sockets : Sockets) (cs : List Connection) :
    Minting (copyTemplate input template ids d sockets cs) := by
  induction cs generalizing d sockets with
  | nil => exact minting_pure _
  | cons c cs ih =>
    unfold copyTemplate
    split
    · exact minting_throw _
    · split
      · split
        · exact minting_throw _
        · exact minting_throw _
        · exact ih _ _
      · exact (d.minting_copyConnection ids c).bind fun (_, e) => ih e sockets

theorem minting_feedAll (source : PortRef) (d : Draft) (targets : List PortRef) :
    Minting (feedAll source d targets) := by
  induction targets generalizing d with
  | nil => exact minting_pure _
  | cons target rest ih => exact (d.minting_connect source target).bind fun (_, e) => ih e

theorem minting_copyVariable (output : ModuleId) (ids : Renaming) (targets : List PortRef)
    (d : Draft) (cs : List Connection) : Minting (copyVariable output ids targets d cs) := by
  induction cs generalizing d with
  | nil => exact minting_pure _
  | cons c cs ih =>
    unfold copyVariable
    split
    · split
      · exact minting_throw _
      · exact (minting_feedAll _ d targets).bind fun e => ih e
    · exact (d.minting_copyConnection ids c).bind fun (_, e) => ih e

theorem minting_splice (output : ModuleId) (sockets : Sockets) (d : Draft) (port : String)
    (x : Variable) : Minting (splice output sockets d port x) := by
  refine (minting_ofExcept _).bind fun v => (minting_query _).bind fun p => ?_
  exact (d.minting_copy p _).bind fun (ids, e) => minting_copyVariable _ _ _ _ _

theorem minting_spliceAll (output : ModuleId) (sockets : Sockets) (d : Draft)
    (bound : List (String × Variable)) : Minting (spliceAll output sockets d bound) := by
  induction bound generalizing d with
  | nil => exact minting_pure _
  | cons b rest ih => exact (minting_splice output sockets d b.1 b.2).bind fun e => ih e

theorem preparing_draft (h : Host) (r : Recipe) : h.Preparing (r.draft h) := by
  have preparing {α : Type} {a : Action α} (ha : a.Minting) : h.Preparing a :=
    Host.preparing_of_minting ha
  refine (preparing (minting_ofExcept _)).bind fun input => ?_
  refine (preparing (Draft.minting_copy _ _ _)).bind fun (ids, d) => ?_
  refine (preparing (minting_copyTemplate _ _ _ _ _ _)).bind fun (sockets, d) => ?_
  simp only
  split
  · exact preparing (minting_pure _)
  · exact Host.preparing_variablesRoot.bind fun root => preparing (minting_spliceAll _ _ _ _)

section

variable {d e : Draft} {g : Pipeline} {s₀ s t : Store}

theorem drawn_copyTemplate {input : TypeName} {template : Pipeline} {ids : Renaming}
    {sockets sockets' : Sockets} {cs : List Connection} (hd : d.Draws g) (hg : g.Minted s₀ s)
    (later : s₀.Precedes s)
    (run : (copyTemplate input template ids d sockets cs).on s = (.ok (sockets', e), t)) :
    ∃ g', e.Draws g' ∧ g'.Minted s₀ t ∧ e.contains = d.contains := by
  induction cs generalizing d g s sockets with
  | nil =>
    cases run
    exact ⟨g, hd, hg, rfl⟩
  | cons c cs ih =>
    unfold copyTemplate at run
    split at run
    · cases run
    · split at run
      · split at run
        · cases run
        · cases run
        · exact ih hd hg later run
      · obtain ⟨⟨id, d'⟩, u, first, rest⟩ := on_bind_eq_ok.1 run
        have mints := mints_of_run (d.minting_copyConnection ids c) first
        obtain ⟨g', hd', hg', same⟩ := hd.of_copyConnection hg later first
        obtain ⟨g'', hd'', hg'', same'⟩ := ih hd' hg' (later.trans mints.precedes) rest
        exact ⟨g'', hd'', hg'', same'.trans same⟩

theorem drawn_feedAll {source : PortRef} {targets : List PortRef} (hd : d.Draws g)
    (hg : g.Minted s₀ s) (later : s₀.Precedes s)
    (run : (feedAll source d targets).on s = (.ok e, t)) :
    ∃ g', e.Draws g' ∧ g'.Minted s₀ t ∧ e.contains = d.contains := by
  induction targets generalizing d g s with
  | nil =>
    cases run
    exact ⟨g, hd, hg, rfl⟩
  | cons target rest ih =>
    obtain ⟨⟨id, d'⟩, u, first, rest⟩ := on_bind_eq_ok.1 run
    have mints := mints_of_run (d.minting_connect source target) first
    obtain ⟨g', hd', hg', same⟩ := hd.of_connect hg later first
    obtain ⟨g'', hd'', hg'', same'⟩ := ih hd' hg' (later.trans mints.precedes) rest
    exact ⟨g'', hd'', hg'', same'.trans same⟩

theorem drawn_copyVariable {output : ModuleId} {ids : Renaming} {targets : List PortRef}
    {cs : List Connection} (hd : d.Draws g) (hg : g.Minted s₀ s) (later : s₀.Precedes s)
    (run : (copyVariable output ids targets d cs).on s = (.ok e, t)) :
    ∃ g', e.Draws g' ∧ g'.Minted s₀ t ∧ e.contains = d.contains := by
  induction cs generalizing d g s with
  | nil =>
    cases run
    exact ⟨g, hd, hg, rfl⟩
  | cons c cs ih =>
    unfold copyVariable at run
    split at run
    · split at run
      · cases run
      · next m _ =>
        obtain ⟨d', u, first, rest⟩ := on_bind_eq_ok.1 run
        have mints := mints_of_run (minting_feedAll ⟨m, c.source.port⟩ d targets) first
        obtain ⟨g', hd', hg', same⟩ := drawn_feedAll hd hg later first
        obtain ⟨g'', hd'', hg'', same'⟩ := ih hd' hg' (later.trans mints.precedes) rest
        exact ⟨g'', hd'', hg'', same'.trans same⟩
    · obtain ⟨⟨id, d'⟩, u, first, rest⟩ := on_bind_eq_ok.1 run
      have mints := mints_of_run (d.minting_copyConnection ids c) first
      obtain ⟨g', hd', hg', same⟩ := hd.of_copyConnection hg later first
      obtain ⟨g'', hd'', hg'', same'⟩ := ih hd' hg' (later.trans mints.precedes) rest
      exact ⟨g'', hd'', hg'', same'.trans same⟩

theorem drawn_splice {output : ModuleId} {sockets : Sockets} {port : String} {x : Variable}
    (hd : d.Draws g) (hg : g.Minted s₀ s) (later : s₀.Precedes s)
    (run : (splice output sockets d port x).on s = (.ok e, t)) :
    ∃ g', e.Draws g' ∧ g'.Minted s₀ t ∧
      ∀ id, e.contains id = true → d.contains id = true ∨ s.nextModule ≤ id := by
  obtain ⟨v, -, run⟩ := on_ofExcept_bind_eq_ok.1 run
  obtain ⟨p, u, made, run⟩ := on_bind_eq_ok.1 run
  obtain ⟨-, rfl⟩ := on_query_eq_ok.1 made
  obtain ⟨⟨ids, d'⟩, u, copied, rest⟩ := on_bind_eq_ok.1 run
  obtain ⟨g', hd', hg', fresh⟩ := hd.of_copyModules hg later copied
  have mints := mints_of_run (d.minting_copy p _) copied
  obtain ⟨g'', hd'', hg'', same⟩ :=
    drawn_copyVariable hd' hg' (later.trans mints.precedes) rest
  exact ⟨g'', hd'', hg'', fun id hid => fresh id (by rwa [← same])⟩

theorem drawn_spliceAll {output : ModuleId} {sockets : Sockets} {bound : List (String × Variable)}
    (hd : d.Draws g) (hg : g.Minted s₀ s) (later : s₀.Precedes s)
    (run : (spliceAll output sockets d bound).on s = (.ok e, t)) :
    ∃ g', e.Draws g' ∧ g'.Minted s₀ t ∧
      ∀ id, e.contains id = true → d.contains id = true ∨ s.nextModule ≤ id := by
  induction bound generalizing d g s with
  | nil =>
    cases run
    exact ⟨g, hd, hg, fun _ => .inl⟩
  | cons b bound ih =>
    obtain ⟨d', u, first, rest⟩ := on_bind_eq_ok.1 run
    have mints := mints_of_run (minting_splice output sockets d b.1 b.2) first
    obtain ⟨g', hd', hg', fresh⟩ := drawn_splice hd hg later first
    obtain ⟨g'', hd'', hg'', fresh'⟩ := ih hd' hg' (later.trans mints.precedes) rest
    refine ⟨g'', hd'', hg'', fun id hid => ?_⟩
    rcases fresh' id hid with known | later
    · exact fresh id known
    · exact .inr (Nat.le_trans mints.precedes.module later)

end

variable {h : Host} {s : Store}

/-- The edits of a recipe draw a pipeline with new identifiers, without the module of a variables root
that is made on the way. -/
theorem drawn_draft (hs : s.Valid) {r : Recipe} {d : Draft} {t : Store}
    (run : (r.draft h).on s = (.ok d, t)) :
    ∃ g, d.Draws g ∧ g.Minted s t ∧ ∀ root, s.tags.get? h.rootTag = none → h.RootAt t root →
      g.modules.contains root.module = false := by
  obtain ⟨input, -, run⟩ := on_ofExcept_bind_eq_ok.1 run
  obtain ⟨⟨ids, d₁⟩, u, copied, run⟩ := on_bind_eq_ok.1 run
  obtain ⟨g₁, hd₁, hg₁, -⟩ :=
    Draft.draws_empty.of_copyModules (Pipeline.minted_empty s s) (.refl s) copied
  have mints := mints_of_run (Draft.empty.minting_copy r.plot.template _) copied
  obtain ⟨⟨sockets, d₂⟩, v, connected, run⟩ := on_bind_eq_ok.1 run
  have mints' := mints_of_run (minting_copyTemplate _ _ _ _ _ _) connected
  obtain ⟨g₂, hd₂, hg₂, -⟩ := drawn_copyTemplate hd₁ hg₁ mints.precedes connected
  have before := mints.trans mints'
  dsimp only at run
  split at run
  · cases run
    refine ⟨g₂, hd₂, hg₂, fun root absent there => ?_⟩
    have tag := there.tag
    rw [before.tags, absent] at tag
    cases tag
  · obtain ⟨root, v', asked, rest⟩ := on_bind_eq_ok.1 run
    have hv := hs.mints before
    have prepares := Host.preparing_variablesRoot.prepares hv asked
    obtain ⟨g₃, hd₃, hg₃, fresh⟩ := drawn_spliceAll hd₂ (hg₂.later prepares.precedes)
      (before.precedes.trans prepares.precedes) rest
    refine ⟨g₃, hd₃, hg₃, fun root' absent there => ?_⟩
    -- a root made here is newer than the copies of the template and older than those of the variables
    obtain ⟨-, -, rfl | ⟨-, rfl, rfl⟩⟩ := Host.variablesRoot_eq_ok hv asked
    · have tag := there.tag
      have mints := mints_of_run (minting_spliceAll root.module sockets d₂ r.bound.entries) rest
      rw [mints.tags, before.tags, absent] at tag
      cases tag
    · have mints := minting_spliceAll v.nextModule sockets d₂ r.bound.entries (h.withRoot v)
      rw [rest] at mints
      obtain rfl := there.unique ((Host.rootAt_withRoot v).mints mints)
      rw [← Bool.not_eq_true, ← hd₃.contains]
      intro listed
      rcases fresh _ listed with known | later
      · rw [hd₂.contains] at known
        exact absurd (hg₂.modules _ known).2 (Nat.lt_irrefl _)
      · exact absurd later (Nat.not_le_of_lt (Nat.lt_succ_self _))

/-- The store after edits were committed below the root. -/
def branched (s : Store) (edits : List Edit) (p : Pipeline) : Store :=
  Store.extended { s with current := VersionId.root } ⟨some VersionId.root, edits, p, ∅, false⟩

/-- Once the edits of a valid recipe are complete, only their commit can fail. -/
theorem on_compile (hs : s.Valid) {r : Recipe} (valid : r.validate = .ok ()) {d : Draft} {u : Store}
    (drafted : (r.draft h).on s = (.ok d, u)) :
    (r.compile h).on s = match Pipeline.empty.applyAll d.edits with
      | .ok p => (.ok u.nextVersion, branched u d.edits p)
      | .error fault => (.error (.host fault), { u with current := VersionId.root }) := by
  have prepares := (r.preparing_draft h).prepares hs drafted
  obtain ⟨n, there, -, empty, live⟩ := (prepares.valid hs).root
  have root : u.live VersionId.root = .ok n := Store.live_eq_ok_iff.2 ⟨there, live⟩
  have select : (change (·.select VersionId.root)).on u =
      (.ok (), { u with current := VersionId.root }) := by
    rw [on_change, Store.select_of_live root]
  rw [compile, valid, on_bind_of_ok (on_ofExcept ..), on_bind_of_ok drafted, on_bind_of_ok select,
    on_commit]
  let v : Store := { u with current := VersionId.root }
  have base : v.live v.current = .ok n := root
  rw [← empty]
  cases applies : n.pipeline.applyAll d.edits with
  | error fault => rw [Store.commit_of_refused base applies]
  | ok p =>
    rw [Store.commit_of_applyAll base applies]
    rfl

/-- Compiling a recipe adds a version below the root, or nothing. -/
theorem compile_cases (hs : s.Valid) (r : Recipe) :
    ∃ u v, h.Prepares s u ∧
      ((∃ e, (r.compile h).on s = (.error e, { u with current := v })) ∨
        ∃ d p, r.validate = .ok () ∧ (r.draft h).on s = (.ok d, u) ∧
          Pipeline.empty.applyAll d.edits = .ok p ∧
          (r.compile h).on s = (.ok u.nextVersion, branched u d.edits p)) := by
  cases valid : r.validate with
  | error e =>
    refine ⟨s, s.current, .mints (.refl s), .inl ⟨e, ?_⟩⟩
    rw [compile, valid]
    rfl
  | ok _ =>
    have prepares := r.preparing_draft h s hs
    rcases drafted : (r.draft h).on s with ⟨e | d, u⟩
    · rw [drafted] at prepares
      refine ⟨u, u.current, prepares, .inl ⟨e, ?_⟩⟩
      rw [compile, valid, on_bind_of_ok (on_ofExcept ..), on_bind_of_error drafted]
    · rw [drafted] at prepares
      refine ⟨u, VersionId.root, prepares, ?_⟩
      have compiled := on_compile hs valid drafted
      cases applies : Pipeline.empty.applyAll d.edits with
      | error fault =>
        rw [applies] at compiled
        exact .inl ⟨_, compiled⟩
      | ok p =>
        rw [applies] at compiled
        exact .inr ⟨d, p, rfl, rfl, applies, compiled⟩

end Recipe

end Dataflow
