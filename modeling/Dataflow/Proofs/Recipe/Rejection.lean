import Dataflow.Proofs.Recipe.Splicing
import Dataflow.Proofs.Workspace.Atomicity

/-! A recipe that is rejected writes nothing, but for one case. The variables root is asked for before
the bound variables are looked at, so where it is not there yet it is made, although one of them then
turns out not to be written. -/

namespace Dataflow

open Dataflow.Action

theorem Variable.Written.of_adds {s t : Store} {x : Variable} (written : x.Written s)
    {v : VersionId} {n : Version} {tag : String} (adds : s.Adds t v n tag) : x.Written t := by
  obtain ⟨u, m, version, live⟩ := written
  obtain ⟨there, unpruned⟩ := Store.live_eq_ok_iff.1 live
  refine ⟨u, m, version, Store.live_eq_ok_iff.2 ⟨?_, unpruned⟩⟩
  rw [adds.versions, OrderedMap.get?_insert_of_ne, there]
  rintro rfl
  rw [adds.fresh] at there
  cases there

namespace Recipe

open Draft

variable {h : Host} {r : Recipe} {d e : Draft} {s t : Store} {ids : Renaming} {fault : Error}

/-- What is noted while a template is copied are inputs of copied modules. -/
theorem owns_of_copyTemplate {input : TypeName} {template : Pipeline} {sockets sockets' : Sockets}
    {cs : List Connection} (copied : ∀ k j, ids.get? k = some j → d.contains j = true)
    (noted : ∀ name, ∀ target ∈ sockets.of name, d.contains target.module = true)
    (run : (copyTemplate input template ids d sockets cs).on s = (.ok (sockets', e), t)) :
    ∀ name, ∀ target ∈ sockets'.of name, e.contains target.module = true := by
  induction cs generalizing d s sockets with
  | nil =>
    cases run
    exact noted
  | cons c cs ih =>
    unfold copyTemplate at run
    split at run
    · cases run
    · split at run
      · split at run
        · cases run
        · cases run
        · next name k named target =>
          refine ih copied (fun other socket listed => ?_) run
          rw [Sockets.of, OrderedMap.get?_insert] at listed
          split at listed
          · rcases List.mem_append.1 listed with listed | listed
            · exact noted _ socket listed
            · obtain rfl := List.mem_singleton.1 listed
              exact copied _ _ target
          · exact noted other socket listed
      · obtain ⟨⟨id, d'⟩, u, first, rest⟩ := on_bind_eq_ok.1 run
        obtain ⟨-, same⟩ := copyConnection_eq_ok first
        exact ih (by simpa only [same] using copied) (by simpa only [same] using noted) rest

/-- Edits that cannot be completed fail before anything is written, or at a bound variable after the
variables root was asked for. -/
theorem draft_eq_error (hs : s.Valid) (run : (r.draft h).on s = (.error fault, t)) :
    s.Mints t ∨ ∃ d g sockets u root v, s.Mints u ∧ d.Draws g ∧ g.Minted s u ∧
      (∀ name, ∀ target ∈ Sockets.of sockets name, d.contains target.module = true) ∧
      h.variablesRoot.on u = (.ok root, v) ∧
      (spliceAll root.module sockets d r.bound.entries).on v = (.error fault, t) := by
  rcases on_bind_eq_error.1 run with failed | ⟨input, u, made, run⟩
  · exact .inl (mints_of_run (minting_ofExcept _) failed)
  obtain ⟨-, rfl⟩ := on_ofExcept_eq_ok.1 made
  rcases on_bind_eq_error.1 run with failed | ⟨⟨ids, d₁⟩, t₁, copied, run⟩
  · exact .inl (mints_of_run (empty.minting_copy _ _) failed)
  have mints := mints_of_run (empty.minting_copy _ _) copied
  obtain ⟨own, -⟩ := contains_of_copyModules (by simp) copied
  obtain ⟨g₁, hd₁, hg₁, -⟩ := draws_empty.of_copyModules (Pipeline.minted_empty s s) (.refl s) copied
  rcases on_bind_eq_error.1 run with failed | ⟨⟨sockets, d₂⟩, t₂, connected, run⟩
  · exact .inl (mints.trans (mints_of_run (minting_copyTemplate _ _ _ _ _ _) failed))
  have before := mints.trans (mints_of_run (minting_copyTemplate _ _ _ _ _ _) connected)
  have owns := owns_of_copyTemplate own (fun name target listed => by cases listed) connected
  obtain ⟨g₂, hd₂, hg₂, -⟩ := drawn_copyTemplate hd₁ hg₁ mints.precedes connected
  dsimp only at run
  split at run
  · cases run
  · rcases on_bind_eq_error.1 run with failed | ⟨root, v, asked, rest⟩
    · obtain ⟨e, run'⟩ | ⟨r', n, run', -⟩ | ⟨-, run'⟩ :=
        Host.variablesRoot_cases (h := h) (hs.mints before)
      · rw [run'] at failed
        cases failed
        exact .inl before
      · rw [run'] at failed
        cases failed
      · rw [run'] at failed
        cases failed
    · exact .inr ⟨d₂, g₂, sockets, t₂, root, v, before, hd₂, hg₂, owns, asked, rest⟩

/-- A recipe is rejected because it is not valid, or because its edits cannot be completed; no complete
edits are refused. -/
theorem compile_eq_error (hs : s.Valid) (run : (r.compile h).on s = (.error fault, t)) :
    t = s ∨ r.validate = .ok () ∧ (r.draft h).on s = (.error fault, t) := by
  cases valid : r.validate with
  | error e =>
    rw [compile, valid] at run
    cases run
    exact .inl rfl
  | ok _ =>
    refine .inr ⟨rfl, ?_⟩
    rcases drafted : (r.draft h).on s with ⟨e | d, u⟩
    · rw [compile, valid, on_bind_of_ok (on_ofExcept ..), on_bind_of_error drafted] at run
      cases run
      rfl
    · obtain ⟨g, draws, -⟩ := drawn_draft hs drafted
      rw [on_compile hs valid drafted, draws.edits] at run
      cases run

end Recipe

namespace Workspace

variable {w w' : Workspace} {r : Recipe} {fault : Error}

/-- The variables root was not there, and all that is new is this version and its tag. -/
structure LeavesRoot (w w' : Workspace) : Prop where
  host : w'.host = w.host
  catalogue : w'.catalogue = w.catalogue
  named : w'.named = w.named
  store : ∃ (s : Store) (root : VariablesRoot),
    w.store.Adds s root.version (w.host.rootVersion root.module) w.host.rootTag ∧ s.Mints w'.store

/-- Nothing is known and nothing tagged, and a variable is bound that is not written. -/
structure Unready (w : Workspace) (r : Recipe) : Prop where
  unnamed : w.named = ∅
  untagged : w.store.tags = ∅
  unwritten : ∃ port x, r.bound.get? port = some x ∧ ¬ x.Written w.store

/-- Where a workspace agrees with its store, bound variables are only refused because they are not
written. -/
theorem Agrees.unready (agrees : w.Agrees) (absent : w.store.tags.get? w.host.rootTag = none)
    {d : Draft} {g : Pipeline} {sockets : Sockets} {u v t : Store} {root : VariablesRoot}
    (mints : w.store.Mints u) (draws : d.Draws g) (minted : g.Minted w.store u)
    (owns : ∀ name, ∀ target ∈ sockets.of name, d.contains target.module = true)
    (asked : w.host.variablesRoot.on u = (.ok root, v))
    (run : (Recipe.spliceAll root.module sockets d r.bound.entries).on v = (.error fault, t)) :
    w.Unready r := by
  obtain ⟨s, rooted, mints', later, hv, agrees', -⟩ := agrees.rooted mints minted asked
  have fresh : w.named = ∅ ∧ w.store.tags = ∅ := by
    rcases agrees.agrees with ⟨named, tags, -⟩ | ⟨root', there⟩
    · exact ⟨named, tags⟩
    · have tag := there.root.tag
      rw [absent] at tag
      cases tag
  refine ⟨fresh.1, fresh.2, ?_⟩
  -- with all of them written, splicing would succeed
  by_contra written
  have written : ∀ b ∈ r.bound.entries, b.2.Written v := by
    intro b listed
    by_contra unwritten
    refine written ⟨b.1, b.2, OrderedMap.get?_eq_some_iff.2 listed, fun there => unwritten ?_⟩
    rcases rooted with ⟨-, rfl⟩ | adds
    · exact (Recipe.written_of_mints mints').2 there
    · exact (Recipe.written_of_mints mints').2 (there.of_adds adds)
  have spared : ∀ b ∈ r.bound.entries, (b.2.committed v).Spares root.module := by
    intro b listed
    obtain ⟨n, m, version, live⟩ := written b listed
    rw [(Recipe.committed_of_live version live).1]
    exact agrees'.spared (Store.live_eq_ok_iff.1 live).1
  obtain ⟨place, e, g', t', spliced, -⟩ := Recipe.on_spliceAll root.module hv draws
    (minted.later later) (mints.precedes.trans later) (OrderedMap.nodup_keys r.bound) owns written
    spared
  rw [spliced] at run
  cases run

theorem valid_of_reaches (hs : w.store.Valid) (reaches : Reaches w w') :
    w'.store.Valid ∧ w'.host = w.host := by
  induction reaches with
  | refl => exact ⟨hs, rfl⟩
  | call _ admissible ih =>
    have effect := effect_after ih.1 admissible
    exact ⟨effect.valid ih.1, effect.host.1.trans ih.2⟩

/-- A recipe that is rejected, in any workspace that calls lead to, leaves everything as it was; or it
is valid and binds a variable, and the variables root is new. Unless a variable can have the tag of
the variables root, that is because nothing was known and a bound variable is not written. -/
theorem createPipeline_rejected {host : Host} {catalogue : Catalogue}
    (reaches : Reaches (new host catalogue .new) w)
    (rejected : on (createPipeline r) w = (.error fault, w')) :
    w.Untouched w' ∨ w.LeavesRoot w' ∧ r.validate = .ok () ∧ r.bound.isEmpty = false ∧
      (host.settings.TagsApart → w.Unready r) := by
  obtain ⟨hs, same⟩ := valid_of_reaches (agrees_new host catalogue).valid reaches
  obtain rfl : w.host = host := same
  rw [on_createPipeline, Prod.mk.injEq] at rejected
  obtain ⟨failed, rfl⟩ := rejected
  rcases run : (r.compile w.host).on w.store with ⟨x, t⟩
  rw [run] at failed
  obtain rfl : x = .error fault := failed
  rcases Recipe.compile_eq_error hs run with rfl | ⟨valid, run⟩
  · exact .inl (.refl w)
  rcases Recipe.draft_eq_error hs run with
    mints | ⟨d, g, sockets, u, root, v, mints, draws, minted, owns, asked, run⟩
  · exact .inl ⟨rfl, rfl, rfl, mints⟩
  have after := mints_of_run (Recipe.minting_spliceAll _ _ _ _) run
  obtain ⟨-, -, rfl | ⟨absent, rfl, rfl⟩⟩ := Host.variablesRoot_eq_ok (hs.mints mints) asked
  · exact .inl ⟨rfl, rfl, rfl, mints.trans after⟩
  rw [mints.tags] at absent
  refine .inr ⟨⟨rfl, rfl, rfl, _, ⟨u.nextVersion, u.nextModule⟩, adds_withRoot hs mints absent, after⟩,
    valid, ?_, fun apart =>
      (agrees_of_reaches apart reaches).unready absent mints draws minted owns asked run⟩
  rw [← Bool.not_eq_true]
  intro none
  rw [List.isEmpty_iff.1 none] at run
  cases run

/-- A variable that was never written, bound to the one port of a plot without modules. -/
def unwrittenRecipe : Recipe :=
  Recipe.bind ⟨⟨"plot", none, .empty, [⟨"x", ⟨"b", "Float"⟩, false⟩]⟩, ∅⟩ "x" { type := ⟨"b", "Float"⟩ }

theorem createPipeline_rejected_unwritten :
    ∃ w', on (createPipeline unwrittenRecipe) sampleStart = (.error (.notMaterialized "x"), w') ∧
      sampleStart.LeavesRoot w' ∧ sampleStart.Unready unwrittenRecipe := by
  obtain ⟨w', rejected⟩ : ∃ w', on (createPipeline unwrittenRecipe) sampleStart =
      (.error (.notMaterialized "x"), w') := ⟨_, rfl⟩
  refine ⟨w', rejected, ?_⟩
  have more : (on (createPipeline unwrittenRecipe) sampleStart).2.store.tags.keys ≠
      sampleStart.store.tags.keys := by decide +kernel
  rcases createPipeline_rejected (.refl : Reaches sampleStart sampleStart) rejected with
    untouched | ⟨leaves, -, -, unready⟩
  · rw [rejected] at more
    exact absurd (congrArg OrderedMap.keys untouched.store.tags) more
  · exact ⟨leaves, unready (Settings.tagsApart_of_default rfl)⟩

/-- The rejected recipe leaves a new version with its tag where there was none. -/
theorem createPipeline_rejected_leaves_root :
    (on (createPipeline unwrittenRecipe) sampleStart).1 = .error (.notMaterialized "x") ∧
      sampleStart.store.versions.keys = [0] ∧ sampleStart.store.tags.keys = [] ∧
      (on (createPipeline unwrittenRecipe) sampleStart).2.store.versions.keys = [0, 1] ∧
      (on (createPipeline unwrittenRecipe) sampleStart).2.store.tags.keys =
        [sampleStart.host.rootTag] := by
  decide +kernel

end Workspace

end Dataflow
