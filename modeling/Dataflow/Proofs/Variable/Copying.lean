import Dataflow.Proofs.Host.VariablesRoot
import Dataflow.Proofs.Operation.Minting
import Dataflow.Proofs.Variable.Drawing

/-! Copies of written variables. A copy draws the pipeline of the version without the module of the
variables root, and its output is the copy of the port that fed it. -/

namespace Dataflow

namespace Pipeline

/-- The modules of a variable's version besides that of the variables root. -/
def inner (p : Pipeline) (root : ModuleId) : List Module :=
  p.modules.values.filter fun m => m.id != root

/-- The connections of a variable's version that do not lead to the variables root. -/
def innerConnections (p : Pipeline) (root : ModuleId) : List Connection :=
  p.connections.values.filter fun c => c.destination.module != root

end Pipeline

namespace Variable

variable {h : Host} {x y : Variable} {s t u : Store}

theorem written_eq_ok {subject : String} {v : VersionId} (hw : x.written subject = .ok v) :
    x.version = some v := by
  unfold written at hw
  split at hw
  · next w found =>
    cases hw
    exact found
  · cases hw

theorem feed_eq_ok {p : Pipeline} {m : ModuleId} {o : PortRef} (hf : feed p m = .ok o) :
    ∃ c, p.connectionsInto m = [c] ∧ c.source = o := by
  unfold feed at hf
  split at hf
  · next c found =>
    cases hf
    exact ⟨c, found, rfl⟩
  · cases hf
  · cases hf

/-- A pipeline that was copied from that of a version: a renaming, with what it makes of the modules
and of the connections. -/
structure CopyOf (s : Store) (p : Pipeline) (root : ModuleId) (ids : Renaming) (g : Pipeline) :
    Prop where
  modules : g.modules.values = (p.inner root).map fun m => m.copied (ids.at m.id)
  wires : g.wires = (p.innerConnections root).map fun c => c.wire.moved ids.at
  numbers : (p.inner root).map (fun m => ids.get? m.id) =
    (List.range' s.nextModule (p.inner root).length).map some
  kept : ∀ {k j}, ids.get? k = some j → ∃ m ∈ p.inner root, m.id = k
  ends : ∀ c ∈ p.innerConnections root, ∃ j k, ids.get? c.source.module = some j ∧
    ids.get? c.destination.module = some k

theorem copy_eq_ok (hs : s.Valid) (run : (x.copy h).on s = (.ok y, t)) :
    ∃ v r u p o ids g, x.version = some v ∧ h.variablesRoot.on s = (.ok r, u) ∧
      u.pipeline v = .ok p ∧ feed p r.module = .ok o ∧ u.Mints t ∧ y.Drawn g ∧ g.Minted u t ∧
      CopyOf u p r.module ids g ∧ ids.get? o.module = some (ids.at o.module) ∧
      y.output = some (o.moved ids.at) ∧ y.type = x.type := by
  obtain ⟨v, written, rest⟩ := Action.on_ofExcept_bind_eq_ok.1 run
  obtain ⟨r, u, root, rest⟩ := Action.on_bind_eq_ok.1 rest
  obtain ⟨p, u', made, rest⟩ := Action.on_bind_eq_ok.1 rest
  obtain ⟨hp, rfl⟩ := Action.on_query_eq_ok.1 made
  obtain ⟨o, ho, rest⟩ := Action.on_ofExcept_bind_eq_ok.1 rest
  obtain ⟨⟨ids, d⟩, u', copied, rest⟩ := Action.on_bind_eq_ok.1 rest
  obtain ⟨e, t', connected, rest⟩ := Action.on_bind_eq_ok.1 rest
  have valid : u.Valid := by
    have := Host.preparing_variablesRoot (h := h) s hs
    rw [root] at this
    exact this.valid hs
  obtain ⟨n, there, -, rfl⟩ := Store.pipeline_eq_ok_iff.1 hp
  have closed := valid.wellFormed there
  obtain ⟨ids', d', g, w, run', mints, drawn, minted, copies, kept⟩ :=
    Draft.draws_empty.copy (Pipeline.minted_empty u u) (.refl u) closed fun m => m.id != r.module
  have same := run'.symm.trans copied
  simp only [Prod.mk.injEq, Except.ok.injEq] at same
  obtain ⟨⟨rfl, rfl⟩, rfl⟩ := same
  have ends := Draft.copied_of_copyConnections connected
  obtain ⟨e', g', w', run'', mints', drawn', minted', modules, wires⟩ :=
    drawn.copyConnections minted mints.precedes _ ends
  have same := run''.symm.trans connected
  simp only [Prod.mk.injEq, Except.ok.injEq] at same
  obtain ⟨rfl, rfl⟩ := same
  -- only modules other than the variables root were copied
  have inner : ∀ {k j}, ids'.get? k = some j → ∃ m ∈ n.pipeline.inner r.module, m.id = k := by
    intro k j hk
    obtain ⟨m, found, keep⟩ := kept k j hk
    have hid := closed.module_id found
    refine ⟨m, List.mem_filter.2 ⟨closed.mem_values_iff.2 ?_, keep⟩, hid⟩
    rw [hid, found]
  cases found : ids'.get? o.module with
  | none => simp [found] at rest
  | some m =>
    simp only [found, Action.on_pure, Prod.mk.injEq, Except.ok.injEq] at rest
    obtain ⟨rfl, rfl⟩ := rest
    have output : g'.modules.contains m = true := by
      obtain ⟨m', hm', hid⟩ := inner found
      rw [modules, drawn.wellFormed.contains_iff]
      refine ⟨_, copies.mem_modules hm', ?_⟩
      rw [Module.copied_id, hid, Renaming.at_of_get? found]
    refine ⟨v, r, u, n.pipeline, o, ids', g', written_eq_ok written, root, hp, ho,
      mints.trans mints', ⟨rfl, drawn', fun ho => ?_⟩, minted', ⟨?_, ?_, copies.numbers, inner, ?_⟩,
      ?_, ?_, rfl⟩
    · cases ho
      exact output
    · rw [modules, copies.modules]
      rfl
    · rw [wires]
      have none : g.wires = [] := by
        rw [Pipeline.wires, copies.connections]
        rfl
      rw [none]
      rfl
    · intro c hc
      obtain ⟨j, k, hj, hk, -⟩ := ends c hc
      exact ⟨j, k, hj, hk⟩
    · rw [found, Renaming.at_of_get? found]
    · rw [PortRef.moved, Renaming.at_of_get? found]

theorem described_of_copy (run : (x.copy h).on s = (.ok y, t)) :
    y.type = x.type ∧ y.provenance = x.provenance ∧ y.version = none ∧
      y.output.isSome = true := by
  obtain ⟨v, written, rest⟩ := Action.on_ofExcept_bind_eq_ok.1 run
  obtain ⟨r, u, root, rest⟩ := Action.on_bind_eq_ok.1 rest
  obtain ⟨p, u', made, rest⟩ := Action.on_bind_eq_ok.1 rest
  obtain ⟨o, ho, rest⟩ := Action.on_ofExcept_bind_eq_ok.1 rest
  obtain ⟨⟨ids, d⟩, u', copied, rest⟩ := Action.on_bind_eq_ok.1 rest
  obtain ⟨e, t', connected, rest⟩ := Action.on_bind_eq_ok.1 rest
  split at rest
  · cases rest
    exact ⟨rfl, rfl, rfl, rfl⟩
  · cases rest

theorem preparing_copy (h : Host) (x : Variable) : h.Preparing (x.copy h) := by
  have preparing {α : Type} {a : Action α} (ha : a.Minting) : h.Preparing a :=
    Host.preparing_of_minting ha
  refine (preparing (Action.minting_ofExcept _)).bind fun v => ?_
  refine Host.preparing_variablesRoot.bind fun r => preparing ?_
  refine (Action.minting_query _).bind fun p => (Action.minting_ofExcept _).bind fun o => ?_
  refine (Draft.minting_copy _ _ _).bind fun (ids, d) => ?_
  refine (Draft.minting_copyConnections _ _ _).bind fun e => ?_
  split
  · exact Action.minting_pure _
  · exact Action.minting_throw _

theorem preparing_restore (h : Host) (v : VersionId) : h.Preparing (restore h v) := by
  refine Host.preparing_variablesRoot.bind fun r => Host.preparing_of_minting ?_
  refine (Action.minting_query _).bind fun p => (Action.minting_ofExcept _).bind fun o => ?_
  refine Action.Minting.bind (Action.moves_get .refl) fun s => ?_
  exact (Action.minting_ofExcept _).bind fun type => Action.minting_pure _

end Variable

end Dataflow
