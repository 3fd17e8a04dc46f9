import Dataflow.Proofs.Recipe.Compiling
import Dataflow.Proofs.Variable.Copying

/-! The parts of a compiled recipe as they are drawn: the template without its input modules, and each
bound variable with its output redirected to the sockets of its port. For each part it is said when
it can be drawn, and exactly what is drawn then. -/

namespace Dataflow

namespace Pipeline

/-- The input module that a connection leaves, if it leaves one. -/
def inputAt? (input : TypeName) (p : Pipeline) (c : Connection) : Option Module :=
  (p.modules.get? c.source.module).filter fun m => m.type == input

/-- The connections that leave input modules of a name. -/
def namedBy (input : TypeName) (p : Pipeline) (name : String) (c : Connection) : Bool :=
  (p.inputAt? input c).bind (·.value? "name") == some name

/-- Input modules that feed something have a name, and nothing feeds an input module. -/
structure Sound (input : TypeName) (p : Pipeline) : Prop where
  named : ∀ c ∈ p.connections.values, ∀ m, p.inputAt? input c = some m →
    (m.value? "name").isSome = true
  unfed : ∀ c ∈ p.connections.values, ∀ m, p.modules.get? c.destination.module = some m →
    m.type ≠ input

end Pipeline

/-- The inputs that are noted for a name. -/
def Sockets.of (sockets : Sockets) (name : String) : List PortRef := (sockets.get? name).getD []

/-- The wires of a copied connection, where what led to the variables root leads to targets. -/
def Connection.redirected (root : ModuleId) (f : ModuleId → ModuleId) (targets : List PortRef)
    (c : Connection) : List Wire :=
  if c.destination.module = root then targets.map fun target => ⟨c.source.moved f, target⟩
  else [c.wire.moved f]

/-- The copies of a variable's modules, without that of the variables root. -/
def Pipeline.innerCopies (p : Pipeline) (root : ModuleId) (f : ModuleId → ModuleId) : List Module :=
  (p.inner root).map fun m => m.copied (f m.id)

/-- The wires of a variable's copy that feeds targets. -/
def Pipeline.redirected (p : Pipeline) (root : ModuleId) (f : ModuleId → ModuleId)
    (targets : List PortRef) : List Wire :=
  p.connections.values.flatMap (Connection.redirected root f targets)

/-- The pipeline that a variable was written as. -/
def Variable.committed (s : Store) (x : Variable) : Pipeline :=
  match x.version.map s.pipeline with
  | some (.ok p) => p
  | _ => .empty

/-- The variable was written to the store, and its version was not pruned. -/
def Variable.Written (s : Store) (x : Variable) : Prop :=
  ∃ v n, x.version = some v ∧ s.live v = .ok n

namespace Recipe

open Dataflow.Action Draft

variable {d e : Draft} {g : Pipeline} {s₀ s t : Store} {ids : Renaming}

/-- A connection of a template can be copied or noted: it ends in a copied module, and leaves one or
an input module with a name. -/
structure Ready (input : TypeName) (template : Pipeline) (d : Draft) (ids : Renaming)
    (c : Connection) : Prop where
  source : ∃ m, template.modules.get? c.source.module = some m ∧
    (m.type = input ∧ (m.value? "name").isSome = true ∨
      m.type ≠ input ∧ ∃ j, ids.get? c.source.module = some j ∧ d.contains j = true)
  destination : ∃ k, ids.get? c.destination.module = some k ∧ d.contains k = true

theorem on_copyTemplate {input : TypeName} {template : Pipeline} (sockets : Sockets)
    {cs : List Connection} (hd : d.Draws g) (hg : g.Minted s₀ s) (later : s₀.Precedes s)
    (ready : ∀ c ∈ cs, Ready input template d ids c) :
    ∃ sockets' e g' t, (copyTemplate input template ids d sockets cs).on s = (.ok (sockets', e), t) ∧
      Wired s₀ s g ((cs.filter fun c => (template.inputAt? input c).isNone).map
        fun c => c.wire.moved ids.at) e t g' ∧
      ∀ name, sockets'.of name = sockets.of name ++
        (cs.filter (template.namedBy input name)).map fun c => c.destination.moved ids.at := by
  induction cs generalizing d g s sockets with
  | nil => exact ⟨sockets, d, g, s, rfl, hd.wired hg, fun name => (List.append_nil _).symm⟩
  | cons c cs ih =>
    obtain ⟨⟨m, found, source⟩, k, target, own⟩ := ready c (List.mem_cons_self ..)
    rcases source with ⟨isInput, named⟩ | ⟨notInput, j, source, own'⟩
    · obtain ⟨name, named⟩ := Option.isSome_iff_exists.1 named
      have leaves : template.inputAt? input c = some m := by
        simp [Pipeline.inputAt?, found, isInput, Option.filter]
      let noted := sockets.insert name (sockets.of name ++ [c.destination.moved ids.at])
      obtain ⟨sockets', e, g', t, run, wired, targets⟩ :=
        ih noted hd hg later fun c hc => ready c (List.mem_cons_of_mem _ hc)
      refine ⟨sockets', e, g', t, ?_, ?_, fun other => ?_⟩
      · rw [copyTemplate]
        simp only [found, isInput, if_true, named, target]
        rw [← run]
        simp only [noted, Sockets.of, PortRef.moved, Renaming.at_of_get? target]
      · rwa [List.filter_cons_of_neg (by simp [leaves])]
      · rw [targets, Sockets.of, OrderedMap.get?_insert]
        by_cases same : other = name
        · subst same
          rw [List.filter_cons_of_pos (by simp [Pipeline.namedBy, leaves, named])]
          simp
        · have ne : ¬ name = other := fun h => same h.symm
          rw [List.filter_cons_of_neg (by simp [Pipeline.namedBy, leaves, named, ne]), if_neg same]
          rfl
    · have leaves : template.inputAt? input c = none := by
        simp [Pipeline.inputAt?, found, notInput, Option.filter]
      obtain ⟨id, d', g₁, u, first, wired⟩ := hd.copyConnection hg later source target own' own
      have ready' : ∀ c ∈ cs, Ready input template d' ids c := fun c hc => by
        obtain ⟨source, destination⟩ := ready c (List.mem_cons_of_mem _ hc)
        constructor
        · simpa only [wired.contains hd] using source
        · simpa only [wired.contains hd] using destination
      obtain ⟨sockets', e, g', t, run, wired', targets⟩ :=
        ih sockets wired.draws wired.minted (later.trans wired.mints.precedes) ready'
      refine ⟨sockets', e, g', t, ?_, ?_, fun other => ?_⟩
      · rw [copyTemplate]
        simp only [found, notInput, if_false]
        exact (on_bind_of_ok first _).trans run
      · rw [List.filter_cons_of_pos (by simp [leaves])]
        exact wired.trans wired'
      · rw [targets, List.filter_cons_of_neg (by simp [Pipeline.namedBy, leaves])]

theorem of_copyTemplate {input : TypeName} {template : Pipeline} {sockets sockets' : Sockets}
    {cs : List Connection}
    (run : (copyTemplate input template ids d sockets cs).on s = (.ok (sockets', e), t)) :
    ∀ c ∈ cs, (∀ m, template.inputAt? input c = some m → (m.value? "name").isSome = true) ∧
      ∃ k, ids.get? c.destination.module = some k := by
  induction cs generalizing d s sockets with
  | nil => simp
  | cons c cs ih =>
    rw [List.forall_mem_cons]
    unfold copyTemplate at run
    split at run
    · cases run
    · next m found =>
      split at run
      · next isInput =>
        split at run
        · cases run
        · cases run
        · next name k named target =>
          refine ⟨⟨fun m' leaves => ?_, k, target⟩, ih run⟩
          obtain rfl : m = m' := by
            simpa [Pipeline.inputAt?, found, isInput, Option.filter] using leaves
          rw [named]
          rfl
      · next notInput =>
        obtain ⟨⟨id, d'⟩, u, first, rest⟩ := on_bind_eq_ok.1 run
        obtain ⟨⟨j, k, -, target, -⟩, -⟩ := copyConnection_eq_ok first
        refine ⟨⟨fun m' leaves => ?_, k, target⟩, ih rest⟩
        simp [Pipeline.inputAt?, found, notInput, Option.filter] at leaves

theorem on_feedAll (source : PortRef) {targets : List PortRef} (hd : d.Draws g)
    (hg : g.Minted s₀ s) (later : s₀.Precedes s) (own : d.contains source.module = true)
    (owns : ∀ target ∈ targets, d.contains target.module = true) :
    ∃ e g' t, (feedAll source d targets).on s = (.ok e, t) ∧
      Wired s₀ s g (targets.map fun target => ⟨source, target⟩) e t g' := by
  induction targets generalizing d g s with
  | nil => exact ⟨d, g, s, rfl, hd.wired hg⟩
  | cons target targets ih =>
    obtain ⟨own', owns⟩ := List.forall_mem_cons.1 owns
    obtain ⟨id, d', g₁, u, first, wired⟩ := hd.connect hg later source target own own'
    obtain ⟨e, g', t, run, wired'⟩ := ih wired.draws wired.minted
      (later.trans wired.mints.precedes) (by rwa [wired.contains hd])
      (by simpa only [wired.contains hd] using owns)
    exact ⟨e, g', t, (on_bind_of_ok first _).trans run, wired.trans wired'⟩

theorem on_copyVariable (root : ModuleId) {targets : List PortRef} (cs : List Connection)
    (hd : d.Draws g) (hg : g.Minted s₀ s) (later : s₀.Precedes s)
    (owns : ∀ target ∈ targets, d.contains target.module = true)
    (sources : ∀ c ∈ cs, ∃ j, ids.get? c.source.module = some j ∧ d.contains j = true)
    (destinations : ∀ c ∈ cs, c.destination.module ≠ root →
      ∃ k, ids.get? c.destination.module = some k ∧ d.contains k = true) :
    ∃ e g' t, (copyVariable root ids targets d cs).on s = (.ok e, t) ∧
      Wired s₀ s g (cs.flatMap (Connection.redirected root ids.at targets)) e t g' := by
  induction cs generalizing d g s with
  | nil => exact ⟨d, g, s, rfl, hd.wired hg⟩
  | cons c cs ih =>
    obtain ⟨⟨j, source, own⟩, sources⟩ := List.forall_mem_cons.1 sources
    obtain ⟨destination, destinations⟩ := List.forall_mem_cons.1 destinations
    obtain ⟨d', g₁, u, first, wired⟩ : ∃ d' g₁ u,
        (copyVariable root ids targets d (c :: cs)).on s =
          (copyVariable root ids targets d' cs).on u ∧
        Wired s₀ s g (c.redirected root ids.at targets) d' u g₁ := by
      by_cases toRoot : c.destination.module = root
      · obtain ⟨d', g₁, u, first, wired⟩ :=
          on_feedAll ⟨j, c.source.port⟩ hd hg later own owns
        refine ⟨d', g₁, u, ?_, ?_⟩
        · simp only [copyVariable, toRoot, if_true, source]
          exact on_bind_of_ok first _
        · rw [Connection.redirected, if_pos toRoot, PortRef.moved, Renaming.at_of_get? source]
          exact wired
      · obtain ⟨k, target, own'⟩ := destination toRoot
        obtain ⟨id, d', g₁, u, first, wired⟩ := hd.copyConnection hg later source target own own'
        refine ⟨d', g₁, u, ?_, ?_⟩
        · simp only [copyVariable, toRoot, if_false]
          exact on_bind_of_ok first _
        · rw [Connection.redirected, if_neg toRoot]
          exact wired
    obtain ⟨e, g', t, run, wired'⟩ := ih wired.draws wired.minted
      (later.trans wired.mints.precedes) (by simpa only [wired.contains hd] using owns)
      (by simpa only [wired.contains hd] using sources)
      (by simpa only [wired.contains hd] using destinations)
    refine ⟨e, g', t, first.trans run, ?_⟩
    rw [List.flatMap_cons]
    exact wired.trans wired'

/-- A draft that draws some modules and wires after those it drew before. -/
structure Grown (s₀ s : Store) (d : Draft) (g : Pipeline) (ms : List Module) (ws : List Wire)
    (e : Draft) (t : Store) (g' : Pipeline) : Prop where
  mints : s.Mints t
  draws : e.Draws g'
  minted : g'.Minted s₀ t
  kept : ∀ id, d.contains id = true → e.contains id = true
  modules : g'.modules.values = g.modules.values ++ ms
  wires : g'.wires = g.wires ++ ws

theorem Grown.trans {ms ms' : List Module} {ws ws' : List Wire} {e' : Draft} {u : Store}
    {g' g'' : Pipeline} (first : Grown s₀ s d g ms ws e t g')
    (rest : Grown s₀ t e g' ms' ws' e' u g'') : Grown s₀ s d g (ms ++ ms') (ws ++ ws') e' u g'' where
  mints := first.mints.trans rest.mints
  draws := rest.draws
  minted := rest.minted
  kept id own := rest.kept id (first.kept id own)
  modules := by rw [rest.modules, first.modules, List.append_assoc]
  wires := by rw [rest.wires, first.wires, List.append_assoc]

theorem Grown.wired {ms : List Module} {ws ws' : List Wire} {e' : Draft} {u : Store}
    {g' g'' : Pipeline} (first : Grown s₀ s d g ms ws e t g')
    (rest : Wired s₀ t g' ws' e' u g'') : Grown s₀ s d g ms (ws ++ ws') e' u g'' where
  mints := first.mints.trans rest.mints
  draws := rest.draws
  minted := rest.minted
  kept id own := by
    rw [rest.contains first.draws]
    exact first.kept id own
  modules := by rw [rest.modules, first.modules]
  wires := by rw [rest.wires, first.wires, List.append_assoc]

/-- Copying modules grows a draft by them, and each of them is the draft's own. -/
theorem grown_copy (hd : d.Draws g) (hg : g.Minted s₀ s) (later : s₀.Precedes s) {p : Pipeline}
    (hp : p.WellFormed) (keep : Module → Bool) :
    ∃ ids e g' t, (d.copy p keep).on s = (.ok (ids, e), t) ∧
      Grown s₀ s d g ((p.modules.values.filter keep).map fun m => m.copied (ids.at m.id)) [] e t g' ∧
      (∀ k j, ids.get? k = some j → ∃ m, p.modules.get? k = some m ∧ keep m = true) ∧
      ∀ k m, p.modules.get? k = some m → keep m = true →
        ∃ j, ids.get? k = some j ∧ e.contains j = true := by
  obtain ⟨ids, e, g', t, run, mints, drawn, minted, copies, kept⟩ := hd.copy hg later hp keep
  have contains : ∀ id, d.contains id = true → e.contains id = true := by
    intro id own
    rw [hd.contains, hd.wellFormed.contains_iff] at own
    rw [drawn.contains, drawn.wellFormed.contains_iff]
    obtain ⟨m, listed, rfl⟩ := own
    exact ⟨m, by rw [copies.modules]; exact List.mem_append_left _ listed, rfl⟩
  have wires : g'.wires = g.wires ++ [] := by
    rw [List.append_nil, Pipeline.wires, copies.connections]
    rfl
  refine ⟨ids, e, g', t, run, ⟨mints, drawn, minted, contains, copies.modules, wires⟩, kept,
    fun k m found keeps => ?_⟩
  obtain rfl := hp.module_id found
  have listed := List.mem_filter.2 ⟨hp.mem_values_iff.2 found, keeps⟩
  refine ⟨ids.at m.id, (copies.get?_of_mem listed).1, ?_⟩
  rw [drawn.contains, drawn.wellFormed.contains_iff]
  exact ⟨_, copies.mem_modules listed, Module.copied_id ..⟩

theorem committed_of_live {x : Variable} {v : VersionId} {n : Version} (version : x.version = some v)
    (live : s.live v = .ok n) : x.committed s = n.pipeline ∧ s.pipeline v = .ok n.pipeline := by
  have read : s.pipeline v = .ok n.pipeline := by
    rw [Store.pipeline, live]
    rfl
  refine ⟨?_, read⟩
  simp [Variable.committed, version, read]

theorem committed_of_mints (mints : s.Mints t) (x : Variable) : x.committed t = x.committed s := by
  rw [Variable.committed, Variable.committed, mints.pipeline]

theorem written_of_mints (mints : s.Mints t) {x : Variable} : x.Written t ↔ x.Written s := by
  rw [Variable.Written, Variable.Written, mints.live]

/-- Any written variable can be spliced, if no connection of its pipeline leaves the root's module. -/
theorem on_splice {root : ModuleId} {sockets : Sockets} {port : String} {x : Variable}
    (hs : s.Valid) (hd : d.Draws g) (hg : g.Minted s₀ s) (later : s₀.Precedes s)
    (owns : ∀ target ∈ sockets.of port, d.contains target.module = true) (written : x.Written s)
    (spared : (x.committed s).Spares root) :
    ∃ f e g' t, (splice root sockets d port x).on s = (.ok e, t) ∧
      Grown s₀ s d g ((x.committed s).innerCopies root f)
        ((x.committed s).redirected root f (sockets.of port)) e t g' := by
  obtain ⟨v, n, version, live⟩ := written
  obtain ⟨same, read⟩ := committed_of_live version live
  rw [same] at spared ⊢
  have closed := hs.wellFormed (Store.live_eq_ok_iff.1 live).1
  obtain ⟨ids, d', g₁, u, copied, grown, -, covered⟩ :=
    grown_copy hd hg later closed fun m => m.id != root
  have inner : ∀ k, n.pipeline.modules.contains k = true → k ≠ root →
      ∃ j, ids.get? k = some j ∧ d'.contains j = true := by
    intro k there ne
    obtain ⟨m, found⟩ := OrderedMap.contains_eq_true_iff.1 there
    refine covered k m found ?_
    rw [closed.module_id found]
    exact bne_iff_ne.2 ne
  obtain ⟨e, g', t, run, wired⟩ := on_copyVariable root n.pipeline.connections.values grown.draws
    grown.minted (later.trans grown.mints.precedes)
    (fun target ht => grown.kept _ (owns target ht))
    (fun c hc => by
      obtain ⟨k, found⟩ := OrderedMap.mem_values_iff.1 hc
      exact inner _ (closed.source found) (spared c hc))
    (fun c hc ne => by
      obtain ⟨k, found⟩ := OrderedMap.mem_values_iff.1 hc
      exact inner _ (closed.destination found) ne)
  refine ⟨ids.at, e, g', t, ?_, grown.wired wired⟩
  rw [splice, Variable.written, version]
  rw [on_bind_of_ok (on_ofExcept ..), on_bind_of_ok (on_query_of_ok read), on_bind_of_ok copied]
  exact run

theorem on_spliceAll (root : ModuleId) {sockets : Sockets} {bound : List (String × Variable)}
    (hs : s.Valid) (hd : d.Draws g) (hg : g.Minted s₀ s) (later : s₀.Precedes s)
    (distinct : (bound.map Prod.fst).Nodup)
    (owns : ∀ name, ∀ target ∈ sockets.of name, d.contains target.module = true)
    (written : ∀ b ∈ bound, b.2.Written s)
    (spared : ∀ b ∈ bound, (b.2.committed s).Spares root) :
    ∃ (place : String → ModuleId → ModuleId) (e : Draft) (g' : Pipeline) (t : Store),
      (spliceAll root sockets d bound).on s = (.ok e, t) ∧
      Grown s₀ s d g (bound.flatMap fun b => (b.2.committed s).innerCopies root (place b.1))
        (bound.flatMap fun b => (b.2.committed s).redirected root (place b.1) (sockets.of b.1))
        e t g' := by
  induction bound generalizing d g s with
  | nil =>
    exact ⟨fun _ => id, d, g, s, rfl, .refl s, hd, hg, fun _ => id, (List.append_nil _).symm,
      (List.append_nil _).symm⟩
  | cons b bound ih =>
    obtain ⟨port, x⟩ := b
    obtain ⟨absent, distinct⟩ := List.nodup_cons.1 distinct
    obtain ⟨first, written⟩ := List.forall_mem_cons.1 written
    obtain ⟨spare, spared⟩ := List.forall_mem_cons.1 spared
    obtain ⟨f, d', g₁, u, run, grown⟩ := on_splice hs hd hg later (owns port) first spare
    obtain ⟨place, e, g', t, rest, grown'⟩ := ih (hs.mints grown.mints) grown.draws grown.minted
      (later.trans grown.mints.precedes) distinct
      (fun name target ht => grown.kept _ (owns name target ht))
      (fun b hb => (written_of_mints grown.mints).2 (written b hb))
      (fun b hb => committed_of_mints grown.mints b.2 ▸ spared b hb)
    simp only [committed_of_mints grown.mints] at grown'
    -- The places of the other ports are kept, since the ports are distinct.
    let all : String → ModuleId → ModuleId := fun name => if name = port then f else place name
    have others : ∀ b ∈ bound, all b.1 = place b.1 := fun b hb => by
      have ne : b.1 ≠ port := fun same => absent (List.mem_map.2 ⟨b, hb, same⟩)
      simp [all, ne]
    have here : all port = f := by simp [all]
    have modules : (bound.flatMap fun b => (b.2.committed s).innerCopies root (all b.1)) =
        bound.flatMap fun b => (b.2.committed s).innerCopies root (place b.1) :=
      List.flatMap_congr fun b hb => by rw [others b hb]
    have wires :
        (bound.flatMap fun b => (b.2.committed s).redirected root (all b.1) (sockets.of b.1)) =
          bound.flatMap fun b => (b.2.committed s).redirected root (place b.1) (sockets.of b.1) :=
      List.flatMap_congr fun b hb => by rw [others b hb]
    refine ⟨all, e, g', t, (on_bind_of_ok run _).trans rest, ?_⟩
    rw [List.flatMap_cons, List.flatMap_cons, here, modules, wires]
    exact grown.trans grown'

theorem of_spliceAll {root : ModuleId} {sockets : Sockets} {bound : List (String × Variable)}
    (run : (spliceAll root sockets d bound).on s = (.ok e, t)) : ∀ b ∈ bound, b.2.Written s := by
  induction bound generalizing d s with
  | nil => simp
  | cons b bound ih =>
    obtain ⟨d', u, first, rest⟩ := on_bind_eq_ok.1 run
    have mints := mints_of_run (minting_splice root sockets d b.1 b.2) first
    obtain ⟨v, written, first⟩ := on_ofExcept_bind_eq_ok.1 first
    obtain ⟨p, u', made, first⟩ := on_bind_eq_ok.1 first
    obtain ⟨read, rfl⟩ := on_query_eq_ok.1 made
    obtain ⟨n, there, unpruned, -⟩ := Store.pipeline_eq_ok_iff.1 read
    refine List.forall_mem_cons.2 ⟨?_, fun b hb => (written_of_mints mints).1 (ih rest b hb)⟩
    exact ⟨v, n, Variable.written_eq_ok written, Store.live_eq_ok_iff.2 ⟨there, unpruned⟩⟩

end Recipe

end Dataflow
