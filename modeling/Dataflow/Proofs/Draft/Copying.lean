import Mathlib.Data.List.Nodup
import Mathlib.Tactic.Push
import Dataflow.Proofs.Pipeline.Wiring

/-! Copies of modules and connections in a draft. The copies are listed after what was drawn before,
in the order of the originals, and every original has a copy of its own. -/

namespace Dataflow

/-- The module that stands for another one. -/
def Renaming.at (ids : Renaming) (m : ModuleId) : ModuleId := (ids.get? m).getD 0

theorem Renaming.at_of_get? {ids : Renaming} {m k : ModuleId} (h : ids.get? m = some k) :
    ids.at m = k := by
  simp [Renaming.at, h]

/-- Modules that are numbered one after another have identifiers of their own. -/
theorem Renaming.nodup_at {ids : Renaming} {ms : List Module} {n : Nat}
    (numbers : ms.map (fun m => ids.get? m.id) = (List.range' n ms.length).map some) :
    (ms.map fun m => ids.at m.id).Nodup := by
  have same : ms.map (fun m => ids.at m.id) = List.range' n ms.length := by
    have := congrArg (List.map fun k => Option.getD k 0) numbers
    simpa [List.map_map, Function.comp_def, Renaming.at] using this
  rw [same]
  exact List.nodup_range' ..

theorem Renaming.get?_of_numbers {ids : Renaming} {ms : List Module} {n : Nat}
    (numbers : ms.map (fun m => ids.get? m.id) = (List.range' n ms.length).map some) {m : Module}
    (hm : m ∈ ms) :
    ids.get? m.id = some (ids.at m.id) ∧ n ≤ ids.at m.id ∧ ids.at m.id < n + ms.length := by
  have listed : ids.get? m.id ∈ ms.map fun m => ids.get? m.id := List.mem_map_of_mem hm
  rw [numbers] at listed
  obtain ⟨k, hk, found⟩ := List.mem_map.1 listed
  rw [Renaming.at_of_get? found.symm]
  exact ⟨found.symm, List.mem_range'_1.1 hk⟩

namespace Draft

variable {d : Draft} {g : Pipeline} {s₀ s : Store}

/-- What was drawn, with copies of some modules added. -/
structure Copies (s : Store) (g : Pipeline) (ms : List Module) (ids : Renaming) (g' : Pipeline) :
    Prop where
  connections : g'.connections = g.connections
  modules : g'.modules.values = g.modules.values ++ ms.map fun m => m.copied (ids.at m.id)
  numbers : ms.map (fun m => ids.get? m.id) = (List.range' s.nextModule ms.length).map some

theorem Draws.copyModule (hd : d.Draws g) (hg : g.Minted s₀ s) (later : s₀.Precedes s) (m : Module) :
    ∃ e, (d.copyModule m).on s = (.ok (s.nextModule, e), (s.createModule m.type).2) ∧
      e.Draws (g.withModule (m.copied s.nextModule)) ∧
      (g.withModule (m.copied s.nextModule)).Minted s₀ (s.createModule m.type).2 := by
  have added := hd.addModule (m := ⟨s.nextModule, m.type, []⟩) hg.next_module
  have here : (g.withModule ⟨s.nextModule, m.type, []⟩).modules.get? s.nextModule =
      some ⟨s.nextModule, m.type, []⟩ := OrderedMap.get?_insert_self ..
  have sets := Pipeline.applyAll_setFunctions m.functions here
  have whole : (g.withModule ⟨s.nextModule, m.type, []⟩).modules.insert s.nextModule
      (m.copied s.nextModule) = (g.withModule (m.copied s.nextModule)).modules := by
    rw [Pipeline.withModule, Pipeline.withModule, OrderedMap.insert_insert, Module.copied_id]
  refine ⟨_, rfl, ⟨?_, ?_⟩, ?_⟩
  · refine Pipeline.applyAll_append_ok.2 ⟨_, added.edits, ?_⟩
    show Pipeline.applyAll _ (m.functions.map fun f => .setFunction s.nextModule f.name f.params) = _
    rw [sets]
    exact congrArg (fun ms => Except.ok (Pipeline.mk ms g.connections)) whole
  · intro id
    have := added.contains id
    rw [Pipeline.contains_withModule] at this ⊢
    rw [Module.copied_id]
    exact this
  · have := hg.withModule later m.type (m.copied s.nextModule).functions
    have same : (⟨s.nextModule, m.type, (m.copied s.nextModule).functions⟩ : Module) =
        m.copied s.nextModule := by
      have hid := Module.copied_id m s.nextModule
      have htype := Module.copied_type m s.nextModule
      generalize m.copied s.nextModule = copy at *
      cases copy
      simp_all
    rwa [same] at this

/-- Copies of any modules at all. Only they are new in the draft. -/
theorem Draws.copyModules_own (hd : d.Draws g) (hg : g.Minted s₀ s) (later : s₀.Precedes s)
    (done : Renaming) (ms : List Module) :
    ∃ ids e g' t, (d.copyModules done ms).on s = (.ok (ids, e), t) ∧ e.Draws g' ∧
      g'.Minted s₀ t ∧
      ∀ id, e.contains id = true → d.contains id = true ∨ s.nextModule ≤ id := by
  induction ms generalizing d g s done with
  | nil => exact ⟨done, d, g, s, rfl, hd, hg, fun _ => .inl⟩
  | cons m ms ih =>
    obtain ⟨e, first, drawn, minted⟩ := hd.copyModule hg later m
    have mints := s.mints_createModule m.type
    obtain ⟨ids, e', g', t, rest, drawn', minted', fresh⟩ :=
      ih drawn minted (later.trans mints.precedes) (done.insert m.id s.nextModule)
    refine ⟨ids, e', g', t, ?_, drawn', minted', fun id hid => ?_⟩
    · rw [Draft.copyModules, Action.on_bind_of_ok first]
      exact rest
    · rcases fresh id hid with known | later
      · rw [drawn.contains, Pipeline.contains_withModule, Module.copied_id, Bool.or_eq_true,
          decide_eq_true_eq, ← hd.contains] at known
        exact known.symm.imp_right fun same => Nat.le_of_eq same.symm
      · exact .inr (Nat.le_of_succ_le later)

theorem Draws.of_copyModules (hd : d.Draws g) (hg : g.Minted s₀ s) (later : s₀.Precedes s)
    {done ids : Renaming} {ms : List Module} {e : Draft} {t : Store}
    (run : (d.copyModules done ms).on s = (.ok (ids, e), t)) :
    ∃ g', e.Draws g' ∧ g'.Minted s₀ t ∧
      ∀ id, e.contains id = true → d.contains id = true ∨ s.nextModule ≤ id := by
  obtain ⟨ids', e', g', t', run', drawn, minted, fresh⟩ := hd.copyModules_own hg later done ms
  cases run'.symm.trans run
  exact ⟨g', drawn, minted, fresh⟩

theorem Draws.copyModules (hd : d.Draws g) (hg : g.Minted s₀ s) (later : s₀.Precedes s)
    (done : Renaming) (ms : List Module) (distinct : (ms.map Module.id).Nodup) :
    ∃ ids e g' t, (d.copyModules done ms).on s = (.ok (ids, e), t) ∧ s.Mints t ∧ e.Draws g' ∧
      g'.Minted s₀ t ∧ Copies s g ms ids g' ∧
      ∀ k, (∀ m ∈ ms, m.id ≠ k) → ids.get? k = done.get? k := by
  induction ms generalizing d g s done with
  | nil =>
    exact ⟨done, d, g, s, rfl, .refl s, hd, hg, ⟨rfl, by simp, by simp⟩, fun _ _ => rfl⟩
  | cons m ms ih =>
    obtain ⟨absent, distinct⟩ := List.nodup_cons.1 distinct
    have absent : ∀ n ∈ ms, n.id ≠ m.id := fun n hn same =>
      absent (List.mem_map.2 ⟨n, hn, same⟩)
    obtain ⟨e, first, drawn, minted⟩ := hd.copyModule hg later m
    have mints := s.mints_createModule m.type
    obtain ⟨ids, e', g', t, rest, mints', drawn', minted', copies, others⟩ :=
      ih drawn minted (later.trans mints.precedes) (done.insert m.id s.nextModule) distinct
    -- no later module has the same place, so the first copy keeps its number
    have number : ids.get? m.id = some s.nextModule := by
      rw [others m.id absent, OrderedMap.get?_insert_self]
    refine ⟨ids, e', g', t, ?_, mints.trans mints', drawn', minted', ⟨?_, ?_, ?_⟩, ?_⟩
    · rw [Draft.copyModules, Action.on_bind_of_ok first]
      exact rest
    · exact copies.connections
    · have listed : (g.withModule (m.copied s.nextModule)).modules.values =
          g.modules.values ++ [m.copied s.nextModule] := by
        refine OrderedMap.values_insert_last _ fun l hl => ?_
        obtain ⟨n, found⟩ := OrderedMap.mem_keys_iff.1 hl
        rw [Module.copied_id]
        exact Nat.compare_eq_lt.2
          (hg.modules l (OrderedMap.contains_eq_true_iff.2 ⟨n, found⟩)).2
      rw [copies.modules, listed, List.append_assoc, List.map_cons, Renaming.at_of_get? number]
      rfl
    · rw [List.map_cons, number, copies.numbers, List.length_cons, List.range'_succ, List.map_cons]
      rfl
    · intro k hk
      rw [others k fun n hn => hk n (List.mem_cons_of_mem _ hn), OrderedMap.get?_insert_of_ne]
      exact (hk m (List.mem_cons_self ..)).symm

variable {ms : List Module} {ids : Renaming} {g' p : Pipeline}

namespace Copies

theorem get?_of_mem (h : Copies s g ms ids g') {m : Module} (hm : m ∈ ms) :
    ids.get? m.id = some (ids.at m.id) ∧ s.nextModule ≤ ids.at m.id := by
  obtain ⟨found, low, -⟩ := Renaming.get?_of_numbers h.numbers hm
  exact ⟨found, low⟩

theorem mem_modules (h : Copies s g ms ids g') {m : Module} (hm : m ∈ ms) :
    m.copied (ids.at m.id) ∈ g'.modules.values := by
  rw [h.modules]
  exact List.mem_append_right _ (List.mem_map_of_mem hm)

end Copies

/-- Fresh copies of what is kept of a pipeline. Only what is kept has a new identifier. -/
theorem Draws.copy (hd : d.Draws g) (hg : g.Minted s₀ s) (later : s₀.Precedes s)
    (hp : p.WellFormed) (keep : Module → Bool) :
    ∃ ids e g' t, (d.copy p keep).on s = (.ok (ids, e), t) ∧ s.Mints t ∧ e.Draws g' ∧
      g'.Minted s₀ t ∧ Copies s g (p.modules.values.filter keep) ids g' ∧
      ∀ k j, ids.get? k = some j → ∃ m, p.modules.get? k = some m ∧ keep m = true := by
  have distinct : ((p.modules.values.filter keep).map Module.id).Nodup :=
    hp.nodup_ids.sublist (List.filter_sublist.map _)
  obtain ⟨ids, e, g', t, run, mints, drawn, minted, copies, others⟩ :=
    hd.copyModules hg later ∅ _ distinct
  refine ⟨ids, e, g', t, run, mints, drawn, minted, copies, fun k j hk => ?_⟩
  by_cases kept : ∀ m ∈ p.modules.values.filter keep, m.id ≠ k
  · rw [others k kept] at hk
    cases hk
  · push Not at kept
    obtain ⟨m, hm, rfl⟩ := kept
    obtain ⟨listed, hkeep⟩ := List.mem_filter.1 hm
    exact ⟨m, hp.mem_values_iff.1 listed, hkeep⟩

theorem renamed_of_get? {c : Connection} {r : PortRef} {k : ModuleId}
    (h : ids.get? r.module = some k) : renamed ids c r = .ok (r.moved ids.at) := by
  simp [renamed, h, PortRef.moved, Renaming.at]

/-- A draft that draws the same modules as before, and some wires more. -/
structure Wired (s₀ s : Store) (g : Pipeline) (ws : List Wire) (e : Draft) (t : Store)
    (g' : Pipeline) : Prop where
  mints : s.Mints t
  draws : e.Draws g'
  minted : g'.Minted s₀ t
  modules : g'.modules = g.modules
  wires : g'.wires = g.wires ++ ws

theorem Draws.wired (hd : d.Draws g) (hg : g.Minted s₀ s) : Wired s₀ s g [] d s g :=
  ⟨.refl s, hd, hg, rfl, by simp⟩

theorem Wired.trans {ws ws' : List Wire} {e e' : Draft} {t u : Store} {g' g'' : Pipeline}
    (first : Wired s₀ s g ws e t g') (rest : Wired s₀ t g' ws' e' u g'') :
    Wired s₀ s g (ws ++ ws') e' u g'' :=
  ⟨first.mints.trans rest.mints, rest.draws, rest.minted, rest.modules.trans first.modules, by
    rw [rest.wires, first.wires, List.append_assoc]⟩

theorem Wired.contains {ws : List Wire} {e : Draft} {t : Store} {g' : Pipeline}
    (h : Wired s₀ s g ws e t g') (hd : d.Draws g) (id : ModuleId) :
    e.contains id = d.contains id := by
  rw [h.draws.contains, hd.contains, h.modules]

theorem Draws.connect (hd : d.Draws g) (hg : g.Minted s₀ s) (later : s₀.Precedes s)
    (source destination : PortRef) (own : d.contains source.module = true)
    (own' : d.contains destination.module = true) :
    ∃ id e g' t, (d.connect source destination).on s = (.ok (id, e), t) ∧
      Wired s₀ s g [⟨source, destination⟩] e t g' := by
  refine ⟨_, _, g.withConnection ⟨s.nextConnection, source, destination⟩, _, on_connect own own',
    s.mints_createConnection .., ?_, ?_, rfl, ?_⟩
  · exact hd.connection (c := ⟨s.nextConnection, source, destination⟩) hg.next_connection own own'
  · exact hg.withConnection later source destination
  · exact hg.wires_withConnection source destination

theorem Draws.copyConnection (hd : d.Draws g) (hg : g.Minted s₀ s) (later : s₀.Precedes s)
    {c : Connection} {j k : ModuleId} (source : ids.get? c.source.module = some j)
    (destination : ids.get? c.destination.module = some k) (own : d.contains j = true)
    (own' : d.contains k = true) :
    ∃ id e g' t, (d.copyConnection ids c).on s = (.ok (id, e), t) ∧
      Wired s₀ s g [c.wire.moved ids.at] e t g' := by
  have hs := renamed_of_get? (c := c) source
  have ht := renamed_of_get? (c := c) destination
  rw [← Renaming.at_of_get? source] at own
  rw [← Renaming.at_of_get? destination] at own'
  obtain ⟨id, e, g', t, run, wired⟩ := hd.connect hg later (c.source.moved ids.at)
    (c.destination.moved ids.at) own own'
  refine ⟨id, e, g', t, ?_, wired⟩
  rw [Draft.copyConnection, hs, ht]
  exact run

/-- Both ends of the connection were copied into the draft. -/
def Copied (d : Draft) (ids : Renaming) (c : Connection) : Prop :=
  ∃ j k, ids.get? c.source.module = some j ∧ ids.get? c.destination.module = some k ∧
    d.contains j = true ∧ d.contains k = true

theorem Draws.copyConnections (hd : d.Draws g) (hg : g.Minted s₀ s) (later : s₀.Precedes s)
    (cs : List Connection) (ends : ∀ c ∈ cs, d.Copied ids c) :
    ∃ e g' t, (d.copyConnections ids cs).on s = (.ok e, t) ∧
      Wired s₀ s g (cs.map fun c => c.wire.moved ids.at) e t g' := by
  induction cs generalizing d g s with
  | nil => exact ⟨d, g, s, rfl, hd.wired hg⟩
  | cons c cs ih =>
    obtain ⟨j, k, source, destination, own, own'⟩ := ends c (List.mem_cons_self ..)
    obtain ⟨id, e, g', t, first, wired⟩ := hd.copyConnection hg later source destination own own'
    obtain ⟨e', g'', u, rest, wired'⟩ :=
      ih wired.draws wired.minted (later.trans wired.mints.precedes) fun c' hc' => by
        simpa only [Copied, wired.contains hd] using ends c' (List.mem_cons_of_mem _ hc')
    refine ⟨e', g'', u, ?_, wired.trans wired'⟩
    rw [Draft.copyConnections, Action.on_bind_of_ok first]
    exact rest

theorem renamed_eq_ok {c : Connection} {r q : PortRef} (h : renamed ids c r = .ok q) :
    ids.get? r.module = some q.module := by
  unfold renamed at h
  split at h
  · next m found =>
    cases h
    exact found
  · cases h

theorem copyConnection_eq_ok {c : Connection} {id : ConnectionId} {e : Draft} {t : Store}
    (run : (d.copyConnection ids c).on s = (.ok (id, e), t)) :
    d.Copied ids c ∧ e.contains = d.contains := by
  obtain ⟨source, hs, rest⟩ := Action.on_ofExcept_bind_eq_ok.1 run
  obtain ⟨destination, ht, rest⟩ := Action.on_ofExcept_bind_eq_ok.1 rest
  obtain ⟨own, own', rfl, rfl⟩ := connect_eq_ok rest
  exact ⟨⟨_, _, renamed_eq_ok hs, renamed_eq_ok ht, own, own'⟩, rfl⟩

theorem copied_of_copyConnections {cs : List Connection} {e : Draft} {t : Store}
    (run : (d.copyConnections ids cs).on s = (.ok e, t)) : ∀ c ∈ cs, d.Copied ids c := by
  induction cs generalizing d s with
  | nil => simp
  | cons c cs ih =>
    obtain ⟨⟨id, d'⟩, u, first, rest⟩ := Action.on_bind_eq_ok.1 run
    obtain ⟨copied, same⟩ := copyConnection_eq_ok first
    intro c' hc'
    rcases List.mem_cons.1 hc' with rfl | hc'
    · exact copied
    · have := ih rest c' hc'
      simpa only [Copied, same] using this

theorem Draws.of_connect (hd : d.Draws g) (hg : g.Minted s₀ s) (later : s₀.Precedes s)
    {source destination : PortRef} {id : ConnectionId} {e : Draft} {t : Store}
    (run : (d.connect source destination).on s = (.ok (id, e), t)) :
    ∃ g', e.Draws g' ∧ g'.Minted s₀ t ∧ e.contains = d.contains := by
  obtain ⟨own, own', rfl, rfl⟩ := connect_eq_ok run
  exact ⟨_, hd.connection (c := ⟨s.nextConnection, source, destination⟩) hg.next_connection own own',
    hg.withConnection later source destination, rfl⟩

theorem Draws.of_copyConnection (hd : d.Draws g) (hg : g.Minted s₀ s) (later : s₀.Precedes s)
    {c : Connection} {id : ConnectionId} {e : Draft} {t : Store}
    (run : (d.copyConnection ids c).on s = (.ok (id, e), t)) :
    ∃ g', e.Draws g' ∧ g'.Minted s₀ t ∧ e.contains = d.contains := by
  obtain ⟨source, -, rest⟩ := Action.on_ofExcept_bind_eq_ok.1 run
  obtain ⟨destination, -, rest⟩ := Action.on_ofExcept_bind_eq_ok.1 rest
  exact hd.of_connect hg later rest

end Draft

end Dataflow
