import Dataflow.Operation.Application
import Dataflow.Proofs.Tree.Basic
import Dataflow.Proofs.Variable.Copying

/-! Variables that show a tree: what they draw consists of the modules and the wires of the tree, and
their output has its value. Literals show one module, copies what the original was written as, and
a built-in operation the trees of its arguments under one more module. -/

namespace Dataflow

namespace Pipeline

theorem wiresInto_eq (p : Pipeline) (m : ModuleId) :
    p.wiresInto m = (p.connectionsInto m).map Connection.wire := by
  rw [wiresInto, wires, List.filter_map]
  rfl

theorem wires_join_perm {p q : Pipeline} (apart : p.Apart q) :
    (p.join q).wires.Perm (p.wires ++ q.wires) := by
  rw [wires, wires, wires, ← List.map_append]
  exact (OrderedMap.values_union_perm apart.connections).map _

end Pipeline

namespace Variable

/-- What the variable draws is a tree, and its output has the value of the tree. -/
structure Shows (h : Host) (x : Variable) (g : Pipeline) (t : Tree) : Prop where
  drawn : x.Drawn g
  modules : g.modules.values.Perm (t.modules h)
  wires : g.wires.Perm (t.wires h)
  output : x.output = some (t.output h)
  type : x.type = h.valueType t.isText

variable {h : Host} {x y z : Variable} {g gx gy : Pipeline} {s t u : Store} {left right : Tree}

theorem shows_constant {value : Constant} {isNumeric : Bool}
    (run : (constant h value (h.valueType !isNumeric)).on s = (.ok x, t)) :
    ∃ g, x.Shows h g (.literal s.nextModule isNumeric value.text) ∧ g.Minted s t := by
  obtain ⟨-, output, type, drawn, minted⟩ := drawn_constant run
  exact ⟨_, ⟨drawn, .refl _, .refl _, output, type⟩, minted⟩

/-- A variable whose version consists of a tree below the module of a variables root. -/
structure Stored (h : Host) (s : Store) (x : Variable) (t : Tree) : Prop where
  version : ∃ v n root, x.version = some v ∧ s.versions.get? v = some n ∧ h.Spans n.pipeline root t
  type : x.type = h.valueType t.isText

theorem Stored.kept (stored : x.Stored h s left)
    (kept : ∀ {v n}, s.versions.get? v = some n →
      ∃ m, t.versions.get? v = some m ∧ m.pipeline = n.pipeline) : x.Stored h t left := by
  obtain ⟨v, n, root, version, there, spans⟩ := stored.version
  obtain ⟨m, there', same⟩ := kept there
  exact ⟨⟨v, m, root, version, there', same ▸ spans⟩, stored.type⟩

theorem Stored.prepares (stored : x.Stored h s left) (prepares : h.Prepares s t) (hs : s.Valid) :
    x.Stored h t left :=
  stored.kept fun found => ⟨_, prepares.kept hs found, rfl⟩

/-- A copy shows the tree of the original, with other modules. -/
theorem shows_copy (hs : s.Valid) {tree : Tree} (stored : x.Stored h s tree)
    (run : (x.copy h).on s = (.ok y, t)) :
    ∃ f g, y.Shows h g (tree.moved f) ∧ g.Minted s t := by
  obtain ⟨⟨v, n, root, version, there, spans⟩, type⟩ := stored
  obtain ⟨v', r, u, p, o, ids, g, version', asked, read, fed, -, drawn, minted, copy, -, output,
    type'⟩ := copy_eq_ok hs run
  obtain rfl : v = v' := Option.some.inj (version.symm.trans version')
  have prepares := Host.preparing_variablesRoot.prepares hs asked
  obtain ⟨n', there', -, rfl⟩ := Store.pipeline_eq_ok_iff.1 read
  obtain rfl : n = n' := Option.some.inj ((prepares.kept hs there).symm.trans there')
  have closed := hs.wellFormed there
  obtain ⟨c, only, rfl⟩ := feed_eq_ok fed
  -- just one connection leads into the variables root, so it is the root that the tree was laid below
  have single : n.pipeline.wiresInto r.module = [c.wire] := by
    rw [Pipeline.wiresInto_eq, only]
    rfl
  obtain rfl : root = r.module := (spans.eq_root single).symm
  have source : c.source = tree.output h := by
    rw [spans.fed closed, List.cons.injEq] at single
    exact congrArg Wire.source single.1.symm
  have absent := (List.nodup_cons.1 (spans.distinct closed)).1
  refine ⟨ids.at, g, ⟨drawn, ?_, ?_, ?_, ?_⟩, minted.earlier prepares.precedes⟩
  · rw [copy.modules, Tree.modules_moved]
    refine List.Perm.map _ ((spans.modules.filter _).trans (.of_eq ?_))
    rw [List.filter_cons_of_neg (by simp [Host.rootModule]), List.filter_eq_self]
    intro m hm
    rw [bne_iff_ne]
    rintro same
    exact absent (Tree.map_id_modules h tree ▸ same ▸ List.mem_map_of_mem hm)
  · have inner : (n.pipeline.innerConnections r.module).map (fun c => c.wire.moved ids.at) =
        (n.pipeline.wires.filter fun w => w.destination.module != r.module).map
          (Wire.moved ids.at) := by
      rw [Pipeline.wires, List.filter_map, List.map_map]
      rfl
    rw [copy.wires, inner, Tree.wires_moved]
    refine List.Perm.map _ ((spans.wires.filter _).trans (.of_eq ?_))
    rw [List.filter_cons_of_neg (by simp), List.filter_eq_self]
    intro w hw
    rw [bne_iff_ne]
    rintro same
    exact absent (same ▸ Tree.destination_mem hw)
  · rw [output, source, Tree.output_moved]
  · rw [type', type, Tree.isText_moved]

theorem drawn_foldlM {m : ModuleId} {n : Module} {functions : List (String × String)}
    (hx : x.Drawn g) (found : g.modules.get? m = some n)
    (run : (functions.foldlM (fun x (f : String × String) =>
      Action.ofExcept (x.setFunction m f.1 [f.2])) x).on t = (.ok y, u)) :
    t = u ∧ y = { x with draft := y.draft } ∧ y.Drawn { g with
      modules := g.modules.insert m (n.setAll (functions.map fun f => ⟨f.1, [f.2]⟩)) } := by
  induction functions generalizing x g n with
  | nil =>
    cases run
    refine ⟨rfl, rfl, ?_⟩
    rw [show n.setAll ([].map _) = n from rfl, OrderedMap.insert_of_get? found]
    exact hx
  | cons f rest ih =>
    obtain ⟨z, set, tail⟩ := Action.on_ofExcept_bind_eq_ok.1 run
    obtain ⟨n', found', same, hz⟩ := hx.setFunction set
    obtain rfl : n = n' := Option.some.inj (found.symm.trans found')
    obtain ⟨stays, same', hy⟩ := ih hz (OrderedMap.get?_insert_self ..) tail
    refine ⟨stays, ?_, ?_⟩
    · rw [same', same]
    · rw [OrderedMap.insert_insert] at hy
      exact hy

/-- Two variables under a module with two inputs. -/
theorem shows_combine {c : Combiner} (before : s.Precedes t) (hx : x.Shows h gx left)
    (hy : y.Shows h gy right) (minted : gx.Minted s t) (minted' : gy.Minted s t)
    (apart : gx.Apart gy)
    (run : (Operation.combine { type := h.valueType c.isText } (c.type h) c.settings x y c.leftPort
      c.rightPort).on t = (.ok z, u)) :
    ∃ g, z.Shows h g (.node t.nextModule c left right) ∧ g.Minted s u := by
  obtain ⟨⟨first, x₁⟩, absorb, run⟩ := Action.on_ofExcept_bind_eq_ok.1 run
  obtain ⟨⟨second, x₂⟩, absorb', run⟩ := Action.on_ofExcept_bind_eq_ok.1 run
  obtain ⟨⟨m, x₃⟩, v, add, run⟩ := Action.on_bind_eq_ok.1 run
  obtain ⟨x₄, w, sets, run⟩ := Action.on_bind_eq_ok.1 run
  obtain ⟨x₅, w', connect, run⟩ := Action.on_bind_eq_ok.1 run
  obtain ⟨x₆, w'', connect', run⟩ := Action.on_bind_eq_ok.1 run
  obtain ⟨select, rfl⟩ := Action.on_ofExcept_eq_ok.1 run
  obtain ⟨output, rfl, h₁⟩ :=
    (drawn_new _).absorb hx.drawn (Pipeline.apart_empty gx).symm absorb
  rw [Pipeline.empty_join] at h₁
  obtain ⟨output', rfl, h₂⟩ := h₁.absorb hy.drawn apart absorb'
  obtain rfl : first = left.output h := Option.some.inj (output.symm.trans hx.output)
  obtain rfl : second = right.output h := Option.some.inj (output'.symm.trans hy.output)
  -- from here on the pipeline that the variable draws is followed step by step
  have both := minted.join minted'
  obtain ⟨rfl, rfl, rfl, h₃⟩ := h₂.addModule both add
  obtain ⟨rfl, same₄, h₄⟩ := drawn_foldlM h₃ (OrderedMap.get?_insert_self ..) sets
  have whole : x₄.Drawn ((gx.join gy).withModule ⟨t.nextModule, c.type h, c.functions⟩) := by
    have set : (⟨t.nextModule, c.type h, []⟩ : Module).setAll
        (c.settings.map fun f => ⟨f.1, [f.2]⟩) = ⟨t.nextModule, c.type h, c.functions⟩ := by
      cases c <;> rfl
    rw [Pipeline.withModule, OrderedMap.insert_insert, set] at h₄
    exact h₄
  have minted₄ := both.withModule before (c.type h) c.functions
  have later := before.trans (t.mints_createModule (c.type h)).precedes
  obtain ⟨-, -, rfl, same₅, h₅⟩ := whole.connect minted₄ connect
  have minted₅ := minted₄.withConnection later (left.output h) ⟨t.nextModule, c.leftPort⟩
  have later' := later.trans (Store.mints_createConnection _ (left.output h)
    ⟨t.nextModule, c.leftPort⟩).precedes
  obtain ⟨-, -, rfl, same₆, h₆⟩ := h₅.connect minted₅ connect'
  obtain ⟨-, rfl, h₇⟩ := h₆.selectOutput select
  refine ⟨_, ⟨h₇, ?_, ?_, rfl, ?_⟩,
    minted₅.withConnection later' (right.output h) ⟨t.nextModule, c.rightPort⟩⟩
  · have added := OrderedMap.values_insert_perm both.next_module
      (⟨t.nextModule, c.type h, c.functions⟩ : Module)
    exact added.trans (((OrderedMap.values_union_perm apart.modules).trans
      (hx.modules.append hy.modules)).cons _)
  · rw [minted₅.wires_withConnection, minted₄.wires_withConnection, Pipeline.wires_withModule,
      List.append_assoc]
    exact (((Pipeline.wires_join_perm apart).trans (hx.wires.append hy.wires)).append_right _).trans
      List.perm_append_comm
  · show x₆.type = _
    rw [same₆, same₅, same₄]
    rfl

theorem Shows.withProvenance (hx : x.Shows h g left) (record : Option Provenance) :
    Shows h { x with provenance := record } g left :=
  ⟨⟨hx.drawn.unwritten, hx.drawn.draws, hx.drawn.output⟩, hx.modules, hx.wires, hx.output, hx.type⟩

/-- The built-in operation that makes a module with two inputs. -/
theorem shows_apply {c : Combiner} (before : s.Precedes t) (hx : x.Shows h gx left)
    (hy : y.Shows h gy right) (minted : gx.Minted s t) (minted' : gy.Minted s t)
    (apart : gx.Apart gy) (run : ((c.operation h.settings).apply h [x, y]).on t = (.ok z, u)) :
    ∃ g, z.Shows h g (.node t.nextModule c left right) ∧ g.Minted s u := by
  obtain ⟨made, v, implemented, run⟩ := Action.on_bind_eq_ok.1 run
  have combined : ∃ w, made = some w ∧ ∃ g, w.Shows h g (.node t.nextModule c left right) ∧
      g.Minted s v := by
    cases c with
    | calculate op =>
      obtain ⟨both, two, rest⟩ := Action.on_ofExcept_bind_eq_ok.1 implemented
      cases two
      obtain ⟨float, known, rest⟩ := Action.on_ofExcept_bind_eq_ok.1 rest
      obtain rfl := Host.basic_eq_ok known
      obtain ⟨calculator, known, rest⟩ := Action.on_ofExcept_bind_eq_ok.1 rest
      obtain rfl := Host.resolve_eq_ok known
      obtain ⟨w, v, combined, rest⟩ := Action.on_bind_eq_ok.1 rest
      cases rest
      exact ⟨w, rfl, shows_combine before hx hy minted minted' apart combined⟩
    | join =>
      obtain ⟨both, two, rest⟩ := Action.on_ofExcept_bind_eq_ok.1 implemented
      cases two
      obtain ⟨string, known, rest⟩ := Action.on_ofExcept_bind_eq_ok.1 rest
      obtain rfl := Host.basic_eq_ok known
      obtain ⟨join, known, rest⟩ := Action.on_ofExcept_bind_eq_ok.1 rest
      obtain rfl := Host.basic_eq_ok known
      obtain ⟨w, v, combined, rest⟩ := Action.on_bind_eq_ok.1 rest
      cases rest
      exact ⟨w, rfl, shows_combine before hx hy minted minted' apart combined⟩
  obtain ⟨w, rfl, g, shows, minted⟩ := combined
  simp only at run
  split at run
  · cases run
    exact ⟨g, shows, minted⟩
  · cases run
    exact ⟨g, shows.withProvenance _, minted⟩

end Variable

end Dataflow
