import Dataflow.Proofs.Operation.Minting
import Dataflow.Proofs.Variable.Drawing

/-! What operations build. Their arguments draw pipelines that are apart from each other, and each
step of building keeps it so; hence whatever an operation returns draws a pipeline with identifiers
of the store it was built on. -/

namespace Dataflow

namespace Variable

/-- The drawings of the variables have no identifier in common. -/
def Apart (x y : Variable) : Prop := ∀ g g', x.Drawn g → y.Drawn g' → g.Apart g'

/-- Unwritten variables with drawings that are apart from each other and were numbered between two
states of a store. -/
structure Drawings (s t : Store) (xs : List Variable) : Prop where
  drawn : ∀ x ∈ xs, ∃ g, x.Drawn g ∧ g.Minted s t
  apart : xs.Pairwise Apart

theorem Drawn.unique {x : Variable} {g g' : Pipeline} (h : x.Drawn g) (h' : x.Drawn g') :
    g = g' := Except.ok.inj (h.draws.edits.symm.trans h'.draws.edits)

variable {x y z : Variable} {xs ys : List Variable} {g g' : Pipeline} {s t u : Store}

theorem Drawn.apart (hx : x.Drawn g) (hy : y.Drawn g') (apart : g.Apart g') : x.Apart y := by
  intro p q hp hq
  rw [hp.unique hx, hq.unique hy]
  exact apart

theorem drawings_nil : Drawings s t [] := ⟨by simp, .nil⟩

theorem drawings_singleton (hx : x.Drawn g) (minted : g.Minted s t) : Drawings s t [x] :=
  ⟨by simpa using ⟨g, hx, minted⟩, List.pairwise_singleton ..⟩

namespace Drawings

theorem sublist (h : Drawings s t ys) (sub : xs.Sublist ys) : Drawings s t xs :=
  ⟨fun x hx => h.drawn x (sub.subset hx), h.apart.sublist sub⟩

theorem perm (h : Drawings s t xs) (same : xs.Perm ys) : Drawings s t ys where
  drawn x hx := h.drawn x (same.mem_iff.2 hx)
  apart := (same.pairwise_iff fun apart p q hp hq => (apart q p hq hp).symm).1 h.apart

theorem later (h : Drawings s t xs) (later : t.Precedes u) : Drawings s u xs where
  drawn x hx := by
    obtain ⟨g, drawn, minted⟩ := h.drawn x hx
    exact ⟨g, drawn, minted.later later⟩
  apart := h.apart

theorem cons (hx : x.Drawn g) (first : g.Minted s t) (rest : Drawings t u xs) (before : s.Precedes t)
    (after : t.Precedes u) : Drawings s u (x :: xs) where
  drawn y hy := by
    rcases List.mem_cons.1 hy with rfl | hy
    · exact ⟨g, hx, first.later after⟩
    · obtain ⟨g', drawn, minted⟩ := rest.drawn y hy
      exact ⟨g', drawn, minted.earlier before⟩
  apart := List.pairwise_cons.2 ⟨fun y hy => by
    obtain ⟨g', drawn, minted⟩ := rest.drawn y hy
    exact hx.apart drawn (first.apart minted), rest.apart⟩

theorem newest (h : Drawings s t xs) (before : s.Precedes t) (later : t.Precedes u)
    (hy : y.Drawn g) (new : g.Minted t u) : Drawings s u (y :: xs) where
  drawn z hz := by
    rcases List.mem_cons.1 hz with rfl | hz
    · exact ⟨g, hy, new.earlier before⟩
    · exact (h.later later).drawn z hz
  apart := List.pairwise_cons.2 ⟨fun z hz => by
    obtain ⟨g', drawn, minted⟩ := h.drawn z hz
    exact hy.apart drawn (minted.apart new).symm, h.apart⟩

theorem head (h : Drawings s t (x :: xs)) (later : t.Precedes u) (hx : x.Drawn g) (hy : y.Drawn g')
    (minted : g'.Minted s u)
    (modules : ∀ id, g'.modules.contains id = true →
      g.modules.contains id = true ∨ t.nextModule ≤ id)
    (connections : ∀ id, g'.connections.contains id = true →
      g.connections.contains id = true ∨ t.nextConnection ≤ id) :
    Drawings s u (y :: xs) := by
  obtain ⟨apart, tail⟩ := List.pairwise_cons.1 h.apart
  have others : ∀ z ∈ xs, ∃ p, z.Drawn p ∧ p.Minted s t := fun z hz =>
    h.drawn z (List.mem_cons_of_mem _ hz)
  refine ⟨fun z hz => ?_, List.pairwise_cons.2 ⟨fun z hz => ?_, tail⟩⟩
  · rcases List.mem_cons.1 hz with rfl | hz
    · exact ⟨g', hy, minted⟩
    · obtain ⟨p, drawn, old⟩ := others z hz
      exact ⟨p, drawn, old.later later⟩
  · obtain ⟨p, drawn, old⟩ := others z hz
    have before := apart z hz g p hx drawn
    refine hy.apart drawn (Pipeline.Apart.symm ⟨fun id hp => ?_, fun id hp => ?_⟩)
    · rw [← Bool.not_eq_true]
      intro new
      rcases modules id new with known | fresh
      · simp [before.modules id known] at hp
      · exact absurd (old.modules id hp).2 (Nat.not_lt_of_le fresh)
    · rw [← Bool.not_eq_true]
      intro new
      rcases connections id new with known | fresh
      · simp [before.connections id known] at hp
      · exact absurd (old.connections id hp).2 (Nat.not_lt_of_le fresh)

/-- The first variable may change in what it does not draw. -/
theorem congr_head (h : Drawings s t (x :: xs)) (same : ∀ g, x.Drawn g → y.Drawn g) :
    Drawings s t (y :: xs) := by
  obtain ⟨g, hx, minted⟩ := h.drawn x (List.mem_cons_self ..)
  exact h.head (.refl t) hx (same g hx) minted (fun _ => .inl) fun _ => .inl

theorem new (h : Drawings s t xs) (type : TypeName) : Drawings s t ({ type } :: xs) where
  drawn y hy := by
    rcases List.mem_cons.1 hy with rfl | hy
    · exact ⟨.empty, drawn_new type, Pipeline.minted_empty s t⟩
    · exact h.drawn y hy
  apart := List.pairwise_cons.2 ⟨fun y hy => by
    obtain ⟨g, drawn, -⟩ := h.drawn y hy
    exact (drawn_new type).apart drawn (Pipeline.apart_empty g).symm, h.apart⟩

variable (before : s.Precedes t)
include before

theorem addModule (h : Drawings s t (x :: xs)) {type : TypeName} {m : ModuleId}
    (run : (x.addModule type).on t = (.ok (m, y), u)) : Drawings s u (y :: xs) := by
  obtain ⟨g, hx, minted⟩ := h.drawn x (List.mem_cons_self ..)
  obtain ⟨rfl, rfl, -, hy⟩ := hx.addModule minted run
  refine h.head (t.mints_createModule type).precedes hx hy (minted.withModule before type []) ?_ fun _ => .inl
  intro id hid
  rw [Pipeline.contains_withModule, Bool.or_eq_true, decide_eq_true_eq] at hid
  exact hid.symm.imp_right fun same => Nat.le_of_eq same.symm

theorem connect (h : Drawings s t (x :: xs)) {source destination : PortRef}
    (run : (x.connect source destination).on t = (.ok y, u)) : Drawings s u (y :: xs) := by
  obtain ⟨g, hx, minted⟩ := h.drawn x (List.mem_cons_self ..)
  obtain ⟨-, -, rfl, -, hy⟩ := hx.connect minted run
  refine h.head (t.mints_createConnection source destination).precedes hx hy
    (minted.withConnection before source destination) (fun _ => .inl) ?_
  intro id hid
  rw [Pipeline.withConnection, OrderedMap.contains_insert, Bool.or_eq_true,
    decide_eq_true_eq] at hid
  exact hid.symm.imp_right fun same => Nat.le_of_eq same.symm

theorem constant (h : Drawings s t (x :: xs)) {host : Host} {value : Constant} {type : TypeName}
    (run : (Variable.constant host value type).on t = (.ok y, u)) :
    Drawings s u (x :: y :: xs) := by
  obtain ⟨rfl, -, -, hy, new⟩ := drawn_constant run
  exact (h.newest before (t.mints_createModule type).precedes hy new).perm (.swap ..)

omit before

theorem setFunction (h : Drawings s t (x :: xs)) {m : ModuleId} {port : String}
    {values : List String} (set : x.setFunction m port values = .ok y) :
    Drawings s t (y :: xs) := by
  obtain ⟨g, hx, minted⟩ := h.drawn x (List.mem_cons_self ..)
  obtain ⟨n, found, -, hy⟩ := hx.setFunction set
  have same : ∀ id, (g.modules.insert m (n.setFunction port values)).contains id = true →
      g.modules.contains id = true := fun id hid => by
    rw [OrderedMap.contains_insert, Bool.or_eq_true, decide_eq_true_eq] at hid
    rcases hid with rfl | hid
    · exact OrderedMap.contains_eq_true_iff.2 ⟨n, found⟩
    · exact hid
  exact h.head (.refl t) hx hy ⟨fun id hid => minted.modules id (same id hid), minted.connections⟩
    (fun id hid => .inl (same id hid)) fun _ => .inl

theorem selectOutput (h : Drawings s t (x :: xs)) {m : ModuleId} {port : String}
    (select : x.selectOutput m port = .ok y) : Drawings s t (y :: xs) :=
  h.congr_head fun _ hx => (hx.selectOutput select).2.2

theorem absorb (h : Drawings s t (x :: y :: xs)) {o : PortRef} (absorb : x.absorb y = .ok (o, z)) :
    Drawings s t (z :: xs) := by
  obtain ⟨g, hx, minted⟩ := h.drawn x (List.mem_cons_self ..)
  obtain ⟨g', hy, minted'⟩ := h.drawn y (by simp)
  obtain ⟨apart, tail⟩ := List.pairwise_cons.1 h.apart
  obtain ⟨apart', tail⟩ := List.pairwise_cons.1 tail
  obtain ⟨-, -, hz⟩ := hx.absorb hy (apart y (List.mem_cons_self ..) g g' hx hy) absorb
  refine ⟨fun w hw => ?_, List.pairwise_cons.2 ⟨fun w hw => ?_, tail⟩⟩
  · rcases List.mem_cons.1 hw with rfl | hw
    · exact ⟨_, hz, minted.join minted'⟩
    · exact h.drawn w (by simp [hw])
  · obtain ⟨p, drawn, -⟩ := h.drawn w (by simp [hw])
    exact hz.apart drawn ((apart w (List.mem_cons_of_mem _ hw) g p hx drawn).join_left
      (apart' w hw g' p hy drawn))

end Drawings

end Variable

namespace Assembly

open Variable (Drawings)

variable {h : Host} {a b : Assembly} {s t u : Store} {xs : List Variable}

/-- The variable under construction and the arguments that can be taken over. -/
def held (a : Assembly) : List Variable := a.built :: a.arguments

theorem drawings_absorbAll (ys xs : List Variable) (hd : Drawings s t (a.built :: ys ++ xs))
    (absorb : a.absorbAll ys = .ok b) :
    Drawings s t (b.built :: xs) ∧ b.arguments = a.arguments := by
  induction ys generalizing a with
  | nil =>
    cases absorb
    exact ⟨hd, rfl⟩
  | cons y ys ih =>
    obtain ⟨o, x, first, rest⟩ := absorbAll_cons_eq_ok absorb
    exact ih (a := { a with built := x, outputs := a.outputs ++ [o] }) (hd.absorb first) rest

theorem drawings_connectAll (before : s.Precedes t) {m : ModuleId} {feeds : List (PortRef × String)}
    (hd : Drawings s t a.held) (run : (a.connectAll m feeds).on t = (.ok b, u)) :
    Drawings s u b.held := by
  induction feeds generalizing a t with
  | nil =>
    cases run
    exact hd
  | cons f rest ih =>
    obtain ⟨x, v, connect, tail⟩ := Action.on_bind_eq_ok.1 run
    have mints := Action.mints_of_run (a.built.minting_connect f.1 ⟨m, f.2⟩) connect
    exact ih (a := { a with built := x }) (before.trans mints.precedes) (hd.connect before connect) tail

theorem drawings_addModule (before : s.Precedes t) {type : TypeName}
    (hd : Drawings s t a.held) (run : (a.addModule type).on t = (.ok b, u)) :
    Drawings s u b.held := by
  obtain ⟨⟨m, x⟩, v, add, rest⟩ := Action.on_bind_eq_ok.1 run
  cases rest
  exact hd.addModule before add

/-- A step that succeeds keeps the drawings apart. -/
theorem drawings_step (before : s.Precedes t) {step : Step} (hd : Drawings s t a.held)
    (run : (a.step h step).on t = (.ok b, u)) : Drawings s u b.held := by
  cases step with
  | module type =>
    obtain ⟨type', -, rest⟩ := Action.on_ofExcept_bind_eq_ok.1 run
    exact drawings_addModule before hd rest
  | moduleNamed package name =>
    obtain ⟨type', -, rest⟩ := Action.on_ofExcept_bind_eq_ok.1 run
    exact drawings_addModule before hd rest
  | function m port values =>
    obtain ⟨x, set, rest⟩ := Action.on_ofExcept_bind_eq_ok.1 run
    cases rest
    exact hd.setFunction set
  | connect source output target input =>
    obtain ⟨x, v, connect, rest⟩ := Action.on_bind_eq_ok.1 run
    cases rest
    exact hd.connect before connect
  | output m port =>
    obtain ⟨x, select, rest⟩ := Action.on_ofExcept_bind_eq_ok.1 run
    cases rest
    exact hd.selectOutput select
  | constant value type =>
    obtain ⟨type', -, rest⟩ := Action.on_ofExcept_bind_eq_ok.1 run
    obtain ⟨y, v, made, rest⟩ := Action.on_bind_eq_ok.1 rest
    obtain ⟨absorb, rfl⟩ := Action.on_ofExcept_eq_ok.1 rest
    obtain ⟨drawings, same⟩ := drawings_absorbAll [y] _ (hd.constant before made) absorb
    rwa [held, same]
  | connectOutput source target input => exact drawings_connectAll before hd run
  | connectOutputs target inputs => exact drawings_connectAll before hd run
  | absorbArguments =>
    obtain ⟨c, absorb, rest⟩ := Action.on_ofExcept_bind_eq_ok.1 run
    cases rest
    refine (drawings_absorbAll _ [] ?_ absorb).1
    rw [List.append_nil]
    exact hd
  | connectArgument n target input =>
    simp only [Assembly.step] at run
    split at run
    · exact drawings_connectAll before hd run
    · cases run
  | provenance record =>
    obtain ⟨p, -, rest⟩ := Action.on_ofExcept_bind_eq_ok.1 run
    cases rest
    exact hd.congr_head fun g hx => ⟨hx.unwritten, hx.draws, hx.output⟩

theorem drawings_running (before : s.Precedes t) {steps : List Step} (hd : Drawings s t a.held)
    (run : (a.running h steps).on t = (.ok (.ok (), b), u)) : Drawings s u b.held := by
  induction steps generalizing a t with
  | nil =>
    cases run
    exact hd
  | cons step rest ih =>
    rw [on_running_cons] at run
    have mints := a.minting_step h step t
    rcases taken : (a.step h step).on t with ⟨_ | c, v⟩
    · simp [taken] at run
    · rw [taken] at run mints
      exact ih (before.trans mints.precedes) (drawings_step before hd taken) run

/-- What steps build draws a pipeline, if its arguments did. -/
theorem drawings_build (before : s.Precedes t) {steps : List Step} {x : Variable}
    (hd : Drawings s t a.held) (run : (a.build h steps).on t = (.ok x, u)) :
    Drawings s u [x] := by
  obtain ⟨⟨result, b⟩, v, ran, rest⟩ := Action.on_bind_eq_ok.1 run
  obtain ⟨_, rfl, rest⟩ := Action.on_ofExcept_bind_eq_ok.1 rest
  cases rest
  exact (drawings_running before hd ran).sublist (by simp [held])

end Assembly

namespace Operation

open Variable (Drawings)

variable {s t u : Store} {x y : Variable} {xs : List Variable}

theorem drawings_foldlM {m : ModuleId} {functions : List (String × String)}
    (hd : Drawings s t (x :: xs))
    (run : (functions.foldlM (fun x (f : String × String) =>
      Action.ofExcept (x.setFunction m f.1 [f.2])) x).on t = (.ok y, u)) :
    Drawings s t (y :: xs) ∧ t = u := by
  induction functions generalizing x with
  | nil =>
    cases run
    exact ⟨hd, rfl⟩
  | cons f rest ih =>
    obtain ⟨z, set, tail⟩ := Action.on_ofExcept_bind_eq_ok.1 run
    exact ih (hd.setFunction set) tail

theorem drawings_combine (before : s.Precedes t) {type result : TypeName}
    {functions : List (String × String)} {left right : Variable} {leftPort rightPort : String}
    (hd : Drawings s t [left, right])
    (run : (combine { type := result } type functions left right leftPort rightPort).on t =
      (.ok y, u)) : Drawings s u [y] := by
  obtain ⟨⟨first, x₁⟩, absorb, run⟩ := Action.on_ofExcept_bind_eq_ok.1 run
  obtain ⟨⟨second, x₂⟩, absorb', run⟩ := Action.on_ofExcept_bind_eq_ok.1 run
  obtain ⟨⟨m, x₃⟩, v, add, run⟩ := Action.on_bind_eq_ok.1 run
  have mints := Action.mints_of_run (x₂.minting_addModule type) add
  obtain ⟨x₄, w, sets, run⟩ := Action.on_bind_eq_ok.1 run
  have added := (((hd.new result).absorb absorb).absorb absorb').addModule before add
  obtain ⟨set, rfl⟩ := drawings_foldlM added sets
  obtain ⟨x₅, w, connect, run⟩ := Action.on_bind_eq_ok.1 run
  have mints' := Action.mints_of_run (x₄.minting_connect first ⟨m, leftPort⟩) connect
  obtain ⟨x₆, w', connect', run⟩ := Action.on_bind_eq_ok.1 run
  obtain ⟨select, rfl⟩ := Action.on_ofExcept_eq_ok.1 run
  have before := before.trans mints.precedes
  exact ((set.connect before connect).connect (before.trans mints'.precedes) connect').selectOutput select

end Operation

end Dataflow
