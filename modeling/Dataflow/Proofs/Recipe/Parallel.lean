import Dataflow.Proofs.Recipe.Compiling
import Dataflow.Proofs.Variable.Parallel

/-! Recipes that are compiled in step. Recipes of one plot whose bound variables have versions that
differ by a renaming make the same edits, but for a shift of the identifiers that were given out. -/

namespace Dataflow

open Dataflow.Action (Parallel)

namespace OrderedMap

open Std

variable [Ord κ] {R : α → β → Prop} {m : OrderedMap κ α} {n : OrderedMap κ β}

theorem contains_eq_of_related (related : ∀ k, Option.Rel R (m.get? k) (n.get? k)) (k : κ) :
    n.contains k = m.contains k := by
  have one := related k
  unfold contains
  generalize m.get? k = a at one ⊢
  generalize n.get? k = b at one ⊢
  cases one <;> rfl

/-- Maps that hold related values under each key list these side by side. -/
theorem forall₂_entries [TransOrd κ] [LawfulEqOrd κ]
    (related : ∀ k, Option.Rel R (m.get? k) (n.get? k)) :
    List.Forall₂ (fun e e' => e'.1 = e.1 ∧ R e.2 e'.2) m.entries n.entries := by
  have keys : m.keys = n.keys :=
    keys_eq_of_contains fun k => (contains_eq_of_related related k).symm
  rw [OrderedMap.keys, OrderedMap.keys, ← List.forall₂_eq_eq_eq, List.forall₂_map_left_iff,
    List.forall₂_map_right_iff, List.forall₂_iff_zip] at keys
  refine List.forall₂_iff_zip.2 ⟨keys.1, fun {e e'} listed => ?_⟩
  have same : e.1 = e'.1 := keys.2 listed
  obtain ⟨first, second⟩ := List.of_mem_zip listed
  have one := related e.1
  rw [get?_eq_some_iff.2 first, same, get?_eq_some_iff.2 second] at one
  cases one with
  | some related => exact ⟨same.symm, related⟩

end OrderedMap

namespace Recipe

variable {σ : Shift} {s s' : Store} {h : Host} {φ : ModuleId → ModuleId} {D : Set ModuleId}
  {ids ids' : Renaming} {sockets sockets' : Sockets} {d : Draft}

/-- The same sockets on modules with shifted identifiers. -/
def SocketsFollow (σ : Shift) (sockets sockets' : Sockets) : Prop :=
  ∀ name, sockets'.get? name = (sockets.get? name).map (List.map (PortRef.shifted σ))

theorem SocketsFollow.getD (follow : SocketsFollow σ sockets sockets') (name : String) :
    (sockets'.get? name).getD [] = ((sockets.get? name).getD []).map (PortRef.shifted σ) := by
  rw [follow name]
  cases sockets.get? name <;> rfl

theorem SocketsFollow.insert (follow : SocketsFollow σ sockets sockets') (name : String)
    (targets : List PortRef) :
    SocketsFollow σ (sockets.insert name targets)
      (sockets'.insert name (targets.map (PortRef.shifted σ))) := fun other => by
  rw [OrderedMap.get?_insert, OrderedMap.get?_insert]
  split
  · rfl
  · exact follow other

theorem parallel_copyTemplate (between : σ.Between s s') (follows : ids.Follows σ id Set.univ ids')
    (input : TypeName) (template : Pipeline) (follow : SocketsFollow σ sockets sockets')
    (cs : List Connection) :
    Parallel s s' (fun r r' => SocketsFollow σ r.1 r'.1 ∧ r'.2 = r.2.shifted σ)
      (copyTemplate input template ids d sockets cs)
      (copyTemplate input template ids' (d.shifted σ) sockets' cs) := by
  induction cs generalizing d sockets sockets' with
  | nil => exact .pure ⟨follow, rfl⟩
  | cons c cs ih =>
    have copied : ids'.get? c.destination.module = (ids.get? c.destination.module).map σ.module :=
      follows _ trivial
    rw [copyTemplate, copyTemplate]
    cases template.modules.get? c.source.module with
    | none => exact .throw rfl
    | some source =>
      dsimp only
      split
      · rw [copied]
        cases source.value? "name" with
        | none => exact .throw rfl
        | some name =>
          cases ids.get? c.destination.module with
          | none => exact .throw rfl
          | some m =>
            refine ih ?_
            have noted := follow.insert name
              ((sockets.get? name).getD [] ++ [⟨m, c.destination.port⟩])
            rwa [List.map_append, ← follow.getD name] at noted
      · refine (Draft.parallel_copyConnection between follows
          ⟨rfl, trivial, trivial⟩).bind ?_
        rintro ⟨_, e⟩ ⟨_, e'⟩ same
        obtain rfl : e' = e.shifted σ := same
        exact ih follow

theorem parallel_feedAll (between : σ.Between s s') (source : PortRef) (targets : List PortRef) :
    Parallel s s' (fun e e' => e' = e.shifted σ) (feedAll source d targets)
      (feedAll (source.shifted σ) (d.shifted σ) (targets.map (PortRef.shifted σ))) := by
  induction targets generalizing d with
  | nil => exact .pure rfl
  | cons target rest ih =>
    refine (Draft.parallel_connect between source target).bind ?_
    rintro ⟨_, e⟩ ⟨_, e'⟩ same
    obtain rfl : e' = e.shifted σ := same
    exact ih

theorem parallel_copyVariable (between : σ.Between s s') {root root' : ModuleId}
    (same_root : ∀ {c c' : Connection}, c.Follows φ D c' →
      (c'.destination.module = root' ↔ c.destination.module = root))
    (follows : ids.Follows σ φ D ids') (targets : List PortRef) {cs cs' : List Connection}
    (same : List.Forall₂ (Connection.Follows φ D) cs cs') :
    Parallel s s' (fun e e' => e' = e.shifted σ) (copyVariable root ids targets d cs)
      (copyVariable root' ids' (targets.map (PortRef.shifted σ)) (d.shifted σ) cs') := by
  induction same generalizing d with
  | nil => exact .pure rfl
  | @cons c c' cs cs' first _ ih =>
    have source : c'.source = c.source.moved φ := congrArg Wire.source first.wire
    have copied : ids'.get? c'.source.module = (ids.get? c.source.module).map σ.module := by
      rw [source]
      exact follows _ first.source
    rw [copyVariable, copyVariable]
    simp only [same_root first]
    split
    · rw [copied]
      cases ids.get? c.source.module with
      | none => exact .throw rfl
      | some m =>
        have port : c'.source.port = c.source.port := by rw [source]; rfl
        simp only [Option.map_some, port]
        refine (parallel_feedAll between ⟨m, c.source.port⟩ targets).bind ?_
        rintro e _ rfl
        exact ih
    · refine (Draft.parallel_copyConnection between follows first).bind ?_
      rintro ⟨_, e⟩ ⟨_, e'⟩ same
      obtain rfl : e' = e.shifted σ := same
      exact ih

/-- Copies of the pipelines in a recipe are the same but for the shift. -/
abbrev Mated (root root' : ModuleId) (p p' : Pipeline) : Prop :=
  ∃ φ D, p.Mates φ D root root' p'

theorem parallel_splice (between : σ.Between s s') {root root' : ModuleId}
    (follow : SocketsFollow σ sockets sockets') (port : String) {x y : Variable}
    (read : x.ReadAlike s s' (Mated root root') y) :
    Parallel s s' (fun e e' => e' = e.shifted σ) (splice root sockets d port x)
      (splice root' sockets' (d.shifted σ) port y) := by
  refine (Parallel.ofExcept (Variable.alike_written read.version _ _)).bind ?_
  rintro v v' ⟨hv, hv'⟩
  refine (Variable.parallel_pipeline (read.pipelines hv hv')).bind fun p p' mated => ?_
  obtain ⟨φ, D, mates⟩ := mated
  refine (Draft.parallel_copy between mates.injective mates.inner mates.inner_mem).bind ?_
  rintro ⟨ids, e⟩ ⟨ids', _⟩ ⟨follows, rfl⟩
  rw [follow.getD port]
  exact parallel_copyVariable between mates.feeds_root_iff follows _ mates.connections

/-- Two lists of bound variables with the same ports. -/
abbrev BoundAlike (s s' : Store) (root root' : ModuleId) :
    List (String × Variable) → List (String × Variable) → Prop :=
  List.Forall₂ fun b b' => b'.1 = b.1 ∧ b.2.ReadAlike s s' (Mated root root') b'.2

theorem parallel_spliceAll (between : σ.Between s s') {root root' : ModuleId}
    (follow : SocketsFollow σ sockets sockets') {bound bound' : List (String × Variable)}
    (alike : BoundAlike s s' root root' bound bound') :
    Parallel s s' (fun e e' => e' = e.shifted σ) (spliceAll root sockets d bound)
      (spliceAll root' sockets' (d.shifted σ) bound') := by
  induction alike generalizing d with
  | nil => exact .pure rfl
  | @cons b b' _ _ first _ ih =>
    obtain ⟨port, x⟩ := b
    obtain ⟨_, y⟩ := b'
    obtain ⟨rfl, read⟩ := first
    refine (parallel_splice between follow _ read).bind ?_
    rintro e _ rfl
    exact ih

/-- Recipes of one plot make the same edits but for the shift, if the bound variables are read alike. -/
theorem parallel_draft (between : σ.Between s s') {Q : VariablesRoot → VariablesRoot → Prop}
    {r r' : Recipe} (plot : r'.plot = r.plot) (empty : r'.bound.isEmpty = r.bound.isEmpty)
    (asked : r.bound.isEmpty = false → Parallel s s' Q h.variablesRoot h.variablesRoot)
    (alike : ∀ {root root'}, Q root root' →
      BoundAlike s s' root.module root'.module r.bound.entries r'.bound.entries) :
    Parallel s s' (fun e e' => e' = e.shifted σ) (r.draft h) (r'.draft h) := by
  unfold draft
  rw [plot, empty]
  refine (Parallel.ofExcept_same _).bind ?_
  rintro input _ rfl
  refine (Draft.parallel_copy (d := .empty) (φ := id) (D := Set.univ) between (Set.injOn_id _)
    (List.map_id _).symm fun _ _ => trivial).bind ?_
  rintro ⟨ids, d⟩ ⟨ids', _⟩ ⟨follows, rfl⟩
  have none : SocketsFollow σ ∅ ∅ := fun _ => rfl
  refine (parallel_copyTemplate between follows input r.plot.template none _).bind ?_
  rintro ⟨sockets, d⟩ ⟨sockets', _⟩ ⟨follow, rfl⟩
  dsimp only
  split
  · exact .pure rfl
  · next some =>
    refine (asked (by simpa using some)).bind fun root root' related => ?_
    exact parallel_spliceAll between follow (alike related)

end Recipe

end Dataflow
