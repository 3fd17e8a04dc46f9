import Dataflow.Loader
import Dataflow.Operation.Catalogue
import Dataflow.Proofs.Operation.Callback
import Dataflow.Proofs.Operation.Proper
import Dataflow.Proofs.Operation.Template

/-! Applying an operation, and loading a variable. What comes of it is proper, and the store was at
most prepared. If no code duplicates anything, identifiers were given out and that is all; and then
the result of drawn arguments is drawn. -/

namespace Dataflow

open Dataflow.Action

namespace Operation

open Variable (Drawings)

variable {h : Host} {op : Operation} {s t u : Store} {x : Variable} {arguments : List Variable}

/-- All that an operation can make of its arguments. -/
inductive Made (h : Host) (op : Operation) (arguments : List Variable) (s : Store) (x : Variable)
    (t : Store) : Prop
  | argument (given : x ∈ arguments) (same : s = t)
  | assembly {steps : List Assembly.Step}
      (run : (Assembly.build h { built := { type := op.returns }, arguments } steps).on s =
        (.ok x, t))
  | callback {code : Callback} (called : op.implementation = .callback code)
      (run : (code.run h (.of arguments)).on s = (.ok (some x), t))
  | combination {result type : TypeName} {functions : List (String × String)}
      {left right : Variable} {leftPort rightPort : String} (pair : arguments = [left, right])
      (run : (combine { type := result } type functions left right leftPort rightPort).on s =
        (.ok x, t))
  | template {pipeline : Pipeline} (run : (op.applyTemplate h pipeline arguments).on s = (.ok x, t))

theorem pair_eq_ok {left right : Variable} (paired : op.pair arguments = .ok (left, right)) :
    arguments = [left, right] := by
  unfold pair at paired
  split at paired
  · cases paired
    rfl
  · cases paired

theorem made_of_implement (run : (op.implement h arguments).on s = (.ok (some x), t)) :
    Made h op arguments s x t := by
  unfold implement at run
  split at run
  · cases run
  · cases run
  · next n _ =>
    rw [on_pure, Prod.mk.injEq, Except.ok.injEq] at run
    exact .argument (List.mem_of_getElem? run.1) run.2
  · obtain ⟨y, v, build, run⟩ := on_bind_eq_ok.1 run
    cases run
    exact .assembly build
  · next code called => exact .callback called run
  · obtain ⟨⟨left, right⟩, pair, rest⟩ := on_ofExcept_bind_eq_ok.1 run
    obtain ⟨float, -, rest⟩ := on_ofExcept_bind_eq_ok.1 rest
    obtain ⟨calculator, -, rest⟩ := on_ofExcept_bind_eq_ok.1 rest
    obtain ⟨y, v, build, rest⟩ := on_bind_eq_ok.1 rest
    cases rest
    exact .combination (pair_eq_ok pair) build
  · obtain ⟨⟨left, right⟩, pair, rest⟩ := on_ofExcept_bind_eq_ok.1 run
    obtain ⟨string, -, rest⟩ := on_ofExcept_bind_eq_ok.1 rest
    obtain ⟨join, -, rest⟩ := on_ofExcept_bind_eq_ok.1 rest
    obtain ⟨y, v, build, rest⟩ := on_bind_eq_ok.1 rest
    cases rest
    exact .combination (pair_eq_ok pair) build
  · obtain ⟨y, v, build, run⟩ := on_bind_eq_ok.1 run
    cases run
    exact .template build

/-- The result of an application is what was made, with a record if it had none. -/
theorem made_of_apply (run : (op.apply h arguments).on s = (.ok x, t)) :
    Made h op arguments s x t ∨
      ∃ y p, Made h op arguments s y t ∧ x = { y with provenance := some p } := by
  obtain ⟨made, v, implemented, run⟩ := on_bind_eq_ok.1 run
  cases made with
  | none => cases run
  | some y =>
    have made := made_of_implement implemented
    simp only at run
    split at run
    · cases run
      exact .inl made
    · cases run
      exact .inr ⟨y, _, made, rfl⟩

theorem Made.proper (made : Made h op arguments s x t) (given : ∀ y ∈ arguments, y.Proper) :
    x.Proper := by
  cases made with
  | argument here _ => exact given x here
  | assembly run =>
    exact Assembly.proper_build (a := { built := { type := op.returns }, arguments })
      ⟨.new op.returns, given⟩ run
  | callback _ run => exact Callback.proper_run (.of given) run
  | combination pair run =>
    subst pair
    exact proper_combine (.new _) (given _ (by simp)) (given _ (by simp)) run
  | template run => exact proper_applyTemplate given run

theorem proper_apply (given : ∀ y ∈ arguments, y.Proper)
    (run : (op.apply h arguments).on s = (.ok x, t)) : x.Proper := by
  obtain made | ⟨y, p, made, rfl⟩ := made_of_apply run
  · exact made.proper given
  · exact (made.proper given).provenance p

/-- Only the code of a package may be anything but linear. -/
def IsLinear (op : Operation) : Prop := ∀ c, op.implementation = .callback c → c.Linear

theorem isLinear_of_mem_withBuiltins (settings : Settings) :
    ∀ op ∈ (Catalogue.withBuiltins settings).operations, op.IsLinear := by
  intro op listed c called
  rcases List.mem_append.1 (show op ∈ builtins settings from listed) with listed | listed
  · obtain ⟨a, -, rfl⟩ := List.mem_map.1 listed
    cases called
  · obtain rfl := List.mem_singleton.1 listed
    cases called

theorem Made.drawings (made : Made h op arguments t x u) (linear : op.IsLinear)
    (before : s.Precedes t) (hd : Drawings s t arguments) : Drawings s u [x] := by
  cases made with
  | argument here same =>
    subst same
    exact hd.sublist (List.singleton_sublist.2 here)
  | assembly run =>
    exact Assembly.drawings_build (a := { built := { type := op.returns }, arguments }) before
      (hd.new op.returns) run
  | callback called run => exact Callback.drawings_run (linear _ called) before (.of hd) run
  | combination pair run =>
    subst pair
    exact drawings_combine before hd run
  | template run => exact drawings_applyTemplate before hd run

theorem drawings_apply (linear : op.IsLinear) (before : s.Precedes t) (hd : Drawings s t arguments)
    (run : (op.apply h arguments).on t = (.ok x, u)) : Drawings s u [x] := by
  obtain made | ⟨y, p, made, rfl⟩ := made_of_apply run
  · exact made.drawings linear before hd
  · refine (made.drawings linear before hd).congr_head fun g hy => ?_
    exact ⟨hy.unwritten, hy.draws, hy.output⟩

section

variable {R : Store → Store → Prop} (mint : ∀ s t : Store, s.Mints t → R s t)
  (trans : ∀ s t u, R s t → R t u → R s u)
include mint

/-- An operation moves a store as the code of its package does, if it has any. -/
theorem moves_implement (h : Host) (op : Operation) (arguments : List Variable)
    (code : ∀ c, op.implementation = .callback c → Moves R (c.run h (.of arguments))) :
    Moves R (op.implement h arguments) := by
  have moves {a : Action (Option Variable)} (ha : Minting a) : Moves R a := fun s => mint _ _ (ha s)
  unfold implement
  split
  · exact moves (minting_throw _)
  · exact moves (minting_pure _)
  · exact moves (minting_pure _)
  · exact moves ((Assembly.minting_build h _ _).bind fun _ => minting_pure _)
  · next c called => exact code c called
  · refine moves ((minting_ofExcept _).bind fun (left, right) => ?_)
    refine (minting_ofExcept _).bind fun float => (minting_ofExcept _).bind fun calculator => ?_
    exact (minting_combine _ _ _ _ _ _ _).bind fun _ => minting_pure _
  · refine moves ((minting_ofExcept _).bind fun (left, right) => ?_)
    refine (minting_ofExcept _).bind fun string => (minting_ofExcept _).bind fun join => ?_
    exact (minting_combine _ _ _ _ _ _ _).bind fun _ => minting_pure _
  · exact moves ((op.minting_applyTemplate h _ _).bind fun _ => minting_pure _)

include trans

theorem moves_apply (h : Host) (op : Operation) (arguments : List Variable)
    (code : ∀ c, op.implementation = .callback c → Moves R (c.run h (.of arguments))) :
    Moves R (op.apply h arguments) := by
  refine Moves.bind trans (moves_implement mint h op arguments code) fun made s => ?_
  refine mint _ _ ?_
  cases made with
  | none => exact minting_throw _ s
  | some x =>
    simp only
    split
    · exact minting_pure _ s
    · exact minting_pure _ s

end

theorem minting_apply (h : Host) (linear : op.IsLinear) (arguments : List Variable) :
    Minting (op.apply h arguments) :=
  moves_apply (fun _ _ => id) (fun _ _ _ => .trans) h op arguments fun c called =>
    (linear c called).minting_run h _

theorem preparing_apply (h : Host) (op : Operation) (arguments : List Variable) :
    h.Preparing (op.apply h arguments) :=
  moves_apply (R := fun s t => s.Valid → h.Prepares s t) (fun _ _ mints _ => .mints mints)
    (fun _ _ _ => Host.prepares_trans) h op arguments fun c _ => c.preparing_run h _

end Operation

namespace Loader

theorem preparing_load (h : Host) (l : Loader) : h.Preparing (l.load h) := by
  have preparing {a : Action Variable} (ha : Minting a) : h.Preparing a :=
    Host.preparing_of_minting ha
  unfold load
  split
  · exact preparing (minting_throw _)
  · exact preparing ((minting_ofExcept _).bind fun _ => Variable.minting_constant h _ _)
  · exact preparing ((minting_ofExcept _).bind fun _ => Assembly.minting_build h _ _)
  · next code _ =>
    refine (code.preparing_run h _).bind fun made => ?_
    cases made with
    | some x => exact preparing (minting_pure _)
    | none => exact preparing (minting_throw _)

theorem proper_load {h : Host} {l : Loader} {s t : Store} {x : Variable}
    (run : (l.load h).on s = (.ok x, t)) : x.Proper := by
  unfold load at run
  split at run
  · cases run
  · obtain ⟨type, v, -, made⟩ := on_bind_eq_ok.1 run
    exact .constant made
  · obtain ⟨type, v, -, build⟩ := on_bind_eq_ok.1 run
    exact Assembly.proper_build (a := { built := { type } }) ⟨.new type, by simp⟩ build
  · obtain ⟨made, v, ran, rest⟩ := on_bind_eq_ok.1 run
    cases made with
    | some y =>
      cases rest
      exact Callback.proper_run (.of (by simp)) ran
    | none => cases rest

end Loader

end Dataflow
