import Dataflow.Execution
import Dataflow.Proofs.Operation.Application
import Dataflow.Proofs.Operation.Matching
import Dataflow.Proofs.Resolution

/-! What executing a resolved expression does to a store. Versions are looked at only where variables
are copied, by the expression or by the code of a package; as long as that changes nothing but
counters, so does the whole. -/

namespace Dataflow

namespace Node

mutual

/-- All variables that a node refers to, and all operations that it applies. -/
def All (P : Variable → Prop) (Q : Operation → Prop) : Node → Prop
  | .constant .. => True
  | .reference _ x => P x
  | .application op arguments => Q op ∧ AllOf P Q arguments

def AllOf (P : Variable → Prop) (Q : Operation → Prop) : List Node → Prop
  | [] => True
  | n :: ns => All P Q n ∧ AllOf P Q ns

end

variable {P P' : Variable → Prop} {Q Q' : Operation → Prop}

mutual

theorem all_imp (refers : ∀ x, P x → P' x) (applies : ∀ op, Q op → Q' op) :
    ∀ n : Node, n.All P Q → n.All P' Q'
  | .constant .., _ => trivial
  | .reference _ x, all => refers x all
  | .application op arguments, ⟨applied, all⟩ =>
    ⟨applies op applied, allOf_imp refers applies arguments all⟩

theorem allOf_imp (refers : ∀ x, P x → P' x) (applies : ∀ op, Q op → Q' op) :
    ∀ ns : List Node, AllOf P Q ns → AllOf P' Q' ns
  | [], _ => trivial
  | n :: ns, ⟨first, rest⟩ => ⟨all_imp refers applies n first, allOf_imp refers applies ns rest⟩

end

theorem All.applies {n : Node} (all : n.All P Q) (applies : ∀ op, Q op → Q' op) :
    n.All (fun _ => True) Q' := all_imp (fun _ _ => trivial) applies n all

mutual

theorem all_of_forall (refers : ∀ x, P x) (applies : ∀ op, Q op) : ∀ n : Node, n.All P Q
  | .constant .. => trivial
  | .reference _ x => refers x
  | .application op arguments => ⟨applies op, allOf_of_forall refers applies arguments⟩

theorem allOf_of_forall (refers : ∀ x, P x) (applies : ∀ op, Q op) : ∀ ns : List Node, AllOf P Q ns
  | [] => trivial
  | n :: ns => ⟨all_of_forall refers applies n, allOf_of_forall refers applies ns⟩

end

section

variable {h : Host} {R : Store → Store → Prop} (mint : ∀ s t : Store, s.Mints t → R s t)
  (trans : ∀ s t u, R s t → R t u → R s u)
include mint trans

mutual

/-- Execution moves a store as its copies of variables and its operations do. -/
theorem moves_execute : ∀ n : Node, n.All (fun x => Action.Moves R (x.copy h))
    (fun op => ∀ xs, Action.Moves R (op.apply h xs)) → Action.Moves R (n.execute h)
  | .constant value type, _ => fun s => mint _ _ (Variable.minting_constant h value type s)
  | .reference _ _, copies => copies
  | .application _ arguments, ⟨applied, rest⟩ =>
    Action.Moves.bind trans (moves_executeAll arguments rest) applied

theorem moves_executeAll : ∀ ns : List Node, AllOf (fun x => Action.Moves R (x.copy h))
    (fun op => ∀ xs, Action.Moves R (op.apply h xs)) ns → Action.Moves R (executeAll h ns)
  | [], _ => fun s => mint _ _ (.refl s)
  | n :: ns, ⟨first, rest⟩ =>
    Action.Moves.bind trans (moves_execute n first) fun _ =>
      Action.Moves.bind trans (moves_executeAll ns rest) fun _ s => mint _ _ (.refl s)

end

end

variable {h : Host}

theorem preparing_execute (h : Host) (n : Node) : h.Preparing (n.execute h) :=
  moves_execute (R := fun s t => s.Valid → h.Prepares s t) (fun _ _ mints _ => .mints mints)
    (fun _ _ _ first rest => Host.prepares_trans first rest) n <|
    all_of_forall (fun x => x.preparing_copy h) (fun op => op.preparing_apply h) n

mutual

theorem proper_execute : ∀ (n : Node) {s t : Store} {x : Variable},
    (n.execute h).on s = (.ok x, t) → x.Proper
  | .constant value type, s, t, x, run => .constant run
  | .reference _ y, s, t, x, run => .copy run
  | .application op arguments, s, t, x, run => by
    obtain ⟨xs, u, first, rest⟩ := Action.on_bind_eq_ok.1 run
    exact Operation.proper_apply (proper_executeAll arguments first) rest

theorem proper_executeAll : ∀ (ns : List Node) {s t : Store} {xs : List Variable},
    (executeAll h ns).on s = (.ok xs, t) → ∀ x ∈ xs, x.Proper
  | [], s, t, xs, run => by
    cases run
    simp
  | n :: ns, s, t, xs, run => by
    obtain ⟨y, u, first, rest⟩ := Action.on_bind_eq_ok.1 run
    obtain ⟨ys, v, others, rest⟩ := Action.on_bind_eq_ok.1 rest
    cases rest
    exact List.forall_mem_cons.2 ⟨proper_execute n first, proper_executeAll ns others⟩

end

open Variable (Drawings)

mutual

/-- If all operations are linear, the result of an execution is drawn with identifiers that the store
gave out meanwhile. -/
theorem drawn_execute : ∀ (n : Node) {s t : Store} {x : Variable},
    n.All (fun _ => True) Operation.IsLinear → s.Valid →
      (n.execute h).on s = (.ok x, t) → ∃ g, x.Drawn g ∧ g.Minted s t
  | .constant value type, s, t, x, _, _, run => by
    obtain ⟨-, -, -, drawn, minted⟩ := Variable.drawn_constant run
    exact ⟨_, drawn, minted⟩
  | .reference _ y, s, t, x, _, hs, run => by
    obtain ⟨_, r, u, _, _, _, g, _, asked, _, _, _, drawn, minted, _⟩ := Variable.copy_eq_ok hs run
    have prepares := Host.preparing_variablesRoot.prepares hs asked
    exact ⟨g, drawn, minted.earlier prepares.precedes⟩
  | .application op arguments, s, t, x, ⟨linear, all⟩, hs, run => by
    obtain ⟨xs, u, first, rest⟩ := Action.on_bind_eq_ok.1 run
    obtain ⟨before, drawings⟩ := drawings_executeAll arguments all hs first
    exact (Operation.drawings_apply linear before drawings rest).drawn x (by simp)

theorem drawings_executeAll : ∀ (ns : List Node) {s t : Store} {xs : List Variable},
    AllOf (fun _ => True) Operation.IsLinear ns → s.Valid →
      (executeAll h ns).on s = (.ok xs, t) → s.Precedes t ∧ Drawings s t xs
  | [], s, t, xs, _, _, run => by
    cases run
    exact ⟨.refl s, Variable.drawings_nil⟩
  | n :: ns, s, t, xs, ⟨linear, all⟩, hs, run => by
    obtain ⟨x, u, first, rest⟩ := Action.on_bind_eq_ok.1 run
    obtain ⟨ys, v, others, rest⟩ := Action.on_bind_eq_ok.1 rest
    cases rest
    obtain ⟨g, drawn, minted⟩ := drawn_execute n linear hs first
    have prepares := (preparing_execute h n).prepares hs first
    obtain ⟨after, drawings⟩ := drawings_executeAll ns all (prepares.valid hs) others
    exact ⟨prepares.precedes.trans after, .cons drawn minted drawings prepares.precedes after⟩

end

end Node

theorem Scope.of_eq_ok {h : Host} {catalogue : Catalogue} {named : OrderedMap String Variable}
    {s : Scope} (made : Scope.of h catalogue named = .ok s) :
    s = ⟨named, catalogue, h.types, h.settings.basic "Float", h.settings.basic "String"⟩ := by
  unfold Scope.of at made
  cases hf : h.basic "Float" with
  | error e => simp [hf, bind, Except.bind] at made
  | ok float =>
    cases ht : h.basic "String" with
    | error e => simp [hf, ht, bind, Except.bind] at made
    | ok string =>
      simp only [hf, ht, bind, Except.bind, pure, Except.pure, Except.ok.injEq] at made
      rw [← made, Host.basic_eq_ok hf, Host.basic_eq_ok ht]

namespace Expr

/-- The variable is one of those that a scope knows. -/
def Known (s : Scope) (x : Variable) : Prop := ∃ name, s.named.get? name = some x

variable {s : Scope} {n : Node} {warnings : List Ambiguity}

mutual

/-- A resolved expression refers to known variables and applies known operations only. -/
theorem all_resolve : ∀ (e : Expr) {n : Node} {warnings : List Ambiguity},
    e.resolve s = .ok (n, warnings) → n.All (Known s) (· ∈ s.catalogue.operations)
  | .symbol name, n, warnings, h => by
    rw [resolve] at h
    split at h
    · next x found =>
      cases h
      exact ⟨name, found⟩
    · cases h
  | .literal value, n, warnings, h => by
    rw [resolve] at h
    cases h
    trivial
  | .apply name arguments, n, warnings, h => by
    obtain ⟨ns, before, later, resolved, called⟩ := resolve_apply_eq_ok h
    have all := all_resolveAll arguments resolved
    obtain folded | ⟨-, op, warning, found, rfl⟩ := Node.call_eq_ok called
    · obtain ⟨left, t, right, t', op, c, -, -, -, rfl⟩ := Node.fold_eq_some folded
      trivial
    · exact ⟨Catalogue.mem_operations_of_findOperation found, all⟩

theorem all_resolveAll : ∀ (es : List Expr) {ns : List Node} {warnings : List Ambiguity},
    resolveAll s es = .ok (ns, warnings) → Node.AllOf (Known s) (· ∈ s.catalogue.operations) ns
  | [], ns, warnings, h => by
    rw [resolveAll] at h
    cases h
    trivial
  | e :: es, ns, warnings, h => by
    obtain ⟨m, first, ms, others, resolved, rest, rfl⟩ := resolveAll_cons_eq_ok h
    exact ⟨all_resolve e resolved, all_resolveAll es rest⟩

end

end Expr

end Dataflow
