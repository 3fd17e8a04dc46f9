import Dataflow.Resolution

/-! Resolving expressions. A subexpression that folds is resolved to its constant, whatever is known,
and all others to references and applications. -/

namespace Dataflow

namespace Node

variable {s : Scope} {name : String} {nodes : List Node} {n : Node} {warnings : List Ambiguity}

theorem fold_eq_some (h : fold s name nodes = .ok (some n)) :
    ∃ left t right t' op c, nodes = [.constant left t, .constant right t'] ∧
      Arithmetic.ofSymbol? name = some op ∧ Constant.combine op left right = .value c ∧
      n = s.literal c := by
  unfold fold at h
  split at h
  · next left t right t' =>
    split at h
    · cases h
    · next op known =>
      split at h
      · next c combined =>
        cases h
        exact ⟨left, t, right, t', op, c, rfl, known, combined, rfl⟩
      · cases h
      · cases h
  · cases h

theorem undefined_of_fold {left right : Constant} {t t' : TypeName} {op : Arithmetic}
    (h : fold s name [.constant left t, .constant right t'] = .ok none)
    (known : Arithmetic.ofSymbol? name = some op) :
    Constant.combine op left right = .undefined := by
  simp only [fold, known] at h
  split at h
  · cases h
  · next undefined => exact undefined
  · cases h

theorem call_eq_ok (h : call s name nodes = .ok (n, warnings)) :
    fold s name nodes = .ok (some n) ∨ fold s name nodes = .ok none ∧ ∃ op warning,
      s.catalogue.findOperation s.types name (nodes.map type) = .ok (op, warning) ∧
      n = .application op nodes := by
  unfold call at h
  cases folded : fold s name nodes with
  | error e => simp [folded, bind, Except.bind] at h
  | ok result =>
    cases result with
    | some m =>
      simp only [folded, bind, Except.bind, pure, Except.pure, Except.ok.injEq,
        Prod.mk.injEq] at h
      exact .inl (by rw [h.1])
    | none =>
      cases found : s.catalogue.findOperation s.types name (nodes.map type) with
      | error e => simp [folded, found, bind, Except.bind] at h
      | ok choice =>
        simp only [folded, found, bind, Except.bind, pure, Except.pure, Except.ok.injEq,
          Prod.mk.injEq] at h
        exact .inr ⟨rfl, choice.1, choice.2, rfl, h.1.symm⟩

end Node

namespace Expr

variable {s : Scope} {name : String} {n : Node} {ns : List Node} {warnings : List Ambiguity}

theorem resolve_apply_eq_ok {arguments : List Expr}
    (h : (apply name arguments).resolve s = .ok (n, warnings)) :
    ∃ ns before later, resolveAll s arguments = .ok (ns, before) ∧
      Node.call s name ns = .ok (n, later) := by
  rw [resolve] at h
  cases resolved : resolveAll s arguments with
  | error e => simp [resolved, bind, Except.bind] at h
  | ok result =>
    cases called : Node.call s name result.1 with
    | error e => simp [resolved, called, bind, Except.bind] at h
    | ok choice =>
      simp only [resolved, called, bind, Except.bind, pure, Except.pure, Except.ok.injEq,
        Prod.mk.injEq] at h
      exact ⟨result.1, result.2, choice.2, rfl, by rw [called, ← h.1]⟩

theorem resolveAll_cons_eq_ok {e : Expr} {es : List Expr}
    (h : resolveAll s (e :: es) = .ok (ns, warnings)) :
    ∃ m first ms others, e.resolve s = .ok (m, first) ∧ resolveAll s es = .ok (ms, others) ∧
      ns = m :: ms := by
  rw [resolveAll] at h
  cases first : e.resolve s with
  | error fault => simp [first, bind, Except.bind] at h
  | ok result =>
    cases others : resolveAll s es with
    | error fault => simp [first, others, bind, Except.bind] at h
    | ok rest =>
      simp only [first, others, bind, Except.bind, pure, Except.pure, Except.ok.injEq,
        Prod.mk.injEq] at h
      exact ⟨result.1, result.2, rest.1, rest.2, rfl, rfl, h.1.symm⟩

theorem length_resolveAll {es : List Expr} (h : resolveAll s es = .ok (ns, warnings)) :
    ns.length = es.length := by
  induction es generalizing ns warnings with
  | nil =>
    rw [resolveAll] at h
    cases h
    rfl
  | cons e es ih =>
    obtain ⟨m, first, ms, others, -, rest, rfl⟩ := resolveAll_cons_eq_ok h
    rw [List.length_cons, List.length_cons, ih rest]

theorem resolveAll_pair_eq_ok {a b : Expr} (h : resolveAll s [a, b] = .ok (ns, warnings)) :
    ∃ m first k second, a.resolve s = .ok (m, first) ∧ b.resolve s = .ok (k, second) ∧
      ns = [m, k] := by
  obtain ⟨m, first, ms, others, left, rest, rfl⟩ := resolveAll_cons_eq_ok h
  obtain ⟨k, second, ks, others, right, last, rfl⟩ := resolveAll_cons_eq_ok rest
  rw [resolveAll] at last
  cases last
  exact ⟨m, first, k, second, left, right, rfl⟩

/-- The constant that an expression folds to, if it folds. -/
def value? : Expr → Option Constant
  | .literal c => some c
  | .apply name [a, b] =>
    match Arithmetic.ofSymbol? name, value? a, value? b with
    | some op, some left, some right =>
      match Constant.combine op left right with
      | .value c => some c
      | _ => none
    | _, _, _ => none
  | _ => none

theorem isConstant_of_length {arguments : List Expr} (length : arguments.length ≠ 2)
    (h : (apply name arguments).resolve s = .ok (n, warnings)) : n.isConstant = false := by
  obtain ⟨ns, before, later, resolved, called⟩ := resolve_apply_eq_ok h
  obtain folded | ⟨-, op, warning, -, rfl⟩ := Node.call_eq_ok called
  · obtain ⟨x, t, y, t', op, c, rfl, -⟩ := Node.fold_eq_some folded
    exact absurd (length_resolveAll resolved).symm length
  · rfl

/-- What folds is resolved to its constant, and nothing else to any. -/
theorem constant_of_resolve : ∀ (e : Expr) {n : Node} {warnings : List Ambiguity},
    e.resolve s = .ok (n, warnings) →
      (∃ c, e.value? = some c ∧ n = s.literal c) ∨ e.value? = none ∧ n.isConstant = false
  | .symbol name, n, warnings, h => by
    rw [resolve] at h
    split at h
    · cases h
      exact .inr ⟨rfl, rfl⟩
    · cases h
  | .literal c, n, warnings, h => by
    rw [resolve] at h
    cases h
    exact .inl ⟨c, rfl, rfl⟩
  | .apply name [a, b], n, warnings, h => by
    obtain ⟨ns, before, later, resolved, called⟩ := resolve_apply_eq_ok h
    obtain ⟨m, first, k, second, left, right, rfl⟩ := resolveAll_pair_eq_ok resolved
    have left := constant_of_resolve a left
    have right := constant_of_resolve b right
    obtain folded | ⟨folded, op, warning, -, rfl⟩ := Node.call_eq_ok called
    · obtain ⟨x, t, y, t', op, c, pair, known, combined, rfl⟩ := Node.fold_eq_some folded
      cases pair
      obtain ⟨x', first, same⟩ | ⟨-, other⟩ := left
      · obtain ⟨y', second, same'⟩ | ⟨-, other⟩ := right
        · -- both operands are constants, and the operation folds them
          cases same
          cases same'
          exact .inl ⟨c, by simp only [value?, known, first, second, combined], rfl⟩
        · cases other
      · cases other
    · refine .inr ⟨?_, rfl⟩
      cases known : Arithmetic.ofSymbol? name with
      | none => simp only [value?, known]
      | some op =>
        obtain ⟨x, first, rfl⟩ | ⟨first, -⟩ := left
        · obtain ⟨y, second, rfl⟩ | ⟨second, -⟩ := right
          · have undefined := Node.undefined_of_fold folded known
            simp only [value?, known, first, second, undefined]
          · simp only [value?, known, first, second]
        · simp only [value?, known, first]
  | .apply name [], n, warnings, h => .inr ⟨rfl, isConstant_of_length (by decide) h⟩
  | .apply name [a], n, warnings, h => .inr ⟨rfl, isConstant_of_length (by simp) h⟩
  | .apply name (a :: b :: c :: rest), n, warnings, h =>
    .inr ⟨rfl, isConstant_of_length (by simp) h⟩

end Expr

end Dataflow
