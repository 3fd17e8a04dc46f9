import Dataflow.Proofs.Execution
import Dataflow.Proofs.Operation.Matching
import Dataflow.Proofs.Tree.Drawing

/-! What expressions mean as trees, where there are no operations but the built-in ones. Executing a
resolved expression shows a tree that the expression means, if the known variables are stored as
trees. -/

namespace Dataflow

/-- An expression means a tree, where known names mean trees: what folds to a constant its literal, a
symbol the tree of its name with other modules, and an operator a module over the trees of its
operands. Texts and numbers are both added, and the left operand tells which. -/
inductive Expr.Means (known : String → Tree → Prop) : Expr → Tree → Prop
  | constant {e : Expr} {value : Constant} (folds : e.value? = some value) (m : ModuleId) :
      Means known e (.literal m value.isNumeric value.text)
  | symbol {name : String} {t : Tree} (stored : known name t) (f : ModuleId → ModuleId) :
      Means known (.symbol name) (t.moved f)
  | operator {c : Combiner} {a b : Expr} {left right : Tree}
      (unfolded : (Expr.apply c.name [a, b]).value? = none)
      (typed : c.name = Arithmetic.add.symbol → c.isText = left.isText)
      (first : Means known a left) (second : Means known b right) (m : ModuleId) :
      Means known (.apply c.name [a, b]) (.node m c left right)

namespace Expr

theorem negate_eq_apply {e : Expr} (unfolded : e.value? = none) :
    e.negate = .apply Arithmetic.sub.symbol [.literal (.integer 0), e] := by
  cases e with
  | literal c => cases unfolded
  | symbol name => rfl
  | apply name arguments => rfl

/-- The negation of what is no constant is its difference from zero. -/
theorem Means.of_negate {known : String → Tree → Prop} {e : Expr} {t : Tree}
    (unfolded : e.value? = none) (means : e.negate.Means known t) :
    ∃ m k right, t = .node m (.calculate .sub) (.literal k true "0") right ∧
      e.Means known right := by
  rw [negate_eq_apply unfolded] at means
  generalize called : Expr.apply Arithmetic.sub.symbol [.literal (.integer 0), e] = whole at means
  cases means with
  | constant folds m =>
    subst called
    simp only [value?, unfolded] at folds
    cases known : Arithmetic.ofSymbol? Arithmetic.sub.symbol <;> simp [known] at folds
  | symbol stored f => cases called
  | @operator c a b left right _ _ first second m =>
    injection called with name arguments
    cases arguments
    obtain rfl : c = .calculate .sub := by
      cases c with
      | calculate op =>
        have same := congrArg Arithmetic.ofSymbol? name
        rw [Arithmetic.ofSymbol?_symbol] at same
        have other : Arithmetic.ofSymbol? (Combiner.calculate op).name = some op :=
          Arithmetic.ofSymbol?_symbol op
        rw [other, Option.some.injEq] at same
        rw [same]
      | join => exact absurd name (by decide)
    generalize called : Expr.literal (.integer 0) = operand at first
    cases first with
    | constant folds k =>
      subst called
      cases folds
      exact ⟨m, k, right, rfl, second⟩
    | symbol stored f => cases called
    | operator => cases called

end Expr

section

variable {h : Host} {catalogue : Catalogue} {named : OrderedMap String Variable} {scope : Scope}
  (only : catalogue.operations = Operation.builtins h.settings)
  (made : Scope.of h catalogue named = .ok scope)
include made

theorem Scope.literal_of (value : Constant) :
    scope.literal value = .constant value (h.valueType !value.isNumeric) := by
  rw [Scope.of_eq_ok made]
  cases value <;> rfl

include only

/-- A call that does not fold is of a built-in operation with two arguments. -/
theorem Expr.application_of_resolve {name : String} {arguments : List Expr} {n : Node}
    {warnings : List Ambiguity} (resolved : (apply name arguments).resolve scope = .ok (n, warnings))
    (unfolded : n.isConstant = false) :
    ∃ (c : Combiner) (ns : List Node) (before : List Ambiguity),
      n = .application (c.operation h.settings) ns ∧
      resolveAll scope arguments = .ok (ns, before) ∧ name = c.name ∧ arguments.length = 2 ∧
      ∀ isText, (ns.map Node.type).head? = some (h.valueType isText) →
        c.name = Arithmetic.add.symbol → c.isText = isText := by
  obtain ⟨ns, before, later, resolvedAll, called⟩ := resolve_apply_eq_ok resolved
  obtain folded | ⟨-, op, warning, found, rfl⟩ := Node.call_eq_ok called
  · obtain ⟨_, _, _, _, _, c, -, -, -, rfl⟩ := Node.fold_eq_some folded
    cases unfolded
  · have length := length_resolveAll resolvedAll
    obtain rfl := Scope.of_eq_ok made
    obtain ⟨c, rfl, rfl, two, typed⟩ := Combiner.findOperation_builtins only found
    rw [List.length_map, length] at two
    exact ⟨c, ns, before, rfl, resolvedAll, rfl, two, typed⟩

end

theorem Node.executeAll_pair_eq_ok {h : Host} {m k : Node} {s t : Store} {xs : List Variable}
    (run : (executeAll h [m, k]).on s = (.ok xs, t)) :
    ∃ x u y, (m.execute h).on s = (.ok x, u) ∧ (k.execute h).on u = (.ok y, t) ∧ xs = [x, y] := by
  obtain ⟨x, u, first, rest⟩ := Action.on_bind_eq_ok.1 run
  obtain ⟨ys, v, others, rest⟩ := Action.on_bind_eq_ok.1 rest
  cases rest
  obtain ⟨y, w, second, rest⟩ := Action.on_bind_eq_ok.1 others
  cases rest
  exact ⟨x, u, y, first, second, rfl⟩

namespace Variable

variable {h : Host} {catalogue : Catalogue} {named : OrderedMap String Variable} {scope : Scope}
  {known : String → Tree → Prop}

theorem shows_folded (made : Scope.of h catalogue named = .ok scope) {e : Expr} {value : Constant}
    (folds : e.value? = some value) {s t : Store} {x : Variable}
    (run : ((scope.literal value).execute h).on s = (.ok x, t)) :
    ∃ g tree, x.Shows h g tree ∧ g.Minted s t ∧ e.Means known tree ∧
      (scope.literal value).type = h.valueType tree.isText := by
  rw [Scope.literal_of made] at run ⊢
  obtain ⟨g, shows, minted⟩ := shows_constant run
  exact ⟨g, _, shows, minted, .constant folds _, rfl⟩

/-- Executing a resolved expression shows a tree that it means. -/
theorem shows_execute (only : catalogue.operations = Operation.builtins h.settings)
    (made : Scope.of h catalogue named = .ok scope) :
    ∀ (e : Expr) {n : Node} {warnings : List Ambiguity} {s t : Store} {x : Variable},
      e.resolve scope = .ok (n, warnings) → s.Valid →
      (∀ name y, named.get? name = some y → ∃ tree, known name tree ∧ y.Stored h s tree) →
      (n.execute h).on s = (.ok x, t) →
      ∃ g tree, x.Shows h g tree ∧ g.Minted s t ∧ e.Means known tree ∧
        n.type = h.valueType tree.isText
  | .literal value, n, warnings, s, t, x, resolved, _, _, run => by
    obtain ⟨c, folds, rfl⟩ | ⟨unfolded, -⟩ := Expr.constant_of_resolve _ resolved
    · exact shows_folded made folds run
    · cases unfolded
  | .symbol name, n, warnings, s, t, x, resolved, hs, stored, run => by
    rw [Expr.resolve] at resolved
    split at resolved
    · next y found =>
      cases resolved
      rw [Scope.of_eq_ok made] at found
      obtain ⟨tree, meant, kept⟩ := stored name y found
      obtain ⟨f, g, shows, minted⟩ := shows_copy hs kept run
      exact ⟨g, _, shows, minted, .symbol meant f, by rw [Tree.isText_moved]; exact kept.type⟩
    · cases resolved
  | .apply name [a, b], n, warnings, s, t, x, resolved, hs, stored, run => by
    obtain ⟨c, folds, rfl⟩ | ⟨unfolded, other⟩ := Expr.constant_of_resolve _ resolved
    · exact shows_folded made folds run
    · obtain ⟨c, ns, before, rfl, resolvedAll, rfl, -, typed⟩ :=
        Expr.application_of_resolve only made resolved other
      obtain ⟨m, first, k, second, resolvedLeft, resolvedRight, rfl⟩ :=
        Expr.resolveAll_pair_eq_ok resolvedAll
      obtain ⟨xs, v, executed, applied⟩ := Action.on_bind_eq_ok.1 run
      obtain ⟨y, u, z, runLeft, runRight, rfl⟩ := Node.executeAll_pair_eq_ok executed
      obtain ⟨gy, left, showsLeft, mintedLeft, meansLeft, typeLeft⟩ :=
        shows_execute only made a resolvedLeft hs stored runLeft
      have prepares := (m.preparing_execute h).prepares hs runLeft
      have prepares' := (k.preparing_execute h).prepares (prepares.valid hs) runRight
      -- what is stored is still there when the right operand is executed
      have stored' : ∀ name y, named.get? name = some y →
          ∃ tree, known name tree ∧ y.Stored h u tree := fun name y hy => by
        obtain ⟨tree, meant, kept⟩ := stored name y hy
        exact ⟨tree, meant, kept.prepares prepares hs⟩
      obtain ⟨gz, right, showsRight, mintedRight, meansRight, -⟩ :=
        shows_execute only made b resolvedRight (prepares.valid hs) stored' runRight
      obtain ⟨g, shows, minted⟩ := shows_apply (prepares.precedes.trans prepares'.precedes) showsLeft
        showsRight (mintedLeft.later prepares'.precedes) (mintedRight.earlier prepares.precedes)
        (mintedLeft.apart mintedRight) applied
      exact ⟨g, _, shows, minted,
        .operator unfolded (typed _ (congrArg some typeLeft)) meansLeft meansRight _,
        Combiner.returns_operation h c⟩
  | .apply name [], n, warnings, s, t, x, resolved, _, _, _ => by
    obtain ⟨c, ns, before, -, -, -, two, -⟩ := Expr.application_of_resolve only made resolved
      (Expr.isConstant_of_length (by decide) resolved)
    cases two
  | .apply name [a], n, warnings, s, t, x, resolved, _, _, _ => by
    obtain ⟨c, ns, before, -, -, -, two, -⟩ := Expr.application_of_resolve only made resolved
      (Expr.isConstant_of_length (by simp) resolved)
    cases two
  | .apply name (a :: b :: d :: rest), n, warnings, s, t, x, resolved, _, _, _ => by
    obtain ⟨c, ns, before, -, -, -, two, -⟩ := Expr.application_of_resolve only made resolved
      (Expr.isConstant_of_length (by simp) resolved)
    cases two

end Variable

end Dataflow
