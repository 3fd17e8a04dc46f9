import Dataflow.Proofs.Execution
import Dataflow.Proofs.Operation.Parallel

/-! Expressions that differ in their symbols, or in what their symbols mean. If the variables that
symbols mean have copies that are the same but for a shift, so have the results, and the same choices
are made on the way. -/

namespace Dataflow

namespace Expr

mutual

/-- The symbols that occur in an expression. -/
def symbols : Expr → List String
  | .symbol name => [name]
  | .literal _ => []
  | .apply _ arguments => symbolsOf arguments

def symbolsOf : List Expr → List String
  | [] => []
  | e :: es => symbols e ++ symbolsOf es

end

mutual

/-- The expression with every symbol replaced. -/
def renamed (ρ : String → String) : Expr → Expr
  | .symbol name => .symbol (ρ name)
  | .literal value => .literal value
  | .apply name arguments => .apply name (renamedAll ρ arguments)

def renamedAll (ρ : String → String) : List Expr → List Expr
  | [] => []
  | e :: es => renamed ρ e :: renamedAll ρ es

end

mutual

theorem renamed_id : ∀ e : Expr, e.renamed id = e
  | .symbol name => rfl
  | .literal value => rfl
  | .apply name arguments => by rw [renamed, renamedAll_id arguments]

theorem renamedAll_id : ∀ es : List Expr, renamedAll id es = es
  | [] => rfl
  | e :: es => by rw [renamedAll, renamed_id e, renamedAll_id es]

end

end Expr

namespace Node

mutual

/-- Nodes that differ in the variables that they refer to, which are related. -/
inductive Beside (Q : Variable → Variable → Prop) : Node → Node → Prop
  | constant (value : Constant) (type : TypeName) :
      Beside Q (.constant value type) (.constant value type)
  | reference (name name' : String) {x y : Variable} (related : Q x y) :
      Beside Q (.reference name x) (.reference name' y)
  | application (op : Operation) {ns ms : List Node} (arguments : BesideAll Q ns ms) :
      Beside Q (.application op ns) (.application op ms)

inductive BesideAll (Q : Variable → Variable → Prop) : List Node → List Node → Prop
  | nil : BesideAll Q [] []
  | cons {n m : Node} {ns ms : List Node} (first : Beside Q n m) (rest : BesideAll Q ns ms) :
      BesideAll Q (n :: ns) (m :: ms)

end

variable {Q : Variable → Variable → Prop} {n m : Node} {ns ms : List Node} {s : Scope}

theorem Beside.type_eq (typed : ∀ x y, Q x y → y.type = x.type) (beside : Beside Q n m) :
    m.type = n.type := by
  cases beside with
  | constant => rfl
  | reference _ _ related => exact typed _ _ related
  | application => rfl

theorem BesideAll.types_eq (typed : ∀ x y, Q x y → y.type = x.type) :
    ∀ {ns ms : List Node}, BesideAll Q ns ms → ms.map type = ns.map type
  | _, _, .nil => rfl
  | _, _, .cons first rest => by
    rw [List.map_cons, List.map_cons, first.type_eq typed, rest.types_eq typed]

mutual

theorem Beside.applies {P : Operation → Prop} : ∀ {n m : Node}, Beside Q n m →
    n.All (fun _ => True) P → m.All (fun _ => True) P
  | _, _, .constant .., _ => trivial
  | _, _, .reference .., _ => trivial
  | _, _, .application _ besides, ⟨applied, all⟩ => ⟨applied, besides.applies all⟩

theorem BesideAll.applies {P : Operation → Prop} : ∀ {ns ms : List Node}, BesideAll Q ns ms →
    AllOf (fun _ => True) P ns → AllOf (fun _ => True) P ms
  | _, _, .nil, _ => trivial
  | _, _, .cons first rest, ⟨one, all⟩ => ⟨first.applies one, rest.applies all⟩

end

theorem BesideAll.fold_eq (besides : BesideAll Q ns ms) (s : Scope)
    (named : OrderedMap String Variable) (name : String) :
    fold { s with named } name ms = fold s name ns := by
  cases besides with
  | nil => rfl
  | cons first rest =>
    cases rest with
    | nil => cases first <;> rfl
    | cons second rest =>
      cases rest with
      | nil => cases first <;> cases second <;> rfl
      | cons => cases first <;> cases second <;> rfl

theorem BesideAll.alike_call (typed : ∀ x y, Q x y → y.type = x.type)
    (besides : BesideAll Q ns ms) (s : Scope) (named : OrderedMap String Variable) (name : String) :
    Alike (fun r r' => Beside Q r.1 r'.1 ∧ r'.2 = r.2) (call s name ns)
      (call { s with named } name ms) := by
  unfold call
  rw [besides.fold_eq s named name, besides.types_eq typed]
  cases folded : fold s name ns with
  | error e => exact .error rfl
  | ok result =>
    cases result with
    | some c =>
      obtain ⟨left, t, right, t', op, c', -, -, -, rfl⟩ := fold_eq_some folded
      exact .ok ⟨.constant _ _, rfl⟩
    | none =>
      rcases found : s.catalogue.findOperation s.types name (ns.map type) with e | ⟨op, warning⟩
      · simp only [bind, Except.bind]
        exact .error rfl
      · simp only [bind, Except.bind]
        exact .ok ⟨.application op besides, rfl⟩

end Node

namespace Expr

variable {Q : Variable → Variable → Prop} {s : Scope} {named : OrderedMap String Variable}
  {ρ : String → String}

mutual

/-- Expressions resolve alike where their symbols mean variables that are related. -/
theorem alike_resolve (typed : ∀ x y, Q x y → y.type = x.type) : ∀ e : Expr,
    (∀ name ∈ e.symbols, Option.Rel Q (s.named.get? name) (named.get? (ρ name))) →
      Alike (fun r r' => Node.Beside Q r.1 r'.1 ∧ r'.2 = r.2) (e.resolve s)
        ((e.renamed ρ).resolve { s with named })
  | .symbol name, means => by
    have related := means name (List.mem_singleton_self name)
    rw [resolve, renamed, resolve]
    dsimp only
    cases hx : s.named.get? name with
    | none =>
      cases hy : named.get? (ρ name) with
      | none => exact .error rfl
      | some y =>
        rw [hx, hy] at related
        cases related
    | some x =>
      cases hy : named.get? (ρ name) with
      | none =>
        rw [hx, hy] at related
        cases related
      | some y =>
        rw [hx, hy] at related
        cases related with
        | some related => exact .ok ⟨.reference _ _ related, rfl⟩
  | .literal value, _ => by
    rw [resolve, renamed, resolve]
    exact .ok ⟨.constant _ _, rfl⟩
  | .apply name arguments, means => by
    rw [resolve, renamed, resolve]
    refine (alike_resolveAll typed arguments means).bind ?_
    rintro ⟨ns, before⟩ ⟨ms, _⟩ ⟨besides, rfl⟩
    refine (besides.alike_call typed s named name).bind ?_
    rintro ⟨n, later⟩ ⟨m, _⟩ ⟨beside, rfl⟩
    exact .ok ⟨beside, rfl⟩

theorem alike_resolveAll (typed : ∀ x y, Q x y → y.type = x.type) : ∀ es : List Expr,
    (∀ name ∈ symbolsOf es, Option.Rel Q (s.named.get? name) (named.get? (ρ name))) →
      Alike (fun r r' => Node.BesideAll Q r.1 r'.1 ∧ r'.2 = r.2) (resolveAll s es)
        (resolveAll { s with named } (renamedAll ρ es))
  | [], _ => by
    rw [resolveAll, renamedAll, resolveAll]
    exact .ok ⟨.nil, rfl⟩
  | e :: es, means => by
    rw [resolveAll, renamedAll, resolveAll]
    refine (alike_resolve typed e fun name listed =>
      means name (List.mem_append_left _ listed)).bind ?_
    rintro ⟨n, first⟩ ⟨m, _⟩ ⟨beside, rfl⟩
    refine (alike_resolveAll typed es fun name listed =>
      means name (List.mem_append_right _ listed)).bind ?_
    rintro ⟨ns, others⟩ ⟨ms, _⟩ ⟨besides, rfl⟩
    exact .ok ⟨.cons beside besides, rfl⟩

end

end Expr

namespace Node

open Dataflow.Action (Parallel)

variable {σ : Shift} {s s' : Store} {h : Host} {Q : Variable → Variable → Prop}

mutual

/-- Nodes execute in step if the variables that they refer to are copied in step. -/
theorem parallel_execute (between : σ.Between s s')
    (copies : ∀ x y, Q x y → Parallel s s' (fun z z' => z' = z.shifted σ) (x.copy h) (y.copy h)) :
    ∀ {n m : Node}, Beside Q n m → n.All (fun _ => True) Operation.IsPlain →
      Parallel s s' (fun x x' => x' = x.shifted σ) (n.execute h) (m.execute h)
  | _, _, .constant value type, _ => Variable.parallel_constant between value type
  | _, _, .reference _ _ related, _ => copies _ _ related
  | _, _, .application op besides, ⟨plain, all⟩ => by
    refine (parallel_executeAll between copies besides all).bind ?_
    rintro xs _ rfl
    exact Operation.parallel_apply between plain xs

theorem parallel_executeAll (between : σ.Between s s')
    (copies : ∀ x y, Q x y → Parallel s s' (fun z z' => z' = z.shifted σ) (x.copy h) (y.copy h)) :
    ∀ {ns ms : List Node}, BesideAll Q ns ms → AllOf (fun _ => True) Operation.IsPlain ns →
      Parallel s s' (fun xs xs' => xs' = xs.map (Variable.shifted σ)) (executeAll h ns)
        (executeAll h ms)
  | _, _, .nil, _ => .pure rfl
  | _, _, .cons first rest, ⟨plain, all⟩ => by
    refine (parallel_execute between copies first plain).bind ?_
    rintro x _ rfl
    refine (parallel_executeAll between copies rest all).bind ?_
    rintro xs _ rfl
    exact .pure rfl

end

end Node

end Dataflow
