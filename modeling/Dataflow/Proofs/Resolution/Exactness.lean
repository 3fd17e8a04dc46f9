import Dataflow.Proofs.Operation.Matching
import Dataflow.Proofs.Resolution

/-! Resolving an expression is exact. Rules say what an expression means, part by part, and which
fault a part has of its own; an expression is resolved to what it means, or with the fault of the first
of its parts that has one. In what it is resolved to no operator is left that could be combined. -/

namespace Dataflow

/-- The type of a literal. -/
def Scope.typeOf (s : Scope) : Constant → TypeName
  | .string _ => s.string
  | _ => s.numeric

theorem Scope.literal_eq (s : Scope) (c : Constant) : s.literal c = .constant c (s.typeOf c) := by
  cases c <;> rfl

namespace Node

/-- What an operator makes of its arguments, if these are two constants. -/
def combination? (name : String) : List Node → Option Combination
  | [.constant left _, .constant right _] =>
    (Arithmetic.ofSymbol? name).map fun op => Constant.combine op left right
  | _ => none

/-- The arguments are left to an operation. -/
def Uncombined (name : String) (arguments : List Node) : Prop :=
  ∀ r, combination? name arguments = some r → r = .undefined

/-- The warning of the choice of an operation, if several fitted equally well. -/
def choiceWarning (s : Scope) (name : String) (types : List TypeName) : List Ambiguity :=
  match s.catalogue.findOperation s.types name types with
  | .ok (_, warning) => warning.toList
  | .error _ => []

mutual

/-- The warnings of the applications in a node, those of arguments first, from left to right. -/
def warnings (s : Scope) : Node → List Ambiguity
  | .application op arguments =>
    warningsOf s arguments ++ choiceWarning s op.name (arguments.map type)
  | _ => []

def warningsOf (s : Scope) : List Node → List Ambiguity
  | [] => []
  | n :: ns => warnings s n ++ warningsOf s ns

end

mutual

/-- No application in the node is of an operator to two constants that it makes a constant of. -/
def IsFolded : Node → Prop
  | .application op arguments =>
    (∀ c, combination? op.name arguments ≠ some (.value c)) ∧ AreFolded arguments
  | _ => True

def AreFolded : List Node → Prop
  | [] => True
  | n :: ns => IsFolded n ∧ AreFolded ns

end

end Node

namespace Expr

mutual

/-- All parts of an expression and the expression itself, arguments from left to right before what
they are arguments of. -/
def parts : Expr → List Expr
  | .symbol name => [.symbol name]
  | .literal value => [.literal value]
  | .apply name arguments => partsOf arguments ++ [.apply name arguments]

def partsOf : List Expr → List Expr
  | [] => []
  | e :: es => parts e ++ partsOf es

end

mutual

/-- What an expression means: the variable of a symbol, a constant, what an operator makes of two
constants, or else the operation that fits the arguments, on what these mean. -/
inductive Resolves (s : Scope) : Expr → Node → Prop
  | symbol {name : String} {x : Variable} (known : s.named.get? name = some x) :
      Resolves s (.symbol name) (.reference name x)
  | literal (value : Constant) : Resolves s (.literal value) (.constant value (s.typeOf value))
  | folded {name : String} {arguments : List Expr} {ns : List Node} {c : Constant}
      (resolved : ResolvesAll s arguments ns)
      (combined : Node.combination? name ns = some (.value c)) :
      Resolves s (.apply name arguments) (.constant c (s.typeOf c))
  | applied {name : String} {arguments : List Expr} {ns : List Node} {op : Operation}
      {warning : Option Ambiguity} (resolved : ResolvesAll s arguments ns)
      (uncombined : Node.Uncombined name ns)
      (found : s.catalogue.findOperation s.types name (ns.map Node.type) = .ok (op, warning)) :
      Resolves s (.apply name arguments) (.application op ns)

inductive ResolvesAll (s : Scope) : List Expr → List Node → Prop
  | nil : ResolvesAll s [] []
  | cons {e : Expr} {n : Node} {es : List Expr} {ns : List Node} (first : Resolves s e n)
      (rest : ResolvesAll s es ns) : ResolvesAll s (e :: es) (n :: ns)

end

/-- The fault that an expression has of its own, not through an argument. -/
inductive Fails (s : Scope) : Expr → Error → Prop
  | unknown {name : String} (absent : s.named.get? name = none) :
      Fails s (.symbol name) (.unknownVariable name)
  | division {name : String} {arguments : List Expr} {ns : List Node}
      (resolved : ResolvesAll s arguments ns)
      (zero : Node.combination? name ns = some .divisionByZero) :
      Fails s (.apply name arguments) .divisionByZero
  | unfitting {name : String} {arguments : List Expr} {ns : List Node} {fault : Error}
      (resolved : ResolvesAll s arguments ns) (uncombined : Node.Uncombined name ns)
      (refused : s.catalogue.findOperation s.types name (ns.map Node.type) = .error fault) :
      Fails s (.apply name arguments) fault

/-- The first expression that fails has the fault; those before it have a meaning. -/
inductive FailsFirst (s : Scope) : List Expr → Error → Prop
  | here {e : Expr} {fault : Error} (fails : Fails s e fault) (es : List Expr) :
      FailsFirst s (e :: es) fault
  | later {e : Expr} {n : Node} {fault : Error} {es : List Expr} (resolves : Resolves s e n)
      (rest : FailsFirst s es fault) : FailsFirst s (e :: es) fault

end Expr

namespace Node

variable {s : Scope} {name : String} {ns : List Node}

theorem fold_eq (s : Scope) (name : String) (ns : List Node) :
    fold s name ns = match combination? name ns with
      | some (.value c) => .ok (some (s.literal c))
      | some .divisionByZero => .error .divisionByZero
      | _ => .ok none := by
  unfold fold
  split
  · rw [combination?]
    cases Arithmetic.ofSymbol? name with
    | none => rfl
    | some op =>
      dsimp only [Option.map_some]
      split <;> next outcome => rw [outcome]
  · next other =>
    have none : combination? name ns = none := by
      unfold combination?
      split
      · exact absurd rfl (other _ _ _ _)
      · rfl
    rw [none]

theorem call_of_combined {c : Constant} (combined : combination? name ns = some (.value c)) :
    call s name ns = .ok (.constant c (s.typeOf c), []) := by
  rw [call, fold_eq, combined, ← s.literal_eq]
  rfl

theorem warningsOf_of_combined {c : Constant} (combined : combination? name ns = some (.value c)) :
    warningsOf s ns = [] := by
  unfold combination? at combined
  split at combined
  · rfl
  · cases combined

theorem call_of_zero (zero : combination? name ns = some .divisionByZero) :
    call s name ns = .error .divisionByZero := by
  rw [call, fold_eq, zero]
  rfl

theorem call_of_uncombined (uncombined : Uncombined name ns) :
    call s name ns = (s.catalogue.findOperation s.types name (ns.map type)).map
      fun choice => (.application choice.1 ns, choice.2.toList) := by
  have left : fold s name ns = .ok none := by
    rw [fold_eq]
    split
    · next combined => cases uncombined _ combined
    · next zero => cases uncombined _ zero
    · rfl
  rw [call, left]
  cases s.catalogue.findOperation s.types name (ns.map type) <;> rfl

/-- A call folds, divides by zero, or is left to an operation. -/
theorem combination?_cases (name : String) (ns : List Node) :
    (∃ c, combination? name ns = some (.value c)) ∨
      combination? name ns = some .divisionByZero ∨ Uncombined name ns := by
  unfold Uncombined
  rcases combination? name ns with _ | c | _ | _
  · exact .inr (.inr fun r h => by cases h)
  · exact .inl ⟨c, rfl⟩
  · exact .inr (.inr fun r h => (Option.some.inj h).symm)
  · exact .inr (.inl rfl)

end Node

namespace Expr

variable {s : Scope} {e : Expr} {es es' : List Expr} {n : Node} {ns : List Node}
  {fault fault' : Error}

theorem resolve_apply (s : Scope) (name : String) {arguments : List Expr} {ns : List Node}
    {before : List Ambiguity} (resolved : resolveAll s arguments = .ok (ns, before)) :
    (apply name arguments).resolve s =
      (Node.call s name ns).map fun result => (result.1, before ++ result.2) := by
  rw [resolve, resolved]
  show (Node.call s name ns >>= fun result => pure (result.1, before ++ result.2)) = _
  cases Node.call s name ns <;> rfl

mutual

/-- What an expression means, it is resolved to, with the warnings of that node. -/
theorem Resolves.resolve_eq : ∀ {e : Expr} {n : Node}, Resolves s e n →
    e.resolve s = .ok (n, n.warnings s)
  | _, _, .symbol known => by
    rw [resolve, known]
    rfl
  | _, _, .literal value => by
    rw [resolve, s.literal_eq]
    rfl
  | _, _, .folded resolved combined => by
    rw [resolve_apply s _ resolved.resolveAll_eq, Node.call_of_combined combined,
      Node.warningsOf_of_combined combined]
    rfl
  | _, _, .applied resolved uncombined found => by
    rw [resolve_apply s _ resolved.resolveAll_eq, Node.call_of_uncombined uncombined, found]
    rw [Node.warnings, Catalogue.name_of_findOperation found, Node.choiceWarning, found]
    rfl

theorem ResolvesAll.resolveAll_eq : ∀ {es : List Expr} {ns : List Node}, ResolvesAll s es ns →
    resolveAll s es = .ok (ns, Node.warningsOf s ns)
  | _, _, .nil => rfl
  | _, _, .cons first rest => by
    rw [resolveAll, first.resolve_eq, rest.resolveAll_eq]
    rfl

end

theorem Fails.resolve_eq (fails : Fails s e fault) : e.resolve s = .error fault := by
  cases fails with
  | unknown absent => rw [resolve, absent]
  | division resolved zero =>
    rw [resolve_apply s _ resolved.resolveAll_eq, Node.call_of_zero zero]
    rfl
  | unfitting resolved uncombined refused =>
    rw [resolve_apply s _ resolved.resolveAll_eq, Node.call_of_uncombined uncombined, refused]
    rfl

theorem Fails.not_resolves (fails : Fails s e fault) : ¬ Resolves s e n := fun resolves => by
  have := resolves.resolve_eq
  rw [fails.resolve_eq] at this
  cases this

theorem FailsFirst.unique (first : FailsFirst s es fault) (other : FailsFirst s es fault') :
    fault = fault' := by
  induction first with
  | here fails es =>
    cases other with
    | here fails' => exact Except.error.inj (fails.resolve_eq.symm.trans fails'.resolve_eq)
    | later resolves => exact absurd resolves fails.not_resolves
  | later resolves _ ih =>
    cases other with
    | here fails' => exact absurd resolves fails'.not_resolves
    | later _ rest => exact ih rest

theorem FailsFirst.append (first : FailsFirst s es fault) (es' : List Expr) :
    FailsFirst s (es ++ es') fault := by
  induction first with
  | here fails es => exact .here fails _
  | later resolves _ ih => exact .later resolves ih

theorem FailsFirst.after (rest : FailsFirst s es' fault)
    (before : ∀ e ∈ es, ∃ n, Resolves s e n) : FailsFirst s (es ++ es') fault := by
  induction es with
  | nil => exact rest
  | cons e es ih =>
    obtain ⟨⟨n, resolves⟩, others⟩ := List.forall_mem_cons.1 before
    exact .later resolves (ih others)

theorem FailsFirst.not_all (first : FailsFirst s es fault) : ¬ ∀ e ∈ es, ∃ n, Resolves s e n := by
  intro all
  induction first with
  | here fails es =>
    obtain ⟨n, resolves⟩ := all _ (List.mem_cons_self ..)
    exact fails.not_resolves resolves
  | later _ _ ih => exact ih (List.forall_mem_cons.1 all).2

mutual

theorem Resolves.parts : ∀ {e : Expr} {n : Node}, Resolves s e n →
    ∀ part ∈ e.parts, ∃ m, Resolves s part m
  | _, _, .symbol known => fun part listed => by
    obtain rfl := List.mem_singleton.1 listed
    exact ⟨_, .symbol known⟩
  | _, _, .literal value => fun part listed => by
    obtain rfl := List.mem_singleton.1 listed
    exact ⟨_, .literal value⟩
  | _, _, .folded resolved combined => fun part listed => by
    obtain inside | same := List.mem_append.1 listed
    · exact resolved.partsOf part inside
    · obtain rfl := List.mem_singleton.1 same
      exact ⟨_, .folded resolved combined⟩
  | _, _, .applied resolved uncombined found => fun part listed => by
    obtain inside | same := List.mem_append.1 listed
    · exact resolved.partsOf part inside
    · obtain rfl := List.mem_singleton.1 same
      exact ⟨_, .applied resolved uncombined found⟩

theorem ResolvesAll.partsOf : ∀ {es : List Expr} {ns : List Node}, ResolvesAll s es ns →
    ∀ part ∈ Expr.partsOf es, ∃ m, Resolves s part m
  | _, _, .nil => fun _ listed => by cases listed
  | _, _, .cons first rest => fun part listed =>
    (List.mem_append.1 listed).elim (first.parts part) (rest.partsOf part)

end

mutual

theorem Resolves.isFolded : ∀ {e : Expr} {n : Node}, Resolves s e n → n.IsFolded
  | _, _, .symbol _ => trivial
  | _, _, .literal _ => trivial
  | _, _, .folded _ _ => trivial
  | _, _, .applied resolved uncombined found => by
    refine ⟨fun c combined => ?_, resolved.areFolded⟩
    rw [Catalogue.name_of_findOperation found] at combined
    cases uncombined _ combined

theorem ResolvesAll.areFolded : ∀ {es : List Expr} {ns : List Node}, ResolvesAll s es ns →
    Node.AreFolded ns
  | _, _, .nil => trivial
  | _, _, .cons first rest => ⟨first.isFolded, rest.areFolded⟩

end

/-- A call of arguments that have a meaning has one, or fails of its own. -/
theorem apply_outcome (name : String) (resolved : ResolvesAll s es ns) :
    (∃ n, Resolves s (apply name es) n) ∨ ∃ fault, Fails s (apply name es) fault := by
  obtain ⟨c, combined⟩ | zero | uncombined := Node.combination?_cases name ns
  · exact .inl ⟨_, .folded resolved combined⟩
  · exact .inr ⟨_, .division resolved zero⟩
  · cases found : s.catalogue.findOperation s.types name (ns.map Node.type) with
    | ok choice => exact .inl ⟨_, .applied resolved uncombined found⟩
    | error fault => exact .inr ⟨fault, .unfitting resolved uncombined found⟩

mutual

/-- An expression has a meaning, or some part of it fails first; and then it is not resolved. -/
theorem resolve_outcome (s : Scope) : ∀ e : Expr,
    (∃ n, Resolves s e n) ∨ ∃ fault, FailsFirst s e.parts fault ∧ e.resolve s = .error fault
  | .symbol name => by
    cases known : s.named.get? name with
    | some x => exact .inl ⟨_, .symbol known⟩
    | none => exact .inr ⟨_, .here (.unknown known) [], (Fails.unknown known).resolve_eq⟩
  | .literal value => .inl ⟨_, .literal value⟩
  | .apply name arguments => by
    obtain ⟨ns, resolved⟩ | ⟨fault, first, run⟩ := resolveAll_outcome s arguments
    · refine (apply_outcome name resolved).imp_right fun ⟨fault, fails⟩ => ?_
      exact ⟨fault, .after (.here fails []) resolved.partsOf, fails.resolve_eq⟩
    · refine .inr ⟨fault, first.append _, ?_⟩
      rw [resolve, run]
      rfl

theorem resolveAll_outcome (s : Scope) : ∀ es : List Expr,
    (∃ ns, ResolvesAll s es ns) ∨
      ∃ fault, FailsFirst s (partsOf es) fault ∧ resolveAll s es = .error fault
  | [] => .inl ⟨[], .nil⟩
  | e :: es => by
    obtain ⟨n, resolves⟩ | ⟨fault, first, run⟩ := resolve_outcome s e
    · obtain ⟨ns, resolved⟩ | ⟨fault, first, run⟩ := resolveAll_outcome s es
      · exact .inl ⟨n :: ns, .cons resolves resolved⟩
      · refine .inr ⟨fault, first.after resolves.parts, ?_⟩
        rw [resolveAll, resolves.resolve_eq, run]
        rfl
    · refine .inr ⟨fault, first.append _, ?_⟩
      rw [resolveAll, run]
      rfl

end

/-- Resolving gives exactly what the expression means, with the warnings of the applications that are
in it, in the order in which they were chosen. Nothing in it could still be combined. And it fails
exactly with the fault of the first part that has one, arguments from left to right before what they
are arguments of. -/
theorem resolve_exact (s : Scope) (e : Expr) :
    (∀ n warnings, e.resolve s = .ok (n, warnings) ↔
      Resolves s e n ∧ warnings = n.warnings s) ∧
    (∀ n, Resolves s e n → n.IsFolded) ∧
    ∀ fault, e.resolve s = .error fault ↔ FailsFirst s e.parts fault := by
  refine ⟨fun n warnings => ⟨fun run => ?_, ?_⟩, fun n resolves => resolves.isFolded,
    fun fault => ⟨fun run => ?_, fun first => ?_⟩⟩
  · obtain ⟨m, resolves⟩ | ⟨fault, -, failed⟩ := resolve_outcome s e
    · rw [resolves.resolve_eq, Except.ok.injEq, Prod.mk.injEq] at run
      obtain ⟨rfl, rfl⟩ := run
      exact ⟨resolves, rfl⟩
    · rw [failed] at run
      cases run
  · rintro ⟨resolves, rfl⟩
    exact resolves.resolve_eq
  · obtain ⟨n, resolves⟩ | ⟨fault', first, failed⟩ := resolve_outcome s e
    · rw [resolves.resolve_eq] at run
      cases run
    · obtain rfl : fault' = fault := Except.error.inj (failed.symm.trans run)
      exact first
  · obtain ⟨n, resolves⟩ | ⟨fault', first', failed⟩ := resolve_outcome s e
    · exact absurd resolves.parts first.not_all
    · rw [first.unique first']
      exact failed

end Expr

end Dataflow
