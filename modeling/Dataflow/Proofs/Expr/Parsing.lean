import Dataflow.Proofs.Expr.Grammar
import Mathlib.Data.Nat.Init

/-! What the parser returns, the grammar derives from the tokens that were used up. Since some always
are, the fuel of a statement is never used up, and more of it changes nothing. -/

namespace Dataflow

namespace Expr

variable {finish fuel : Nat} {tokens rest : List Token} {e left : Expr}

theorem bind_eq_ok {ε α β : Type} {x : Except ε α} {f : α → Except ε β} {b : β} :
    x >>= f = .ok b ↔ ∃ a, x = .ok a ∧ f a = .ok b := by
  cases x <;> simp [bind, Except.bind]

theorem isAdditive_iff {op : Arithmetic} : isAdditive op = true ↔ op = .add ∨ op = .sub := by
  cases op <;> decide

theorem isMultiplicative_iff {op : Arithmetic} :
    isMultiplicative op = true ↔ op = .mul ∨ op = .div := by
  cases op <;> decide

/-- Tokens make something and leave others: those before them are derived as it. -/
def Makes {α : Type} (Derived : List Lexeme → α → Prop) (tokens : List Token) (made : α)
    (rest : List Token) : Prop :=
  ∃ used, tokens = used ++ rest ∧ Derived (used.map Token.lexeme) made

/-- What the functions of the parser return is derived from what they used up. -/
structure Sound (finish fuel : Nat) : Prop where
  sum : ∀ {tokens e rest}, parseSum finish fuel tokens = .ok (e, rest) → Makes IsSum tokens e rest
  terms : ∀ {ls left tokens e rest}, IsSum ls left →
    parseTerms finish fuel left tokens = .ok (e, rest) →
    Makes (fun rs => IsSum (ls ++ rs)) tokens e rest
  product : ∀ {tokens e rest}, parseProduct finish fuel tokens = .ok (e, rest) →
    Makes IsProduct tokens e rest
  factors : ∀ {ls left tokens e rest}, IsProduct ls left →
    parseFactors finish fuel left tokens = .ok (e, rest) →
    Makes (fun rs => IsProduct (ls ++ rs)) tokens e rest
  unary : ∀ {tokens e rest}, parseUnary finish fuel tokens = .ok (e, rest) →
    Makes IsUnary tokens e rest
  primary : ∀ {tokens e rest}, parsePrimary finish fuel tokens = .ok (e, rest) →
    Makes IsPrimary tokens e rest
  arguments : ∀ {tokens es rest}, parseArguments finish fuel tokens = .ok (es, rest) →
    Makes AreArguments tokens es rest

theorem expectClosing_eq_ok (closed : expectClosing finish tokens = .ok rest) :
    ∃ position, tokens = ⟨.closing, position⟩ :: rest := by
  unfold expectClosing at closed
  split at closed
  · next position _ =>
    cases closed
    exact ⟨position, rfl⟩
  all_goals cases closed

namespace Sound

variable (ih : Sound finish fuel)

include ih

theorem parseSum_succ (parsed : parseSum finish (fuel + 1) tokens = .ok (e, rest)) :
    Makes IsSum tokens e rest := by
  unfold parseSum at parsed
  obtain ⟨⟨left, middle⟩, first, others⟩ := bind_eq_ok.1 parsed
  obtain ⟨used, rfl, product⟩ := ih.product first
  obtain ⟨more, rfl, sum⟩ := ih.terms (.product product) others
  exact ⟨used ++ more, by rw [List.append_assoc], by rwa [List.map_append]⟩

theorem parseTerms_succ {ls : List Lexeme} (sum : IsSum ls left)
    (parsed : parseTerms finish (fuel + 1) left tokens = .ok (e, rest)) :
    Makes (fun rs => IsSum (ls ++ rs)) tokens e rest := by
  unfold parseTerms at parsed
  split at parsed
  · next op position tokens =>
    split at parsed
    · next additive =>
      obtain ⟨⟨right, middle⟩, first, others⟩ := bind_eq_ok.1 parsed
      obtain ⟨used, rfl, product⟩ := ih.product first
      obtain ⟨more, rfl, sum⟩ := ih.terms (.further sum (isAdditive_iff.1 additive) product) others
      exact ⟨⟨.operator op, position⟩ :: used ++ more, by simp, by simpa using sum⟩
    · cases parsed
      exact ⟨[], rfl, by simpa using sum⟩
  · cases parsed
    exact ⟨[], rfl, by simpa using sum⟩

theorem parseProduct_succ (parsed : parseProduct finish (fuel + 1) tokens = .ok (e, rest)) :
    Makes IsProduct tokens e rest := by
  unfold parseProduct at parsed
  obtain ⟨⟨left, middle⟩, first, others⟩ := bind_eq_ok.1 parsed
  obtain ⟨used, rfl, unary⟩ := ih.unary first
  obtain ⟨more, rfl, product⟩ := ih.factors (.unary unary) others
  exact ⟨used ++ more, by rw [List.append_assoc], by rwa [List.map_append]⟩

theorem parseFactors_succ {ls : List Lexeme} (product : IsProduct ls left)
    (parsed : parseFactors finish (fuel + 1) left tokens = .ok (e, rest)) :
    Makes (fun rs => IsProduct (ls ++ rs)) tokens e rest := by
  unfold parseFactors at parsed
  split at parsed
  · next op position tokens =>
    split at parsed
    · next multiplicative =>
      obtain ⟨⟨right, middle⟩, first, others⟩ := bind_eq_ok.1 parsed
      obtain ⟨used, rfl, unary⟩ := ih.unary first
      obtain ⟨more, rfl, product⟩ :=
        ih.factors (.further product (isMultiplicative_iff.1 multiplicative) unary) others
      exact ⟨⟨.operator op, position⟩ :: used ++ more, by simp, by simpa using product⟩
    · cases parsed
      exact ⟨[], rfl, by simpa using product⟩
  · cases parsed
    exact ⟨[], rfl, by simpa using product⟩

theorem parseUnary_succ (parsed : parseUnary finish (fuel + 1) tokens = .ok (e, rest)) :
    Makes IsUnary tokens e rest := by
  unfold parseUnary at parsed
  split at parsed
  · next position tokens =>
    obtain ⟨⟨operand, middle⟩, first, others⟩ := bind_eq_ok.1 parsed
    cases others
    obtain ⟨used, rfl, unary⟩ := ih.unary first
    exact ⟨⟨.operator .sub, position⟩ :: used, rfl, .minus unary (negates_negate operand)⟩
  · obtain ⟨used, rfl, primary⟩ := ih.primary parsed
    exact ⟨used, rfl, .primary primary⟩

theorem parsePrimary_succ (parsed : parsePrimary finish (fuel + 1) tokens = .ok (e, rest)) :
    Makes IsPrimary tokens e rest := by
  unfold parsePrimary at parsed
  split at parsed
  · cases parsed
  · next value position tokens =>
    cases parsed
    exact ⟨[⟨.literal value, position⟩], rfl, .literal value⟩
  · next name p q r tokens =>
    cases parsed
    exact ⟨[⟨.symbol name, p⟩, ⟨.opening, q⟩, ⟨.closing, r⟩], rfl, .call name⟩
  · next name p q tokens _ =>
    obtain ⟨⟨arguments, middle⟩, first, others⟩ := bind_eq_ok.1 parsed
    obtain ⟨after, closed, others⟩ := bind_eq_ok.1 others
    cases others
    obtain ⟨r, rfl⟩ := expectClosing_eq_ok closed
    obtain ⟨used, rfl, given⟩ := ih.arguments first
    exact ⟨⟨.symbol name, p⟩ :: ⟨.opening, q⟩ :: used ++ [⟨.closing, r⟩], by simp,
      by simpa using IsPrimary.callWith name given⟩
  · next name position tokens _ _ =>
    cases parsed
    exact ⟨[⟨.symbol name, position⟩], rfl, .symbol name⟩
  · next p tokens =>
    obtain ⟨⟨inner, middle⟩, first, others⟩ := bind_eq_ok.1 parsed
    obtain ⟨after, closed, others⟩ := bind_eq_ok.1 others
    cases others
    obtain ⟨r, rfl⟩ := expectClosing_eq_ok closed
    obtain ⟨used, rfl, sum⟩ := ih.sum first
    exact ⟨⟨.opening, p⟩ :: used ++ [⟨.closing, r⟩], by simp, by simpa using IsPrimary.group sum⟩
  · cases parsed

theorem parseArguments_succ {es : List Expr}
    (parsed : parseArguments finish (fuel + 1) tokens = .ok (es, rest)) :
    Makes AreArguments tokens es rest := by
  unfold parseArguments at parsed
  obtain ⟨⟨argument, middle⟩, first, others⟩ := bind_eq_ok.1 parsed
  obtain ⟨used, rfl, sum⟩ := ih.sum first
  dsimp only at others
  split at others
  · next position tokens =>
    obtain ⟨⟨arguments, after⟩, first, others⟩ := bind_eq_ok.1 others
    cases others
    obtain ⟨more, rfl, given⟩ := ih.arguments first
    exact ⟨used ++ ⟨.comma, position⟩ :: more, by simp, by simpa using AreArguments.more sum given⟩
  · cases others
    exact ⟨used, rfl, .last sum⟩

end Sound

theorem sound (finish fuel : Nat) : Sound finish fuel := by
  induction fuel with
  | zero =>
    constructor
    all_goals
      intros
      simp_all [parseSum, parseTerms, parseProduct, parseFactors, parseUnary, parsePrimary,
        parseArguments]
  | succ fuel ih =>
    exact ⟨ih.parseSum_succ, ih.parseTerms_succ, ih.parseProduct_succ, ih.parseFactors_succ,
      ih.parseUnary_succ, ih.parsePrimary_succ, ih.parseArguments_succ⟩

/-- What was derived as something was not empty. -/
theorem Makes.shorter {α : Type} {Derived : List Lexeme → α → Prop} {made : α}
    (makes : Makes Derived tokens made rest)
    (head : ∀ {ls made}, Derived ls made → ∃ l more, ls = l :: more ∧ l.startsUnary = true) :
    rest.length < tokens.length := by
  obtain ⟨used, rfl, derived⟩ := makes
  obtain ⟨l, more, same, -⟩ := head derived
  have := congrArg List.length same
  simp only [List.length_map, List.length_cons, List.length_append] at this ⊢
  omega

theorem bind_congr {ε α β : Type} {x y : Except ε α} {f g : α → Except ε β} (same : x = y)
    (next : ∀ a, y = .ok a → f a = g a) : x >>= f = y >>= g := by
  subst same
  cases x with
  | error e => rfl
  | ok a => exact next a rfl

/-- Where the fuel is enough for the tokens, one more step changes nothing. -/
structure Steady (finish fuel : Nat) : Prop where
  sum : ∀ {tokens}, 5 * tokens.length + 4 ≤ fuel →
    parseSum finish (fuel + 1) tokens = parseSum finish fuel tokens
  terms : ∀ {left tokens}, 5 * tokens.length + 1 ≤ fuel →
    parseTerms finish (fuel + 1) left tokens = parseTerms finish fuel left tokens
  product : ∀ {tokens}, 5 * tokens.length + 3 ≤ fuel →
    parseProduct finish (fuel + 1) tokens = parseProduct finish fuel tokens
  factors : ∀ {left tokens}, 5 * tokens.length + 1 ≤ fuel →
    parseFactors finish (fuel + 1) left tokens = parseFactors finish fuel left tokens
  unary : ∀ {tokens}, 5 * tokens.length + 2 ≤ fuel →
    parseUnary finish (fuel + 1) tokens = parseUnary finish fuel tokens
  primary : ∀ {tokens}, 5 * tokens.length + 1 ≤ fuel →
    parsePrimary finish (fuel + 1) tokens = parsePrimary finish fuel tokens
  arguments : ∀ {tokens}, 5 * tokens.length + 5 ≤ fuel →
    parseArguments finish (fuel + 1) tokens = parseArguments finish fuel tokens

namespace Steady

variable (ih : Steady finish fuel)

include ih

theorem parseSum_succ (enough : 5 * tokens.length + 4 ≤ fuel + 1) :
    parseSum finish (fuel + 2) tokens = parseSum finish (fuel + 1) tokens := by
  unfold parseSum
  refine bind_congr (ih.product (by omega)) fun (left, middle) first => ih.terms ?_
  have := ((sound finish fuel).product first).shorter IsProduct.head
  omega

theorem parseTerms_succ (enough : 5 * tokens.length + 1 ≤ fuel + 1) :
    parseTerms finish (fuel + 2) left tokens = parseTerms finish (fuel + 1) left tokens := by
  unfold parseTerms
  split
  · next op position tokens =>
    rw [List.length_cons] at enough
    split
    · refine bind_congr (ih.product (by omega)) fun (right, middle) first => ih.terms ?_
      have := ((sound finish fuel).product first).shorter IsProduct.head
      omega
    · rfl
  · rfl

theorem parseProduct_succ (enough : 5 * tokens.length + 3 ≤ fuel + 1) :
    parseProduct finish (fuel + 2) tokens = parseProduct finish (fuel + 1) tokens := by
  unfold parseProduct
  refine bind_congr (ih.unary (by omega)) fun (left, middle) first => ih.factors ?_
  have := ((sound finish fuel).unary first).shorter IsUnary.head
  omega

theorem parseFactors_succ (enough : 5 * tokens.length + 1 ≤ fuel + 1) :
    parseFactors finish (fuel + 2) left tokens = parseFactors finish (fuel + 1) left tokens := by
  unfold parseFactors
  split
  · next op position tokens =>
    rw [List.length_cons] at enough
    split
    · refine bind_congr (ih.unary (by omega)) fun (right, middle) first => ih.factors ?_
      have := ((sound finish fuel).unary first).shorter IsUnary.head
      omega
    · rfl
  · rfl

theorem parseUnary_succ (enough : 5 * tokens.length + 2 ≤ fuel + 1) :
    parseUnary finish (fuel + 2) tokens = parseUnary finish (fuel + 1) tokens := by
  unfold parseUnary
  split
  · next position tokens =>
    rw [List.length_cons] at enough
    exact bind_congr (ih.unary (by omega)) fun _ _ => rfl
  · exact ih.primary (by omega)

theorem parsePrimary_succ (enough : 5 * tokens.length + 1 ≤ fuel + 1) :
    parsePrimary finish (fuel + 2) tokens = parsePrimary finish (fuel + 1) tokens := by
  unfold parsePrimary
  split
  · rfl
  · rfl
  · rfl
  · next name p q tokens _ =>
    simp only [List.length_cons] at enough
    exact bind_congr (ih.arguments (by omega)) fun _ _ => rfl
  · rfl
  · next p tokens =>
    rw [List.length_cons] at enough
    exact bind_congr (ih.sum (by omega)) fun _ _ => rfl
  · rfl

theorem parseArguments_succ (enough : 5 * tokens.length + 5 ≤ fuel + 1) :
    parseArguments finish (fuel + 2) tokens = parseArguments finish (fuel + 1) tokens := by
  unfold parseArguments
  refine bind_congr (ih.sum (by omega)) fun (argument, middle) first => ?_
  have shorter := ((sound finish fuel).sum first).shorter IsSum.head
  dsimp only
  split
  · rw [List.length_cons] at shorter
    exact bind_congr (ih.arguments (by omega)) fun _ _ => rfl
  · rfl

end Steady

theorem steady (finish fuel : Nat) : Steady finish fuel := by
  induction fuel with
  | zero =>
    constructor
    all_goals
      intros
      omega
  | succ fuel ih =>
    exact ⟨ih.parseSum_succ, ih.parseTerms_succ, ih.parseProduct_succ, ih.parseFactors_succ,
      ih.parseUnary_succ, ih.parsePrimary_succ, ih.parseArguments_succ⟩

/-- The fuel that a statement is parsed with is never used up: more of it changes nothing. -/
theorem parseSum_eq_of_le (enough : 5 * tokens.length + 5 ≤ fuel) :
    parseSum finish fuel tokens = parseSum finish (5 * tokens.length + 5) tokens := by
  induction fuel, enough using Nat.le_induction with
  | base => rfl
  | succ fuel enough ih => rw [(steady finish fuel).sum (by omega), ih]

end Expr

end Dataflow
