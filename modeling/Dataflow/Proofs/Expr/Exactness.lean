import Dataflow.Proofs.Expr.Parsing
import Mathlib.Order.Filter.AtTopBot.Basic

/-! The parser finds every tree that the grammar derives, so it accepts just the sequences of tokens
that are derived, and no sequence has two trees. A part is parsed as such whatever follows it, as long
as that does not go on with the part; the tree of a sum is built up while its terms are read, so its
derivation says where the reading of terms has come to, not how it ends. -/

namespace Dataflow

namespace Expr

variable {finish fuel : Nat} {tokens rest : List Token} {e left : Expr}

open Filter

theorem eventually_of_succ {p : ℕ → Prop} (h : ∀ᶠ n in atTop, p (n + 1)) : ∀ᶠ n in atTop, p n := by
  obtain ⟨least, h⟩ := eventually_atTop.1 h
  refine eventually_atTop.2 ⟨least + 1, fun n le => ?_⟩
  obtain ⟨m, rfl⟩ := Nat.exists_eq_add_of_le' (Nat.le_of_add_left_le le)
  exact h m (Nat.le_of_succ_le_succ le)

/-- No list of arguments goes on with these tokens, and no operator of a kind. -/
def Ends (goesOn : Arithmetic → Bool) (rest : List Token) : Prop :=
  ∀ t ∈ rest.head?, t.lexeme ≠ .opening ∧ ∀ op, t.lexeme = .operator op → goesOn op = false

theorem Ends.mono {goesOn goesOn' : Arithmetic → Bool} (ends : Ends goesOn rest)
    (le : ∀ op, goesOn op = false → goesOn' op = false) : Ends goesOn' rest :=
  fun t first => ⟨(ends t first).1, fun op same => le op ((ends t first).2 op same)⟩

theorem ends_nil (goesOn : Arithmetic → Bool) : Ends goesOn [] := fun t first => by cases first

theorem ends_operator {goesOn : Arithmetic → Bool} {op : Arithmetic} (other : goesOn op = false)
    (position : Nat) (rest : List Token) : Ends goesOn (⟨.operator op, position⟩ :: rest) := by
  intro t first
  obtain rfl := Option.some.inj first
  refine ⟨nofun, fun op' same => ?_⟩
  cases same
  exact other

theorem ends_closing (goesOn : Arithmetic → Bool) (position : Nat) (rest : List Token) :
    Ends goesOn (⟨.closing, position⟩ :: rest) := by
  intro t first
  obtain rfl := Option.some.inj first
  exact ⟨nofun, nofun⟩

theorem ends_comma (goesOn : Arithmetic → Bool) (position : Nat) (rest : List Token) :
    Ends goesOn (⟨.comma, position⟩ :: rest) := by
  intro t first
  obtain rfl := Option.some.inj first
  exact ⟨nofun, nofun⟩

theorem parseTerms_of_ends (finish : Nat) (left : Expr) (ends : Ends isAdditive rest) :
    ∀ᶠ fuel in atTop, parseTerms finish fuel left rest = .ok (left, rest) := by
  refine eventually_of_succ (.of_forall fun fuel => ?_)
  unfold parseTerms
  split
  · rw [if_neg (ne_true_of_eq_false ((ends _ rfl).2 _ rfl))]
  · rfl

theorem parseFactors_of_ends (finish : Nat) (left : Expr) (ends : Ends isMultiplicative rest) :
    ∀ᶠ fuel in atTop, parseFactors finish fuel left rest = .ok (left, rest) := by
  refine eventually_of_succ (.of_forall fun fuel => ?_)
  unfold parseFactors
  split
  · rw [if_neg (ne_true_of_eq_false ((ends _ rfl).2 _ rfl))]
  · rfl

theorem parsePrimary_symbol (name : String) (position : Nat) (ends : Ends (fun _ => false) rest) :
    parsePrimary finish (fuel + 1) (⟨.symbol name, position⟩ :: rest) = .ok (.symbol name, rest) := by
  cases rest with
  | nil => rfl
  | cons t rest =>
    obtain ⟨l, position⟩ := t
    have ne := (ends _ rfl).1
    cases l with
    | opening => exact absurd rfl ne
    | _ => rfl

theorem parsePrimary_call {name : String} {p q : Nat} {first : Token} (ne : first.lexeme ≠ .closing) :
    parsePrimary finish (fuel + 1) (⟨.symbol name, p⟩ :: ⟨.opening, q⟩ :: first :: tokens) = (do
      let (arguments, rest) ← parseArguments finish fuel (first :: tokens)
      let rest ← expectClosing finish rest
      return (.apply name arguments, rest)) := by
  obtain ⟨l, position⟩ := first
  cases l with
  | closing => exact absurd rfl ne
  | _ => rfl

theorem parseUnary_primary {first : Token} (starts : first.lexeme.startsPrimary = true) :
    parseUnary finish (fuel + 1) (first :: tokens) = parsePrimary finish fuel (first :: tokens) := by
  obtain ⟨l, position⟩ := first
  cases l with
  | operator op => cases starts
  | _ => rfl

theorem eq_cons_of_map {l : Lexeme} {ls : List Lexeme} (same : tokens.map Token.lexeme = l :: ls) :
    ∃ position others, tokens = ⟨l, position⟩ :: others ∧ others.map Token.lexeme = ls := by
  obtain ⟨⟨_, position⟩, others, rfl, rfl, last⟩ := List.map_eq_cons_iff.1 same
  exact ⟨position, others, rfl, last⟩

theorem eq_append_of_map {l : Lexeme} {ls rs : List Lexeme}
    (same : tokens.map Token.lexeme = ls ++ l :: rs) :
    ∃ before position others, tokens = before ++ ⟨l, position⟩ :: others ∧
      before.map Token.lexeme = ls ∧ others.map Token.lexeme = rs := by
  obtain ⟨before, others, rfl, first, more⟩ := List.map_eq_append_iff.1 same
  obtain ⟨position, others, rfl, last⟩ := eq_cons_of_map more
  exact ⟨before, position, others, rfl, first, last⟩

mutual

/-- Tokens that make a sum are parsed as it, and what follows as its further terms. -/
theorem IsSum.parsed {ls : List Lexeme} {e : Expr} : IsSum ls e → ∀ {used rest : List Token}
    {result : Parsed}, used.map Token.lexeme = ls → Ends isMultiplicative rest →
    (∀ᶠ fuel in atTop, parseTerms finish fuel e rest = result) →
    ∀ᶠ fuel in atTop, parseSum finish fuel (used ++ rest) = result
  | .product product, used, rest, result, same, ends, onward => by
    have first := product.parsed same (ends.mono fun _ _ => rfl) (parseFactors_of_ends finish e ends)
    refine eventually_of_succ ?_
    filter_upwards [first, onward] with fuel first onward
    rw [parseSum, first]
    exact onward
  | .further sum additive product, used, rest, result, same, ends, onward => by
    obtain ⟨before, position, others, rfl, first, last⟩ := eq_append_of_map same
    have second := product.parsed last (ends.mono fun _ _ => rfl) (parseFactors_of_ends finish _ ends)
    rw [List.append_assoc, List.cons_append]
    refine sum.parsed first (ends_operator ?_ _ _) (eventually_of_succ ?_)
    · rcases additive with rfl | rfl <;> rfl
    · filter_upwards [second, onward] with fuel second onward
      unfold parseTerms
      dsimp only
      rw [if_pos (isAdditive_iff.2 additive), second]
      exact onward

theorem IsProduct.parsed {ls : List Lexeme} {e : Expr} : IsProduct ls e → ∀ {used rest : List Token}
    {result : Parsed}, used.map Token.lexeme = ls → Ends (fun _ => false) rest →
    (∀ᶠ fuel in atTop, parseFactors finish fuel e rest = result) →
    ∀ᶠ fuel in atTop, parseProduct finish fuel (used ++ rest) = result
  | .unary unary, used, rest, result, same, ends, onward => by
    refine eventually_of_succ ?_
    filter_upwards [unary.parsed same ends, onward] with fuel first onward
    rw [parseProduct, first]
    exact onward
  | .further product multiplicative unary, used, rest, result, same, ends, onward => by
    obtain ⟨before, position, others, rfl, first, last⟩ := eq_append_of_map same
    rw [List.append_assoc, List.cons_append]
    refine product.parsed first (ends_operator rfl _ _) (eventually_of_succ ?_)
    filter_upwards [unary.parsed last ends, onward] with fuel second onward
    unfold parseFactors
    dsimp only
    rw [if_pos (isMultiplicative_iff.2 multiplicative), second]
    exact onward

theorem IsUnary.parsed {ls : List Lexeme} {e : Expr} : IsUnary ls e → ∀ {used rest : List Token},
    used.map Token.lexeme = ls → Ends (fun _ => false) rest →
    ∀ᶠ fuel in atTop, parseUnary finish fuel (used ++ rest) = .ok (e, rest)
  | .minus unary negates, used, rest, same, ends => by
    obtain ⟨position, operand, rfl, last⟩ := eq_cons_of_map same
    obtain rfl := negates_iff.1 negates
    refine eventually_of_succ ?_
    filter_upwards [unary.parsed last ends] with fuel parsed
    exact bind_eq_ok.2 ⟨_, parsed, rfl⟩
  | .primary primary, used, rest, same, ends => by
    refine eventually_of_succ ?_
    filter_upwards [primary.parsed same ends] with fuel parsed
    obtain ⟨l, more, rfl, starts⟩ := primary.head
    obtain ⟨position, others, rfl, -⟩ := eq_cons_of_map same
    exact (parseUnary_primary starts).trans parsed

theorem IsPrimary.parsed {ls : List Lexeme} {e : Expr} : IsPrimary ls e →
    ∀ {used rest : List Token}, used.map Token.lexeme = ls → Ends (fun _ => false) rest →
    ∀ᶠ fuel in atTop, parsePrimary finish fuel (used ++ rest) = .ok (e, rest)
  | .literal value, used, rest, same, _ => by
    obtain ⟨position, others, rfl, last⟩ := eq_cons_of_map same
    obtain rfl := List.map_eq_nil_iff.1 last
    exact eventually_of_succ (.of_forall fun fuel => rfl)
  | .symbol name, used, rest, same, ends => by
    obtain ⟨position, others, rfl, last⟩ := eq_cons_of_map same
    obtain rfl := List.map_eq_nil_iff.1 last
    exact eventually_of_succ (.of_forall fun fuel => parsePrimary_symbol name position ends)
  | .call name, used, rest, same, _ => by
    obtain ⟨p, afterName, rfl, same'⟩ := eq_cons_of_map same
    obtain ⟨q, afterOpening, rfl, same''⟩ := eq_cons_of_map same'
    obtain ⟨r, others, rfl, last⟩ := eq_cons_of_map same''
    obtain rfl := List.map_eq_nil_iff.1 last
    exact eventually_of_succ (.of_forall fun fuel => rfl)
  | .callWith name given, used, rest, same, _ => by
    obtain ⟨p, afterName, rfl, same'⟩ := eq_cons_of_map same
    obtain ⟨q, afterOpening, rfl, same''⟩ := eq_cons_of_map same'
    obtain ⟨inner, r, others, rfl, first, last⟩ := eq_append_of_map same''
    obtain rfl := List.map_eq_nil_iff.1 last
    refine eventually_of_succ ?_
    filter_upwards [given.parsed first] with fuel parsed
    obtain ⟨l, more, rfl, ne⟩ := given.head
    obtain ⟨position, arguments, rfl, -⟩ := eq_cons_of_map first
    simp only [List.cons_append, List.append_assoc, List.nil_append] at parsed ⊢
    rw [parsePrimary_call ne]
    exact bind_eq_ok.2 ⟨_, parsed, rfl⟩
  | .group sum, used, rest, same, _ => by
    obtain ⟨p, afterOpening, rfl, same'⟩ := eq_cons_of_map same
    obtain ⟨inner, q, others, rfl, first, last⟩ := eq_append_of_map same'
    obtain rfl := List.map_eq_nil_iff.1 last
    refine eventually_of_succ ?_
    filter_upwards [sum.parsed first (ends_closing _ q rest)
      (parseTerms_of_ends finish _ (ends_closing _ q rest))] with fuel parsed
    simp only [List.cons_append, List.append_assoc, List.nil_append]
    exact bind_eq_ok.2 ⟨_, parsed, rfl⟩

theorem AreArguments.parsed {ls : List Lexeme} {es : List Expr} : AreArguments ls es →
    ∀ {used rest : List Token} {position : Nat}, used.map Token.lexeme = ls →
    ∀ᶠ fuel in atTop, parseArguments finish fuel (used ++ ⟨.closing, position⟩ :: rest) =
      .ok (es, ⟨.closing, position⟩ :: rest)
  | .last sum, used, rest, position, same => by
    refine eventually_of_succ ?_
    filter_upwards [sum.parsed same (ends_closing _ position rest)
      (parseTerms_of_ends finish _ (ends_closing _ position rest))] with fuel parsed
    exact bind_eq_ok.2 ⟨_, parsed, rfl⟩
  | .more sum given, used, rest, position, same => by
    obtain ⟨before, p, others, rfl, first, last⟩ := eq_append_of_map same
    rw [List.append_assoc, List.cons_append]
    refine eventually_of_succ ?_
    filter_upwards [sum.parsed first (ends_comma _ p _)
      (parseTerms_of_ends finish _ (ends_comma _ p _)), given.parsed last] with fuel parsed more
    exact bind_eq_ok.2 ⟨_, parsed, bind_eq_ok.2 ⟨_, more, rfl⟩⟩

end

/-- What is derived is parsed, given the fuel of a statement. -/
theorem IsSum.parseSum_eq (finish : Nat) (sum : IsSum (tokens.map Token.lexeme) e) :
    parseSum finish (5 * tokens.length + 5) tokens = .ok (e, []) := by
  have parsed := sum.parsed rfl (ends_nil _) (parseTerms_of_ends finish e (ends_nil _))
  rw [List.append_nil] at parsed
  obtain ⟨fuel, parsed, enough⟩ :=
    (parsed.and (eventually_ge_atTop (5 * tokens.length + 5))).exists
  rw [← parseSum_eq_of_le enough, parsed]

theorem IsSum.unique {ls : List Lexeme} {e e' : Expr} (sum : IsSum ls e) (sum' : IsSum ls e') :
    e = e' := by
  have lexemes : (ls.map fun l => (⟨l, 0⟩ : Token)).map Token.lexeme = ls := by
    rw [List.map_map]
    exact List.map_id ls
  rw [← lexemes] at sum sum'
  have same := (sum.parseSum_eq 0).symm.trans (sum'.parseSum_eq 0)
  simpa using same

theorem ofTokens_cons (finish : Nat) (target : String) (p q : Nat) (tokens : List Token) :
    ofTokens finish (⟨.symbol target, p⟩ :: ⟨.equals, q⟩ :: tokens) = .ok (target, e) ↔
      parseSum finish (5 * tokens.length + 5) tokens = .ok (e, []) := by
  unfold ofTokens
  rw [bind_eq_ok]
  constructor
  · rintro ⟨⟨value, rest⟩, parsed, finished⟩
    cases rest with
    | nil =>
      cases finished
      exact parsed
    | cons t rest => cases finished
  · intro parsed
    exact ⟨_, parsed, rfl⟩

/-- A statement begins with its target and the sign. -/
theorem target_of_ofTokens {target : String} (parsed : ofTokens finish tokens = .ok (target, e)) :
    ∃ p q rest, tokens = ⟨.symbol target, p⟩ :: ⟨.equals, q⟩ :: rest := by
  unfold ofTokens at parsed
  split at parsed
  · next name p q rest =>
    obtain ⟨⟨value, left⟩, -, finished⟩ := bind_eq_ok.1 parsed
    cases left with
    | nil =>
      cases finished
      exact ⟨p, q, rest, rfl⟩
    | cons t left => cases finished
  · cases parsed

/-- A statement does not depend on where its tokens stand. -/
theorem ofTokens_alike {tokens' : List Token} {target : String} {finish' : Nat}
    (parsed : ofTokens finish tokens = .ok (target, e))
    (same : tokens'.map Token.lexeme = tokens.map Token.lexeme) :
    ofTokens finish' tokens' = .ok (target, e) := by
  obtain ⟨p, q, rest, rfl⟩ := target_of_ofTokens parsed
  obtain ⟨used, lexemes, sum⟩ := (sound finish _).sum ((ofTokens_cons ..).1 parsed)
  obtain ⟨p', afterTarget, rfl, same'⟩ := eq_cons_of_map same
  obtain ⟨q', rest', rfl, same''⟩ := eq_cons_of_map same'
  rw [List.append_nil] at lexemes
  rw [← lexemes, ← same''] at sum
  exact (ofTokens_cons ..).2 (sum.parseSum_eq finish')

/-- The tokens that are parsed as a statement are those that the grammar derives as it: the target,
the sign, and a sum up to the last token. There is no more than one, and no limit is ever reached. -/
theorem ofTokens_exact (finish : Nat) (tokens : List Token) :
    (∀ target value, ofTokens finish tokens = .ok (target, value) ↔
      ∃ ls, tokens.map Token.lexeme = .symbol target :: .equals :: ls ∧ IsSum ls value) ∧
    (∀ ls value value', IsSum ls value → IsSum ls value' → value = value') ∧
    ∀ fuel, 5 * tokens.length + 5 ≤ fuel →
      parseSum finish fuel tokens = parseSum finish (5 * tokens.length + 5) tokens := by
  refine ⟨fun target value => ⟨fun parsed => ?_, ?_⟩, fun _ _ _ => IsSum.unique, fun _ =>
    parseSum_eq_of_le⟩
  · obtain ⟨p, q, rest, rfl⟩ := target_of_ofTokens parsed
    obtain ⟨used, rfl, sum⟩ := (sound finish _).sum ((ofTokens_cons ..).1 parsed)
    rw [List.append_nil]
    exact ⟨_, rfl, sum⟩
  · rintro ⟨ls, same, sum⟩
    obtain ⟨p, afterTarget, rfl, same'⟩ := eq_cons_of_map same
    obtain ⟨q, rest, rfl, rfl⟩ := eq_cons_of_map same'
    exact (ofTokens_cons ..).2 (sum.parseSum_eq finish)

end Expr

end Dataflow
