import Dataflow.Proofs.Expr.Parsing

/-! Where the parser finds fault: at one of its tokens, or at the end of the text if the tokens ran out.
A function that fails after another one succeeded fails at what that one left, so only the tokens that
are left have to be followed. -/

namespace Dataflow

namespace Expr

variable {finish fuel : Nat} {tokens used rest : List Token} {left : Expr} {fault : ParseError}

/-- A fault is found at a token or at the end. -/
def Placed (finish : Nat) (tokens : List Token) (fault : ParseError) : Prop :=
  fault.position = finish ∨ fault.position ∈ tokens.map Token.position

theorem Placed.after (placed : Placed finish rest fault) : Placed finish (used ++ rest) fault := by
  refine placed.imp_right fun listed => ?_
  rw [List.map_append]
  exact List.mem_append_right _ listed

theorem Placed.cons (t : Token) (placed : Placed finish rest fault) :
    Placed finish (t :: rest) fault := by
  rw [← List.singleton_append]
  exact placed.after

theorem placed_head (t : Token) (rest : List Token) (problem : ParseProblem) :
    Placed finish (t :: rest) ⟨t.position, problem⟩ := by
  simp [Placed]

theorem Makes.placed {α : Type} {Derived : List Lexeme → α → Prop} {made : α}
    (makes : Makes Derived tokens made rest) (placed : Placed finish rest fault) :
    Placed finish tokens fault := by
  obtain ⟨used, rfl, -⟩ := makes
  exact placed.after

theorem bind_eq_error {ε α β : Type} {x : Except ε α} {f : α → Except ε β} {e : ε} :
    x >>= f = .error e ↔ x = .error e ∨ ∃ a, x = .ok a ∧ f a = .error e := by
  cases x <;> simp [bind, Except.bind]

theorem placed_expectClosing (failed : expectClosing finish tokens = .error fault) :
    Placed finish tokens fault := by
  unfold expectClosing at failed
  split at failed
  · cases failed
  · cases failed
    exact placed_head _ _ _
  · cases failed
    exact .inl rfl

/-- The functions of the parser find fault at their tokens. -/
structure Located (finish fuel : Nat) : Prop where
  sum : ∀ {tokens fault}, parseSum finish fuel tokens = .error fault → Placed finish tokens fault
  terms : ∀ {left tokens fault}, parseTerms finish fuel left tokens = .error fault →
    Placed finish tokens fault
  product : ∀ {tokens fault}, parseProduct finish fuel tokens = .error fault →
    Placed finish tokens fault
  factors : ∀ {left tokens fault}, parseFactors finish fuel left tokens = .error fault →
    Placed finish tokens fault
  unary : ∀ {tokens fault}, parseUnary finish fuel tokens = .error fault →
    Placed finish tokens fault
  primary : ∀ {tokens fault}, parsePrimary finish fuel tokens = .error fault →
    Placed finish tokens fault
  arguments : ∀ {tokens fault}, parseArguments finish fuel tokens = .error fault →
    Placed finish tokens fault

namespace Located

variable (ih : Located finish fuel)

include ih

theorem parseSum_succ (failed : parseSum finish (fuel + 1) tokens = .error fault) :
    Placed finish tokens fault := by
  unfold parseSum at failed
  rcases bind_eq_error.1 failed with first | ⟨⟨left, rest⟩, first, others⟩
  · exact ih.product first
  · exact ((sound finish fuel).product first).placed (ih.terms others)

theorem parseTerms_succ (failed : parseTerms finish (fuel + 1) left tokens = .error fault) :
    Placed finish tokens fault := by
  unfold parseTerms at failed
  split at failed
  · split at failed
    · rcases bind_eq_error.1 failed with first | ⟨⟨right, rest⟩, first, others⟩
      · exact (ih.product first).cons _
      · exact (((sound finish fuel).product first).placed (ih.terms others)).cons _
    · cases failed
  · cases failed

theorem parseProduct_succ (failed : parseProduct finish (fuel + 1) tokens = .error fault) :
    Placed finish tokens fault := by
  unfold parseProduct at failed
  rcases bind_eq_error.1 failed with first | ⟨⟨left, rest⟩, first, others⟩
  · exact ih.unary first
  · exact ((sound finish fuel).unary first).placed (ih.factors others)

theorem parseFactors_succ (failed : parseFactors finish (fuel + 1) left tokens = .error fault) :
    Placed finish tokens fault := by
  unfold parseFactors at failed
  split at failed
  · split at failed
    · rcases bind_eq_error.1 failed with first | ⟨⟨right, rest⟩, first, others⟩
      · exact (ih.unary first).cons _
      · exact (((sound finish fuel).unary first).placed (ih.factors others)).cons _
    · cases failed
  · cases failed

theorem parseUnary_succ (failed : parseUnary finish (fuel + 1) tokens = .error fault) :
    Placed finish tokens fault := by
  unfold parseUnary at failed
  split at failed
  · rcases bind_eq_error.1 failed with first | ⟨⟨operand, rest⟩, -, others⟩
    · exact (ih.unary first).cons _
    · cases others
  · exact ih.primary failed

theorem parsePrimary_succ (failed : parsePrimary finish (fuel + 1) tokens = .error fault) :
    Placed finish tokens fault := by
  unfold parsePrimary at failed
  split at failed
  · cases failed
    exact .inl rfl
  · cases failed
  · cases failed
  · rcases bind_eq_error.1 failed with first | ⟨⟨arguments, rest⟩, first, others⟩
    · exact ((ih.arguments first).cons _).cons _
    · rcases bind_eq_error.1 others with closing | ⟨_, -, others⟩
      · have placed := ((sound finish fuel).arguments first).placed (placed_expectClosing closing)
        exact (placed.cons _).cons _
      · cases others
  · cases failed
  · rcases bind_eq_error.1 failed with first | ⟨⟨inner, rest⟩, first, others⟩
    · exact (ih.sum first).cons _
    · rcases bind_eq_error.1 others with closing | ⟨_, -, others⟩
      · exact (((sound finish fuel).sum first).placed (placed_expectClosing closing)).cons _
      · cases others
  · cases failed
    exact placed_head _ _ _

theorem parseArguments_succ (failed : parseArguments finish (fuel + 1) tokens = .error fault) :
    Placed finish tokens fault := by
  unfold parseArguments at failed
  rcases bind_eq_error.1 failed with first | ⟨⟨argument, rest⟩, first, others⟩
  · exact ih.sum first
  · refine ((sound finish fuel).sum first).placed ?_
    dsimp only at others
    split at others
    · rcases bind_eq_error.1 others with more | ⟨_, -, others⟩
      · exact (ih.arguments more).cons _
      · cases others
    · cases others

end Located

theorem located (finish fuel : Nat) : Located finish fuel := by
  induction fuel with
  | zero =>
    constructor
    all_goals
      intros
      next failed =>
        cases failed
        exact .inl rfl
  | succ fuel ih =>
    exact ⟨ih.parseSum_succ, ih.parseTerms_succ, ih.parseProduct_succ, ih.parseFactors_succ,
      ih.parseUnary_succ, ih.parsePrimary_succ, ih.parseArguments_succ⟩

/-- A fault of a statement is found at one of its tokens, at the end of the text, or at its start if
there is no target. -/
theorem placed_ofTokens (failed : ofTokens finish tokens = .error fault) :
    fault.position = 0 ∨ Placed finish tokens fault := by
  unfold ofTokens at failed
  split at failed
  · refine .inr (.cons _ (.cons _ ?_))
    rcases bind_eq_error.1 failed with first | ⟨⟨value, rest⟩, first, others⟩
    · exact (located finish _).sum first
    · refine ((sound finish _).sum first).placed ?_
      cases rest with
      | nil => cases others
      | cons t rest =>
        cases others
        exact placed_head t rest _
  · cases failed
    exact .inl rfl

end Expr

end Dataflow
