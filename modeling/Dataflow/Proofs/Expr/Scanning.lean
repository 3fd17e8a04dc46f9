import Dataflow.Proofs.Expr.Names
import Mathlib.Data.Bool.AllAny

/-! Scanning part by part. What a part of a text reads as does not depend on what stands around it, as
long as nothing follows that could continue its last number; so the lexemes of a text are put together as
the text is. -/

namespace Dataflow.Token

variable {c : Char} {cs ds rest : List Char} {l : Lexeme} {ls rs : List Lexeme}

/-- A text reads as lexemes, wherever it stands. -/
inductive Scans : List Char → List Lexeme → Prop
  | done : Scans [] []
  | blank {c : Char} {cs : List Char} {ls : List Lexeme} (blank : Text.isBlank c = true)
      (later : Scans cs ls) : Scans (c :: cs) ls
  | lexeme {c : Char} {cs spelling rest : List Char} {l : Lexeme} {ls : List Lexeme}
      (solid : Text.isBlank c = false) (starts : first c cs = .ok (l, spelling, rest))
      (shorter : rest.length ≤ cs.length) (later : Scans rest ls) : Scans (c :: cs) (l :: ls)

theorem Scans.scanFrom (scans : Scans cs ls) {fuel : Nat} (enough : cs.length ≤ fuel)
    (position : Nat) :
    ∃ ts, Token.scanFrom fuel position cs = .ok ts ∧ ts.map Token.lexeme = ls := by
  induction scans generalizing fuel position with
  | done => exact ⟨[], by cases fuel <;> rfl, rfl⟩
  | blank blank _ ih =>
    obtain _ | fuel := fuel
    · cases enough
    · rw [scanFrom_cons, if_pos blank]
      exact ih (Nat.le_of_succ_le_succ enough) _
  | @lexeme c cs spelling rest l ls solid starts shorter _ ih =>
    obtain _ | fuel := fuel
    · cases enough
    · obtain ⟨ts, later, rfl⟩ := ih (Nat.le_trans shorter (Nat.le_of_succ_le_succ enough))
        (position + byteLength spelling)
      refine ⟨⟨l, position⟩ :: ts, ?_, rfl⟩
      rw [scanFrom_cons, if_neg (by simp [solid]), starts]
      simp only [later]
      rfl

/-- The characters that are lexemes of their own. -/
def marks : List Char := ['+', '-', '*', '/', '(', ')', ',', '=']

theorem single?_eq_none (plain : c ∉ marks) : single? c = none := by
  have ne : ∀ d ∈ marks, c ≠ d := fun d listed same => plain (same ▸ listed)
  have operator : Arithmetic.all.find? (fun op => op.mark == c) = none := by
    refine List.find?_eq_none.2 fun op _ same => ne op.mark ?_ (beq_iff_eq.1 same).symm
    cases op <;> decide
  rw [single?, operator]
  simp [ne '(' (by decide), ne ')' (by decide), ne ',' (by decide), ne '=' (by decide)]

theorem mem_marks (mark : single? c = some l) : c ∈ marks := by
  by_contra plain
  rw [single?_eq_none plain] at mark
  cases mark

/-- Nothing that could continue a number follows. -/
def Stops (rest : List Char) : Prop := ∀ c ∈ rest.head?, c.isAlphanum = false ∧ c ≠ '.'

theorem stops_nil : Stops [] := nofun

theorem stops_blank (blank : Text.isBlank c = true) (rest : List Char) : Stops (c :: rest) := by
  have none : ∀ d ∈ ' ' :: Text.rareBlanks, d.isAlphanum = false ∧ d ≠ '.' :=
    List.all_iff_forall_prop.1 rfl
  rintro d ⟨⟩
  exact none c (Text.isBlank_iff.1 blank)

theorem stops_mark (mark : single? c = some l) (rest : List Char) : Stops (c :: rest) := by
  have none : ∀ d ∈ marks, d.isAlphanum = false ∧ d ≠ '.' := List.all_iff_forall_prop.1 rfl
  rintro d ⟨⟩
  exact none c (mem_marks mark)

/-- Digits are cut off as a whole, also where a blank or a mark follows. -/
theorem numberSpan_digits {before : Char} (digit : before.isDigit = true)
    (digits : ∀ d ∈ ds, d.isDigit = true) (stops : Stops rest) :
    numberSpan before (ds ++ rest) = (ds, rest) := by
  induction ds generalizing before with
  | nil =>
    have exponent : (before == 'e' || before == 'E') = false := by
      rw [Bool.or_eq_false_iff, beq_eq_false_iff_ne, beq_eq_false_iff_ne]
      constructor
      · rintro rfl
        cases digit
      · rintro rfl
        cases digit
    refine numberSpan_of_stops fun c first => ?_
    obtain ⟨other, point⟩ := stops c first
    simp [continuesNumber, other, point, exponent]
  | cons d ds ih =>
    obtain ⟨first, others⟩ := List.forall_mem_cons.1 digits
    have goesOn : continuesNumber before d = true := by
      simp [continuesNumber, Char.isAlphanum, first]
    rw [List.cons_append, numberSpan, if_pos goesOn, ih first others]

/-- A part of a text reads as lexemes, whatever follows that does not continue its last number. -/
def Lexes (cs : List Char) (ls : List Lexeme) : Prop :=
  ∀ ⦃rest : List Char⦄ ⦃rs : List Lexeme⦄, Stops rest → Scans rest rs →
    Scans (cs ++ rest) (ls ++ rs)

theorem Lexes.scans (lexes : Lexes cs ls) : Scans cs ls := by
  have scans := lexes stops_nil .done
  rwa [List.append_nil, List.append_nil] at scans

theorem Scans.mark (mark : single? c = some l) (later : Scans cs ls) :
    Scans (c :: cs) (l :: ls) := by
  have none : ∀ d ∈ marks, Text.isBlank d = false := List.all_iff_forall_prop.1 rfl
  have starts : first c cs = .ok (l, [c], cs) := by
    simp only [first, mark]
  exact .lexeme (none c (mem_marks mark)) starts (Nat.le_refl _) later

theorem Lexes.after_blank (blank : Text.isBlank c = true) (lexes : Lexes cs ls) :
    Lexes (c :: cs) ls :=
  fun _ _ stops later => .blank blank (lexes stops later)

theorem Lexes.before_blank (lexes : Lexes cs ls) (blank : Text.isBlank c = true) :
    Lexes (cs ++ [c]) ls := by
  intro rest rs _ later
  rw [List.append_assoc]
  exact lexes (stops_blank blank rest) (.blank blank later)

theorem Lexes.after_mark (mark : single? c = some l) (lexes : Lexes cs ls) :
    Lexes (c :: cs) (l :: ls) :=
  fun _ _ stops later => .mark mark (lexes stops later)

theorem Lexes.around_mark (left : Lexes cs ls) (mark : single? c = some l) (right : Lexes ds rs) :
    Lexes (cs ++ c :: ds) (ls ++ l :: rs) := by
  intro rest others stops later
  rw [List.append_assoc, List.append_assoc]
  exact left (stops_mark mark _) (.mark mark (right stops later))

theorem lexes_nil : Lexes [] [] := fun _ _ _ later => later

/-- All digits make one number, if it fits 64 bits. -/
theorem lexes_digits {value : Constant} (filled : ds ≠ []) (digits : ∀ d ∈ ds, d.isDigit = true)
    (fits : Constant.ofInt? (Binary64.digitsValue ds) = some value) :
    Lexes ds [.literal value] := by
  intro rest rs stops later
  obtain ⟨d, ds, rfl⟩ := List.exists_cons_of_ne_nil filled
  obtain ⟨digit, others⟩ := List.forall_mem_cons.1 digits
  have span := numberSpan_digits digit others stops
  have other : ∀ c ∈ '"' :: '\'' :: marks ++ ' ' :: Text.rareBlanks, c.isDigit = false :=
    List.all_iff_forall_prop.1 rfl
  have ne : ∀ c ∈ '"' :: '\'' :: marks ++ ' ' :: Text.rareBlanks, d ≠ c := by
    rintro c listed rfl
    rw [other d listed] at digit
    cases digit
  have plain : single? d = none := single?_eq_none fun listed => ne d (by simp [listed]) rfl
  have unquoted : (d = '"' || d = '\'') = false := by
    simp [ne '"' (by simp), ne '\'' (by simp)]
  have solid : Text.isBlank d = false := by
    rw [← Bool.not_eq_true, Text.isBlank_iff]
    exact fun listed => ne d (by simp_all) rfl
  have read : readNumber? (d :: ds) = some value := by
    rw [readNumber?, if_pos (List.all_eq_true.2 digits), fits]
  have starts : first d (ds ++ rest) = .ok (.literal value, d :: ds, rest) := by
    rw [first, plain]
    simp only [unquoted, Bool.false_eq_true, if_false, digit, Bool.true_or, if_true, span, read]
  exact .lexeme solid starts (by simp) later

/-- A character that starts a symbol starts one whatever follows. -/
theorem first_symbol {spelling : List Char} {name : String}
    (starts : first c cs = .ok (.symbol name, spelling, rest)) (ds : List Char) :
    first c ds = .ok (.symbol (.ofList (c :: ds.takeWhile continuesSymbol)),
      c :: ds.takeWhile continuesSymbol, ds.dropWhile continuesSymbol) := by
  cases first_eq_ok.1 starts with
  | mark mark => exact absurd mark (single?_ne_symbol c name)
  | symbol plain unquoted other letter =>
    exact first_eq_ok.2 (.symbol plain unquoted other letter)

theorem exists_first_of_scanFrom {fuel position p : Nat} {name : String}
    (only : scanFrom fuel position cs = .ok [⟨.symbol name, p⟩]) :
    ∃ c ds spelling rest, first c ds = .ok (.symbol name, spelling, rest) := by
  induction fuel generalizing position cs with
  | zero => cases only
  | succ fuel ih =>
    cases cs with
    | nil => cases only
    | cons c cs =>
      obtain ⟨-, later⟩ | ⟨-, _, spelling, rest, _, starts, -, same⟩ := scanFrom_cons_eq_ok only
      · exact ih later
      · cases same
        exact ⟨c, cs, spelling, rest, starts⟩

/-- A symbol is cut off as a whole where nothing follows that could continue it. -/
theorem Scans.symbol {ds spelling others : List Char} {name : String}
    (starts : first c ds = .ok (.symbol name, spelling, others))
    (stops : ∀ d ∈ rest.head?, continuesSymbol d = false) (later : Scans rest ls) :
    Scans (name.toList ++ rest) (.symbol name :: ls) := by
  obtain ⟨spelled, -, continues⟩ := first_eq_symbol starts
  have all : ∀ d ∈ ds.takeWhile continuesSymbol, continuesSymbol d = true :=
    fun d hd => List.mem_takeWhile_imp hd
  obtain ⟨taken, left⟩ := cut_symbol all stops
  have whole := first_symbol starts (ds.takeWhile continuesSymbol ++ rest)
  rw [taken, left, ← spelled, String.ofList_toList] at whole
  rw [spelled]
  exact .lexeme (isBlank_of_continuesSymbol continues) whole (by simp) later

theorem scans_blanks {front : List Char} (blank : ∀ c ∈ front, Text.isBlank c = true)
    (later : Scans cs ls) : Scans (front ++ cs) ls := by
  induction front with
  | nil => exact later
  | cons c front ih =>
    obtain ⟨first, others⟩ := List.forall_mem_cons.1 blank
    exact .blank first (ih others)

theorem isValidName_of_scans {name word : String} (scans : Scans name.toList [.symbol word]) :
    isValidName name = true := by
  obtain ⟨ts, scanned, lexemes⟩ := scans.scanFrom (Nat.le_refl _) 0
  obtain ⟨⟨_, p⟩, rfl, rfl⟩ := List.map_eq_singleton_iff.1 lexemes
  rw [isValidName, scan, scanned]

/-- A letter or an underscore, with letters, numerals and underscores after it. -/
def IsIdentifier (name : String) : Prop :=
  ∃ c cs, name.toList = c :: cs ∧ (Text.isLetter c = true ∨ c = '_') ∧
    ∀ d ∈ cs, continuesSymbol d = true

theorem first_of_letter (letter : Text.isLetter c = true ∨ c = '_') (cs : List Char) :
    first c cs = .ok (.symbol (.ofList (c :: cs.takeWhile continuesSymbol)),
      c :: cs.takeWhile continuesSymbol, cs.dropWhile continuesSymbol) := by
  have apart : ('"' :: '\'' :: '.' :: marks).all (fun d => !(Text.isLetter d || d == '_')) = true := by
    decide
  have ne : ∀ d ∈ '"' :: '\'' :: '.' :: marks, c ≠ d := by
    rintro d listed rfl
    exact absurd letter (by simpa using List.all_eq_true.1 apart c listed)
  have plain : single? c = none := single?_eq_none fun listed => ne c (by simp_all) rfl
  have unquoted : ¬(c = '"' ∨ c = '\'') := by simp [ne]
  have other : ¬(c.isDigit = true ∨ c = '.') := by
    rintro (digit | point)
    · rcases letter with letter | rfl
      · cases (Text.letter_of_isDigit digit).1.symm.trans letter
      · cases digit
    · exact ne '.' (by simp) point
  exact first_eq_ok.2 (.symbol plain unquoted other letter)

theorem isValidName_of_isIdentifier {name : String} (identifier : IsIdentifier name) :
    isValidName name = true := by
  obtain ⟨c, cs, spelled, letter, others⟩ := identifier
  have starts := first_of_letter letter cs
  rw [List.takeWhile_eq_self_iff.2 others, ← spelled, String.ofList_toList] at starts
  have scans : Scans (name.toList ++ []) [.symbol name] := .symbol starts nofun .done
  rw [List.append_nil] at scans
  exact isValidName_of_scans scans

/-- A valid name reads as one symbol before anything that does not continue it. -/
theorem Scans.name {name : String} (valid : isValidName name = true)
    (stops : ∀ d ∈ rest.head?, continuesSymbol d = false) (later : Scans rest ls) :
    Scans (name.toList ++ rest) (.symbol (trimmed name) :: ls) := by
  obtain ⟨p, only⟩ := isValidName_eq_true valid
  obtain ⟨c, ds, spelling, others, starts⟩ := exists_first_of_scanFrom only
  obtain ⟨front, back, cut, before, after, -⟩ := cut_of_scanFrom (Nat.le_refl _) only
  have stops' : ∀ d ∈ (back ++ rest).head?, continuesSymbol d = false := by
    cases back with
    | nil => exact stops
    | cons b back =>
      rintro d ⟨⟩
      rw [← Bool.not_eq_true]
      intro continues
      have solid := isBlank_of_continuesSymbol continues
      rw [after b (List.mem_cons_self ..)] at solid
      cases solid
  rw [cut, List.append_assoc, List.append_assoc]
  exact scans_blanks before (.symbol starts stops' (scans_blanks after later))

end Dataflow.Token
