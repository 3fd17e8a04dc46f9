import Dataflow.Proofs.Expr.Exactness
import Dataflow.Proofs.Expr.Tiling
import Dataflow.Proofs.Workspace.Runs
import Dataflow.Script.Run

/-! Assignments in scripts. The line of a script is cut at its first blank and into words before it is
scanned; where it can be parsed as an assignment, none of these cuts takes it for a command, also if its
target is a command's word. -/

namespace Dataflow

namespace Text

variable {word name : List Char}

theorem cutAtBlank_append (solid : ∀ c ∈ name, isBlank c = false) (cs : List Char) :
    cutAtBlank (name ++ cs) = (name ++ (cutAtBlank cs).1, (cutAtBlank cs).2) := by
  induction name with
  | nil => rfl
  | cons c name ih =>
    obtain ⟨first, others⟩ := List.forall_mem_cons.1 solid
    rw [List.cons_append, cutAtBlank, first, ih others]
    rfl

theorem wordsFrom_append (solid : ∀ c ∈ name, isBlank c = false) (cs : List Char) :
    wordsFrom word (name ++ cs) = wordsFrom (word ++ name) cs := by
  induction name generalizing word with
  | nil => rw [List.nil_append, List.append_nil]
  | cons c name ih =>
    obtain ⟨first, others⟩ := List.forall_mem_cons.1 solid
    rw [List.cons_append, wordsFrom, first, if_neg Bool.false_ne_true, ih others, List.append_assoc,
      List.singleton_append]

/-- The word that is being read is the start of the first word. -/
theorem exists_wordsFrom_eq_cons (word : List Char) (begun : word ≠ []) (cs : List Char) :
    ∃ more rest, wordsFrom word cs = (word ++ more) :: rest := by
  induction cs generalizing word with
  | nil =>
    exact ⟨[], [], by simp [wordsFrom, begun]⟩
  | cons c cs ih =>
    rw [wordsFrom]
    split
    · exact ⟨[], wordsFrom [] cs, by simp [begun]⟩
    · obtain ⟨more, rest, same⟩ := ih (word ++ [c]) (by simp)
      exact ⟨c :: more, rest, by simp [same]⟩

end Text

theorem Expr.ofText_trimmed {text target : String} {value : Expr}
    (parsed : ofText text = .ok (target, value)) : ofText (trimmed text) = .ok (target, value) := by
  obtain ⟨ts, scanned, read⟩ := bind_eq_ok.1 parsed
  obtain ⟨ts', scanned', same⟩ := Token.scan_trimmed scanned
  exact bind_eq_ok.2 ⟨ts', scanned', ofTokens_alike read same⟩

namespace Token

theorem single?_eq_equals {c : Char} (sign : single? c = some .equals) : c = '=' := by
  unfold single? at sign
  repeat' split at sign
  all_goals simp_all

variable {t : Tile} {rest : List Char}

theorem Tile.Fits.symbol {name : String} (fits : t.Fits rest) (symbol : t.lexeme = .symbol name) :
    t.spelling = name.toList ∧ name.toList ≠ [] ∧
      ∀ c ∈ name.toList, continuesSymbol c = true := by
  obtain ⟨c, more, spelled, -, starts⟩ := fits.reads
  rw [symbol] at starts
  obtain ⟨same, after, first⟩ := first_eq_symbol (first_eq_ok.2 starts)
  have cut := List.takeWhile_append_dropWhile (p := continuesSymbol)
    (l := more ++ (t.blanks ++ rest))
  rw [← after] at cut
  have short : more = (more ++ (t.blanks ++ rest)).takeWhile continuesSymbol :=
    (List.append_cancel_right cut).symm
  rw [← short] at same
  refine ⟨spelled.trans same.symm, by simp [same], ?_⟩
  rw [same, short]
  exact List.forall_mem_cons.2 ⟨first, fun d hd => List.mem_takeWhile_imp hd⟩

theorem Tile.Fits.equals (fits : t.Fits rest) (sign : t.lexeme = .equals) : t.spelling = ['='] := by
  obtain ⟨c, more, spelled, -, starts⟩ := fits.reads
  rw [sign, spelled] at starts
  rw [spelled]
  cases starts with
  | mark mark => rw [single?_eq_equals mark]

end Token

/-- An assignment begins with its target, blanks and the sign. -/
theorem Expr.exists_trim_eq {text target : String} {value : Expr}
    (parsed : ofText text = .ok (target, value)) :
    ∃ blanks rest, Text.trim text.toList = target.toList ++ (blanks ++ '=' :: rest) ∧
      target.toList ≠ [] ∧ (∀ c ∈ target.toList, Token.continuesSymbol c = true) ∧
      Token.Blank blanks := by
  obtain ⟨ts, scanned, read⟩ := bind_eq_ok.1 parsed
  obtain ⟨p, q, others, rfl⟩ := target_of_ofTokens read
  obtain ⟨front, tiles, cut, blank, laid, same⟩ := Token.exists_laid (Nat.le_refl _) scanned
  obtain ⟨tiles', trimmed, laid', lexemes⟩ := laid.exists_trimmed blank
  rw [← Token.Tile.map_lexeme_tokens (0 + Token.byteLength front) tiles, ← same] at lexemes
  obtain ⟨t, _, rfl, symbol, later⟩ := List.map_eq_cons_iff.1 lexemes
  obtain ⟨u, others', rfl, sign, -⟩ := List.map_eq_cons_iff.1 later
  obtain _ | ⟨fits, _ | ⟨fits', -⟩⟩ := laid'
  · obtain ⟨spelled, filled, continues⟩ := fits.symbol symbol
    have spelled' := fits'.equals sign
    refine ⟨t.blanks, u.blanks ++ Token.Tile.join others', ?_, filled, continues, fits.blank⟩
    rw [cut, trimmed, Token.Tile.join_cons, Token.Tile.join_cons, Token.Tile.text, Token.Tile.text,
      spelled, spelled', List.append_assoc, List.append_assoc]
    rfl

namespace Statement

/-- No command's word has an equals sign in it. -/
theorem ofWords_of_mem {line word : List Char} (sign : '=' ∈ word) (rest : List (List Char)) :
    ofWords line (word :: rest) = .ok (.assign (.ofList line)) := by
  have ne (command : List Char) (none : '=' ∉ command) : word ≠ command := by
    rintro rfl
    exact none sign
  unfold ofWords
  dsimp only
  rw [if_neg (ne _ (by decide)), if_neg (ne _ (by decide)), if_neg (ne _ (by decide))]

/-- A word and a sign after it make an assignment, whatever the word is and with or without blanks
between them. -/
theorem ofLine?_of_trim {line : String} {name blanks rest : List Char}
    (cut : Text.trim line.toList = name ++ (blanks ++ '=' :: rest)) (filled : name ≠ [])
    (continues : ∀ c ∈ name, Token.continuesSymbol c = true) (blank : Token.Blank blanks) :
    ofLine? line = some (.ok (.assign (trimmed line))) := by
  have solid : ∀ c ∈ name, Text.isBlank c = false :=
    fun c hc => Token.isBlank_of_continuesSymbol (continues c hc)
  have statement : (Text.trim line.toList).isEmpty = false ∧
      (Text.trim line.toList).head? ≠ some '#' := by
    rw [cut]
    cases name with
    | nil => exact absurd rfl filled
    | cons c name =>
      refine ⟨rfl, ?_⟩
      rintro ⟨⟩
      exact absurd (continues '#' (List.mem_cons_self ..)) (by decide +kernel)
  simp only [ofLine?, statement, Bool.false_or, decide_false, Bool.false_eq_true, if_false]
  rw [cut]
  cases blanks with
  | nil =>
    -- The first word goes on at least to the sign.
    obtain ⟨more, words, same⟩ :=
      Text.exists_wordsFrom_eq_cons (name ++ ['=']) (by simp) rest
    have words : Text.words (name ++ ([] ++ '=' :: rest)) = (name ++ ['='] ++ more) :: words := by
      rw [← same, Text.words, Text.wordsFrom_append solid]
      rfl
    rw [words, ofWords_of_mem (by simp), Except.mapError, ite_self, trimmed, cut]
  | cons b blanks =>
    obtain ⟨first, others⟩ := List.forall_mem_cons.1 blank
    have rest : (Text.cutAtBlank (name ++ (b :: blanks ++ '=' :: rest))).2.dropWhile Text.isBlank =
        '=' :: rest := by
      rw [Text.cutAtBlank_append solid]
      simp only [List.cons_append, Text.cutAtBlank, first, if_true]
      rw [List.dropWhile_append_of_pos others, Text.dropWhile_isBlank]
      rintro c ⟨⟩
      decide +kernel
    rw [rest, List.head?_cons, if_pos rfl, trimmed, cut]

open Workspace

theorem performOperation_congr {text text' : String} (same : Expr.ofText text = Expr.ofText text') :
    performOperation text = performOperation text' := by
  simp only [performOperation, same]

/-- What a line that assigns reports: the warnings of the call, or its error. -/
theorem on_run_assign (env : Surroundings) (number : Nat) (text : String) (w : Workspace) :
    on ((assign text).run env number) w =
      ((on (performOperation text) w).1.map fun warnings =>
        { warnings := warnings.map fun a => ⟨number, a.text⟩ },
        (on (performOperation text) w).2) := by
  simp only [run, bind_pure_comp, on_map]

/-- A line that is parsed as an assignment is the statement that assigns, whatever its target and its
blanks; without the blanks around it it is the same assignment, and it is run as such. -/
theorem assignment_kept {line target : String} {value : Expr}
    (parsed : Expr.ofText line = .ok (target, value)) :
    ofLine? line = some (.ok (.assign (trimmed line))) ∧
    Expr.ofText (trimmed line) = .ok (target, value) ∧
    ∀ env number w, runLine env number line w =
      match on (performOperation line) w with
      | (.ok warnings, w) => ({ warnings := warnings.map fun a => ⟨number, a.text⟩ }, w)
      | (.error e, w) => ({ errors := [⟨number, e.message⟩] }, w) := by
  obtain ⟨blanks, rest, cut, filled, continues, blank⟩ := Expr.exists_trim_eq parsed
  have statement := ofLine?_of_trim cut filled continues blank
  have parsed' := Expr.ofText_trimmed parsed
  refine ⟨statement, parsed', fun env number w => ?_⟩
  have same := performOperation_congr (parsed'.trans parsed.symm)
  simp only [runLine, statement, on_run_assign, same]
  rcases on (performOperation line) w with ⟨_ | warnings, w'⟩ <;> rfl

/-- A target that is a command's word, with blanks of several kinds. -/
theorem assignment_kept_plot :
    let line := "\u3000plot\t=\u00a0x / 2 "
    let value : Expr := .binary .div (.symbol "x") (.literal (.integer 2))
    Expr.ofText line = .ok ("plot", value) ∧
    ofLine? line = some (.ok (.assign "plot\t=\u00a0x / 2")) ∧
    Expr.ofText "plot\t=\u00a0x / 2" = .ok ("plot", value) := by
  intro line value
  have scanned : Token.scan line = .ok [⟨.symbol "plot", 3⟩, ⟨.equals, 8⟩, ⟨.symbol "x", 11⟩,
      ⟨.operator .div, 13⟩, ⟨.literal (.integer 2), 15⟩] := by decide +kernel
  have parsed : Expr.ofText line = .ok ("plot", value) := by
    rw [Expr.ofText, scanned]
    rfl
  have trimmed : trimmed line = "plot\t=\u00a0x / 2" := by decide +kernel
  obtain ⟨statement, same, -⟩ := assignment_kept parsed
  rw [trimmed] at statement same
  exact ⟨parsed, statement, same⟩

end Statement

end Dataflow
