import Dataflow.Expr.Parser
import Dataflow.Text.Words
import Mathlib.Data.List.TakeWhile

/-! Names as words of the expression language. A text reads as one symbol if it is that symbol with
blanks around it, and wherever it stands in a statement it reads as the symbol alone; so a name stands
for itself only if there are no blanks around it. -/

namespace Dataflow

namespace Text

theorem isBlank_iff {c : Char} : isBlank c = true ↔ c ∈ ' ' :: rareBlanks := by
  simp [isBlank]

theorem isBlank_eq_false {c : Char} {goesOn : Char → Bool}
    (none : (' ' :: rareBlanks).any goesOn = false) (holds : goesOn c = true) :
    isBlank c = false := by
  rw [← Bool.not_eq_true]
  intro blank
  exact List.any_eq_false.1 none c (isBlank_iff.1 blank) holds

theorem letter_of_isDigit {c : Char} (digit : c.isDigit = true) :
    isLetter c = false ∧ isLetterOrNumeral c = true := by
  have all : ∀ n < 58, 48 ≤ n → isLetter (.ofNat n) = false ∧ isLetterOrNumeral (.ofNat n) = true :=
    by decide
  obtain ⟨least, most⟩ := Char.isDigit_iff_toNat.1 digit
  have here := all c.toNat (Nat.lt_succ_of_le most) least
  rwa [Char.ofNat_toNat] at here

variable {front word back : List Char}

theorem dropWhile_isBlank (solid : ∀ c ∈ word.head?, isBlank c = false) :
    word.dropWhile isBlank = word := by
  cases word with
  | nil => rfl
  | cons c cs => exact List.dropWhile_cons_of_neg (by simp [solid c rfl])

/-- Blanks around a word are trimmed off, if the word does not start or end with blanks itself. -/
theorem trim_append (before : ∀ c ∈ front, isBlank c = true) (after : ∀ c ∈ back, isBlank c = true)
    (starts : ∀ c ∈ word.head?, isBlank c = false) (ends : ∀ c ∈ word.getLast?, isBlank c = false) :
    trim (front ++ word ++ back) = word := by
  have first : (front ++ word ++ back).dropWhile isBlank = (word ++ back).dropWhile isBlank := by
    rw [List.append_assoc, List.dropWhile_append_of_pos before]
  cases word with
  | nil =>
    have none : back.dropWhile isBlank = [] := List.dropWhile_eq_nil_iff.2 after
    rw [trim, first, List.nil_append, none]
    rfl
  | cons c cs =>
    have start : (c :: cs ++ back).dropWhile isBlank = c :: cs ++ back := dropWhile_isBlank starts
    have last : (back.reverse ++ (c :: cs).reverse).dropWhile isBlank = (c :: cs).reverse := by
      rw [List.dropWhile_append_of_pos (by simpa using after)]
      exact dropWhile_isBlank (by rwa [List.head?_reverse])
    rw [trim, first, start, List.reverse_append, last, List.reverse_reverse]

end Text

namespace Token

theorem isBlank_of_continuesSymbol {c : Char} (continues : continuesSymbol c = true) :
    Text.isBlank c = false :=
  Text.isBlank_eq_false (by decide +kernel) continues

/-- A run of characters of symbols ends where what follows it does not go on with it. -/
theorem cut_symbol {word rest : List Char} (all : ∀ c ∈ word, continuesSymbol c = true)
    (stops : ∀ c ∈ rest.head?, continuesSymbol c = false) :
    (word ++ rest).takeWhile continuesSymbol = word ∧
      (word ++ rest).dropWhile continuesSymbol = rest := by
  rw [List.takeWhile_append_of_pos all, List.dropWhile_append_of_pos all]
  cases rest with
  | nil => simp
  | cons c rest => simp [stops c rfl]

theorem numberSpan_of_stops {before : Char} {rest : List Char}
    (stops : ∀ d ∈ rest.head?, continuesNumber before d = false) :
    numberSpan before rest = ([], rest) := by
  cases rest with
  | nil => rfl
  | cons d rest => simp [numberSpan, stops d rfl]

/-- The token, and the fault, of a text that stands after `n` bytes of another. -/
def after (n : Nat) (t : Token) : Token := { t with position := n + t.position }

end Token

def ParseError.after (n : Nat) (e : ParseError) : ParseError := { e with position := n + e.position }

namespace Token

theorem scanFrom_cons (fuel position : Nat) (c : Char) (cs : List Char) :
    scanFrom (fuel + 1) position (c :: cs) =
      if Text.isBlank c then scanFrom fuel (position + c.utf8Size) cs
      else match first c cs with
        | .error problem => .error ⟨position, problem⟩
        | .ok (lexeme, spelling, rest) => do
          let more ← scanFrom fuel (position + byteLength spelling) rest
          return ⟨lexeme, position⟩ :: more := rfl

/-- A scan passes over a blank, or cuts off a lexeme and goes on behind it. -/
theorem scanFrom_cons_eq_ok {fuel position : Nat} {c : Char} {cs : List Char} {ts : List Token}
    (scanned : scanFrom (fuel + 1) position (c :: cs) = .ok ts) :
    Text.isBlank c = true ∧ scanFrom fuel (position + c.utf8Size) cs = .ok ts ∨
      Text.isBlank c = false ∧ ∃ l spelling rest more, first c cs = .ok (l, spelling, rest) ∧
        scanFrom fuel (position + byteLength spelling) rest = .ok more ∧
        ts = ⟨l, position⟩ :: more := by
  rw [scanFrom_cons] at scanned
  split at scanned
  · next blank => exact .inl ⟨blank, scanned⟩
  · next solid =>
    rcases starts : first c cs with problem | ⟨l, spelling, rest⟩
    · rw [starts] at scanned
      cases scanned
    · simp only [starts] at scanned
      cases later : scanFrom fuel (position + byteLength spelling) rest with
      | error e => simp [later, bind, Except.bind] at scanned
      | ok more =>
        simp only [later] at scanned
        cases scanned
        exact .inr ⟨by simpa using solid, l, spelling, rest, more, rfl, later, rfl⟩

/-- Where a text stands moves its tokens, and changes nothing else about them. -/
theorem scanFrom_add (n fuel position : Nat) (cs : List Char) :
    scanFrom fuel (n + position) cs =
      ((scanFrom fuel position cs).map (List.map (after n))).mapError (ParseError.after n) := by
  induction fuel generalizing position cs with
  | zero => rfl
  | succ fuel ih =>
    cases cs with
    | nil => rfl
    | cons c cs =>
      rw [scanFrom_cons, scanFrom_cons]
      split
      · rw [Nat.add_assoc, ih]
      · rcases first c cs with problem | ⟨lexeme, spelling, rest⟩
        · rfl
        · dsimp only
          rw [Nat.add_assoc, ih]
          cases scanFrom fuel (position + byteLength spelling) rest <;> rfl

theorem blank_of_scanFrom {fuel position : Nat} {cs : List Char} (enough : cs.length ≤ fuel)
    (none : scanFrom fuel position cs = .ok []) : ∀ c ∈ cs, Text.isBlank c = true := by
  induction fuel generalizing position cs with
  | zero =>
    obtain rfl := List.length_eq_zero_iff.1 (Nat.le_zero.1 enough)
    simp
  | succ fuel ih =>
    cases cs with
    | nil => simp
    | cons c cs =>
      obtain ⟨blank, later⟩ | ⟨-, _, _, _, _, -, -, some⟩ := scanFrom_cons_eq_ok none
      · exact List.forall_mem_cons.2 ⟨blank, ih (Nat.le_of_succ_le_succ enough) later⟩
      · cases some

/-- How a text goes on that starts with a lexeme: with a mark, a string up to its closing quote, a
number or a symbol as far as it goes. -/
inductive Starts (c : Char) (cs : List Char) : Lexeme → List Char → List Char → Prop
  | mark {l : Lexeme} (mark : single? c = some l) : Starts c cs l [c] cs
  | quoted {value spelling rest : List Char} (plain : single? c = none)
      (quote : c = '"' ∨ c = '\'') (body : stringBody c cs = some (value, spelling, rest)) :
    Starts c cs (.literal (.string (.ofList value))) (c :: spelling) rest
  | number {value : Constant} (plain : single? c = none) (unquoted : ¬(c = '"' ∨ c = '\''))
      (digit : c.isDigit = true ∨ c = '.')
      (read : readNumber? (c :: (numberSpan c cs).1) = some value) :
    Starts c cs (.literal value) (c :: (numberSpan c cs).1) (numberSpan c cs).2
  | symbol (plain : single? c = none) (unquoted : ¬(c = '"' ∨ c = '\''))
      (other : ¬(c.isDigit = true ∨ c = '.')) (letter : Text.isLetter c = true ∨ c = '_') :
    Starts c cs (.symbol (.ofList (c :: cs.takeWhile continuesSymbol)))
      (c :: cs.takeWhile continuesSymbol) (cs.dropWhile continuesSymbol)

theorem first_eq_ok {c : Char} {cs spelling rest : List Char} {l : Lexeme} :
    first c cs = .ok (l, spelling, rest) ↔ Starts c cs l spelling rest := by
  constructor
  · intro starts
    unfold first at starts
    split at starts
    · next mark =>
      cases starts
      exact .mark mark
    · next plain =>
      simp only [Bool.or_eq_true, decide_eq_true_eq] at starts
      split at starts
      · next quote =>
        split at starts
        · next body =>
          cases starts
          exact .quoted plain quote body
        · cases starts
      · next unquoted =>
        split at starts
        · next digit =>
          split at starts
          · next read =>
            cases starts
            exact .number plain unquoted digit read
          · cases starts
        · next other =>
          split at starts
          · next letter =>
            cases starts
            exact .symbol plain unquoted other letter
          · cases starts
  · rintro (⟨mark⟩ | ⟨plain, quote, body⟩ | ⟨plain, unquoted, digit, read⟩ |
      ⟨plain, unquoted, other, letter⟩)
    · simp only [first, mark]
    · simp only [first, plain, Bool.or_eq_true, decide_eq_true_eq, quote, if_true, body]
    · simp only [first, plain, Bool.or_eq_true, decide_eq_true_eq, unquoted, if_false, digit,
        if_true, read]
    · simp only [first, plain, Bool.or_eq_true, decide_eq_true_eq, unquoted, if_false, other,
        letter, if_true]

theorem single?_ne_symbol (c : Char) (name : String) : single? c ≠ some (.symbol name) := by
  unfold single?
  repeat' split
  all_goals simp

theorem first_eq_symbol {c : Char} {cs spelling rest : List Char} {name : String}
    (starts : first c cs = .ok (.symbol name, spelling, rest)) :
    name.toList = c :: cs.takeWhile continuesSymbol ∧ rest = cs.dropWhile continuesSymbol ∧
      continuesSymbol c = true := by
  cases first_eq_ok.1 starts with
  | mark mark => exact absurd mark (single?_ne_symbol c name)
  | symbol plain unquoted other letter =>
    refine ⟨String.toList_ofList, rfl, ?_⟩
    rw [continuesSymbol, Bool.or_eq_true, beq_iff_eq]
    exact letter.imp_left Text.isLetterOrNumeral_of_isLetter

/-- A text that reads as one symbol is that symbol with blanks around it. -/
theorem cut_of_scanFrom {fuel position p : Nat} {cs : List Char} {name : String}
    (enough : cs.length ≤ fuel) (only : scanFrom fuel position cs = .ok [⟨.symbol name, p⟩]) :
    ∃ front back, cs = front ++ name.toList ++ back ∧ (∀ c ∈ front, Text.isBlank c = true) ∧
      (∀ c ∈ back, Text.isBlank c = true) ∧ ∀ c ∈ name.toList, continuesSymbol c = true := by
  induction fuel generalizing position cs with
  | zero => cases only
  | succ fuel ih =>
    cases cs with
    | nil => cases only
    | cons c cs =>
      have enough := Nat.le_of_succ_le_succ enough
      obtain ⟨blank, later⟩ | ⟨-, _, spelling, rest, _, starts, later, same⟩ :=
        scanFrom_cons_eq_ok only
      · obtain ⟨front, back, rfl, before, others⟩ := ih enough later
        exact ⟨c :: front, back, rfl, List.forall_mem_cons.2 ⟨blank, before⟩, others⟩
      · cases same
        obtain ⟨spelled, rfl, letter⟩ := first_eq_symbol starts
        have short := (List.dropWhile_suffix continuesSymbol (l := cs)).length_le
        refine ⟨[], _, ?_, by simp, blank_of_scanFrom (Nat.le_trans short enough) later, ?_⟩
        · rw [spelled, List.nil_append, List.cons_append, List.takeWhile_append_dropWhile]
        · rw [spelled]
          exact List.forall_mem_cons.2 ⟨letter, fun d hd => List.mem_takeWhile_imp hd⟩

theorem trim_of_scanFrom {fuel position p : Nat} {cs : List Char} {name : String}
    (enough : cs.length ≤ fuel) (only : scanFrom fuel position cs = .ok [⟨.symbol name, p⟩]) :
    Text.trim cs = name.toList := by
  obtain ⟨front, back, rfl, before, after, continues⟩ := cut_of_scanFrom enough only
  have solid : ∀ c ∈ name.toList, Text.isBlank c = false :=
    fun c hc => isBlank_of_continuesSymbol (continues c hc)
  exact Text.trim_append before after (fun c first => solid c (List.mem_of_mem_head? first))
    fun c last => solid c (List.mem_of_getLast? last)

end Token

/-- A name without the blanks around it. -/
def trimmed (name : String) : String := .ofList (Text.trim name.toList)

theorem isValidName_eq_true {name : String} (valid : isValidName name = true) :
    ∃ p, Token.scan name = .ok [⟨.symbol (trimmed name), p⟩] := by
  unfold isValidName at valid
  split at valid
  · next s p only =>
    have same := Token.trim_of_scanFrom (Nat.le_refl _) only
    rw [trimmed, same, String.ofList_toList]
    exact ⟨p, only⟩
  · cases valid

/-- A valid name reads as the symbol that it is without the blanks around it. -/
theorem Expr.ofText_of_isValidName {name : String} (valid : isValidName name = true) :
    Expr.ofText ("t = " ++ name) = .ok ("t", .symbol (trimmed name)) := by
  obtain ⟨p, only⟩ := isValidName_eq_true valid
  have shifted := Token.scanFrom_add 4 name.toList.length 0 name.toList
  rw [show Token.scanFrom name.toList.length 0 name.toList = Token.scan name from rfl, only]
    at shifted
  have scanned : Token.scan ("t = " ++ name) =
      .ok [⟨.symbol "t", 0⟩, ⟨.equals, 2⟩, ⟨.symbol (trimmed name), 4 + p⟩] := by
    have spelled : ("t = " ++ name).toList = 't' :: ' ' :: '=' :: ' ' :: name.toList := by
      rw [String.toList_append]
      rfl
    rw [Token.scan, spelled]
    show (do
      let more ← (do
        let more ← Token.scanFrom name.toList.length 4 name.toList
        return ⟨.equals, 2⟩ :: more)
      return ⟨.symbol "t", 0⟩ :: more : Except ParseError (List Token)) = _
    rw [shifted]
    rfl
  rw [Expr.ofText, scanned]
  rfl

end Dataflow
