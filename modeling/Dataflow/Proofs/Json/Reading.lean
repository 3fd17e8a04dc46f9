import Dataflow.Proofs.Json.Numbers

/-! JSON on one line reads back as it was written: strings character by character, whatever they hold,
and arrays and objects item by item, however deep they nest. -/

namespace Dataflow.Json

/-- What a character of a written string reads as. Control characters that have no short escape are
written as units. -/
def pieceOf (c : Char) : Piece :=
  if c.toNat < 0x20 ∧ c ≠ '\x08' ∧ c ≠ '\x0c' ∧ c ≠ '\n' ∧ c ≠ '\r' ∧ c ≠ '\t' then .unit c.toNat
  else .char c

theorem hexValue?_digitChar {d : Nat} (small : d < 16) : hexValue? (Nat.digitChar d) = some d :=
  (by decide : ∀ d < 16, hexValue? (Nat.digitChar d) = some d) d small

theorem unit?_control {c : Char} (control : c.toNat < 0x20) (rest : List Char) :
    unit? ('0' :: '0' :: Nat.digitChar (c.toNat / 16) :: Nat.digitChar (c.toNat % 16) :: rest) =
      some (c.toNat, rest) := by
  have zero : hexValue? '0' = some 0 := rfl
  rw [unit?, zero, hexValue?_digitChar (by omega), hexValue?_digitChar (by omega)]
  simp only [Option.bind_eq_bind, Option.bind_some, Option.pure_def, Option.some.injEq,
    Prod.mk.injEq, and_true]
  omega

theorem pieces_escapeChar (c : Char) (fuel : Nat) (rest : List Char) :
    pieces (fuel + 1) (escapeChar c ++ rest) =
      (pieces fuel rest).map fun p => (pieceOf c :: p.1, p.2) := by
  by_cases short : c ∈ ['"', '\\', '\x08', '\x0c', '\n', '\r', '\t']
  · simp only [List.mem_cons, List.not_mem_nil, or_false] at short
    rcases short with rfl | rfl | rfl | rfl | rfl | rfl | rfl
    all_goals
      show (pieces fuel rest).bind _ = _
      cases pieces fuel rest <;> rfl
  · simp only [List.mem_cons, List.not_mem_nil, or_false, not_or] at short
    obtain ⟨quote, slash, b, f, n, r, t⟩ := short
    by_cases control : c.toNat < 0x20
    · have unit : pieceOf c = .unit c.toNat := if_pos ⟨control, b, f, n, r, t⟩
      simp only [escapeChar, quote, slash, b, f, n, r, t, control, if_true, if_false]
      show (unit? ('0' :: '0' :: Nat.digitChar (c.toNat / 16) :: Nat.digitChar (c.toNat % 16) ::
        rest)).bind _ = _
      rw [unit?_control control, unit]
      show (pieces fuel rest).bind _ = _
      cases pieces fuel rest <;> rfl
    · have char : pieceOf c = .char c := if_neg fun h => control h.1
      simp only [escapeChar, quote, slash, b, f, n, r, t, control, if_false, char]
      simp only [List.cons_append, List.nil_append, pieces, quote, slash, control, if_false]
      show (pieces fuel rest).bind _ = _
      cases pieces fuel rest <;> rfl

theorem pieces_flatMap (cs : List Char) {fuel : Nat} (enough : cs.length < fuel)
    (rest : List Char) :
    pieces fuel (cs.flatMap escapeChar ++ '"' :: rest) = some (cs.map pieceOf, rest) := by
  induction cs generalizing fuel with
  | nil =>
    cases fuel with
    | zero => cases enough
    | succ fuel => rfl
  | cons c cs ih =>
    cases fuel with
    | zero => cases enough
    | succ fuel =>
      rw [List.flatMap_cons, List.append_assoc, pieces_escapeChar,
        ih (Nat.lt_of_succ_lt_succ enough)]
      rfl

theorem text?_unit {code : Nat} (low : code < 0xD800) (ps : List Piece) :
    text? (.unit code :: ps) = (text? ps).map (Char.ofNat code :: ·) := by
  have single : ¬(0xD800 ≤ code ∧ code < 0xE000) := by omega
  have high : ¬(0xD800 ≤ code ∧ code < 0xDC00) := by omega
  have lower : ¬(0xDC00 ≤ code ∧ code < 0xE000) := by omega
  rcases ps with _ | ⟨_ | _, ps⟩
  · simp only [text?, if_neg single]
  · simp only [text?, if_neg single]
  · rw [text?, if_neg high, if_neg lower]

theorem escapeChar_ne_nil (c : Char) : escapeChar c ≠ [] := by
  grind [escapeChar]

theorem length_le_flatMap (cs : List Char) : cs.length ≤ (cs.flatMap escapeChar).length := by
  induction cs with
  | nil => exact Nat.le_refl _
  | cons c cs ih =>
    have filled := List.length_pos_iff.2 (escapeChar_ne_nil c)
    rw [List.flatMap_cons, List.length_append, List.length_cons]
    omega

theorem text?_pieceOf (cs : List Char) : text? (cs.map pieceOf) = some cs := by
  induction cs with
  | nil => rfl
  | cons c cs ih =>
    by_cases control : c.toNat < 0x20 ∧ c ≠ '\x08' ∧ c ≠ '\x0c' ∧ c ≠ '\n' ∧ c ≠ '\r' ∧ c ≠ '\t'
    · rw [List.map_cons, pieceOf, if_pos control, text?_unit (by omega), ih, Char.ofNat_toNat,
        Option.map_some]
    · rw [List.map_cons, pieceOf, if_neg control, text?, ih, Option.map_some]

theorem readString_text (s : String) (rest : List Char) :
    readString (s.toList.flatMap escapeChar ++ '"' :: rest) = (.string s, some rest) := by
  have long : s.toList.length < (s.toList.flatMap escapeChar ++ '"' :: rest).length + 1 := by
    have := length_le_flatMap s.toList
    rw [List.length_append]
    omega
  rw [readString, pieces_flatMap _ long]
  simp only [text?_pieceOf, String.ofList_toList]

theorem stringText_append (s : String) (rest : List Char) :
    stringText s ++ rest = '"' :: (s.toList.flatMap escapeChar ++ '"' :: rest) := by
  simp [stringText]

mutual

/-- Whether a text spells the value: it has no leaf without a text, and numbers have digits. -/
def Spelled : Json → Prop
  | .number n => n.Spelled
  | .unpaired | .fault => False
  | .array items => SpelledItems items
  | .object members => SpelledMembers members
  | _ => True

def SpelledItems : List Json → Prop
  | [] => True
  | v :: vs => Spelled v ∧ SpelledItems vs

def SpelledMembers : List (String × Json) → Prop
  | [] => True
  | m :: ms => Spelled m.2 ∧ SpelledMembers ms

end

theorem readValue_of_plain {c : Char} (space : isSpace c = false) (quote : c ≠ '"')
    (bracket : c ≠ '[') (brace : c ≠ '\x7b') (fuel : Nat) (cs : List Char) :
    readValue (fuel + 1) (c :: cs) = readPlain (c :: cs) := by
  have start : skipSpace (c :: cs) = c :: cs := by simp [skipSpace, space]
  rw [readValue, start]
  split
  · next same => exact absurd (List.cons.inj same).1 quote
  · next same => exact absurd (List.cons.inj same).1 bracket
  · next same => exact absurd (List.cons.inj same).1 brace
  · rfl

theorem readPlain_of_number {c : Char} (sign : c = '-' ∨ c.isDigit = true) {cs rest : List Char}
    {n : Number} (read : number? (c :: cs) = some (n, rest)) :
    readPlain (c :: cs) = (.number n, some rest) := by
  unfold readPlain
  split
  · next same =>
    obtain rfl := (List.cons.inj same).1
    rcases sign with h | h <;> cases h
  · next same =>
    obtain rfl := (List.cons.inj same).1
    rcases sign with h | h <;> cases h
  · next same =>
    obtain rfl := (List.cons.inj same).1
    rcases sign with h | h <;> cases h
  · rw [read]

theorem Number.text_eq_cons (n : Number) :
    ∃ c cs, n.text = c :: cs ∧ (c = '-' ∨ c.isDigit = true) := by
  obtain ⟨negative, whole, fraction, exponent⟩ := n
  cases negative with
  | true => exact ⟨'-', _, rfl, .inl rfl⟩
  | false =>
    cases digits : Nat.toDigits 10 whole with
    | nil => exact absurd digits Nat.toDigits_ne_nil
    | cons d ds =>
      have digit := allDigits_toDigits whole d (by rw [digits]; exact List.mem_cons_self ..)
      exact ⟨d, _, by rw [Number.text, digits]; rfl, .inr digit⟩

theorem plain_of_sign {c : Char} (sign : c = '-' ∨ c.isDigit = true) :
    isSpace c = false ∧ c ≠ '"' ∧ c ≠ '[' ∧ c ≠ '\x7b' ∧ c ≠ ']' := by
  rcases sign with rfl | digit
  · decide
  · refine ⟨?_, ?_, ?_, ?_, ?_⟩
    · rw [← Bool.not_eq_true]
      intro space
      simp only [isSpace, Bool.or_eq_true, beq_iff_eq] at space
      rcases space with ((rfl | rfl) | rfl) | rfl <;> cases digit
    all_goals
      rintro rfl
      cases digit

theorem readValue_number {n : Number} (spelled : n.Spelled) (fuel : Nat) {rest : List Char}
    (stops : Stops rest) :
    readValue (fuel + 1) (n.text ++ rest) = (.number n, some rest) := by
  obtain ⟨c, cs, starts, sign⟩ := n.text_eq_cons
  have read := number?_text spelled stops
  rw [starts, List.cons_append] at read ⊢
  obtain ⟨space, quote, bracket, brace, -⟩ := plain_of_sign sign
  rw [readValue_of_plain space quote bracket brace, readPlain_of_number sign read]

/-- No value starts with a space or with the end of the items. -/
theorem compactBefore_eq_cons (v : Json) (rest : List Char) :
    ∃ c cs, compactBefore v rest = c :: cs ∧ isSpace c = false ∧ c ≠ ']' := by
  cases v with
  | null => exact ⟨'n', _, rfl, rfl, by decide⟩
  | unpaired => exact ⟨'n', _, rfl, rfl, by decide⟩
  | fault => exact ⟨'n', _, rfl, rfl, by decide⟩
  | bool b => cases b with
    | true => exact ⟨'t', _, rfl, rfl, by decide⟩
    | false => exact ⟨'f', _, rfl, rfl, by decide⟩
  | number n =>
    obtain ⟨c, cs, starts, sign⟩ := n.text_eq_cons
    obtain ⟨space, -, -, -, bracket⟩ := plain_of_sign sign
    exact ⟨c, cs ++ rest, congrArg (· ++ rest) starts, space, bracket⟩
  | string s => exact ⟨'"', _, rfl, rfl, by decide⟩
  | array items => cases items with
    | nil => exact ⟨'[', _, rfl, rfl, by decide⟩
    | cons v vs => exact ⟨'[', _, rfl, rfl, by decide⟩
  | object members => cases members with
    | nil => exact ⟨'\x7b', _, rfl, rfl, by decide⟩
    | cons m ms => exact ⟨'\x7b', _, rfl, rfl, by decide⟩

theorem length_plainText (v : Json) (rest : List Char) :
    rest.length < (plainText v ++ rest).length := by
  have filled : plainText v ≠ [] := by
    cases v with
    | bool b => cases b <;> nofun
    | number n =>
      obtain ⟨c, cs, starts, -⟩ := n.text_eq_cons
      exact fun none => List.cons_ne_nil c cs (starts.symm.trans none)
    | string s => nofun
    | _ => nofun
  have := List.length_pos_iff.2 filled
  rw [List.length_append]
  omega

mutual

theorem length_compactBefore (v : Json) (rest : List Char) :
    rest.length < (compactBefore v rest).length := by
  cases v with
  | array items => cases items with
    | nil => exact Nat.lt_succ_of_lt (Nat.lt_succ_self _)
    | cons v vs =>
      have first := length_compactBefore v (itemsBefore vs rest)
      have others := length_itemsBefore vs rest
      simp only [compactBefore, List.length_cons]
      omega
  | object members => cases members with
    | nil => exact Nat.lt_succ_of_lt (Nat.lt_succ_self _)
    | cons m ms =>
      have first := length_compactBefore m.2 (membersBefore ms rest)
      have others := length_membersBefore ms rest
      simp only [compactBefore, List.length_cons, List.length_append]
      omega
  | null => exact length_plainText .null rest
  | bool b => exact length_plainText (.bool b) rest
  | number n => exact length_plainText (.number n) rest
  | string s => exact length_plainText (.string s) rest
  | unpaired => exact length_plainText .unpaired rest
  | fault => exact length_plainText .fault rest

theorem length_itemsBefore (vs : List Json) (rest : List Char) :
    rest.length < (itemsBefore vs rest).length := by
  cases vs with
  | nil => simp [itemsBefore]
  | cons v vs =>
    have first := length_compactBefore v (itemsBefore vs rest)
    have others := length_itemsBefore vs rest
    simp only [itemsBefore, List.length_cons]
    omega

theorem length_membersBefore (ms : List (String × Json)) (rest : List Char) :
    rest.length < (membersBefore ms rest).length := by
  cases ms with
  | nil => simp [membersBefore]
  | cons m ms =>
    have first := length_compactBefore m.2 (membersBefore ms rest)
    have others := length_membersBefore ms rest
    simp only [membersBefore, List.length_cons, List.length_append]
    omega

end

theorem skipSpace_of_cons {c : Char} (space : isSpace c = false) (cs : List Char) :
    skipSpace (c :: cs) = c :: cs := by
  simp [skipSpace, space]

section

variable {fuel : Nat} {c : Char} {cs rest : List Char} {v : Json} {vs : List Json}
  {ms : List (String × Json)}

theorem readValue_array (space : isSpace c = false) (bracket : c ≠ ']')
    (read : readItems fuel (c :: cs) = (vs, some rest)) :
    readValue (fuel + 1) ('[' :: c :: cs) = (.array vs, some rest) := by
  rw [readValue, skipSpace_of_cons (by rfl)]
  simp [skipSpace_of_cons space, bracket, read]

theorem readValue_object (read : readMembers fuel ('"' :: cs) = (ms, some rest)) :
    readValue (fuel + 1) ('\x7b' :: '"' :: cs) = (.object ms, some rest) := by
  rw [readValue, skipSpace_of_cons (by rfl)]
  simp [skipSpace_of_cons, isSpace, read]

theorem readItems_last (read : readValue fuel cs = (v, some (']' :: rest))) :
    readItems (fuel + 1) cs = ([v], some rest) := by
  simp [readItems, read, skipSpace_of_cons, isSpace]

theorem readItems_more {cs' : List Char} (read : readValue fuel cs = (v, some (',' :: cs')))
    (more : readItems fuel cs' = (vs, some rest)) :
    readItems (fuel + 1) cs = (v :: vs, some rest) := by
  simp [readItems, read, skipSpace_of_cons, isSpace, more]

theorem readMembers_last {name : String} (read : readValue fuel cs = (v, some ('\x7d' :: rest))) :
    readMembers (fuel + 1) (stringText name ++ ':' :: cs) = ([(name, v)], some rest) := by
  simp [stringText_append, readMembers, readString_text, skipSpace_of_cons, isSpace, read]

theorem readMembers_more {name : String} {cs' : List Char}
    (read : readValue fuel cs = (v, some (',' :: cs')))
    (more : readMembers fuel cs' = (ms, some rest)) :
    readMembers (fuel + 1) (stringText name ++ ':' :: cs) = ((name, v) :: ms, some rest) := by
  simp [stringText_append, readMembers, readString_text, skipSpace_of_cons, isSpace, read, more]

end

theorem stops_itemsBefore (vs : List Json) (rest : List Char) : Stops (itemsBefore vs rest) := by
  cases vs with
  | nil => exact stops_cons _ (.inr (.inl rfl))
  | cons v vs => exact stops_cons _ (.inl rfl)

theorem stops_membersBefore (ms : List (String × Json)) (rest : List Char) :
    Stops (membersBefore ms rest) := by
  cases ms with
  | nil => exact stops_cons _ (.inr (.inr rfl))
  | cons m ms => exact stops_cons _ (.inl rfl)

mutual

/-- A value on one line reads back as it is, if it is spelled at all. The fuel covers the two calls that
each character may take. -/
theorem readValue_compactBefore (v : Json) (spelled : v.Spelled) {rest : List Char}
    (stops : Stops rest) {fuel : Nat}
    (enough : 2 * (compactBefore v rest).length ≤ fuel + 1 + 2 * rest.length) :
    readValue fuel (compactBefore v rest) = (v, some rest) := by
  have longer := length_compactBefore v rest
  obtain ⟨fuel, rfl⟩ : ∃ n, fuel = n + 1 := ⟨fuel - 1, by omega⟩
  cases v with
  | null => rfl
  | bool b => cases b <;> rfl
  | number n => exact readValue_number spelled fuel stops
  | string s =>
    show readValue (fuel + 1) (stringText s ++ rest) = _
    rw [stringText_append]
    exact readString_text s rest
  | unpaired => exact spelled.elim
  | fault => exact spelled.elim
  | array items =>
    cases items with
    | nil => rfl
    | cons v vs =>
      have first := length_compactBefore v (itemsBefore vs rest)
      have others := length_itemsBefore vs rest
      simp only [compactBefore, List.length_cons] at enough ⊢
      obtain ⟨fuel, rfl⟩ : ∃ n, fuel = n + 1 := ⟨fuel - 1, by omega⟩
      obtain ⟨c, cs, starts, space, bracket⟩ := compactBefore_eq_cons v (itemsBefore vs rest)
      have item : readValue fuel (compactBefore v (itemsBefore vs rest)) = _ :=
        readValue_compactBefore v spelled.1 (stops_itemsBefore vs rest) (by omega)
      have items := readItems_itemsBefore vs spelled.2 (by omega) item
      rw [starts] at items ⊢
      exact readValue_array space bracket items
  | object members =>
    cases members with
    | nil => rfl
    | cons m ms =>
      have first := length_compactBefore m.2 (membersBefore ms rest)
      have others := length_membersBefore ms rest
      simp only [compactBefore, List.length_cons, List.length_append] at enough ⊢
      obtain ⟨fuel, rfl⟩ : ∃ n, fuel = n + 1 := ⟨fuel - 1, by omega⟩
      have member : readValue fuel (compactBefore m.2 (membersBefore ms rest)) = _ :=
        readValue_compactBefore m.2 spelled.1 (stops_membersBefore ms rest) (by omega)
      have members := readMembers_membersBefore ms spelled.2 m.1 (by omega) member
      rw [stringText_append] at members ⊢
      exact readValue_object members

theorem readItems_itemsBefore (vs : List Json) (spelled : SpelledItems vs) {v : Json}
    {cs rest : List Char} {fuel : Nat}
    (enough : 2 * (itemsBefore vs rest).length ≤ fuel + 2 + 2 * rest.length)
    (read : readValue fuel cs = (v, some (itemsBefore vs rest))) :
    readItems (fuel + 1) cs = (v :: vs, some rest) := by
  cases vs with
  | nil => exact readItems_last read
  | cons w ws =>
    have first := length_compactBefore w (itemsBefore ws rest)
    have others := length_itemsBefore ws rest
    simp only [itemsBefore, List.length_cons] at enough read
    obtain ⟨fuel, rfl⟩ : ∃ n, fuel = n + 1 := ⟨fuel - 1, by omega⟩
    obtain ⟨c, cs, starts, -, -⟩ := compactBefore_eq_cons w (itemsBefore ws rest)
    have item : readValue fuel (compactBefore w (itemsBefore ws rest)) = _ :=
      readValue_compactBefore w spelled.1 (stops_itemsBefore ws rest) (by omega)
    have items := readItems_itemsBefore ws spelled.2 (by omega) item
    rw [starts] at items read
    exact readItems_more read items

theorem readMembers_membersBefore (ms : List (String × Json)) (spelled : SpelledMembers ms)
    (name : String) {v : Json} {cs rest : List Char} {fuel : Nat}
    (enough : 2 * (membersBefore ms rest).length ≤ fuel + 2 + 2 * rest.length)
    (read : readValue fuel cs = (v, some (membersBefore ms rest))) :
    readMembers (fuel + 1) (stringText name ++ ':' :: cs) = ((name, v) :: ms, some rest) := by
  cases ms with
  | nil => exact readMembers_last read
  | cons m ms =>
    have first := length_compactBefore m.2 (membersBefore ms rest)
    have others := length_membersBefore ms rest
    simp only [membersBefore, List.length_cons, List.length_append] at enough read
    obtain ⟨fuel, rfl⟩ : ∃ n, fuel = n + 1 := ⟨fuel - 1, by omega⟩
    have member : readValue fuel (compactBefore m.2 (membersBefore ms rest)) = _ :=
      readValue_compactBefore m.2 spelled.1 (stops_membersBefore ms rest) (by omega)
    exact readMembers_more read (readMembers_membersBefore ms spelled.2 m.1 (by omega) member)

end

theorem ofText?_compact {v : Json} (spelled : v.Spelled) : ofText? v.compact = some v := by
  have whole : readValue (2 * (compactBefore v []).length + 2) (compactBefore v []) = _ :=
    readValue_compactBefore v spelled stops_nil (by omega)
  simp only [ofText?, read, compact, String.toList_ofList, whole]
  rfl

end Dataflow.Json
