import Dataflow.Proofs.Expr.Names

/-! A text that is scanned falls into the spellings of its tokens and the blanks before and after them,
with nothing left out and nothing used twice. A spelling is cut off alike before all texts that start
alike, and before any blank; so a part of the text can be scanned alone, and blanks can be put in. -/

namespace Dataflow.Token

variable {c : Char} {cs rest rest' front spelling : List Char} {l : Lexeme}

theorem byteLength_append (cs ds : List Char) :
    byteLength (cs ++ ds) = byteLength cs + byteLength ds := by
  induction cs with
  | nil => simp [byteLength]
  | cons c cs ih => simp [byteLength, ih, Nat.add_assoc]

def Blank (cs : List Char) : Prop := ∀ c ∈ cs, Text.isBlank c = true

theorem blank_append {ds : List Char} : Blank (cs ++ ds) ↔ Blank cs ∧ Blank ds :=
  List.forall_mem_append

/-- A text starts as another does, or with a blank, or not at all. -/
def EndsAlike (rest rest' : List Char) : Prop :=
  ∀ d ∈ rest'.head?, Text.isBlank d = true ∨ rest.head? = some d

theorem endsAlike_of_blank {blanks : List Char} (blank : Blank blanks) : EndsAlike rest blanks :=
  fun d first => .inl (blank d (List.mem_of_mem_head? first))

theorem EndsAlike.append_left (alike : EndsAlike rest rest') (cs : List Char) :
    EndsAlike (cs ++ rest) (cs ++ rest') := by
  cases cs with
  | nil => exact alike
  | cons c cs => exact fun d first => .inr first

/-- What does not go on with `rest` does not go on with a text that ends alike. -/
theorem EndsAlike.stops {goesOn : Char → Bool} (alike : EndsAlike rest rest')
    (solid : ∀ d, goesOn d = true → Text.isBlank d = false)
    (stops : ∀ d ∈ rest.head?, goesOn d = false) : ∀ d ∈ rest'.head?, goesOn d = false := by
  intro d first
  rcases alike d first with blank | same
  · rw [← Bool.not_eq_true]
    intro goes
    rw [solid d goes] at blank
    cases blank
  · exact stops d same

theorem stringBody_cons {quote : Char} (plain : c ≠ '\\') (cs : List Char) :
    stringBody quote (c :: cs) =
      if c = quote then some ([], [c], cs)
      else (stringBody quote cs).map fun (value, spelling, rest) =>
        (c :: value, c :: spelling, rest) := by
  rw [stringBody]
  · exact fun same => absurd same plain
  · exact fun _ _ same => absurd same plain

/-- The body of a string goes on to the first quote that is not escaped, whatever comes after it. -/
theorem stringBody_eq_some {quote : Char} {value : List Char}
    (body : stringBody quote cs = some (value, spelling, rest)) :
    cs = spelling ++ rest ∧ spelling.getLast? = some quote ∧
      ∀ rest', stringBody quote (spelling ++ rest') = some (value, spelling, rest') := by
  fun_induction stringBody quote cs generalizing value spelling rest with
  | case1 => cases body
  | case2 => cases body
  | case3 c cs ih =>
    obtain ⟨⟨value, spelling, rest⟩, inner, same⟩ := Option.map_eq_some_iff.1 body
    cases same
    obtain ⟨rfl, last, again⟩ := ih inner
    refine ⟨rfl, ?_, fun rest' => ?_⟩
    · simp [List.getLast?_cons, last]
    · simp [stringBody, again rest']
  | case4 cs lone escaped =>
    cases body
    have plain : quote ≠ '\\' := by
      rintro rfl
      cases cs with
      | nil => exact lone rfl rfl
      | cons c cs => exact escaped c cs rfl rfl
    refine ⟨rfl, rfl, fun rest' => ?_⟩
    simp [stringBody_cons plain]
  | case5 c cs lone escaped other ih =>
    obtain ⟨⟨value, spelling, rest⟩, inner, same⟩ := Option.map_eq_some_iff.1 body
    cases same
    obtain ⟨rfl, last, again⟩ := ih inner
    have plain : c ≠ '\\' := by
      rintro rfl
      cases within : spelling ++ rest with
      | nil => exact lone rfl within
      | cons c cs => exact escaped c cs rfl within
    refine ⟨rfl, ?_, fun rest' => ?_⟩
    · simp [List.getLast?_cons, last]
    · simp [stringBody_cons plain, other, again rest']

theorem isBlank_of_continuesNumber {before : Char} (continues : continuesNumber before c = true) :
    Text.isBlank c = false := by
  have none : ((' ' :: Text.rareBlanks).any fun d =>
      d.isAlphanum || d == '.' || d == '+' || d == '-') = false := by decide +kernel
  refine Text.isBlank_eq_false none ?_
  unfold continuesNumber at continues
  grind

theorem numberSpan_append (before : Char) (cs : List Char) :
    (numberSpan before cs).1 ++ (numberSpan before cs).2 = cs := by
  induction cs generalizing before with
  | nil => rfl
  | cons c cs ih =>
    rw [numberSpan]
    split
    · exact congrArg (c :: ·) (ih c)
    · rfl

theorem isBlank_of_mem_numberSpan {before d : Char} (digit : d ∈ (numberSpan before cs).1) :
    Text.isBlank d = false := by
  induction cs generalizing before with
  | nil => cases digit
  | cons c cs ih =>
    rw [numberSpan] at digit
    split at digit
    · next continues =>
      rcases List.mem_cons.1 digit with rfl | later
      · exact isBlank_of_continuesNumber continues
      · exact ih later
    · cases digit

/-- A number is cut off alike before all texts that end it alike. -/
theorem numberSpan_alike {before : Char} (alike : EndsAlike (numberSpan before cs).2 rest') :
    numberSpan before ((numberSpan before cs).1 ++ rest') = ((numberSpan before cs).1, rest') := by
  induction cs generalizing before with
  | nil => exact numberSpan_of_stops (alike.stops (fun _ => isBlank_of_continuesNumber) nofun)
  | cons c cs ih =>
    rw [numberSpan] at alike ⊢
    split
    · next continues =>
      rw [if_pos continues] at alike
      simp only [List.cons_append, numberSpan, continues, if_true, ih alike]
    · next ends =>
      rw [if_neg ends] at alike
      refine numberSpan_of_stops (alike.stops (fun _ => isBlank_of_continuesNumber) ?_)
      rintro d ⟨⟩
      simpa using ends

theorem Starts.split (starts : Starts c cs l spelling rest) :
    ∃ more, spelling = c :: more ∧ cs = more ++ rest := by
  cases starts with
  | mark => exact ⟨[], rfl, rfl⟩
  | quoted _ _ body => exact ⟨_, rfl, (stringBody_eq_some body).1⟩
  | number => exact ⟨_, rfl, (numberSpan_append c cs).symm⟩
  | symbol => exact ⟨_, rfl, (List.takeWhile_append_dropWhile).symm⟩

/-- The same spelling is cut off where the text goes on alike. -/
theorem Starts.alike (starts : Starts c cs l spelling rest) (alike : EndsAlike rest rest')
    {more : List Char} (spelled : spelling = c :: more) :
    Starts c (more ++ rest') l spelling rest' := by
  cases starts with
  | mark mark =>
    cases spelled
    exact .mark mark
  | quoted plain quote body =>
    cases spelled
    exact .quoted plain quote ((stringBody_eq_some body).2.2 rest')
  | number plain unquoted digit read =>
    cases spelled
    have span := numberSpan_alike alike
    have starts : Starts c ((numberSpan c cs).1 ++ rest') _ _ _ :=
      .number plain unquoted digit (by rw [span]; exact read)
    rwa [span] at starts
  | symbol plain unquoted other letter =>
    cases spelled
    have all : ∀ d ∈ cs.takeWhile continuesSymbol, continuesSymbol d = true :=
      fun d hd => List.mem_takeWhile_imp hd
    have stops : ∀ d ∈ rest'.head?, continuesSymbol d = false :=
      alike.stops (fun _ => isBlank_of_continuesSymbol) fun d first => by
        have ends := List.head?_dropWhile_not continuesSymbol cs
        rw [Option.mem_def.1 first] at ends
        simpa using ends
    have starts : Starts c (cs.takeWhile continuesSymbol ++ rest') _ _ _ :=
      .symbol plain unquoted other letter
    obtain ⟨taken, left⟩ := cut_symbol all stops
    rwa [taken, left] at starts

theorem Starts.isBlank_getLast (starts : Starts c cs l spelling rest)
    (solid : Text.isBlank c = false) : ∀ d ∈ spelling.getLast?, Text.isBlank d = false := by
  intro d last
  cases starts with
  | mark =>
    cases last
    exact solid
  | quoted plain quote body =>
    rw [List.getLast?_cons, (stringBody_eq_some body).2.1] at last
    cases last
    exact solid
  | number plain unquoted digit read =>
    rcases List.mem_cons.1 (List.mem_of_getLast? last) with rfl | later
    · exact solid
    · exact isBlank_of_mem_numberSpan later
  | symbol plain unquoted other letter =>
    rcases List.mem_cons.1 (List.mem_of_getLast? last) with rfl | later
    · exact solid
    · exact isBlank_of_continuesSymbol (List.mem_takeWhile_imp later)

/-- A token's part of a text: the spelling of its lexeme, and the blanks after it. -/
structure Tile where
  lexeme : Lexeme
  spelling : List Char
  blanks : List Char

namespace Tile

def text (t : Tile) : List Char := t.spelling ++ t.blanks

/-- The tile reads as its lexeme where `rest` follows it. -/
structure Fits (t : Tile) (rest : List Char) : Prop where
  reads : ∃ c more, t.spelling = c :: more ∧ Text.isBlank c = false ∧
    Starts c (more ++ (t.blanks ++ rest)) t.lexeme t.spelling (t.blanks ++ rest)
  blank : Blank t.blanks

/-- The text that tiles make. -/
def join (tiles : List Tile) : List Char := tiles.flatMap text

/-- Each tile fits where it lies. -/
inductive Laid : List Tile → Prop
  | nil : Laid []
  | cons {t : Tile} {tiles : List Tile} (fits : t.Fits (join tiles)) (later : Laid tiles) :
    Laid (t :: tiles)

/-- The tokens of tiles that start `position` bytes into a text. -/
def tokens (position : Nat) : List Tile → List Token
  | [] => []
  | t :: tiles => ⟨t.lexeme, position⟩ :: tokens (position + byteLength t.text) tiles

variable {t : Tile} {tiles : List Tile}

theorem join_cons (t : Tile) (tiles : List Tile) : join (t :: tiles) = t.text ++ join tiles := rfl

theorem join_append (first second : List Tile) :
    join (first ++ second) = join first ++ join second :=
  List.flatMap_append

theorem tokens_append (position : Nat) (first second : List Tile) :
    tokens position (first ++ second) =
      tokens position first ++ tokens (position + byteLength (join first)) second := by
  induction first generalizing position with
  | nil => rfl
  | cons t first ih =>
    rw [List.cons_append, tokens, tokens, ih, join_cons, byteLength_append, Nat.add_assoc]
    rfl

theorem tokens_add (n position : Nat) (tiles : List Tile) :
    tokens (n + position) tiles = (tokens position tiles).map (after n) := by
  induction tiles generalizing position with
  | nil => rfl
  | cons t tiles ih =>
    rw [tokens, tokens, Nat.add_assoc, ih]
    rfl

theorem map_lexeme_tokens (position : Nat) (tiles : List Tile) :
    (tokens position tiles).map Token.lexeme = tiles.map lexeme := by
  induction tiles generalizing position with
  | nil => rfl
  | cons t tiles ih => rw [tokens, List.map_cons, ih, List.map_cons]

end Tile

theorem scanFrom_blanks (blank : Blank front) {fuel : Nat} (enough : front.length ≤ fuel)
    (position : Nat) (cs : List Char) :
    scanFrom fuel position (front ++ cs) =
      scanFrom (fuel - front.length) (position + byteLength front) cs := by
  induction front generalizing fuel position with
  | nil => rfl
  | cons c front ih =>
    obtain ⟨first, others⟩ := List.forall_mem_cons.1 blank
    obtain _ | fuel := fuel
    · cases enough
    · rw [List.cons_append, scanFrom_cons, if_pos first, ih others (Nat.le_of_succ_le_succ enough),
        byteLength, List.length_cons, Nat.add_sub_add_right, Nat.add_assoc]

/-- Tiles are scanned as their tokens. -/
theorem Tile.Laid.scanFrom {tiles : List Tile} (laid : Laid tiles) (blank : Blank front)
    {fuel : Nat} (enough : (front ++ join tiles).length ≤ fuel) (position : Nat) :
    Token.scanFrom fuel position (front ++ join tiles) =
      .ok (tokens (position + byteLength front) tiles) := by
  induction laid generalizing front fuel position with
  | nil =>
    rw [List.length_append] at enough
    rw [scanFrom_blanks blank (by omega)]
    cases fuel - front.length <;> rfl
  | @cons t tiles fits later ih =>
    obtain ⟨⟨c, more, spelled, solid, starts⟩, blanks⟩ := fits
    rw [List.length_append, join_cons, text, spelled] at enough
    simp only [List.cons_append, List.length_cons, List.length_append] at enough
    obtain ⟨rest, enoughRest⟩ : ∃ n, fuel - front.length = n + 1 := ⟨fuel - front.length - 1, by omega⟩
    rw [scanFrom_blanks blank (by omega), enoughRest, join_cons, text, spelled, List.append_assoc,
      List.cons_append, scanFrom_cons, if_neg (by simp [solid]), first_eq_ok.2 starts]
    dsimp only
    rw [ih blanks (by simp only [List.length_append]; omega), tokens, text, byteLength_append,
      Nat.add_assoc _ (byteLength t.spelling)]
    rfl

/-- A text that is scanned is blanks and tiles. -/
theorem exists_laid {fuel position : Nat} {ts : List Token} (enough : cs.length ≤ fuel)
    (scanned : scanFrom fuel position cs = .ok ts) :
    ∃ front tiles, cs = front ++ Tile.join tiles ∧ Blank front ∧ Tile.Laid tiles ∧
      ts = Tile.tokens (position + byteLength front) tiles := by
  induction fuel generalizing position cs ts with
  | zero =>
    obtain rfl := List.length_eq_zero_iff.1 (Nat.le_zero.1 enough)
    cases scanned
    exact ⟨[], [], rfl, nofun, .nil, rfl⟩
  | succ fuel ih =>
    cases cs with
    | nil =>
      cases scanned
      exact ⟨[], [], rfl, nofun, .nil, rfl⟩
    | cons c cs =>
      have enough := Nat.le_of_succ_le_succ enough
      obtain ⟨blank, later⟩ | ⟨solid, l, spelling, rest, ts, starts, later, rfl⟩ :=
        scanFrom_cons_eq_ok scanned
      · obtain ⟨front, tiles, rfl, before, laid, rfl⟩ := ih enough later
        refine ⟨c :: front, tiles, rfl, List.forall_mem_cons.2 ⟨blank, before⟩, laid, ?_⟩
        rw [byteLength, Nat.add_assoc]
      · have starts := first_eq_ok.1 starts
        obtain ⟨more, rfl, rfl⟩ := starts.split
        rw [List.length_append] at enough
        obtain ⟨front, tiles, rfl, before, laid, rfl⟩ := ih (by omega) later
        have fits : Tile.Fits ⟨l, c :: more, front⟩ (Tile.join tiles) :=
          ⟨⟨c, more, rfl, solid, starts⟩, before⟩
        refine ⟨[], ⟨l, c :: more, front⟩ :: tiles, ?_, nofun, .cons fits laid, ?_⟩
        · simp [Tile.join_cons, Tile.text]
        · simp [Tile.tokens, Tile.text, byteLength_append, byteLength, Nat.add_assoc]

namespace Tile

variable {t : Tile} {tiles before later : List Tile} {blanks : List Char}

theorem Fits.alike (fits : t.Fits rest) (blank : Blank blanks)
    (alike : EndsAlike (t.blanks ++ rest) (blanks ++ rest')) :
    Fits { t with blanks := blanks } rest' := by
  obtain ⟨⟨c, more, spelled, solid, starts⟩, -⟩ := fits
  exact ⟨⟨c, more, spelled, solid, starts.alike alike spelled⟩, blank⟩

theorem Fits.alone (fits : t.Fits rest) : Laid [t] := by
  have alike : EndsAlike (t.blanks ++ rest) (t.blanks ++ join []) := by
    rw [join, List.flatMap_nil, List.append_nil]
    exact endsAlike_of_blank fits.blank
  exact .cons (fits.alike fits.blank alike) .nil

theorem Laid.scan (laid : Laid tiles) : Token.scan (.ofList (join tiles)) = .ok (tokens 0 tiles) := by
  have scanned := laid.scanFrom (nofun : Blank []) (Nat.le_refl _) 0
  rw [List.nil_append] at scanned
  rw [Token.scan, String.toList_ofList]
  exact scanned

theorem Fits.scan (fits : t.Fits rest) :
    Token.scan (.ofList t.text) = .ok [⟨t.lexeme, 0⟩] := by
  have scanned := fits.alone.scan
  rw [join_cons, join, List.flatMap_nil, List.append_nil] at scanned
  exact scanned

theorem Laid.fits (laid : Laid (before ++ t :: later)) : t.Fits (join later) := by
  induction before with
  | nil =>
    cases laid with
    | cons fits _ => exact fits
  | cons t before ih =>
    cases laid with
    | cons _ laid => exact ih laid

theorem Fits.byteLength_pos (fits : t.Fits rest) : 0 < byteLength t.text := by
  obtain ⟨c, more, spelled, -⟩ := fits.reads
  have := c.utf8Size_pos
  rw [text, spelled, List.cons_append, byteLength]
  omega

theorem endsAlike_insert (blank : Blank blanks) (cs ds : List Char) :
    EndsAlike (cs ++ ds) (cs ++ blanks ++ ds) := by
  rw [List.append_assoc]
  refine EndsAlike.append_left (fun d first => ?_) cs
  cases blanks with
  | nil => exact .inr first
  | cons b blanks =>
    cases first
    exact .inl (blank d (List.mem_cons_self ..))

/-- Blanks that are put in where a tile ends become blanks of that tile, and before the first tile they
are blanks before it. Either way the tokens up to there stay where they are. -/
theorem Laid.insert (laid : Laid (before ++ later)) (blank : Blank front) (blank' : Blank blanks)
    (n : Nat) :
    ∃ front' before', front' ++ join before' = front ++ join before ++ blanks ∧ Blank front' ∧
      Laid (before' ++ later) ∧
      tokens (n + byteLength front') before' = tokens (n + byteLength front) before := by
  induction before generalizing front n with
  | nil =>
    exact ⟨front ++ blanks, [], by simp [join], blank_append.2 ⟨blank, blank'⟩, laid, rfl⟩
  | cons t before ih =>
    cases laid with
    | cons fits laid =>
      obtain ⟨front', before', same, blankFront, laid', stay⟩ :=
        ih laid fits.blank (n + byteLength front + byteLength t.spelling)
      have alike : EndsAlike (t.blanks ++ join (before ++ later))
          (front' ++ join (before' ++ later)) := by
        have inserted := endsAlike_insert blank' (t.blanks ++ join before) (join later)
        rwa [← same, List.append_assoc, List.append_assoc, ← join_append, ← join_append] at inserted
      refine ⟨front, { t with blanks := front' } :: before', ?_, blank,
        .cons (fits.alike blankFront alike) laid', ?_⟩
      · simp only [join_cons, text, List.append_assoc] at same ⊢
        rw [same]
      · simp only [tokens, text, byteLength_append, ← Nat.add_assoc, stay]

/-- Blanks between two tiles only move the tokens after them. -/
theorem Laid.scan_insert (laid : Laid (before ++ later)) (blank : Blank front)
    (blank' : Blank blanks) :
    Token.scan (.ofList (front ++ join before ++ blanks ++ join later)) =
      .ok (tokens (byteLength front) before ++
        (tokens (byteLength (front ++ join before)) later).map (after (byteLength blanks))) := by
  obtain ⟨front', before', same, blankFront, laid', stay⟩ := laid.insert blank blank' 0
  have moved : byteLength front' + byteLength (join before') =
      byteLength blanks + byteLength (front ++ join before) := by
    rw [← byteLength_append, same, byteLength_append]
    omega
  rw [Nat.zero_add, Nat.zero_add] at stay
  rw [Token.scan, String.toList_ofList, ← same, List.append_assoc, ← join_append,
    laid'.scanFrom blankFront (Nat.le_refl _), tokens_append, Nat.zero_add, stay, moved, tokens_add]

/-- The tiles at the end may be changed to others that end the text before them alike. -/
theorem Laid.replace {later' : List Tile} (laid : Laid (before ++ later)) (laid' : Laid later')
    (alike : EndsAlike (join later) (join later')) : Laid (before ++ later') := by
  induction before with
  | nil => exact laid'
  | cons t before ih =>
    cases laid with
    | cons fits laid =>
      have alike : EndsAlike (t.blanks ++ join (before ++ later))
          (t.blanks ++ join (before ++ later')) := by
        simp only [join_append, ← List.append_assoc]
        exact alike.append_left _
      exact .cons (fits.alike fits.blank alike) (ih laid)

theorem Laid.isBlank_head (laid : Laid tiles) :
    ∀ c ∈ (join tiles).head?, Text.isBlank c = false := by
  cases laid with
  | nil => nofun
  | cons fits later =>
    obtain ⟨c, more, spelled, solid, -⟩ := fits.reads
    rw [join_cons, text, spelled]
    rintro d ⟨⟩
    exact solid

theorem Fits.isBlank_getLast (fits : t.Fits rest) :
    ∀ c ∈ t.spelling.getLast?, Text.isBlank c = false := by
  obtain ⟨c, more, -, solid, starts⟩ := fits.reads
  exact starts.isBlank_getLast solid

/-- A text is trimmed to tiles that have the same lexemes. -/
theorem Laid.exists_trimmed (laid : Laid tiles) (blank : Blank front) :
    ∃ tiles', Text.trim (front ++ join tiles) = join tiles' ∧ Laid tiles' ∧
      tiles'.map lexeme = tiles.map lexeme := by
  rcases tiles.eq_nil_or_concat with rfl | ⟨before, t, rfl⟩
  · refine ⟨[], ?_, .nil, rfl⟩
    have trimmed : Text.trim (front ++ [] ++ []) = [] :=
      Text.trim_append blank nofun nofun nofun
    rwa [List.append_nil] at trimmed
  · rw [List.concat_eq_append] at laid ⊢
    have fits := laid.fits
    obtain ⟨c, more, spelled, -⟩ := fits.reads
    let bare : Tile := { t with blanks := [] }
    have same : join (before ++ [t]) = join (before ++ [bare]) ++ t.blanks := by
      simp [join, text, bare]
    have bareFits : bare.Fits (join []) :=
      fits.alike nofun (endsAlike_of_blank nofun)
    have laid' : Laid (before ++ [bare]) := by
      refine laid.replace (.cons bareFits .nil) fun d first => .inr ?_
      simpa [join, text, bare, spelled] using first
    refine ⟨before ++ [bare], ?_, laid', by simp [bare]⟩
    rw [same, ← List.append_assoc]
    refine Text.trim_append blank fits.blank laid'.isBlank_head fun d last => ?_
    refine fits.isBlank_getLast d ?_
    simpa [join, text, bare, spelled, List.getLast?_append] using last

end Tile

/-- The text without the blanks around it is scanned as the same lexemes. -/
theorem scan_trimmed {text : String} {ts : List Token} (scanned : scan text = .ok ts) :
    ∃ ts', scan (trimmed text) = .ok ts' ∧ ts'.map lexeme = ts.map lexeme := by
  obtain ⟨front, tiles, cut, blank, laid, rfl⟩ := exists_laid (Nat.le_refl _) scanned
  obtain ⟨tiles', trim, laid', same⟩ := laid.exists_trimmed blank
  refine ⟨Tile.tokens 0 tiles', ?_, ?_⟩
  · rw [trimmed, cut, trim]
    exact laid'.scan
  · rw [Tile.map_lexeme_tokens, Tile.map_lexeme_tokens, same]

end Dataflow.Token
