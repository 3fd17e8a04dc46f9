import Dataflow.Proofs.Expr.Faults
import Dataflow.Proofs.Expr.Tiling
import Mathlib.Data.String.Basic

/-! Offsets in a text, counted in bytes. Those of its tokens are boundaries between characters, and so
is the offset of every fault; from each offset to the next, and from the last to the end, the text is
one token and blanks. -/

namespace Dataflow

namespace Token

theorem utf8ByteSize_ofList (cs : List Char) : (String.ofList cs).utf8ByteSize = byteLength cs := by
  rw [String.utf8ByteSize_ofList]
  induction cs with
  | nil => rfl
  | cons c cs ih => rw [String.utf8Len_cons, ih, byteLength, Nat.add_comm]

/-- The part of a text from an offset up to another. -/
def between (text : String) (p q : Nat) : String := String.Pos.Raw.extract text ⟨p⟩ ⟨q⟩

theorem between_ofList (as bs cs : List Char) :
    between (.ofList (as ++ bs ++ cs)) (byteLength as) (byteLength (as ++ bs)) = .ofList bs := by
  have cut := String.extract_of_valid as bs cs
  rw [← String.utf8ByteSize_ofList, ← String.utf8ByteSize_ofList, utf8ByteSize_ofList,
    utf8ByteSize_ofList, ← byteLength_append] at cut
  exact cut

theorem isValid_ofList (as bs : List Char) :
    String.Pos.Raw.IsValid (.ofList (as ++ bs)) ⟨byteLength as⟩ := by
  rw [String.Pos.Raw.isValid_iff_exists_append]
  refine ⟨.ofList as, .ofList bs, String.ofList_append, ?_⟩
  rw [← utf8ByteSize_ofList]
  rfl

/-- The offsets of tokens, and that of the end of the text. -/
def offsets (text : String) (ts : List Token) : List Nat :=
  ts.map Token.position ++ [text.utf8ByteSize]

/-- Tokens tile a text. Their offsets ascend, lie between characters, and only blanks come before the
first; the text from one to the next is a text of that token alone; and blanks can be put in at any of
them, which moves the tokens from there on and nothing else. -/
structure Tiles (text : String) (ts : List Token) : Prop where
  ascending : (offsets text ts).Pairwise (· < ·)
  boundary : ∀ p ∈ offsets text ts, String.Pos.Raw.IsValid text ⟨p⟩
  blank : ∀ p ∈ (offsets text ts).head?, Blank (between text 0 p).toList
  alone : ∀ e ∈ ts.zip (offsets text ts).tail,
    scan (between text e.1.position e.2) = .ok [⟨e.1.lexeme, 0⟩]
  insert : ∀ p ∈ offsets text ts, ∀ blanks : String, Blank blanks.toList →
    scan (between text 0 p ++ blanks ++ between text p text.utf8ByteSize) =
      .ok (ts.map fun t => if t.position < p then t else t.after blanks.utf8ByteSize)

namespace Tile

variable {n p : Nat} {tiles before later : List Tile} {front : List Char}

/-- The offsets of tiles that start `n` bytes into a text, and of their end. -/
def offsetsFrom (n : Nat) : List Tile → List Nat
  | [] => [n]
  | t :: tiles => n :: offsetsFrom (n + byteLength t.text) tiles

theorem offsetsFrom_eq (n : Nat) (tiles : List Tile) :
    offsetsFrom n tiles =
      (tokens n tiles).map Token.position ++ [n + byteLength (join tiles)] := by
  induction tiles generalizing n with
  | nil => rfl
  | cons t tiles ih =>
    rw [offsetsFrom, ih, join_cons, byteLength_append, ← Nat.add_assoc]
    rfl

/-- An offset is where some of the tiles end and the others start. -/
theorem exists_append_of_mem (listed : p ∈ offsetsFrom n tiles) :
    ∃ before later, tiles = before ++ later ∧ p = n + byteLength (join before) := by
  induction tiles generalizing n with
  | nil => exact ⟨[], [], rfl, List.mem_singleton.1 listed⟩
  | cons t tiles ih =>
    rcases List.mem_cons.1 listed with rfl | listed
    · exact ⟨[], t :: tiles, rfl, rfl⟩
    · obtain ⟨before, later, rfl, rfl⟩ := ih listed
      refine ⟨t :: before, later, rfl, ?_⟩
      rw [join_cons, byteLength_append, Nat.add_assoc]

/-- From one offset to the next there is one tile. -/
theorem exists_tile_of_mem {e : Token × Nat}
    (listed : e ∈ (tokens n tiles).zip (offsetsFrom n tiles).tail) :
    ∃ before t later, tiles = before ++ t :: later ∧
      e = (⟨t.lexeme, n + byteLength (join before)⟩, n + byteLength (join before ++ t.text)) := by
  induction tiles generalizing n with
  | nil => cases listed
  | cons t tiles ih =>
    have next : ∃ more, offsetsFrom (n + byteLength t.text) tiles =
        (n + byteLength t.text) :: more := by
      cases tiles <;> exact ⟨_, rfl⟩
    obtain ⟨more, next⟩ := next
    rw [tokens, offsetsFrom, List.tail_cons, next, List.zip_cons_cons, List.mem_cons] at listed
    rcases listed with rfl | listed
    · exact ⟨[], t, tiles, rfl, rfl⟩
    · obtain ⟨before, t', later, rfl, rfl⟩ := ih (by rw [next]; exact listed)
      refine ⟨t :: before, t', later, rfl, ?_⟩
      simp only [join_cons, List.append_assoc, byteLength_append, Nat.add_assoc]

theorem Laid.filled (laid : Laid tiles) : ∀ t ∈ tiles, 0 < byteLength t.text := by
  induction laid with
  | nil => nofun
  | cons fits _ ih => exact List.forall_mem_cons.2 ⟨fits.byteLength_pos, ih⟩

theorem ascending_offsetsFrom (filled : ∀ t ∈ tiles, 0 < byteLength t.text) (n : Nat) :
    (offsetsFrom n tiles).Pairwise (· < ·) := by
  induction tiles generalizing n with
  | nil => exact List.pairwise_singleton _ _
  | cons t tiles ih =>
    obtain ⟨first, others⟩ := List.forall_mem_cons.1 filled
    refine List.pairwise_cons.2 ⟨fun p listed => ?_, ih others _⟩
    obtain ⟨before, later, -, rfl⟩ := exists_append_of_mem listed
    omega

theorem map_tokens_before (filled : ∀ t ∈ tiles, 0 < byteLength t.text) (n k : Nat) :
    (tokens n tiles).map
      (fun t => if t.position < n + byteLength (join tiles) then t else t.after k) =
        tokens n tiles := by
  refine (List.map_congr_left fun t listed => if_pos ?_).trans (List.map_id _)
  have ascending := ascending_offsetsFrom filled n
  rw [offsetsFrom_eq, List.pairwise_append] at ascending
  exact ascending.2.2 _ (List.mem_map_of_mem listed) _ (List.mem_singleton_self _)

theorem map_tokens_from (n k : Nat) (tiles : List Tile) :
    (tokens n tiles).map (fun t => if t.position < n then t else t.after k) =
      (tokens n tiles).map (after k) := by
  refine List.map_congr_left fun t listed => if_neg ?_
  have listed : t.position ∈ offsetsFrom n tiles := by
    rw [offsetsFrom_eq]
    exact List.mem_append_left _ (List.mem_map_of_mem listed)
  obtain ⟨before, later, -, same⟩ := exists_append_of_mem listed
  omega

end Tile

/-- A scanned text is tiled by its tokens. -/
theorem tiles_of_scan {text : String} {ts : List Token} (scanned : scan text = .ok ts) :
    Tiles text ts := by
  obtain ⟨front, tiles, cut, blank, laid, rfl⟩ := exists_laid (Nat.le_refl _) scanned
  obtain rfl : text = .ofList (front ++ Tile.join tiles) := by rw [← cut, String.ofList_toList]
  rw [Nat.zero_add]
  -- the offsets of the tokens are where the tiles begin and where the last one ends
  have bounds : offsets (.ofList (front ++ Tile.join tiles))
      (Tile.tokens (byteLength front) tiles) = Tile.offsetsFrom (byteLength front) tiles := by
    rw [offsets, utf8ByteSize_ofList, byteLength_append, Tile.offsetsFrom_eq]
  constructor
  case ascending =>
    rw [bounds]
    exact Tile.ascending_offsetsFrom laid.filled _
  case boundary =>
    intro p listed
    rw [bounds] at listed
    obtain ⟨before, later, rfl, rfl⟩ := Tile.exists_append_of_mem listed
    rw [Tile.join_append, ← List.append_assoc, ← byteLength_append]
    exact isValid_ofList _ _
  case blank =>
    intro p first
    have start : p = byteLength front := by
      rw [bounds] at first
      cases tiles <;> exact (Option.some.inj first).symm
    have cut := between_ofList [] front (Tile.join tiles)
    rw [start]
    rw [List.nil_append] at cut
    rw [show (0 : Nat) = byteLength [] from rfl, cut, String.toList_ofList]
    exact blank
  case alone =>
    intro e listed
    rw [bounds] at listed
    obtain ⟨before, t, later, rfl, rfl⟩ := Tile.exists_tile_of_mem listed
    have cut := between_ofList (front ++ Tile.join before) t.text (Tile.join later)
    simp only [List.append_assoc, byteLength_append] at cut
    simp only [Tile.join_append, Tile.join_cons, byteLength_append, cut]
    exact laid.fits.scan
  case insert =>
    intro p listed blanks blank'
    rw [bounds] at listed
    obtain ⟨before, later, rfl, rfl⟩ := Tile.exists_append_of_mem listed
    have first := between_ofList [] (front ++ Tile.join before) (Tile.join later)
    have last := between_ofList (front ++ Tile.join before) (Tile.join later) []
    rw [List.nil_append] at first
    rw [List.append_nil] at last
    have scanned := laid.scan_insert blank blank'
    have filled : ∀ t ∈ before, 0 < byteLength t.text :=
      fun t listed => laid.filled t (List.mem_append_left _ listed)
    have inserted : Token.between (.ofList (front ++ Tile.join before ++ Tile.join later)) 0
        (byteLength (front ++ Tile.join before)) ++ blanks ++
          Token.between (.ofList (front ++ Tile.join before ++ Tile.join later))
            (byteLength (front ++ Tile.join before))
            (byteLength (front ++ Tile.join before ++ Tile.join later)) =
        .ofList (front ++ Tile.join before ++ blanks.toList ++ Tile.join later) := by
      rw [last, show (0 : Nat) = byteLength [] from rfl, first]
      simp only [String.ofList_append, String.ofList_toList]
    rw [Tile.join_append, ← List.append_assoc, utf8ByteSize_ofList, ← byteLength_append, inserted,
      scanned, Tile.tokens_append, List.map_append, byteLength_append,
      Tile.map_tokens_before filled, Tile.map_tokens_from, ← utf8ByteSize_ofList blanks.toList,
      String.ofList_toList]

/-- A text is scanned up to a fault. -/
theorem exists_append_of_fault {fuel position : Nat} {cs : List Char} {fault : ParseError}
    (failed : scanFrom fuel position cs = .error fault) :
    ∃ before later, cs = before ++ later ∧ fault.position = position + byteLength before := by
  induction fuel generalizing position cs with
  | zero => cases failed
  | succ fuel ih =>
    cases cs with
    | nil => cases failed
    | cons c cs =>
      rw [scanFrom_cons] at failed
      split at failed
      · obtain ⟨before, later, rfl, offset⟩ := ih failed
        refine ⟨c :: before, later, rfl, ?_⟩
        rw [offset, byteLength, Nat.add_assoc]
      · rcases starts : first c cs with problem | ⟨l, spelling, rest⟩
        · simp only [starts] at failed
          cases failed
          exact ⟨[], c :: cs, rfl, rfl⟩
        · simp only [starts] at failed
          obtain ⟨more, rfl, rfl⟩ := (first_eq_ok.1 starts).split
          rcases Expr.bind_eq_error.1 failed with failed | ⟨_, -, others⟩
          · obtain ⟨before, later, rfl, offset⟩ := ih failed
            refine ⟨c :: more ++ before, later, by simp, ?_⟩
            rw [offset, byteLength_append, Nat.add_assoc]
          · cases others

end Token

namespace Expr

/-- A fault of a text lies between characters. -/
theorem isValid_of_fault {text : String} {fault : ParseError} (failed : ofText text = .error fault) :
    String.Pos.Raw.IsValid text ⟨fault.position⟩ := by
  have boundary (before later : List Char) (cut : text.toList = before ++ later)
      (same : fault.position = Token.byteLength before) :
      String.Pos.Raw.IsValid text ⟨fault.position⟩ := by
    obtain rfl : text = .ofList (before ++ later) := by rw [← cut, String.ofList_toList]
    rw [same]
    exact Token.isValid_ofList before later
  rcases bind_eq_error.1 failed with failed | ⟨ts, scanned, failed⟩
  · obtain ⟨before, later, cut, same⟩ := Token.exists_append_of_fault failed
    exact boundary before later cut (by omega)
  · have tiles := Token.tiles_of_scan scanned
    rcases placed_ofTokens failed with start | finish | listed
    · exact boundary [] text.toList rfl start
    · rw [finish]
      exact tiles.boundary _ (by simp [Token.offsets])
    · exact tiles.boundary _ (by simp only [Token.offsets, List.mem_append]; exact .inl listed)

/-- The tokens of a text tile it, and a text that is no statement has its fault between characters. -/
theorem offsets_exact (text : String) :
    (∀ ts, Token.scan text = .ok ts → Token.Tiles text ts) ∧
    ∀ fault, ofText text = .error fault →
      fault.position ≤ text.utf8ByteSize ∧ String.Pos.Raw.IsValid text ⟨fault.position⟩ := by
  refine ⟨fun ts => Token.tiles_of_scan, fun fault failed => ?_⟩
  have valid := isValid_of_fault failed
  exact ⟨valid.le_rawEndPos, valid⟩

/-- Letters and strings of several bytes, and a number with a sign inside it. -/
theorem offsets_exact_sample :
    Token.scan "é = 1e+5*'é'\u00a0" =
      .ok [⟨.symbol "é", 0⟩, ⟨.equals, 3⟩, ⟨.literal (.float (.ofInt 100000)), 5⟩,
        ⟨.operator .mul, 9⟩, ⟨.literal (.string "é"), 10⟩] ∧
    Token.Tiles "é = 1e+5*'é'\u00a0" [⟨.symbol "é", 0⟩, ⟨.equals, 3⟩,
      ⟨.literal (.float (.ofInt 100000)), 5⟩, ⟨.operator .mul, 9⟩,
      ⟨.literal (.string "é"), 10⟩] ∧
    ofText "é = $" = .error ⟨5, .unexpectedCharacter '$'⟩ ∧
    5 ≤ "é = $".utf8ByteSize ∧ String.Pos.Raw.IsValid "é = $" ⟨5⟩ := by
  have scanned : Token.scan "é = 1e+5*'é'\u00a0" =
      .ok [⟨.symbol "é", 0⟩, ⟨.equals, 3⟩, ⟨.literal (.float (.ofInt 100000)), 5⟩,
        ⟨.operator .mul, 9⟩, ⟨.literal (.string "é"), 10⟩] := by decide +kernel
  have failed : ofText "é = $" = .error ⟨5, .unexpectedCharacter '$'⟩ := by
    have stops : Token.scan "é = $" = .error ⟨5, .unexpectedCharacter '$'⟩ := by decide +kernel
    rw [ofText, stops]
    rfl
  exact ⟨scanned, (offsets_exact _).1 _ scanned, failed, (offsets_exact _).2 _ failed⟩

end Expr

end Dataflow
