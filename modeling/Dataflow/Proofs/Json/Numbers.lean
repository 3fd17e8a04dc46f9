import Dataflow.Json.Printer
import Dataflow.Json.Reader
import Dataflow.Proofs.Binary64.Ranks

/-! The numbers of JSON read back from their texts, digit by digit, whatever their value. Whole numbers
of 64 bits have a floating point value, and the texts of floating point numbers are not those of whole
numbers. -/

namespace Dataflow.Json

/-- What stands after a value on one line: nothing, the next item, or the end of the items. -/
def Stops (rest : List Char) : Prop := ∀ c ∈ rest.head?, c = ',' ∨ c = ']' ∨ c = '\x7d'

theorem stops_nil : Stops [] := nofun

theorem stops_cons {c : Char} (rest : List Char) (mark : c = ',' ∨ c = ']' ∨ c = '\x7d') :
    Stops (c :: rest) := fun _ here => Option.some.inj here ▸ mark

def AllDigits (cs : List Char) : Prop := ∀ c ∈ cs, c.isDigit = true

theorem AllDigits.append {cs ds : List Char} (first : AllDigits cs) (rest : AllDigits ds) :
    AllDigits (cs ++ ds) := fun c hc => (List.mem_append.1 hc).elim (first c) (rest c)

theorem allDigits_zeros (n : Nat) : AllDigits (List.replicate n '0') := fun _ hc =>
  List.eq_of_mem_replicate hc ▸ rfl

theorem allDigits_toDigits (n : Nat) : AllDigits (Nat.toDigits 10 n) := fun _ hc =>
  Nat.isDigit_of_mem_toDigits (by decide) (by decide) hc

/-- A number whose fraction is made of digits, as in every text. -/
def Number.Spelled (n : Number) : Prop := AllDigits n.fraction

theorem digits?_append {ds rest : List Char} (filled : ds ≠ []) (digits : AllDigits ds)
    (stop : ∀ c ∈ rest.head?, c.isDigit = false) :
    digits? (ds ++ rest) = some (ds, rest) := by
  have none : rest.takeWhile Char.isDigit = [] ∧ rest.dropWhile Char.isDigit = rest := by
    cases rest with
    | nil => exact ⟨rfl, rfl⟩
    | cons c rest => simp [stop c rfl]
  have taken : (ds ++ rest).takeWhile Char.isDigit = ds := by
    rw [List.takeWhile_append_of_pos digits, none.1, List.append_nil]
  have left : (ds ++ rest).dropWhile Char.isDigit = rest := by
    rw [List.dropWhile_append_of_pos digits, none.2]
  simp [digits?, taken, left, filled]

theorem head?_toDigits_append (n : Nat) (rest : List Char) :
    (Nat.toDigits 10 n ++ rest).head? = (Nat.toDigits 10 n).head? := by
  cases digits : Nat.toDigits 10 n with
  | nil => exact absurd digits Nat.toDigits_ne_nil
  | cons d ds => rfl

theorem digits?_toDigits {rest : List Char} (n : Nat)
    (stop : ∀ c ∈ rest.head?, c.isDigit = false) :
    digits? (Nat.toDigits 10 n ++ rest) = some (Nat.toDigits 10 n, rest) :=
  digits?_append Nat.toDigits_ne_nil (allDigits_toDigits n) stop

theorem digitsValue_toDigits (n : Nat) : Binary64.digitsValue (Nat.toDigits 10 n) = n :=
  Nat.ofDigitChars_toDigits (by decide) (by decide)

theorem head?_toDigits {n : Nat} (positive : 0 < n) : (Nat.toDigits 10 n).head? ≠ some '0' := by
  induction n using Nat.strongRecOn with
  | ind n ih =>
    by_cases small : n < 10
    · have digits : ∀ d < 10, 0 < d → [Nat.digitChar d].head? ≠ some '0' := by decide
      rw [Nat.toDigits_of_lt_base small]
      exact digits n small positive
    · rw [Nat.toDigits_of_base_le (by decide) (Nat.le_of_not_lt small),
        head?_toDigits_append]
      exact ih (n / 10) (by omega) (by omega)

theorem head?_exponentText {e : Option Int} {rest : List Char} (stops : Stops rest) :
    ∀ c ∈ (exponentText e ++ rest).head?, c = 'e' ∨ c = ',' ∨ c = ']' ∨ c = '\x7d' := by
  rintro c here
  rcases e with _ | _ | _
  · exact .inr (stops c here)
  · exact .inl (Option.some.inj here).symm
  · exact .inl (Option.some.inj here).symm

theorem exponent?_exponentText (e : Option Int) {rest : List Char} (stops : Stops rest) :
    exponent? (exponentText e ++ rest) = some (e, rest) := by
  have stop : ∀ c ∈ rest.head?, c.isDigit = false := by
    intro c here
    rcases stops c here with rfl | rfl | rfl <;> rfl
  rcases e with _ | e | e
  · cases rest with
    | nil => rfl
    | cons c rest =>
      have other : (c = 'e' || c = 'E') = false := by
        rcases stops c rfl with rfl | rfl | rfl <;> rfl
      show (if (c = 'e' || c = 'E') = true then _ else _) = _
      rw [other, if_neg Bool.false_ne_true]
  · show (digits? (Nat.toDigits 10 e ++ rest)).map
      (fun d => (some (Binary64.digitsValue d.1 : Int), d.2)) = _
    rw [digits?_toDigits e stop, Option.map_some, digitsValue_toDigits]
    rfl
  · show (digits? (Nat.toDigits 10 (e + 1) ++ rest)).map
      (fun d => (some (-(Binary64.digitsValue d.1 : Int)), d.2)) = _
    rw [digits?_toDigits (e + 1) stop, Option.map_some, digitsValue_toDigits]
    rfl

theorem fraction?_append {fraction rest : List Char} (digits : AllDigits fraction)
    (stop : ∀ c ∈ rest.head?, c.isDigit = false ∧ c ≠ '.') :
    fraction? ((if fraction.isEmpty then [] else '.' :: fraction) ++ rest) =
      some (fraction, rest) := by
  cases fraction with
  | cons d ds => exact digits?_append (List.cons_ne_nil d ds) digits fun c here => (stop c here).1
  | nil =>
    cases rest with
    | nil => rfl
    | cons c rest =>
      have point := (stop c rfl).2
      show fraction? (c :: rest) = _
      unfold fraction?
      split
      · next same => exact absurd (List.cons.inj same).1 point
      · rfl

/-- A number reads back from its text. -/
theorem number?_text {n : Number} (spelled : n.Spelled) {rest : List Char} (stops : Stops rest) :
    number? (n.text ++ rest) = some (n, rest) := by
  obtain ⟨negative, whole, fraction, exponent⟩ := n
  let later := (if fraction.isEmpty then [] else '.' :: fraction) ++ (exponentText exponent ++ rest)
  -- no part goes on in what comes after it
  have ends := head?_exponentText (e := exponent) stops
  have last : ∀ c ∈ (exponentText exponent ++ rest).head?, c.isDigit = false ∧ c ≠ '.' := by
    intro c here
    rcases ends c here with rfl | rfl | rfl | rfl <;> decide
  have stop : ∀ c ∈ later.head?, c.isDigit = false := by
    intro c here
    by_cases empty : fraction.isEmpty
    · simp only [later, empty, if_true, List.nil_append] at here
      exact (last c here).1
    · simp only [later, empty] at here
      cases here
      rfl
  have first : ∀ c ∈ (Nat.toDigits 10 whole ++ later).head?, c ≠ '-' := by
    rintro c here rfl
    rw [head?_toDigits_append] at here
    cases allDigits_toDigits whole '-' (List.mem_of_mem_head? here)
  -- only the whole part zero begins with a zero
  have leading : ¬((Nat.toDigits 10 whole).head? = some '0' ∧
      (Nat.toDigits 10 whole).length ≠ 1) := by
    rintro ⟨zero, long⟩
    rcases Nat.eq_zero_or_pos whole with rfl | positive
    · exact long rfl
    · exact head?_toDigits positive zero
  have split : Number.text ⟨negative, whole, fraction, exponent⟩ ++ rest =
      Binary64.signText negative ++ (Nat.toDigits 10 whole ++ later) := by
    simp [Number.text, later]
  have sign : ((Binary64.signText negative ++ (Nat.toDigits 10 whole ++ later)).head? = some '-') =
      (negative = true) := by
    cases negative with
    | true => simp [Binary64.signText]
    | false => simpa [Binary64.signText] using fun here => first '-' here rfl
  have body : (if negative = true then
      (Binary64.signText negative ++ (Nat.toDigits 10 whole ++ later)).tail
      else Binary64.signText negative ++ (Nat.toDigits 10 whole ++ later)) =
        Nat.toDigits 10 whole ++ later := by
    cases negative <;> rfl
  rw [split, number?]
  simp only [sign, Bool.decide_eq_true, body, digits?_toDigits whole stop, Option.bind_eq_bind,
    Option.bind_some, leading, if_false, later, fraction?_append spelled last,
    exponent?_exponentText exponent stops, digitsValue_toDigits]
  rfl

theorem spelled_ofInt (i : Int) : (Number.ofInt i).Spelled := nofun

theorem le_ofDigitChars (ds : List Char) (taken : Nat) : taken ≤ Nat.ofDigitChars 10 ds taken := by
  induction ds generalizing taken with
  | nil => exact Nat.le_refl _
  | cons d ds ih =>
    refine Nat.le_trans ?_ (ih (10 * taken + (d.toNat - '0'.toNat)))
    omega

theorem takeDigits_of_lt {ds : List Char} {taken : Nat}
    (fits : Nat.ofDigitChars 10 ds taken < UInt64.size) :
    takeDigits taken ds = (Nat.ofDigitChars 10 ds taken, []) := by
  induction ds generalizing taken with
  | nil => rfl
  | cons d ds ih =>
    have first : 10 * taken + (d.toNat - '0'.toNat) < UInt64.size :=
      Nat.lt_of_le_of_lt (le_ofDigitChars ds _) fits
    rw [takeDigits, if_pos first]
    exact ih fits

theorem isSome_toFloat?_ofInt {i : Int} (small : i.natAbs < UInt64.size) :
    (Number.ofInt i).toFloat?.isSome = true := by
  have value : Nat.ofDigitChars 10 (Nat.toDigits 10 i.natAbs) 0 = i.natAbs :=
    digitsValue_toDigits i.natAbs
  have digits : takeDigits 0 (Nat.toDigits 10 i.natAbs) = (i.natAbs, []) := by
    rw [takeDigits_of_lt (by rw [value]; exact small), value]
  obtain ⟨product, whole⟩ := Binary64.isFinite_ofInt_mul_one small
  have magnitude : (if i.natAbs = 0 then Binary64.ofInt i.natAbs
      else if 308 < 0 then .infinite false
      else (Binary64.ofInt i.natAbs).mul (.ofDecimal false 1 (0 : Nat))).isFinite = true := by
    split
    · exact whole
    · rw [if_neg (by decide), Int.natCast_zero]
      exact product
  have power : (none : Option Int).getD 0 + (([] : List Char).length : Int) -
      (([] : List Char).length - ([] : List Char).length : Nat) = Int.ofNat 0 := rfl
  simp only [Number.toFloat?, Number.ofInt, digits, takeDigits, power, magnitude, if_true]
  rfl

variable {x : Binary64} {n : Number}

theorem allDigits_digitsAt (point : Nat) (place : Int) :
    AllDigits (Binary64.digitsAt point place).digits := by
  intro c hc
  simp only [Binary64.digitsAt, List.mem_reverse] at hc
  exact allDigits_toDigits point c (List.mem_reverse.1 ((List.dropWhile_suffix _).subset hc))

theorem allDigits_shortestFrom (tie : Binary64.Tie) (closed : Bool) (low mid high den : Nat)
    (power : Int) (n fuel : Nat) :
    AllDigits (Binary64.shortestFrom tie closed low mid high den power n fuel).digits := by
  induction fuel generalizing n with
  | zero => exact allDigits_digitsAt _ _
  | succ fuel ih =>
    rw [Binary64.shortestFrom]
    split
    · exact allDigits_digitsAt _ _
    · exact ih _

theorem allDigits_shortest (tie : Binary64.Tie) (rank : Nat) :
    AllDigits (Binary64.shortest tie rank).digits := by
  unfold Binary64.shortest
  split
  · exact fun c hc => List.mem_singleton.1 hc ▸ rfl
  · exact allDigits_shortestFrom _ _ _ _ _ _ _ _ _

theorem allDigits_positional {d : Binary64.Digits} (digits : AllDigits d.digits) :
    AllDigits (Binary64.positional d).2 := by
  unfold Binary64.positional
  split
  · exact fun c hc => digits c (List.mem_of_mem_drop hc)
  · exact (allDigits_zeros _).append digits

/-- A floating point number is written with digits, and not as a whole number is. -/
theorem spelled_ofFloat? {x : Binary64} {n : Number} (written : Number.ofFloat? x = some n) :
    n.Spelled ∧ n.integer? = none := by
  rcases x with ⟨negative, rank⟩ | _ | _
  · have digits := allDigits_shortest .toEven rank
    simp only [Number.ofFloat?] at written
    split at written
    · cases written
      have fraction := allDigits_positional digits
      by_cases empty : (Binary64.positional (Binary64.shortest .toEven rank)).2.isEmpty = true
      · simp only [empty, if_true]
        exact ⟨fun c hc => List.mem_singleton.1 hc ▸ rfl, rfl⟩
      · simp only [empty]
        exact ⟨fraction, by simp [Number.integer?, empty]⟩
    · cases written
      exact ⟨fun c hc => digits c (List.mem_of_mem_drop hc), by simp [Number.integer?]⟩
  · cases written
  · cases written

end Dataflow.Json
