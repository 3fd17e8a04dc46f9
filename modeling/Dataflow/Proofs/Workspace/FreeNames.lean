import Dataflow.Proofs.Expr.Scanning
import Dataflow.Proofs.Json.Numbers
import Dataflow.Proofs.Workspace.Frame
import Mathlib.Order.Bounds.Basic

/-! Default names. No two numbers give a base the same name, so among one more name than there are
variables one is free: the search for a free name ends, and ends at the first. -/

namespace Dataflow.Workspace

variable {w w' : Workspace} {base : String}

theorem toList_numbered (base : String) (n : Nat) :
    (numbered base n).toList = base.toList ++ '_' :: Nat.toDigits 10 n := by
  have digits : (toString n).toList = Nat.toDigits 10 n := by
    rw [Nat.toString_eq_ofList_toDigits, String.toList_ofList]
  rw [numbered, String.toList_append, String.toList_append, digits, List.append_assoc]
  rfl

theorem numbered_injective (base : String) : (numbered base).Injective := by
  intro m n same
  have texts := congrArg String.toList same
  rw [toList_numbered, toList_numbered] at texts
  have digits : Nat.toDigits 10 m = Nat.toDigits 10 n :=
    (List.cons.inj (List.append_cancel_left texts)).2
  rw [← Json.digitsValue_toDigits m, digits, Json.digitsValue_toDigits]

theorem numbered_ne (base : String) (n : Nat) : numbered base n ≠ base := by
  intro same
  have texts := congrArg String.toList same
  rw [toList_numbered, List.append_right_eq_self] at texts
  cases texts

/-- One more name than there are variables cannot all be taken. -/
theorem exists_free (taken : w.named.contains base = true) :
    ∃ n, 2 ≤ n ∧ n ≤ w.named.size + 1 ∧ w.named.contains (numbered base n) = false := by
  by_contra none
  have all : ∀ n, 2 ≤ n → n ≤ w.named.size + 1 → w.named.contains (numbered base n) = true := by
    intro n least most
    by_contra free
    exact none ⟨n, least, most, Bool.eq_false_iff.2 free⟩
  -- the base and the names with the next numbers would be one more than there are
  let names := base :: (List.range' 2 w.named.size).map (numbered base)
  have distinct : names.Nodup := by
    refine List.nodup_cons.2 ⟨?_, (List.nodup_range' 1).map (numbered_injective base)⟩
    rintro listed
    obtain ⟨n, -, same⟩ := List.mem_map.1 listed
    exact numbered_ne base n same
  have known : names ⊆ w.named.keys := by
    refine List.cons_subset.2 ⟨OrderedMap.contains_iff.1 taken, fun name listed => ?_⟩
    obtain ⟨n, inside, rfl⟩ := List.mem_map.1 listed
    rw [List.mem_range'_1] at inside
    exact OrderedMap.contains_iff.1 (all n inside.1 (by omega))
  have more : names.length = w.named.size + 1 := by simp [names]
  have all_keys : w.named.keys.length = w.named.size := List.length_map _
  have bound := (List.subperm_of_subset distinct known).length_le
  omega

/-- The search stops at the first free name, however many more steps it could take. -/
theorem firstFree_eq {k n fuel : Nat}
    (skipped : ∀ m, n ≤ m → m < k → w.named.contains (numbered base m) = true)
    (free : w.named.contains (numbered base k) = false) (start : n ≤ k) (enough : k ≤ n + fuel) :
    w.firstFree base n fuel = numbered base k := by
  induction fuel generalizing n with
  | zero =>
    obtain rfl : n = k := by omega
    rfl
  | succ fuel ih =>
    rw [firstFree]
    rcases Nat.eq_or_lt_of_le start with rfl | later
    · rw [free]
      rfl
    · rw [if_pos (skipped n (Nat.le_refl n) later)]
      exact ih (fun m least => skipped m (by omega)) later (by omega)

theorem uniqueName_of_free (free : w.named.contains base = false) : w.uniqueName base = base := by
  rw [uniqueName, free]
  rfl

/-- A taken base is numbered with the least number that makes it free, and that is found. -/
theorem uniqueName_of_taken (taken : w.named.contains base = true) :
    ∃ k, IsLeast {n | 2 ≤ n ∧ w.named.contains (numbered base n) = false} k ∧
      k ≤ w.named.size + 1 ∧ w.uniqueName base = numbered base k ∧
      ∀ fuel, w.named.size ≤ fuel → w.firstFree base 2 fuel = numbered base k := by
  have some_free : ∃ n, 2 ≤ n ∧ w.named.contains (numbered base n) = false := by
    obtain ⟨n, least, -, free⟩ := exists_free taken
    exact ⟨n, least, free⟩
  obtain ⟨start, free⟩ := Nat.find_spec some_free
  have skipped : ∀ m, 2 ≤ m → m < Nat.find some_free → w.named.contains (numbered base m) = true :=
    fun m least earlier => by simpa [least] using Nat.find_min some_free earlier
  have near : Nat.find some_free ≤ w.named.size + 1 := by
    obtain ⟨n, least, most, free⟩ := exists_free taken
    exact Nat.le_trans (Nat.find_min' some_free ⟨least, free⟩) most
  have found : ∀ fuel, w.named.size ≤ fuel →
      w.firstFree base 2 fuel = numbered base (Nat.find some_free) :=
    fun fuel enough => firstFree_eq skipped free start (by omega)
  have least : IsLeast {n | 2 ≤ n ∧ w.named.contains (numbered base n) = false}
      (Nat.find some_free) := ⟨⟨start, free⟩, fun n hn => Nat.find_min' some_free hn⟩
  refine ⟨Nat.find some_free, least, near, ?_, found⟩
  rw [uniqueName, if_pos taken]
  exact found _ (Nat.le_refl _)

theorem uniqueName_free (w : Workspace) (base : String) :
    w.named.contains (w.uniqueName base) = false := by
  cases taken : w.named.contains base with
  | false => rwa [uniqueName_of_free taken]
  | true =>
    obtain ⟨k, ⟨⟨-, free⟩, -⟩, -, named, -⟩ := uniqueName_of_taken taken
    rwa [named]

theorem isIdentifier_numbered (identifier : Token.IsIdentifier base) (n : Nat) :
    Token.IsIdentifier (numbered base n) := by
  obtain ⟨c, cs, spelled, letter, others⟩ := identifier
  refine ⟨c, cs ++ '_' :: Nat.toDigits 10 n, ?_, letter, ?_⟩
  · rw [toList_numbered, spelled, List.cons_append]
  · intro d listed
    rcases List.mem_append.1 listed with old | new
    · exact others d old
    · rcases List.mem_cons.1 new with rfl | digit
      · rfl
      · have goesOn := (Text.letter_of_isDigit (Json.allDigits_toDigits n d digit)).2
        rw [Token.continuesSymbol, goesOn]
        rfl

theorem isIdentifier_uniqueName (w : Workspace) (identifier : Token.IsIdentifier base) :
    Token.IsIdentifier (w.uniqueName base) := by
  cases taken : w.named.contains base with
  | false => rwa [uniqueName_of_free taken]
  | true =>
    obtain ⟨k, -, -, named, -⟩ := uniqueName_of_taken taken
    rw [named]
    exact isIdentifier_numbered identifier k

theorem contains_of_duplicate {name other : String} {x : Variable}
    (refused : on (register name x) w = (.error (.duplicateVariable other), w')) :
    w.named.contains name = true := by
  rw [on_register] at refused
  split at refused
  · cases refused
  · split at refused
    · next taken => exact taken
    · have raised : Action.Raises (· ≠ .duplicateVariable other) (x.materialize w.host name) :=
        Variable.raises_materialize (by simp) (by simp) (by simp) w.host x name
      split at refused
      · cases refused
      · next e t failed =>
        cases refused
        exact absurd rfl (raised w.store _ (congrArg Prod.fst failed))

/-- A variable that is loaded under its default name never meets a known one. -/
theorem loadVariable_ne_duplicate (w : Workspace) (loader : Loader) (other : String) :
    (on (loadVariable loader none) w).1 ≠ .error (.duplicateVariable other) := by
  intro refused
  have free : w.named.contains (w.loadedName loader none) = false := uniqueName_free w _
  rw [on_loadVariable, if_neg (by simp [free])] at refused
  split at refused
  · cases refused
  · next x s _ =>
    split at refused
    · next failed =>
      cases refused
      have known := contains_of_duplicate (w := { w with store := s }) failed
      cases free.symm.trans known
    · cases refused

/-- Loading makes one more variable known, under the name that it gives. -/
theorem loadVariable_eq_ok {loader loader' : Loader} {target : Option String} {name : String}
    (run : on (loadVariable loader target) w = (.ok (name, loader'), w')) :
    name = w.loadedName loader target ∧ ∃ x, w'.named = w.named.insert name x := by
  rw [on_loadVariable] at run
  split at run
  · cases run
  · split at run
    · cases run
    · next x s _ =>
      obtain ⟨_, _, failed, -⟩ | ⟨_, y, u, -, done⟩ :=
        register_outcome { w with store := s } (w.loadedName loader target) (loaded loader x)
      · rw [failed] at run
        cases run
      · rw [done] at run
        cases run
        exact ⟨rfl, y, rfl⟩

/-- Default names are free. The base itself is taken if it is free, and otherwise the base with the
least number from two on that makes it free; the search finds it after no more steps than there are
variables. So a variable that is loaded without a name is never refused as known, and takes no known
variable's place. -/
theorem default_names_free (w : Workspace) :
    (∀ base, let name := w.uniqueName base
      w.named.contains name = false ∧ (w.named.contains base = false → name = base) ∧
      (w.named.contains base = true →
        ∃ k, IsLeast {n | 2 ≤ n ∧ w.named.contains (numbered base n) = false} k ∧
          k ≤ w.named.size + 1 ∧ name = numbered base k ∧
          ∀ fuel, w.named.size ≤ fuel → w.firstFree base 2 fuel = name) ∧
      (Token.IsIdentifier base → isValidName name = true)) ∧
    ∀ loader : Loader,
      let base := loader.defaultName.getD w.host.settings.defaultVariableName
      let (answer, w') := on (loadVariable loader none) w
      (∀ name, answer ≠ .error (.duplicateVariable name)) ∧
      (∀ name x, w.named.get? name = some x → w'.named.get? name = some x) ∧
      ∀ name loader', answer = .ok (name, loader') →
        name = w.uniqueName base ∧ ∃ x, w'.named = w.named.insert name x := by
  refine ⟨fun base => ⟨uniqueName_free w base, uniqueName_of_free, fun taken => ?_,
    fun identifier => Token.isValidName_of_isIdentifier (isIdentifier_uniqueName w identifier)⟩,
    fun loader => ⟨loadVariable_ne_duplicate w loader, fun name x known => ?_, ?_⟩⟩
  · obtain ⟨k, least, near, named, found⟩ := uniqueName_of_taken taken
    exact ⟨k, least, near, named, fun fuel enough => (found fuel enough).trans named.symm⟩
  · exact known_loadVariable loader none known
  · intro name loader' loaded
    obtain ⟨named, entered⟩ := loadVariable_eq_ok (Prod.ext loaded rfl)
    exact ⟨named, entered⟩

/-- A workspace where a gap is left among the names with numbers. -/
def sampleGap : Workspace :=
  let x : Variable := { type := ⟨"b", "Integer"⟩ }
  { sampleStart with named := .ofList [("x", x), ("x_2", x), ("x_4", x)] }

theorem default_names_free_sample :
    let loader : Loader := { name := "file", defaultName := some "x",
                             source := .constant (.integer 1) (.ok ⟨"b", "Integer"⟩) }
    sampleGap.named.contains "x" = true ∧ Token.IsIdentifier "x" ∧
      (∃ k, IsLeast {n | 2 ≤ n ∧ sampleGap.named.contains (numbered "x" n) = false} k ∧
        sampleGap.uniqueName "x" = numbered "x" k) ∧
      isValidName (sampleGap.uniqueName "x") = true ∧
      (on (loadVariable loader none) sampleGap).1.map Prod.fst = .ok "x_3" := by
  have taken : sampleGap.named.contains "x" = true := by decide +kernel
  have identifier : Token.IsIdentifier "x" := ⟨'x', [], rfl, .inl (by decide), nofun⟩
  obtain ⟨-, -, found, valid⟩ := (default_names_free sampleGap).1 "x"
  obtain ⟨k, least, -, named, -⟩ := found taken
  exact ⟨taken, identifier, ⟨k, least, named⟩, valid identifier, by decide +kernel⟩

end Dataflow.Workspace
