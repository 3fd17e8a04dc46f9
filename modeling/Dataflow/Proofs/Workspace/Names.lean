import Dataflow.Proofs.Expr.Names
import Dataflow.Proofs.Workspace.Agreement

/-! The names that variables are known under. Whatever is registered or renamed has a valid name, on
every host and whatever its tags are; a valid name may have blanks around it, and an expression can
refer to its variable only if it has none. -/

namespace Dataflow.Workspace

variable {w w' : Workspace}

/-- The workspaces that calls of a kind lead to, in any order and whether they succeed or fail. -/
inductive ReachesBy (kind : Call → Prop) (start : Workspace) : Workspace → Prop
  | refl : ReachesBy kind start start
  | call {w : Workspace} (reaches : ReachesBy kind start w) {c : Call} (allowed : kind c) :
      ReachesBy kind start (w.after c)

/-- A name is known in the second workspace only if it was in the first, or is valid. -/
def Names (w w' : Workspace) : Prop :=
  ∀ name x, w'.named.get? name = some x → w.named.contains name = true ∨ isValidName name = true

theorem names_of_eq (same : w'.named = w.named) : w.Names w' := fun _ x known =>
  .inl (OrderedMap.contains_eq_true_iff.2 ⟨x, same ▸ known⟩)

theorem names_insert {name : String} (valid : isValidName name = true) {y : Variable}
    (named : w'.named = w.named.insert name y) : w.Names w' := fun name' x known => by
  rw [named, OrderedMap.get?_insert_eq_some_iff] at known
  obtain ⟨rfl, -⟩ | ⟨-, before⟩ := known
  · exact .inr valid
  · exact .inl (OrderedMap.contains_eq_true_iff.2 ⟨x, before⟩)

theorem names_register (w : Workspace) (name : String) (x : Variable) (s : Store) :
    w.Names (on (register name x) { w with store := s }).2 := by
  rw [on_register]
  split
  · exact names_of_eq rfl
  · next valid =>
    split
    · exact names_of_eq rfl
    · split
      · exact names_insert (by simpa using valid) rfl
      · exact names_of_eq rfl

theorem names_performOperation (w : Workspace) (text : String) :
    w.Names (on (performOperation text) w).2 := by
  rw [on_performOperation]
  split
  · exact names_of_eq rfl
  · next target e _ =>
    split
    · exact names_of_eq rfl
    · split
      · exact names_of_eq rfl
      · next node warnings _ =>
        split
        · exact names_of_eq rfl
        · next x s _ =>
          have names := names_register w target x s
          split
          · next run => rwa [run] at names
          · next run => rwa [run] at names

theorem names_loadVariable (w : Workspace) (loader : Loader) (name : Option String) :
    w.Names (on (loadVariable loader name) w).2 := by
  rw [on_loadVariable]
  split
  · exact names_of_eq rfl
  · split
    · exact names_of_eq rfl
    · next x s _ =>
      have names := names_register w (w.loadedName loader name) (loaded loader x) s
      split
      · next run => rwa [run] at names
      · next run => rwa [run] at names

theorem names_renameVariable (w : Workspace) (old new : String) :
    w.Names (on (renameVariable old new) w).2 := by
  obtain ⟨e, run⟩ | ⟨x, v, n, valid, -, -, -, -, run⟩ := renameVariable_outcome w old new <;>
    rw [run]
  · exact names_of_eq rfl
  · intro name y known
    obtain ⟨rfl, -⟩ | ⟨-, -, before⟩ := OrderedMap.get?_insert_erase_eq_some_iff.1 known
    · exact .inr valid
    · exact .inl (OrderedMap.contains_eq_true_iff.2 ⟨y, before⟩)

theorem names_removeVariable (w : Workspace) (name : String) :
    w.Names (on (removeVariable name) w).2 := by
  obtain ⟨e, run⟩ | ⟨x, v, n, -, -, -, -, run⟩ := removeVariable_outcome w name <;> rw [run]
  · exact names_of_eq rfl
  · intro name' y known
    obtain ⟨-, before⟩ := OrderedMap.get?_erase_eq_some_iff.1 known
    exact .inl (OrderedMap.contains_eq_true_iff.2 ⟨y, before⟩)

/-- A call makes only valid names known, unless it takes up what is tagged in the store. -/
theorem names_after (w : Workspace) {c : Call} (allowed : c ≠ .restoreVariables) :
    w.Names (w.after c) := by
  cases c with
  | performOperation text => exact names_performOperation w text
  | addVariable name x => exact names_register w name x w.store
  | loadVariable loader name => exact names_loadVariable w loader name
  | renameVariable old new => exact names_renameVariable w old new
  | removeVariable name => exact names_removeVariable w name
  | restoreVariables => exact absurd rfl allowed
  | createPipeline r =>
    refine names_of_eq ?_
    show (on (createPipeline r) w).2.named = _
    rw [on_createPipeline]

/-- All known names are valid, if the variables were all registered. -/
theorem ReachesBy.valid {host : Host} {catalogue : Catalogue}
    (reaches : ReachesBy (· ≠ .restoreVariables) (new host catalogue .new) w) {name : String}
    {x : Variable} (known : w.named.get? name = some x) : isValidName name = true := by
  induction reaches generalizing name x with
  | refl => cases known
  | call _ allowed ih =>
    rcases names_after _ allowed name x known with before | valid
    · obtain ⟨y, known⟩ := OrderedMap.contains_eq_true_iff.1 before
      exact ih known
    · exact valid

/-- A statement whose expression is a symbol resolves to a reference, if the symbol is known. -/
theorem on_resolve_symbol {text target name : String}
    (parsed : Expr.ofText text = .ok (target, .symbol name)) (w : Workspace) :
    on (resolve text) w = (w.scope.bind fun _ => match w.named.get? name with
      | some x => .ok ⟨target, .reference name x, []⟩
      | none => .error (.unknownVariable name), w) := by
  unfold resolve
  rw [on_bind, on_ofExcept, parsed]
  simp only [mapError_ok, on_bind, on_get, on_ofExcept]
  cases scope : w.scope with
  | error e => rfl
  | ok s =>
    obtain rfl := Scope.of_eq_ok scope
    simp only [Expr.resolve, Except.bind]
    cases w.named.get? name <;> rfl

/-- The name of a variable reads as one symbol, which is the name without the blanks around it. So it
refers to the variable that is known under that, if there is one, and to its own variable only if it has
no blanks around it. -/
theorem resolve_known_name {host : Host} {catalogue : Catalogue} {w : Workspace}
    (reaches : ReachesBy (· ≠ .restoreVariables) (new host catalogue .new) w) {name : String}
    {x : Variable} (known : w.named.get? name = some x) :
    Expr.ofText ("t = " ++ name) = .ok ("t", .symbol (trimmed name)) ∧
      on (resolve ("t = " ++ name)) w = (w.scope.bind fun _ => match w.named.get? (trimmed name) with
        | some y => .ok ⟨"t", .reference (trimmed name) y, []⟩
        | none => .error (.unknownVariable (trimmed name)), w) ∧
      ((∃ warnings, on (resolve ("t = " ++ name)) w = (.ok ⟨"t", .reference name x, warnings⟩, w)) ↔
        trimmed name = name ∧ ∃ s, w.scope = .ok s) := by
  have parsed := Expr.ofText_of_isValidName (reaches.valid known)
  have resolved := on_resolve_symbol parsed w
  refine ⟨parsed, resolved, ?_⟩
  rw [resolved]
  cases w.scope with
  | error e => simp [Except.bind]
  | ok s =>
    simp only [Except.bind, Prod.mk.injEq, and_true, Except.ok.injEq, exists_eq', and_true]
    constructor
    · rintro ⟨warnings, same⟩
      split at same
      · simp only [Except.ok.injEq, Resolved.mk.injEq, Node.reference.injEq] at same
        exact same.2.1.1
      · cases same
    · intro same
      rw [same, known]
      exact ⟨[], rfl⟩

/-- A workspace whose only variable has a blank before its name. -/
def blankSample : Workspace := sample.after (.renameVariable "x" " y")

theorem reaches_blankSample : ReachesBy (· ≠ .restoreVariables) sampleStart blankSample :=
  (ReachesBy.refl.call (c := .performOperation "x = 1") nofun).call nofun

theorem resolve_known_name_blank : ∃ x, blankSample.named.get? " y" = some x ∧
    Expr.ofText ("t = " ++ " y") = .ok ("t", .symbol (trimmed " y")) ∧
      on (resolve ("t = " ++ " y")) blankSample =
        (blankSample.scope.bind fun _ => match blankSample.named.get? (trimmed " y") with
          | some y => .ok ⟨"t", .reference (trimmed " y") y, []⟩
          | none => .error (.unknownVariable (trimmed " y")), blankSample) ∧
      ((∃ warnings, on (resolve ("t = " ++ " y")) blankSample =
          (.ok ⟨"t", .reference " y" x, warnings⟩, blankSample)) ↔
        trimmed " y" = " y" ∧ ∃ s, blankSample.scope = .ok s) := by
  obtain ⟨x, known⟩ : ∃ x, blankSample.named.get? " y" = some x :=
    OrderedMap.contains_eq_true_iff.1 (by decide +kernel)
  exact ⟨x, known, resolve_known_name reaches_blankSample known⟩

/-- A name with a blank before it is accepted and registered, and no expression refers to it. -/
theorem resolve_blank_name_unknown : isValidName " y" = true ∧ blankSample.named.keys = [" y"] ∧
    Expr.ofText ("t = " ++ " y") = .ok ("t", .symbol "y") ∧
      on (resolve ("t = " ++ " y")) blankSample = (.error (.unknownVariable "y"), blankSample) := by
  have valid : isValidName " y" = true := by decide +kernel
  have parsed : Expr.ofText ("t = " ++ " y") = .ok ("t", .symbol "y") :=
    Expr.ofText_of_isValidName valid
  refine ⟨valid, by decide +kernel, parsed, ?_⟩
  have absent : blankSample.named.get? "y" = none :=
    OrderedMap.contains_eq_false_iff.1 (by decide +kernel)
  rw [on_resolve_symbol parsed, absent]
  rfl

end Dataflow.Workspace
