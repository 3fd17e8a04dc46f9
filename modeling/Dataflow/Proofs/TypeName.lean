import Dataflow.Error

/-! The written form of a module type reads back, if any text names the type: its name, which comes
after the last colon, has no colon itself. -/

namespace Dataflow

namespace Text

variable {mark : Char} {cs front back : List Char}

theorem cutAtLast_eq_none_iff : cutAtLast mark cs = none ↔ mark ∉ cs := by
  induction cs with
  | nil => simp [cutAtLast]
  | cons c cs ih =>
    cases later : cutAtLast mark cs with
    | none =>
      rw [later, eq_self, true_iff] at ih
      by_cases same : c = mark
      · simp [cutAtLast, later, same]
      · simp [cutAtLast, later, same, ih, Ne.symm same]
    | some parts =>
      have there : mark ∈ cs := Classical.byContradiction fun absent => by
        rw [later] at ih
        cases ih.2 absent
      simp [cutAtLast, later, there]

theorem cutAtLast_append (front : List Char) (absent : mark ∉ back) :
    cutAtLast mark (front ++ mark :: back) = some (front, back) := by
  induction front with
  | nil => simp [cutAtLast, cutAtLast_eq_none_iff.2 absent]
  | cons c front ih => simp [cutAtLast, ih]

theorem not_mem_of_cutAtLast (cut : cutAtLast mark cs = some (front, back)) : mark ∉ back := by
  induction cs generalizing front with
  | nil => cases cut
  | cons c cs ih =>
    rw [cutAtLast] at cut
    cases later : cutAtLast mark cs with
    | some parts =>
      simp only [later, Option.some.injEq, Prod.mk.injEq] at cut
      exact ih (later.trans (congrArg some (Prod.ext rfl cut.2)))
    | none =>
      simp only [later] at cut
      split at cut
      · cases cut
        exact cutAtLast_eq_none_iff.1 later
      · cases cut

end Text

namespace TypeName

theorem ofText?_eq_some {s : String} {t : TypeName} (named : ofText? s = some t) :
    t.package.toList ≠ [] ∧ t.name.toList ≠ [] ∧ ':' ∉ t.name.toList := by
  unfold ofText? at named
  split at named
  · next package name cut =>
    split at named
    · cases named
    · next filled =>
      simp only [Bool.or_eq_true, List.isEmpty_iff, not_or] at filled
      cases named
      simpa [filled] using Text.not_mem_of_cutAtLast cut
  · cases named

theorem parse_text {s : String} {t : TypeName} (named : ofText? s = some t) :
    parse t.text = .ok t := by
  obtain ⟨package, name, absent⟩ := ofText?_eq_some named
  have written : t.text.toList = t.package.toList ++ ':' :: t.name.toList := by
    simp [text]
  have read : ofText? t.text = some t := by
    rw [ofText?, written, Text.cutAtLast_append _ absent]
    simp [package, name]
  rw [parse, read]

end TypeName

end Dataflow
