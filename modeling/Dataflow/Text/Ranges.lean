/-! Characters above ASCII are classified by tables of code point ranges. A table is a list of
inclusive ranges, looked up by one pass: texts here are short and mostly ASCII. All tables are those
of Unicode 17. -/

namespace Dataflow.Text

/-- The code point lies in one of the ranges, both ends included. -/
def within (ranges : List (Nat × Nat)) (code : Nat) : Bool :=
  ranges.any fun r => r.1 ≤ code && code ≤ r.2

theorem within_iff {ranges : List (Nat × Nat)} {code : Nat} :
    within ranges code = true ↔ ∃ r ∈ ranges, r.1 ≤ code ∧ code ≤ r.2 := by
  simp [within, List.any_eq_true]

end Dataflow.Text
