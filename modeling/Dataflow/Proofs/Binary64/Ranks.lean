import Mathlib.Algebra.Group.Nat.Defs
import Dataflow.Binary64.Decimal

/-! How far rounding can carry. A quotient below a power of two has a rank below that many runs, and
a rank below that many runs has a magnitude below a power of two; so a product by one cannot become
infinite unless a factor is very large. -/

namespace Dataflow.Binary64

theorem nearestQuotient_le (num den : Nat) : nearestQuotient num den ≤ num / den + 1 := by
  unfold nearestQuotient
  dsimp only
  split
  · omega
  · split <;> omega

/-- A quotient below `2 ^ (53 + k)` is rounded to one of the first `k + 2` runs. -/
theorem nearestRank_le {num den e k : Nat} (small : num / den < 2 ^ e) (few : e ≤ 53 + k) :
    nearestRank num den ≤ (k + 2) * run + 1 := by
  let shift := (num / den).log2 - 52
  have shifted : shift ≤ k := by
    rcases Nat.eq_zero_or_pos (num / den) with zero | positive
    · simp [shift, zero]
    · have := (Nat.log2_lt (Nat.ne_of_gt positive)).2 small
      omega
  have below : num / den / 2 ^ shift < 2 * run := by
    rw [Nat.div_lt_iff_lt_mul (Nat.two_pow_pos _)]
    have upper : num / den < 2 ^ ((num / den).log2 + 1) := Nat.lt_log2_self
    refine Nat.lt_of_lt_of_le upper ?_
    have two : 2 * run = 2 ^ 53 := by decide
    rw [two, ← Nat.pow_add]
    exact Nat.pow_le_pow_right (by decide) (by omega)
  have rounded := nearestQuotient_le num (den * 2 ^ shift)
  rw [← Nat.div_div_eq_div_mul] at rounded
  have runs : shift * run ≤ k * run := Nat.mul_le_mul_right run shifted
  show shift * run + nearestQuotient num (den * 2 ^ shift) ≤ _
  rw [Nat.add_mul]
  omega

/-- A rank in the first `k + 3` runs has a magnitude below `2 ^ (55 + k)`. -/
theorem units_lt {rank k : Nat} (small : rank ≤ (k + 2) * run + 1) : units rank < 2 ^ (55 + k) := by
  have two : 2 * run = 2 ^ 53 := by decide
  have positive : 0 < run := by decide
  unfold units
  split
  · next subnormal =>
    have wide : 2 ^ 53 ≤ 2 ^ (55 + k) := Nat.pow_le_pow_right (by decide) (by omega)
    omega
  · have inner : run + rank % run < 2 * run := by
      have := Nat.mod_lt rank positive
      omega
    have outer : rank / run - 1 ≤ k + 2 := by
      have : rank / run < (k + 2) + 2 := by
        rw [Nat.div_lt_iff_lt_mul positive, Nat.add_mul]
        have : 1 < run := by decide
        omega
      omega
    have split : 2 ^ (55 + k) = 2 * run * 2 ^ (k + 2) := by
      rw [two, ← Nat.pow_add]
      congr 1
      omega
    rw [split]
    exact Nat.mul_lt_mul_of_lt_of_le inner (Nat.pow_le_pow_right (by decide) outer)
      (Nat.two_pow_pos _)

theorem ofQuotient_eq_finite {num den e k : Nat} (small : num / den < 2 ^ e) (few : e ≤ 53 + k)
    (finite : k < 2044) (negative : Bool) :
    ∃ rank : Fin magnitudes, ofQuotient negative num den = .finite negative rank ∧
      rank.val ≤ (k + 2) * run + 1 := by
  have bounded := nearestRank_le small few
  have fits : nearestRank num den < magnitudes := by
    have runs : (k + 2) * run ≤ 2045 * run := Nat.mul_le_mul_right run (by omega)
    have : 1 < run := by decide
    unfold magnitudes
    omega
  exact ⟨⟨_, fits⟩, by rw [ofQuotient, ofRank, dif_pos fits], bounded⟩

theorem mul_one_lt {n : Nat} (small : n < 2 ^ 64) :
    ∃ e, e = 1138 ∧ 0 < one ∧ n * one < 2 ^ e := by
  unfold one
  -- The power is not to be computed.
  generalize same : 1074 = e
  refine ⟨64 + e, by omega, Nat.two_pow_pos e, ?_⟩
  rw [Nat.pow_add]
  exact Nat.mul_lt_mul_of_pos_right small (Nat.two_pow_pos e)

theorem isFinite_ofInt_mul_one {n : Nat} (small : n < 2 ^ 64) :
    ((ofInt n).mul (ofDecimal false 1 0)).isFinite = true ∧ (ofInt n).isFinite = true := by
  have unit : ofDecimal false 1 0 = .finite false ⟨1023 * run, by decide⟩ := by decide +kernel
  obtain ⟨e, few, positive, amount⟩ := mul_one_lt small
  rw [← Nat.div_one (n * one)] at amount
  obtain ⟨rank, is, bounded⟩ := ofQuotient_eq_finite (k := 1085) amount (by omega) (by decide) false
  have whole : ofInt n = .finite false rank := by
    have sign : decide ((n : Int) < 0) = false := by simp
    rw [ofInt, sign]
    exact is
  have product : units rank * units (1023 * run) / one < 2 ^ (55 + 1085) := by
    have same : units (1023 * run) = one := by decide +kernel
    rw [same, Nat.mul_div_cancel _ positive]
    exact units_lt (k := 1085) bounded
  obtain ⟨rank', is', -⟩ := ofQuotient_eq_finite (k := 1087) product (by decide) (by decide) false
  rw [unit, whole]
  refine ⟨?_, rfl⟩
  show isFinite (ofQuotient (false != false) (units rank * units (1023 * run)) one) = true
  rw [bne_self_eq_false, is']
  rfl

end Dataflow.Binary64
