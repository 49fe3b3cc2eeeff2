import Mathlib.Algebra.BigOperators.Field
import Mathlib.Algebra.BigOperators.Ring.Finset
import Mathlib.Algebra.Order.BigOperators.Group.Finset
import Mathlib.Algebra.Order.Field.Rat

/-! # Means of groups

The values of a list are grouped by a key, and the groups partition every sum. The mean
of all values is that of the groups' means, each weighted by the number of its values.
Under other weights it is recovered exactly when the excess of weight over the groups
cancels out, and whatever the values are exactly when no group has any.
-/

namespace GenWatch.Grouping

open Finset

variable {α κ : Type*}

theorem sum_groups [DecidableEq κ] {M : Type*} [AddCommMonoid M] (bucket : α → κ) (f : α → M)
    {ks : Finset κ} (xs : List α) (hks : ∀ x ∈ xs, bucket x ∈ ks) :
    ∑ k ∈ ks, ((xs.filter fun x => bucket x = k).map f).sum = (xs.map f).sum := by
  induction xs with
  | nil => simp
  | cons x xs ih =>
    have hcons : ∀ k ∈ ks, (((x :: xs).filter fun y => bucket y = k).map f).sum =
        (if bucket x = k then f x else 0) + ((xs.filter fun y => bucket y = k).map f).sum := by
      intro k _
      by_cases hk : bucket x = k <;> simp [hk]
    rw [sum_congr rfl hcons, sum_add_distrib, sum_ite_eq, if_pos (hks x List.mem_cons_self),
      ih fun y hy => hks y (List.mem_cons_of_mem x hy), List.map_cons, List.sum_cons]

section Weights

variable (ks : Finset κ) (weight count total : κ → ℚ)

/-- The mean of the groups' means under the weights; a group without values counts as zero. -/
def weightedMean : ℚ := (∑ k ∈ ks, total k / count k * weight k) / ∑ k ∈ ks, weight k

/-- The weight of a group beyond its share of the values, scaled by both sums. -/
def excess (k : κ) : ℚ := weight k * ∑ j ∈ ks, count j - count k * ∑ j ∈ ks, weight j

variable {ks weight count total}

theorem weightedMean_eq_iff (htotal : ∀ k ∈ ks, count k = 0 → total k = 0)
    (hcount : ∑ k ∈ ks, count k ≠ 0) (hweight : ∑ k ∈ ks, weight k ≠ 0) :
    weightedMean ks weight count total = (∑ k ∈ ks, total k) / ∑ k ∈ ks, count k ↔
      ∑ k ∈ ks, total k / count k * excess ks weight count k = 0 := by
  have hterm : ∀ k ∈ ks, total k / count k * excess ks weight count k =
      total k / count k * weight k * ∑ j ∈ ks, count j - total k * ∑ j ∈ ks, weight j := by
    intro k hk
    have hmean : total k / count k * count k = total k := by
      by_cases h0 : count k = 0
      · rw [htotal k hk h0, zero_div, zero_mul]
      · exact div_mul_cancel₀ _ h0
    rw [excess, mul_sub, ← mul_assoc, ← mul_assoc, hmean]
  rw [sum_congr rfl hterm, sum_sub_distrib, ← sum_mul, ← sum_mul, sub_eq_zero, weightedMean,
    div_eq_div_iff hweight hcount]

theorem sum_excess : ∑ k ∈ ks, excess ks weight count k = 0 := by
  simp only [excess]
  rw [sum_sub_distrib, ← sum_mul, ← sum_mul, mul_comm, sub_self]

theorem excess_eq_zero_of_count (hweight : ∀ k ∈ ks, 0 ≤ weight k) (hcount : ∀ k ∈ ks, 0 ≤ count k)
    (h : ∀ k ∈ ks, count k ≠ 0 → excess ks weight count k = 0) :
    ∀ k ∈ ks, excess ks weight count k = 0 := by
  have hpos : ∀ k ∈ ks, 0 ≤ excess ks weight count k := by
    intro k hk
    by_cases h0 : count k = 0
    · rw [excess, h0, zero_mul, sub_zero]
      exact mul_nonneg (hweight k hk) (sum_nonneg hcount)
    · exact (h k hk h0).ge
  exact (sum_eq_zero_iff_of_nonneg hpos).mp sum_excess

/-- The excess cancels out for all values exactly when no group has any. -/
theorem forall_excess_cancels_iff [DecidableEq κ] (hweight : ∀ k ∈ ks, 0 ≤ weight k)
    (hcount : ∀ k ∈ ks, 0 ≤ count k) :
    (∀ mean : κ → ℚ,
        ∑ k ∈ ks, mean k * count k / count k * excess ks weight count k = 0) ↔
      ∀ k ∈ ks, excess ks weight count k = 0 := by
  constructor
  · intro h
    refine excess_eq_zero_of_count hweight hcount fun k hk h0 => ?_
    have hk' := h fun j => if j = k then 1 else 0
    simp only [ite_mul, one_mul, zero_mul, ite_div, zero_div, sum_ite_eq', hk, if_true,
      div_self h0] at hk'
    exact hk'
  · intro h mean
    exact sum_eq_zero fun k hk => by rw [h k hk, mul_zero]

end Weights

end GenWatch.Grouping
