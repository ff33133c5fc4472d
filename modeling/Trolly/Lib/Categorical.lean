import Mathlib.Algebra.BigOperators.Field
import Mathlib.Algebra.Order.BigOperators.Group.Finset
import Mathlib.Analysis.SpecialFunctions.Log.Basic

/-! Sums of bounded terms and when they reach the bound, and with them the entropy of a
distribution over finitely many outcomes: at most that of the uniform one, and equal only there. -/
namespace Categorical

section Sums

variable {K α β : Type*} [AddCommMonoid K] [LinearOrder K] [IsOrderedCancelAddMonoid K]

theorem add_eq_add_iff {a b c d : K} (left : a ≤ b) (right : c ≤ d) :
    a + c = b + d ↔ a = b ∧ c = d := by
  constructor
  · intro same
    have first : a = b := by
      by_contra different
      exact (add_lt_add_of_lt_of_le (lt_of_le_of_ne left different) right).ne same
    exact ⟨first, add_left_cancel (first ▸ same)⟩
  · rintro ⟨rfl, rfl⟩
    rfl

/-- Two lists read side by side: term by term at most, and the same sum only if no term is less. -/
theorem sum_zipWith_le {f g : α → β → K} (bounded : ∀ x y, f x y ≤ g x y) (xs : List α)
    (ys : List β) : (List.zipWith f xs ys).sum ≤ (List.zipWith g xs ys).sum ∧
      ((List.zipWith f xs ys).sum = (List.zipWith g xs ys).sum ↔
        ∀ p ∈ xs.zip ys, f p.1 p.2 = g p.1 p.2) := by
  induction xs generalizing ys with
  | nil => simp
  | cons x xs ih =>
    cases ys with
    | nil => simp
    | cons y ys =>
      obtain ⟨below, reached⟩ := ih ys
      simp only [List.zipWith_cons_cons, List.sum_cons, List.zip_cons_cons, List.forall_mem_cons]
      exact ⟨add_le_add (bounded x y) below,
        (add_eq_add_iff (bounded x y) below).trans (and_congr_right fun _ => reached)⟩

theorem sum_map_le {f g : α → K} {xs : List α} (bounded : ∀ x ∈ xs, f x ≤ g x) :
    (xs.map f).sum ≤ (xs.map g).sum ∧
      ((xs.map f).sum = (xs.map g).sum ↔ ∀ x ∈ xs, f x = g x) := by
  induction xs with
  | nil => simp
  | cons x xs ih =>
    obtain ⟨first, rest⟩ := List.forall_mem_cons.mp bounded
    obtain ⟨below, reached⟩ := ih rest
    simp only [List.map_cons, List.sum_cons, List.forall_mem_cons]
    exact ⟨add_le_add first below,
      (add_eq_add_iff first below).trans (and_congr_right fun _ => reached)⟩

end Sums

section Entropy

variable {ι : Type*} [Fintype ι]

/-- Every outcome is possible. -/
structure Positive (p : ι → ℝ) : Prop where
  pos : ∀ i, 0 < p i
  total : ∑ i, p i = 1

noncomputable def entropy (p : ι → ℝ) : ℝ := -∑ i, p i * Real.log (p i)

variable {p : ι → ℝ}

theorem Positive.le_one (positive : Positive p) (i : ι) : p i ≤ 1 := by
  rw [← positive.total]
  exact Finset.single_le_sum (fun j _ => (positive.pos j).le) (Finset.mem_univ i)

theorem Positive.entropy_nonneg (positive : Positive p) : 0 ≤ entropy p := by
  rw [entropy, neg_nonneg]
  refine Finset.sum_nonpos fun i _ => ?_
  exact mul_nonpos_of_nonneg_of_nonpos (positive.pos i).le
    (Real.log_nonpos (positive.pos i).le (positive.le_one i))

/-- A term of the entropy, against the tangent of the logarithm at the uniform outcome. -/
theorem log_term_le {x n : ℝ} (some : 0 < x) (outcomes : 0 < n) :
    x * (-Real.log x) ≤ x * Real.log n + (n⁻¹ - x) ∧
      (x * (-Real.log x) = x * Real.log n + (n⁻¹ - x) ↔ x = n⁻¹) := by
  have ratio : 0 < (n * x)⁻¹ := inv_pos.mpr (mul_pos outcomes some)
  have split : Real.log (n * x)⁻¹ = -Real.log n - Real.log x := by
    rw [Real.log_inv, Real.log_mul outcomes.ne' some.ne', neg_add, sub_eq_add_neg]
  have scaled : x * ((n * x)⁻¹ - 1) = n⁻¹ - x := by
    field_simp
  have gap : x * (-Real.log x) - (x * Real.log n + (n⁻¹ - x)) =
      x * (Real.log (n * x)⁻¹ - ((n * x)⁻¹ - 1)) := by
    rw [mul_sub x (Real.log _), scaled, split]
    ring
  have tangent : Real.log (n * x)⁻¹ ≤ (n * x)⁻¹ - 1 := Real.log_le_sub_one_of_pos ratio
  constructor
  · rw [← sub_nonpos, gap]
    exact mul_nonpos_of_nonneg_of_nonpos some.le (sub_nonpos.mpr tangent)
  · rw [← sub_eq_zero, gap, mul_eq_zero, or_iff_right some.ne', sub_eq_zero]
    constructor
    · intro touches
      by_contra elsewhere
      have apart : (n * x)⁻¹ ≠ 1 := fun one =>
        elsewhere (eq_inv_of_mul_eq_one_right (inv_eq_one.mp one))
      exact (Real.log_lt_sub_one_of_pos ratio apart).ne touches
    · rintro rfl
      rw [mul_inv_cancel₀ outcomes.ne']
      simp

theorem Positive.entropy_le (positive : Positive p) [Nonempty ι] :
    entropy p ≤ Real.log (Fintype.card ι) ∧
      (entropy p = Real.log (Fintype.card ι) ↔ ∀ i, p i = (Fintype.card ι : ℝ)⁻¹) := by
  have outcomes : (0 : ℝ) < Fintype.card ι := Nat.cast_pos.mpr Fintype.card_pos
  have terms : entropy p = ∑ i, p i * (-Real.log (p i)) := by
    simp only [entropy, mul_neg, Finset.sum_neg_distrib]
  have tangents : ∑ i, (p i * Real.log (Fintype.card ι) + ((Fintype.card ι : ℝ)⁻¹ - p i)) =
      Real.log (Fintype.card ι) := by
    rw [Finset.sum_add_distrib, ← Finset.sum_mul, Finset.sum_sub_distrib, positive.total]
    simp [outcomes.ne']
  have each := fun i => log_term_le (positive.pos i) outcomes
  rw [terms]
  constructor
  · calc ∑ i, p i * (-Real.log (p i))
        ≤ ∑ i, (p i * Real.log (Fintype.card ι) + ((Fintype.card ι : ℝ)⁻¹ - p i)) :=
          Finset.sum_le_sum fun i _ => (each i).1
      _ = Real.log (Fintype.card ι) := tangents
  · conv_lhs => rw [← tangents]
    rw [Finset.sum_eq_sum_iff_of_le fun i _ => (each i).1]
    simp only [Finset.mem_univ, true_implies, fun i => (each i).2]

/-- Scores made into a distribution. -/
theorem positive_normalized [Nonempty ι] (scores : ι → ℝ) :
    Positive fun i => Real.exp (scores i) / ∑ j, Real.exp (scores j) := by
  have total : 0 < ∑ j, Real.exp (scores j) :=
    Finset.sum_pos (fun j _ => Real.exp_pos _) Finset.univ_nonempty
  constructor
  · exact fun i => div_pos (Real.exp_pos _) total
  · rw [← Finset.sum_div, div_self total.ne']

theorem log_normalized [Nonempty ι] (scores : ι → ℝ) (i : ι) :
    Real.log (Real.exp (scores i) / ∑ j, Real.exp (scores j)) =
      scores i - Real.log (∑ j, Real.exp (scores j)) := by
  have total : 0 < ∑ j, Real.exp (scores j) :=
    Finset.sum_pos (fun j _ => Real.exp_pos _) Finset.univ_nonempty
  rw [Real.log_div (Real.exp_pos _).ne' total.ne', Real.log_exp]

end Entropy

end Categorical
