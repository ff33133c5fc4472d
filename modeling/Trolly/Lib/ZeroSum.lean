import Mathlib.Algebra.Order.BigOperators.Group.Finset
import Mathlib.Analysis.Convex.StdSimplex
import Mathlib.Data.Matrix.Mul
import Mathlib.Tactic.Linarith

/-! Zero-sum games between two players with mixed strategies: the row player earns what the
column player pays. Strategies that make the other player indifferent are an equilibrium, and
where they use every action no strategy of another equilibrium earns differently against them. -/
namespace ZeroSum

open Matrix

variable {K : Type*} [Field K] [LinearOrder K]
variable {m n : Type*} [Fintype m] [Fintype n] {A : Matrix m n K}

def expected (A : Matrix m n K) (p : m → K) (q : n → K) : K := p ⬝ᵥ A *ᵥ q

/-- Neither player earns more by a strategy of its own. -/
structure IsNash (A : Matrix m n K) (p : m → K) (q : n → K) : Prop where
  row : p ∈ stdSimplex K m
  column : q ∈ stdSimplex K n
  row_best : ∀ p' ∈ stdSimplex K m, expected A p' q ≤ expected A p q
  column_best : ∀ q' ∈ stdSimplex K n, expected A p q ≤ expected A p q'

/-- Whatever the other player does, each of the two strategies makes the same of it. -/
structure Equalizing (A : Matrix m n K) (value : K) (p : m → K) (q : n → K) : Prop where
  row : p ∈ stdSimplex K m
  column : q ∈ stdSimplex K n
  concedes : p ᵥ* A = fun _ => value
  earns : A *ᵥ q = fun _ => value

/-! The game as the column player sees it. -/

omit [LinearOrder K] in
theorem expected_swap (p : m → K) (q : n → K) : expected (-Aᵀ) q p = -expected A p q := by
  rw [expected, neg_mulVec, mulVec_transpose, dotProduct_neg, dotProduct_comm, expected,
    dotProduct_mulVec]

theorem Equalizing.swap {value : K} {p : m → K} {q : n → K} (equal : Equalizing A value p q) :
    Equalizing (-Aᵀ) (-value) q p := by
  refine ⟨equal.column, equal.row, ?_, ?_⟩
  · rw [vecMul_neg, vecMul_transpose, equal.earns]
    rfl
  · rw [neg_mulVec, mulVec_transpose, equal.concedes]
    rfl

theorem expected_of_concedes {value : K} {p : m → K} (concedes : p ᵥ* A = fun _ => value)
    {q : n → K} (mixed : q ∈ stdSimplex K n) : expected A p q = value := by
  rw [expected, dotProduct_mulVec, concedes]
  calc ∑ j, value * q j = value * ∑ j, q j := (Finset.mul_sum _ _ _).symm
    _ = value := by rw [mixed.2, mul_one]

theorem Equalizing.expected_row {value : K} {p : m → K} {q : n → K}
    (equal : Equalizing A value p q) {p' : m → K} (mixed : p' ∈ stdSimplex K m) :
    expected A p' q = value := by
  have same := expected_of_concedes equal.swap.concedes mixed
  rwa [expected_swap, neg_inj] at same

theorem Equalizing.isNash {value : K} {p : m → K} {q : n → K} (equal : Equalizing A value p q) :
    IsNash A p q := by
  have own := expected_of_concedes equal.concedes equal.column
  refine ⟨equal.row, equal.column, fun p' mixed => ?_, fun q' mixed => ?_⟩
  · rw [equal.expected_row mixed, own]
  · rw [expected_of_concedes equal.concedes mixed, own]

variable [IsStrictOrderedRing K]

theorem IsNash.swap {p : m → K} {q : n → K} (nash : IsNash A p q) : IsNash (-Aᵀ) q p := by
  refine ⟨nash.column, nash.row, fun q' mixed => ?_, fun p' mixed => ?_⟩
  · rw [expected_swap, expected_swap]
    exact neg_le_neg (nash.column_best q' mixed)
  · rw [expected_swap, expected_swap]
    exact neg_le_neg (nash.row_best p' mixed)

/-- Against a strategy that uses every action, every row strategy of an equilibrium is
indifferent as well. -/
theorem Equalizing.row_unique {value : K} {p : m → K} {q : n → K}
    (equal : Equalizing A value p q) (uses : ∀ j, 0 < q j) {p' : m → K} {q' : n → K}
    (nash : IsNash A p' q') : p' ᵥ* A = fun _ => value := by
  classical
  have game_value : expected A p' q' = value := by
    apply le_antisymm
    · rw [← equal.expected_row nash.row]
      exact nash.column_best q equal.column
    · rw [← expected_of_concedes equal.concedes nash.column]
      exact nash.row_best p equal.row
  have above : ∀ j, 0 ≤ (p' ᵥ* A) j - value := by
    intro j
    have pure := nash.column_best _ (single_mem_stdSimplex K j)
    rw [game_value, expected, dotProduct_mulVec, dotProduct_single_one] at pure
    exact sub_nonneg.mpr pure
  have balanced : ∑ j, ((p' ᵥ* A) j - value) * q j = 0 := by
    have earned := equal.expected_row nash.row
    rw [expected, dotProduct_mulVec] at earned
    simp only [sub_mul, Finset.sum_sub_distrib, ← Finset.mul_sum, equal.column.2, mul_one]
    exact sub_eq_zero.mpr earned
  have each := (Finset.sum_eq_zero_iff_of_nonneg
    (fun j _ => mul_nonneg (above j) (uses j).le)).mp balanced
  funext j
  have zero := (mul_eq_zero.mp (each j (Finset.mem_univ j))).resolve_right (uses j).ne'
  exact sub_eq_zero.mp zero

theorem Equalizing.column_unique {value : K} {p : m → K} {q : n → K}
    (equal : Equalizing A value p q) (uses : ∀ i, 0 < p i) {p' : m → K} {q' : n → K}
    (nash : IsNash A p' q') : A *ᵥ q' = fun _ => value := by
  have same := equal.swap.row_unique uses nash.swap
  rw [vecMul_neg, vecMul_transpose] at same
  rw [← neg_neg (A *ᵥ q'), same]
  funext i
  exact neg_neg value

theorem Equalizing.isNash_iff {value : K} {p : m → K} {q : n → K}
    (equal : Equalizing A value p q) (usesRow : ∀ i, 0 < p i) (usesColumn : ∀ j, 0 < q j)
    (onlyRow : ∀ p' ∈ stdSimplex K m, (p' ᵥ* A = fun _ => value) → p' = p)
    (onlyColumn : ∀ q' ∈ stdSimplex K n, (A *ᵥ q' = fun _ => value) → q' = q)
    (p' : m → K) (q' : n → K) : IsNash A p' q' ↔ p' = p ∧ q' = q := by
  constructor
  · intro nash
    exact ⟨onlyRow p' nash.row (equal.row_unique usesColumn nash),
      onlyColumn q' nash.column (equal.column_unique usesRow nash)⟩
  · rintro ⟨rfl, rfl⟩
    exact equal.isNash

end ZeroSum
