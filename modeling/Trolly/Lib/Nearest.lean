import Mathlib.Data.List.Sort
import Mathlib.Order.OrderDual

/-! The first entries of a sorted list: the `n` entries of least key, or of greatest key, in
ascending order. -/
namespace Nearest

universe u v

variable {α : Type u} {K : Type v} [LinearOrder K] (key : α → K)

def ascending (xs : List α) : List α := xs.mergeSort (fun a b => decide (key a ≤ key b))

def descending (xs : List α) : List α := xs.mergeSort (fun a b => decide (key b ≤ key a))

/-- The `n` entries of least key, or all where there are fewer, by key. -/
structure Least (n : Nat) (all kept : List α) : Prop where
  sorted : kept.Pairwise (key · < key ·)
  subset : ∀ x ∈ kept, x ∈ all
  length : kept.length = min n all.length
  beyond : ∀ x ∈ kept, ∀ y ∈ all, y ∉ kept → key x < key y

/-- The `n` entries of greatest key, or all where there are fewer, by key. -/
structure Greatest (n : Nat) (all kept : List α) : Prop where
  sorted : kept.Pairwise (key · < key ·)
  subset : ∀ x ∈ kept, x ∈ all
  length : kept.length = min n all.length
  beyond : ∀ x ∈ kept, ∀ y ∈ all, y ∉ kept → key y < key x

variable {all kept : List α} {n : Nat}

/-! ### Sorting -/

theorem ascending_perm (xs : List α) : (ascending key xs).Perm xs := List.mergeSort_perm xs _

theorem descending_perm (xs : List α) : (descending key xs).Perm xs := List.mergeSort_perm xs _

theorem ascending_sorted (distinct : (all.map key).Nodup) :
    (ascending key all).Pairwise (key · < key ·) := by
  have sorted : (ascending key all).Pairwise (fun a b => decide (key a ≤ key b) = true) := by
    refine List.pairwise_mergeSort (fun a b c => ?_) (fun a b => ?_) all
    · simpa using le_trans
    · simpa using le_total (key a) (key b)
  have apart : (ascending key all).Pairwise (fun a b => key a ≠ key b) :=
    List.pairwise_map.mp (((ascending_perm key all).map key).nodup_iff.mpr distinct)
  exact (sorted.and apart).imp (fun both => lt_of_le_of_ne (of_decide_eq_true both.1) both.2)

variable {key}

theorem ascending_of_sorted (sorted : kept.Pairwise (key · < key ·)) :
    ascending key kept = kept :=
  List.mergeSort_of_pairwise (sorted.imp (fun less => decide_eq_true less.le))

/-! ### The first entries -/

variable (key) in
theorem least_take (distinct : (all.map key).Nodup) (n : Nat) :
    Least key n all ((ascending key all).take n) := by
  have sorted := ascending_sorted key distinct
  have perm := ascending_perm key all
  refine ⟨sorted.sublist (List.take_sublist n _), ?_, ?_, ?_⟩
  · intro x member
    exact perm.mem_iff.mp (List.mem_of_mem_take member)
  · rw [List.length_take, perm.length_eq]
  · intro x member y inside out
    rw [← List.take_append_drop n (ascending key all), List.pairwise_append] at sorted
    have whole := perm.mem_iff.mpr inside
    rw [← List.take_append_drop n (ascending key all), List.mem_append] at whole
    exact sorted.2.2 x member y (whole.resolve_left out)

variable (key) in
theorem greatest_take (distinct : (all.map key).Nodup) (n : Nat) :
    Greatest key n all (ascending key ((descending key all).take n)) := by
  have least := least_take (OrderDual.toDual ∘ key) distinct n
  have same : ascending (OrderDual.toDual ∘ key) all = descending key all := rfl
  rw [same] at least
  have perm := ascending_perm key ((descending key all).take n)
  have nodup : (((descending key all).take n).map key).Nodup :=
    List.pairwise_map.mpr (least.sorted.imp (fun less => (OrderDual.toDual_lt_toDual.mp less).ne'))
  refine ⟨ascending_sorted key nodup, ?_, ?_, ?_⟩
  · intro x member
    exact least.subset x (perm.mem_iff.mp member)
  · rw [perm.length_eq, least.length]
  · intro x member y inside out
    exact least.beyond x (perm.mem_iff.mp member) y inside
      (fun kept => out (perm.mem_iff.mpr kept))

/-- Taking the least twice is taking the fewer of them. -/
theorem take_ascending_take (distinct : (all.map key).Nodup) {m : Nat} (fewer : n ≤ m) :
    (ascending key ((ascending key all).take m)).take n = (ascending key all).take n := by
  have sorted := (ascending_sorted key distinct).sublist (List.take_sublist m _)
  rw [ascending_of_sorted sorted, List.take_take, Nat.min_eq_left fewer]

section Permutation

variable {other : List α} (same : all.Perm other)

include same

theorem Least.congr (least : Least key n all kept) : Least key n other kept :=
  ⟨least.sorted, fun x member => same.mem_iff.mp (least.subset x member),
    by rw [least.length, same.length_eq],
    fun x member y inside => least.beyond x member y (same.mem_iff.mpr inside)⟩

theorem Greatest.congr (greatest : Greatest key n all kept) : Greatest key n other kept :=
  ⟨greatest.sorted, fun x member => same.mem_iff.mp (greatest.subset x member),
    by rw [greatest.length, same.length_eq],
    fun x member y inside => greatest.beyond x member y (same.mem_iff.mpr inside)⟩

end Permutation

/-- The greatest entries are not among the least: a cut of the least that drops some entry
leaves nothing to take the greatest of. -/
theorem not_greatest_of_cut (distinct : (all.map key).Nodup) {m : Nat} (cut : m < all.length)
    (some : 0 < n) (within : ∀ x ∈ kept, x ∈ (ascending key all).take m) :
    ¬Greatest key n all kept := by
  intro greatest
  have least := least_take key distinct m
  have nonempty : kept ≠ [] := by
    intro none
    have length := greatest.length
    rw [none, List.length_nil] at length
    omega
  obtain ⟨x, member⟩ := List.exists_mem_of_ne_nil kept nonempty
  have dropped : ∃ y ∈ all, y ∉ (ascending key all).take m := by
    by_contra none
    have each : all ⊆ (ascending key all).take m := by
      intro y inside
      by_contra out
      exact none ⟨y, inside, out⟩
    have bound := (List.subperm_of_subset (List.Nodup.of_map key distinct) each).length_le
    rw [least.length] at bound
    omega
  obtain ⟨y, inside, out⟩ := dropped
  have above := least.beyond x (within x member) y inside out
  have below := greatest.beyond x member y inside (fun kept => out (within y kept))
  exact lt_asymm above below

end Nearest
