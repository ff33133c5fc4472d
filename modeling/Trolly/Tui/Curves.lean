import Trolly.Lib.Nearest
import Trolly.Std.F64
import Trolly.Tui.BookText
import Mathlib.Algebra.Order.BigOperators.Group.List
import Mathlib.Algebra.Order.Group.Int

/-! The cumulative curves of a book in exact arithmetic. The bids are cut at the highest prices
and summed by taking away from the total, the asks at the lowest and summed by adding. -/
namespace Trolly.Tui

open Rust Nearest

universe u

variable {K : Type u} [AddCommGroup K] [LinearOrder K]

section Code

variable (f64 : F64Text K)

/-- The rows of a ladder that are numbers, with a positive quantity. -/
def parseLevelPairs (levels : List TextLevel) : List (K × K) :=
  levels.filterMap fun (ps, qs) => do
    let p ← f64.parse ps
    let q ← f64.parse qs
    match p, q with
    | .finite p, .finite q => if 0 < q then some (p, q) else none
    | _, _ => none

def parseSignedLevelPairs (levels : List TextLevel) : List (K × K) :=
  levels.filterMap fun (ps, qs) => do
    let p ← f64.parse ps
    let q ← f64.parse qs
    match p, q with
    | .finite p, .finite q => some (p, q)
    | _, _ => none

/-- The loop of the bids: each price with what is left of the total. -/
def takeAway : K → List (K × K) → List (K × K)
  | _, [] => []
  | total, (p, q) :: rest => (p, total) :: takeAway (total - q) rest

/-- The loop of the asks: each price with what has come together. -/
def addUp : K → List (K × K) → List (K × K)
  | _, [] => []
  | cum, (p, q) :: rest => (p, cum + q) :: addUp (cum + q) rest

def bidCumulativeTopN (levels : List TextLevel) (maxLevels : Nat) : List (K × K) :=
  let v := parseLevelPairs f64 levels
  if v.isEmpty then []
  else
    let v := ascending Prod.fst ((descending Prod.fst v).take maxLevels)
    takeAway (v.map Prod.snd).sum v

def askCumulativeTopN (levels : List TextLevel) (maxLevels : Nat) : List (K × K) :=
  let v := parseLevelPairs f64 levels
  if v.isEmpty then []
  else addUp 0 ((ascending Prod.fst v).take maxLevels)

end Code

/-! ### Sums of a sorted ladder -/

def quantity (levels : List (K × K)) : K := (levels.map Prod.snd).sum

/-- The quantity of the levels whose price satisfies a condition. -/
def quantityWhere (at_ : K → Bool) (levels : List (K × K)) : K :=
  quantity (levels.filter (fun level => at_ level.1))

omit [LinearOrder K] in
@[simp] theorem quantity_cons (level : K × K) (rest : List (K × K)) :
    quantity (level :: rest) = level.2 + quantity rest := List.sum_cons

omit [LinearOrder K] in
@[simp] theorem quantity_append (front back : List (K × K)) :
    quantity (front ++ back) = quantity front + quantity back := by
  rw [quantity, List.map_append, List.sum_append]
  rfl

omit [LinearOrder K] in
theorem quantity_sub_first (level : K × K) (rest : List (K × K)) :
    quantity (level :: rest) - level.2 = quantity rest := by
  rw [quantity_cons, add_sub_cancel_left]

/-- Each level with the quantity of the levels at or above its price. -/
def curveAbove (kept : List (K × K)) : List (K × K) :=
  kept.map (fun level => (level.1, quantityWhere (fun p => level.1 ≤ p) kept))

/-- Each level with the quantity of the levels at or below its price. -/
def curveBelow (kept : List (K × K)) : List (K × K) :=
  kept.map (fun level => (level.1, quantityWhere (fun p => p ≤ level.1) kept))

/-- Going up, what is left of the total is the quantity at or above. -/
theorem takeAway_quantity {kept : List (K × K)} (sorted : kept.Pairwise (·.1 < ·.1)) :
    takeAway (quantity kept) kept = curveAbove kept := by
  induction kept with
  | nil => rfl
  | cons level rest ih =>
    obtain ⟨first, later⟩ := List.pairwise_cons.mp sorted
    have whole : quantityWhere (fun p => level.1 ≤ p) (level :: rest) =
        quantity (level :: rest) := by
      rw [quantityWhere, List.filter_eq_self.mpr]
      intro other member
      rcases List.mem_cons.mp member with rfl | inside
      · exact decide_eq_true (le_refl other.1)
      · exact decide_eq_true (first other inside).le
    have same : ∀ other ∈ rest, quantityWhere (fun p => other.1 ≤ p) (level :: rest) =
        quantityWhere (fun p => other.1 ≤ p) rest := by
      intro other member
      rw [quantityWhere, List.filter_cons_of_neg]
      · rfl
      · simpa using first other member
    rw [takeAway, quantity_sub_first, ih later, curveAbove, curveAbove, List.map_cons, whole]
    congr 1
    exact List.map_congr_left (fun other member => by rw [same other member])

/-- Going up, what has come together is the quantity at or below. -/
theorem addUp_quantity (before : List (K × K)) {rest : List (K × K)}
    (sorted : (before ++ rest).Pairwise (·.1 < ·.1)) :
    addUp (quantity before) rest =
      rest.map (fun level =>
        (level.1, quantityWhere (fun p => p ≤ level.1) (before ++ rest))) := by
  induction rest generalizing before with
  | nil => rfl
  | cons level rest ih =>
    have split : before ++ level :: rest = (before ++ [level]) ++ rest := by simp
    have upTo : quantityWhere (fun p => p ≤ level.1) (before ++ level :: rest) =
        quantity (before ++ [level]) := by
      rw [split] at sorted ⊢
      obtain ⟨low, _, across⟩ := List.pairwise_append.mp sorted
      obtain ⟨_, _, below⟩ := List.pairwise_append.mp low
      have kept : (before ++ [level]).filter (fun other => decide (other.1 ≤ level.1)) =
          before ++ [level] := by
        refine List.filter_eq_self.mpr (fun other member => decide_eq_true ?_)
        rcases List.mem_append.mp member with inside | own
        · exact (below other inside level (.head [])).le
        · rw [List.mem_singleton.mp own]
      have cut : rest.filter (fun other => decide (other.1 ≤ level.1)) = [] := by
        refine List.filter_eq_nil_iff.mpr (fun other member => ?_)
        simpa using across level (by simp) other member
      rw [quantityWhere, List.filter_append, kept, cut, List.append_nil]
    have sum : quantity before + level.2 = quantity (before ++ [level]) := by
      rw [quantity_append, quantity_cons]
      simp [quantity]
    rw [addUp, List.map_cons, upTo, sum, ih _ (split ▸ sorted), split]

/-! ### The curves -/

omit [LinearOrder K] in
theorem takeAway_prices (total : K) (kept : List (K × K)) :
    (takeAway total kept).map Prod.fst = kept.map Prod.fst := by
  induction kept generalizing total with
  | nil => rfl
  | cons level rest ih => rw [takeAway, List.map_cons, ih, List.map_cons]

omit [LinearOrder K] in
theorem addUp_prices (cum : K) (kept : List (K × K)) :
    (addUp cum kept).map Prod.fst = kept.map Prod.fst := by
  induction kept generalizing cum with
  | nil => rfl
  | cons level rest ih => rw [addUp, List.map_cons, ih, List.map_cons]

omit [AddCommGroup K] in
theorem price_above {low : K} {kept curve : List (K × K)} (first : ∀ level ∈ kept, low < level.1)
    (prices : curve.map Prod.fst = kept.map Prod.fst) : ∀ point ∈ curve, low < point.1 := by
  intro point member
  have listed := List.mem_map_of_mem (f := Prod.fst) member
  rw [prices] at listed
  obtain ⟨level, inside, same⟩ := List.mem_map.mp listed
  rw [← same]
  exact first level inside

/-- Positive everywhere, and the total is the largest value. -/
structure Covers (total : K) (curve : List (K × K)) : Prop where
  positive : ∀ point ∈ curve, 0 < point.2
  bound : ∀ point ∈ curve, point.2 ≤ total
  attained : curve ≠ [] → ∃ point ∈ curve, point.2 = total

variable [IsOrderedAddMonoid K] {kept : List (K × K)}

theorem quantity_nonneg (positive : ∀ level ∈ kept, 0 < level.2) : 0 ≤ quantity kept := by
  refine List.sum_nonneg (fun q member => ?_)
  obtain ⟨level, inside, rfl⟩ := List.mem_map.mp member
  exact (positive level inside).le

/-- What is left of the total falls with the price. -/
theorem takeAway_falls (sorted : kept.Pairwise (·.1 < ·.1))
    (positive : ∀ level ∈ kept, 0 < level.2) :
    (takeAway (quantity kept) kept).Pairwise (fun a b => a.1 < b.1 ∧ b.2 < a.2) ∧
      Covers (quantity kept) (takeAway (quantity kept) kept) := by
  induction kept with
  | nil => exact ⟨.nil, nofun, nofun, fun some => absurd rfl some⟩
  | cons level rest ih =>
    obtain ⟨first, later⟩ := List.pairwise_cons.mp sorted
    have own : 0 < level.2 := positive level (.head rest)
    have others : ∀ other ∈ rest, 0 < other.2 := fun other member =>
      positive other (.tail level member)
    obtain ⟨falls, covers⟩ := ih later others
    have less : quantity rest < quantity (level :: rest) := by
      rw [quantity_cons]
      exact lt_add_of_pos_left _ own
    rw [takeAway, quantity_sub_first]
    refine ⟨List.pairwise_cons.mpr ⟨?_, falls⟩, ?_, ?_, ?_⟩
    · intro point member
      exact ⟨price_above first (takeAway_prices _ rest) point member,
        (covers.bound point member).trans_lt less⟩
    · intro point member
      rcases List.mem_cons.mp member with rfl | inside
      · exact (quantity_nonneg others).trans_lt less
      · exact covers.positive point inside
    · intro point member
      rcases List.mem_cons.mp member with rfl | inside
      · exact le_refl _
      · exact (covers.bound point inside).trans less.le
    · exact fun _ => ⟨_, .head _, rfl⟩

/-- What has come together rises with the price. -/
theorem addUp_rises (sorted : kept.Pairwise (·.1 < ·.1))
    (positive : ∀ level ∈ kept, 0 < level.2) (cum : K) :
    (addUp cum kept).Pairwise (fun a b => a.1 < b.1 ∧ a.2 < b.2) ∧
      (∀ point ∈ addUp cum kept, cum < point.2 ∧ point.2 ≤ cum + quantity kept) ∧
      (kept ≠ [] → ∃ point ∈ addUp cum kept, point.2 = cum + quantity kept) := by
  induction kept generalizing cum with
  | nil => exact ⟨.nil, nofun, fun some => absurd rfl some⟩
  | cons level rest ih =>
    obtain ⟨first, later⟩ := List.pairwise_cons.mp sorted
    have own : 0 < level.2 := positive level (.head rest)
    have others : ∀ other ∈ rest, 0 < other.2 := fun other member =>
      positive other (.tail level member)
    obtain ⟨rises, between, last⟩ := ih later others (cum + level.2)
    have sum : cum + quantity (level :: rest) = cum + level.2 + quantity rest := by
      rw [quantity_cons, add_assoc]
    have more : cum < cum + level.2 := lt_add_of_pos_right cum own
    rw [addUp, sum]
    refine ⟨List.pairwise_cons.mpr ⟨?_, rises⟩, ?_, ?_⟩
    · intro point member
      exact ⟨price_above first (addUp_prices _ rest) point member, (between point member).1⟩
    · intro point member
      rcases List.mem_cons.mp member with rfl | inside
      · exact ⟨more, le_add_of_nonneg_right (quantity_nonneg others)⟩
      · exact ⟨more.trans (between point inside).1, (between point inside).2⟩
    · intro _
      cases rest with
      | nil => exact ⟨_, .head _, by simp [quantity]⟩
      | cons next rest =>
        obtain ⟨point, member, same⟩ := last (List.cons_ne_nil next rest)
        exact ⟨point, .tail _ member, same⟩

/-! ### What the chart shows -/

variable (f64 : F64Text K)

omit [IsOrderedAddMonoid K] in
theorem parseLevelPairs_eq (levels : List TextLevel) :
    parseLevelPairs f64 levels =
      (parseSignedLevelPairs f64 levels).filter (fun level => 0 < level.2) := by
  rw [parseLevelPairs, parseSignedLevelPairs, List.filter_filterMap]
  refine List.filterMap_congr (fun (ps, qs) _ => ?_)
  cases price : f64.parse ps with
  | none => simp [price]
  | some p =>
    cases qty : f64.parse qs with
    | none => simp [price, qty]
    | some q => cases p <;> cases q <;> simp [price, qty, Option.filter]

/-- The bid curve over the `n` highest of some levels. -/
structure BidCurve (n : Nat) (levels curve : List (K × K)) : Prop where
  above : ∃ kept, Greatest Prod.fst n levels kept ∧ curve = curveAbove kept ∧
    Covers (quantity kept) curve
  falls : curve.Pairwise (fun a b => a.1 < b.1 ∧ b.2 < a.2)

/-- The ask curve over the `n` lowest of some levels. -/
structure AskCurve (n : Nat) (levels curve : List (K × K)) : Prop where
  below : ∃ kept, Least Prod.fst n levels kept ∧ curve = curveBelow kept ∧
    Covers (quantity kept) curve
  rises : curve.Pairwise (fun a b => a.1 < b.1 ∧ a.2 < b.2)

theorem bid_curve {levels : List (K × K)} (distinct : (levels.map Prod.fst).Nodup)
    (positive : ∀ level ∈ levels, 0 < level.2) (n : Nat) :
    let kept := ascending Prod.fst ((descending Prod.fst levels).take n)
    BidCurve n levels (takeAway (quantity kept) kept) := by
  intro kept
  have greatest : Greatest Prod.fst n levels kept := greatest_take Prod.fst distinct n
  obtain ⟨falls, covers⟩ := takeAway_falls greatest.sorted
    (fun level member => positive level (greatest.subset level member))
  exact ⟨⟨kept, greatest, takeAway_quantity greatest.sorted, covers⟩, falls⟩

theorem ask_curve {levels : List (K × K)} (distinct : (levels.map Prod.fst).Nodup)
    (positive : ∀ level ∈ levels, 0 < level.2) (n : Nat) :
    AskCurve n levels (addUp 0 ((ascending Prod.fst levels).take n)) := by
  have least := least_take Prod.fst distinct n
  obtain ⟨rises, between, last⟩ := addUp_rises least.sorted
    (fun level member => positive level (least.subset level member)) 0
  refine ⟨⟨_, least, addUp_quantity [] least.sorted, ?_, ?_, ?_⟩, rises⟩
  · exact fun point member => (between point member).1
  · intro point member
    rw [← zero_add (quantity _)]
    exact (between point member).2
  · intro some
    have nonempty : (ascending Prod.fst levels).take n ≠ [] := by
      intro none
      rw [none] at some
      exact some rfl
    obtain ⟨point, member, same⟩ := last nonempty
    exact ⟨point, member, by rw [same, zero_add]⟩

/-- For every ladder with distinct prices and every number of levels to show. -/
theorem cumulative_curves {levels : List TextLevel}
    (distinct : ((parseSignedLevelPairs f64 levels).map Prod.fst).Nodup) (maxLevels : Nat) :
    let traded := (parseSignedLevelPairs f64 levels).filter (fun level => 0 < level.2)
    BidCurve maxLevels traded (bidCumulativeTopN f64 levels maxLevels) ∧
      AskCurve maxLevels traded (askCumulativeTopN f64 levels maxLevels) := by
  intro traded
  have parsed : parseLevelPairs f64 levels = traded := parseLevelPairs_eq f64 levels
  have apart : (traded.map Prod.fst).Nodup :=
    distinct.sublist (List.filter_sublist.map Prod.fst)
  have positive : ∀ level ∈ traded, 0 < level.2 := fun level member =>
    of_decide_eq_true (List.mem_filter.mp member).2
  have bids := bid_curve apart positive maxLevels
  have asks := ask_curve apart positive maxLevels
  rw [bidCumulativeTopN, askCumulativeTopN, parsed]
  by_cases none : traded.isEmpty = true
  · rw [List.isEmpty_iff] at none
    rw [none] at bids asks ⊢
    simpa [ascending, descending, takeAway, addUp] using And.intro bids asks
  · rw [if_neg none, if_neg none]
    exact ⟨bids, asks⟩

theorem cumulative_curves_two_levels :
    ((parseSignedLevelPairs F64Text.whole [("3", "2"), ("1", "5")]).map Prod.fst).Nodup ∧
    BidCurve 1 [(3, 2), (1, 5)] (bidCumulativeTopN F64Text.whole [("3", "2"), ("1", "5")] 1) ∧
    AskCurve 1 [(3, 2), (1, 5)] (askCumulativeTopN F64Text.whole [("3", "2"), ("1", "5")] 1) := by
  have distinct :
      ((parseSignedLevelPairs F64Text.whole [("3", "2"), ("1", "5")]).map Prod.fst).Nodup := by
    decide
  exact ⟨distinct, cumulative_curves F64Text.whole distinct 1⟩

end Trolly.Tui
