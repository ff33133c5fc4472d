import Trolly.Spot.Arithmetic

/-! `add_decimal_strings` as an addition: when a sum is exact, and the laws it has. -/
namespace Trolly.Spot

/-- A decimal as it is written; what is too wide to be written is left out. -/
def written (d : Decimal) : String := String.ofList ((formatScaled d.mantissa d.scale).getD [])

theorem decimalOf_written {d : Decimal} (narrow : d.scale ≤ Rust.WIDTH_MAX) :
    decimalOf (written d) = some d := by
  obtain ⟨n, formatted, decimal, -⟩ := formatScaled_numeral d.mantissa narrow
  rw [decimalOf, written, formatted, Option.getD_some, String.toList_ofList, Numeral.ofText_text,
    Option.map_some, decimal]

/-- All partial sums of three decimals, in both groupings. -/
structure Grouped (p : Decimal → Decimal → Prop) (x y z : Decimal) : Prop where
  left : p x y
  leftOuter : p (x.add y) z
  right : p y z
  rightOuter : p x (y.add z)

section Laws

variable [Rust.Build]

/-- The result is a decimal, denotes the sum, and has as many fraction digits as the finer
of the operands. -/
def ExactSum (lhs rhs : String) (l r : Decimal) : Prop :=
  ∃ out d, addDecimalStrings lhs rhs = some out ∧ decimalOf out = some d ∧
    d.value = l.value + r.value ∧ d.scale = max l.scale r.scale

theorem exactSum_iff {lhs rhs : String} {l r : Decimal} (left : decimalOf lhs = some l)
    (right : decimalOf rhs = some r) (fits : Fits l r) :
    ExactSum lhs rhs l r ↔ Representable l r := by
  constructor
  · rintro ⟨out, d, added, read, same, -⟩
    by_contra unrepresentable
    obtain ⟨out', d', added', read', differs⟩ :=
      addDecimalStrings_inexact left right fits unrepresentable
    rw [added, Option.some.injEq] at added'
    subst added'
    rw [read, Option.some.injEq] at read'
    subst read'
    exact differs (same.trans (l.value_add r).symm)
  · intro representable
    obtain ⟨out, added, read⟩ := addDecimalStrings_exact left right fits representable
    exact ⟨out, _, added, read, l.value_add r, rfl⟩

theorem addDecimalStrings_comm (lhs rhs : String) :
    addDecimalStrings lhs rhs = addDecimalStrings rhs lhs := by
  simp only [addDecimalStrings, max_comm (decimalScale rhs.toList)]
  generalize max (decimalScale lhs.toList) (decimalScale rhs.toList) = scale
  generalize toScaledI128 lhs.toList scale = left
  generalize toScaledI128 rhs.toList scale = right
  cases left <;> cases right <;> simp [Int.add_comm]

theorem addDecimalStrings_written {lhs rhs : String} {l r : Decimal} (left : decimalOf lhs = some l)
    (right : decimalOf rhs = some r) (fits : Fits l r) (representable : Representable l r) :
    addDecimalStrings lhs rhs = some (written (l.add r)) := by
  obtain ⟨n, formatted, -⟩ := formatScaled_numeral (l.add r).mantissa fits.2
  have summed : formatScaled (l.mantissaAt (max l.scale r.scale) +
      r.mantissaAt (max l.scale r.scale)) (max l.scale r.scale) = some n.text := formatted
  have whole : formatScaled (l.add r).mantissa (l.add r).scale = some n.text := formatted
  rw [addDecimalStrings_text (amountOf_decimalOf left) (amountOf_decimalOf right) fits]
  obtain ⟨range, -⟩ := fits
  simp only [InRange, checkedI128_isSome] at range
  rw [parsedMantissa_eq range.1, parsedMantissa_eq range.2.1, if_neg representable.1,
    if_neg representable.2, summed, written, whole]
  rfl

theorem addDecimalStrings_assoc {a b c : String} {x y z : Decimal} (readA : decimalOf a = some x)
    (readB : decimalOf b = some y) (readC : decimalOf c = some z) (fits : Grouped Fits x y z)
    (representable : Grouped Representable x y z) :
    (addDecimalStrings a b).bind (fun sum => addDecimalStrings sum c) =
      (addDecimalStrings b c).bind (fun sum => addDecimalStrings a sum) := by
  rw [addDecimalStrings_written readA readB fits.left representable.left,
    addDecimalStrings_written readB readC fits.right representable.right, Option.bind_some,
    Option.bind_some,
    addDecimalStrings_written (decimalOf_written fits.left.2) readC fits.leftOuter
      representable.leftOuter,
    addDecimalStrings_written readA (decimalOf_written fits.right.2) fits.rightOuter
      representable.rightOuter, Decimal.add_assoc]

/-- Each of the four additions is exact, and the groupings agree. -/
structure ExactGroupings (a b c : String) (x y z : Decimal) : Prop where
  left : ExactSum a b x y
  leftOuter : ∀ sum, addDecimalStrings a b = some sum → ExactSum sum c (x.add y) z
  right : ExactSum b c y z
  rightOuter : ∀ sum, addDecimalStrings b c = some sum → ExactSum a sum x (y.add z)
  associate : (addDecimalStrings a b).bind (fun sum => addDecimalStrings sum c) =
    (addDecimalStrings b c).bind (fun sum => addDecimalStrings a sum)

theorem exactGroupings_iff {a b c : String} {x y z : Decimal} (readA : decimalOf a = some x)
    (readB : decimalOf b = some y) (readC : decimalOf c = some z) (fits : Grouped Fits x y z) :
    ExactGroupings a b c x y z ↔ Grouped Representable x y z := by
  constructor
  · intro groupings
    have left := (exactSum_iff readA readB fits.left).1 groupings.left
    have right := (exactSum_iff readB readC fits.right).1 groupings.right
    have leftSum := groupings.leftOuter _ (addDecimalStrings_written readA readB fits.left left)
    have rightSum := groupings.rightOuter _ (addDecimalStrings_written readB readC fits.right right)
    exact ⟨left, (exactSum_iff (decimalOf_written fits.left.2) readC fits.leftOuter).1 leftSum,
      right, (exactSum_iff readA (decimalOf_written fits.right.2) fits.rightOuter).1 rightSum⟩
  · intro representable
    refine ⟨(exactSum_iff readA readB fits.left).2 representable.left, fun sum added => ?_,
      (exactSum_iff readB readC fits.right).2 representable.right, fun sum added => ?_,
      addDecimalStrings_assoc readA readB readC fits representable⟩
    · rw [addDecimalStrings_written readA readB fits.left representable.left] at added
      cases added
      exact (exactSum_iff (decimalOf_written fits.left.2) readC fits.leftOuter).2
        representable.leftOuter
    · rw [addDecimalStrings_written readB readC fits.right representable.right] at added
      cases added
      exact (exactSum_iff readA (decimalOf_written fits.right.2) fits.rightOuter).2
        representable.rightOuter

/-- Sums that fit are exact exactly where no operand is the least `i128`; addition commutes
everywhere, and two groupings are exact and agree exactly where that holds of all their sums. -/
theorem decimal_sums_exact_iff (lhs rhs : String) :
    (∀ l r, decimalOf lhs = some l → decimalOf rhs = some r → Fits l r →
      (ExactSum lhs rhs l r ↔ Representable l r)) ∧
    addDecimalStrings lhs rhs = addDecimalStrings rhs lhs ∧
    ∀ third l r t, decimalOf lhs = some l → decimalOf rhs = some r → decimalOf third = some t →
      Grouped Fits l r t → (ExactGroupings lhs rhs third l r t ↔ Grouped Representable l r t) := by
  refine ⟨fun l r left right fits => exactSum_iff left right fits,
    addDecimalStrings_comm lhs rhs, ?_⟩
  intro third l r t left right last fits
  exact exactGroupings_iff left right last fits

end Laws

theorem decimal_sums_exact_small : @ExactSum .release "1" "-2.50" ⟨1, 0⟩ ⟨-250, 2⟩ :=
  ((@decimal_sums_exact_iff .release "1" "-2.50").1 ⟨1, 0⟩ ⟨-250, 2⟩ (by decide) (by decide)
    (by decide)).2 (by decide)

/-- The least `i128` and zero are well formed and fit, and their sum is written as zero. -/
theorem least_i128_plus_zero :
    decimalOf "-170141183460469231731687303715884105728" = some ⟨Rust.I128_MIN, 0⟩ ∧
    decimalOf "0" = some ⟨0, 0⟩ ∧ Fits ⟨Rust.I128_MIN, 0⟩ ⟨0, 0⟩ ∧
    @addDecimalStrings .release "-170141183460469231731687303715884105728" "0" = some "0" ∧
    ¬@ExactSum .release "-170141183460469231731687303715884105728" "0" ⟨Rust.I128_MIN, 0⟩
      ⟨0, 0⟩ := by
  have added : @addDecimalStrings .release "-170141183460469231731687303715884105728" "0" =
      some "0" := by decide
  have zero : decimalOf "0" = some ⟨0, 0⟩ := by decide
  refine ⟨by decide, zero, by decide, added, ?_⟩
  rintro ⟨out, d, result, read, same, -⟩
  rw [added] at result
  cases result
  rw [zero, Option.some.injEq] at read
  subst read
  norm_num [Decimal.value, Rust.I128_MIN] at same

end Trolly.Spot
