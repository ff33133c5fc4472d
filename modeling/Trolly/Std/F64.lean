import Mathlib.Algebra.Order.Field.Basic
import Mathlib.Data.List.Basic
import Mathlib.Data.Nat.Sqrt
import Mathlib.Data.Rat.Cast.Order
import Mathlib.Order.Lattice
import Mathlib.Tactic.Positivity
import Trolly.Std.Text

/-! The values of `f64` over exact numbers: NaN, the infinities and the finite ones. -/
namespace Rust

universe u

inductive F64 (K : Type u) where
  | nan
  | negInf
  | finite (x : K)
  | posInf
  deriving DecidableEq, Repr

namespace F64

variable {K : Type u}

def isFinite : F64 K → Bool
  | finite _ => true
  | _ => false

def isInfinite : F64 K → Bool
  | negInf | posInf => true
  | _ => false

variable [LinearOrder K]

/-- `<=`, which nothing and NaN satisfy. -/
def le : F64 K → F64 K → Bool
  | nan, _ | _, nan => false
  | negInf, _ | _, posInf => true
  | finite x, finite y => x ≤ y
  | _, _ => false

/-- `f64::max`, which ignores a NaN operand. -/
def max (a b : F64 K) : F64 K :=
  if a = nan then b else if b = nan then a else if le a b then b else a

@[simp] theorem le_self_iff {a : F64 K} : le a a = true ↔ a ≠ nan := by
  cases a <;> simp [le]

theorem le_trans {a b c : F64 K} (first : le a b = true) (second : le b c = true) :
    le a c = true := by
  cases a <;> cases b <;> cases c <;> simp_all [le]
  exact first.trans second

theorem le_of_not_le {a b : F64 K} (left : a ≠ nan) (right : b ≠ nan) (not : ¬le a b = true) :
    le b a = true := by
  cases a <;> cases b <;> simp_all [le]
  exact not.le

theorem finite_of_le_finite {a : F64 K} {y : K} (below : le a (finite y) = true)
    (above : a ≠ negInf) : a.isFinite = true := by
  cases a <;> simp_all [le, isFinite]

theorem max_cases {a b : F64 K} (number : a ≠ nan) :
    max a b ≠ nan ∧ le a (max a b) = true ∧ (b ≠ nan → le b (max a b) = true) ∧
      (max a b = a ∨ max a b = b) := by
  rw [max, if_neg number]
  by_cases skipped : b = nan
  · rw [if_pos skipped]
    exact ⟨number, le_self_iff.mpr number, fun other => absurd skipped other, Or.inl rfl⟩
  · rw [if_neg skipped]
    by_cases below : le a b = true
    · rw [if_pos below]
      exact ⟨skipped, below, fun _ => le_self_iff.mpr skipped, Or.inr rfl⟩
    · rw [if_neg below]
      exact ⟨number, le_self_iff.mpr number, fun _ => le_of_not_le number skipped below,
        Or.inl rfl⟩

/-- What a fold of `f64::max` returns: a bound of every number it meets, and one of them. -/
theorem foldl_max_spec (xs : List (F64 K)) {start : F64 K} (number : start ≠ nan) :
    xs.foldl max start ≠ nan ∧ le start (xs.foldl max start) = true ∧
      (∀ x ∈ xs, x ≠ nan → le x (xs.foldl max start) = true) ∧
      (xs.foldl max start = start ∨ xs.foldl max start ∈ xs) := by
  induction xs generalizing start with
  | nil => exact ⟨number, le_self_iff.mpr number, by simp, Or.inl rfl⟩
  | cons x xs ih =>
    obtain ⟨inner, fromStart, fromHead, which⟩ := max_cases (b := x) number
    obtain ⟨result, above, each, among⟩ := ih inner
    rw [List.foldl_cons]
    refine ⟨result, le_trans fromStart above, ?_, ?_⟩
    · intro y member other
      rcases List.mem_cons.mp member with rfl | later
      · exact le_trans (fromHead other) above
      · exact each y later other
    · rcases among with same | later
      · rw [same]
        refine which.imp_right (fun chosen => ?_)
        rw [chosen]
        exact .head xs
      · exact Or.inr (.tail x later)

/-! ### Arithmetic -/

section Arithmetic

variable {K : Type u} [Field K]

def add : F64 K → F64 K → F64 K
  | nan, _ | _, nan | posInf, negInf | negInf, posInf => nan
  | posInf, _ | _, posInf => posInf
  | negInf, _ | _, negInf => negInf
  | finite x, finite y => finite (x + y)

def sub : F64 K → F64 K → F64 K
  | nan, _ | _, nan | posInf, posInf | negInf, negInf => nan
  | posInf, _ | _, negInf => posInf
  | negInf, _ | _, posInf => negInf
  | finite x, finite y => finite (x - y)

/-- `powi(2)`. -/
def square : F64 K → F64 K
  | nan => nan
  | negInf | posInf => posInf
  | finite x => finite (x ^ 2)

/-- `iter().sum()`. -/
def sum (xs : List (F64 K)) : F64 K := xs.foldl add (finite 0)

theorem sub_finite_iff {a b : F64 K} {z : K} :
    sub a b = finite z ↔ ∃ x y, a = finite x ∧ b = finite y ∧ x - y = z := by
  cases a <;> cases b <;> simp [sub]

theorem foldl_add_not_finite {a : F64 K} (lost : a.isFinite = false) (xs : List (F64 K)) :
    (xs.foldl add a).isFinite = false := by
  induction xs generalizing a with
  | nil => exact lost
  | cons x xs ih =>
    refine ih ?_
    cases a <;> cases x <;> simp_all [add, isFinite]

variable [LinearOrder K] [IsStrictOrderedRing K]

/-- A sum of squares is zero where each of them is. -/
theorem foldl_squares_eq_zero {start : K} (above : 0 ≤ start) (xs : List (F64 K)) :
    (xs.map square).foldl add (finite start) = finite 0 ↔
      start = 0 ∧ ∀ x ∈ xs, x = finite 0 := by
  induction xs generalizing start with
  | nil => simp
  | cons x xs ih =>
    rw [List.map_cons, List.foldl_cons, List.forall_mem_cons]
    have lost : ∀ a : F64 K, a.isFinite = false →
        ((xs.map square).foldl add a = finite 0 ↔ False) := by
      intro a infinite
      have result := foldl_add_not_finite infinite (xs.map square)
      refine iff_false_intro (fun zero => ?_)
      rw [zero] at result
      cases result
    cases x with
    | finite x =>
      have squared : (0 : K) ≤ x ^ 2 := sq_nonneg x
      have both : start + x ^ 2 = 0 ↔ start = 0 ∧ x = 0 := by
        rw [add_eq_zero_iff_of_nonneg above squared, sq_eq_zero_iff]
      rw [square, add, ih (add_nonneg above squared), both, finite.injEq, and_assoc]
    | nan => simp [square, add, lost nan rfl]
    | negInf => simp [square, add, lost posInf rfl]
    | posInf => simp [square, add, lost posInf rfl]

theorem sum_squares_eq_zero (xs : List (F64 K)) :
    sum (xs.map square) = finite 0 ↔ ∀ x ∈ xs, x = finite 0 := by
  rw [sum, foldl_squares_eq_zero le_rfl, and_iff_right rfl]

end Arithmetic

/-- `sqrt` on finite numbers that are not negative. -/
structure Root (K : Type u) [Zero K] [LE K] where
  root : K → K
  root_nonneg : ∀ x, 0 ≤ root x
  root_zero : ∀ x, 0 ≤ x → (root x = 0 ↔ x = 0)

section Sqrt

variable {K : Type u} [Zero K] [LinearOrder K] (r : Root K)

def sqrt : F64 K → F64 K
  | nan | negInf => nan
  | posInf => posInf
  | finite x => if 0 ≤ x then finite (r.root x) else nan

theorem sqrt_eq_zero_iff {a : F64 K} : sqrt r a = finite 0 ↔ a = finite 0 := by
  cases a with
  | finite x =>
    rw [sqrt, finite.injEq]
    split_ifs with above
    · rw [finite.injEq, r.root_zero x above]
    · exact iff_of_false nofun (fun zero => above zero.ge)
  | nan => simp [sqrt]
  | negInf => simp [sqrt]
  | posInf => simp [sqrt]

/-- The root of a fraction by those of its parts, which are taken down to whole numbers. -/
def Root.rational : Root ℚ where
  root := fun x => Nat.sqrt x.num.toNat / Nat.sqrt x.den
  root_nonneg := fun x => by positivity
  root_zero := fun x above => by
    have shown : Nat.sqrt x.den ≠ 0 := (Nat.sqrt_pos.mpr x.den_pos).ne'
    have top : 0 ≤ x.num := Rat.num_nonneg.mpr above
    rw [div_eq_zero_iff, Nat.cast_eq_zero, Nat.cast_eq_zero, or_iff_left shown, Nat.sqrt_eq_zero,
      ← Rat.num_eq_zero]
    omega

end Sqrt

end F64

/-- `str::parse::<f64>` and `{}` of a finite `f64`, which `parse` reads back. -/
structure F64Text (K : Type u) where
  parse : String → Option (F64 K)
  display : K → String
  parse_display : ∀ x, parse (display x) = some (.finite x)

/-- What a text says where it says a finite number. -/
def F64Text.number {K : Type u} (f64 : F64Text K) (s : String) : Option K :=
  match f64.parse s with
  | some (.finite x) => some x
  | _ => none

@[simp] theorem F64Text.number_display {K : Type u} (f64 : F64Text K) (x : K) :
    f64.number (f64.display x) = some x := by
  rw [F64Text.number, f64.parse_display]

/-! ### Whole numbers -/

section Digits

variable {ds : List Char} (digits : ds.all Char.isDigit = true) (nonempty : ds ≠ [])

include digits nonempty

theorem splitSign_digits : splitSign ds = (false, ds) := by
  obtain ⟨d, rest, rfl⟩ := List.exists_cons_of_ne_nil nonempty
  have digit : d.isDigit = true := List.all_eq_true.mp digits d (.head rest)
  have minus : d ≠ '-' := ne_of_class digit (by decide)
  have plus : d ≠ '+' := ne_of_class digit (by decide)
  rw [splitSign.eq_3 _ (fun tail same => minus (List.cons.inj same).1)
    (fun tail same => plus (List.cons.inj same).1)]

/-- Digits spell none of the words that are numbers. -/
theorem digits_not_special :
    ["inf", "infinity", "nan"].contains (String.ofList (ds.map Char.toLower)) = false := by
  obtain ⟨d, rest, rfl⟩ := List.exists_cons_of_ne_nil nonempty
  have digit : d.isDigit = true := List.all_eq_true.mp digits d (.head rest)
  have range := Char.isDigit_iff_toNat.mp digit
  have lower : d.toLower = d := by
    unfold Char.toLower
    refine dif_neg (fun upper => ?_)
    have low := UInt32.le_iff_toNat_le.mp upper.1
    have letter : 'A'.val.toNat = 65 := by decide
    have nine : '9'.toNat = 57 := by decide
    have same : d.val.toNat = d.toNat := rfl
    omega
  rw [List.map_cons, lower, List.contains_eq_mem, decide_eq_false_iff_not]
  intro member
  have first : d = 'i' ∨ d = 'n' := by
    simp only [List.mem_cons, List.not_mem_nil, or_false, ← String.toList_inj,
      String.toList_ofList] at member
    rcases member with same | same | same
    · exact Or.inl (List.cons.inj same).1
    · exact Or.inl (List.cons.inj same).1
    · exact Or.inr (List.cons.inj same).1
  rcases first with rfl | rfl
  · exact absurd digit (by decide)
  · exact absurd digit (by decide)

/-- What `parseF64` makes of digits behind a sign. -/
theorem parseF64_digits {s : String} {negative : Bool}
    (split : splitSign s.toList = (negative, ds)) :
    parseF64 s = some (.number negative (natOfDigits ds) 0) := by
  have whole : ds.takeWhile Char.isDigit = ds :=
    List.takeWhile_eq_self_iff.mpr (List.all_eq_true.mp digits)
  have rest : ds.dropWhile Char.isDigit = [] :=
    List.dropWhile_eq_nil_iff.mpr (List.all_eq_true.mp digits)
  have words := digits_not_special digits nonempty
  simp only [parseF64, split, words, whole, rest]
  simp [nonempty, parseExponent]

end Digits

/-- The texts of whole numbers. -/
def F64Text.whole : F64Text Int where
  parse := fun s =>
    match parseF64 s with
    | some .special => some .nan
    | some (.number negative mantissa 0) =>
      some (.finite (if negative then -(mantissa : Int) else mantissa))
    | _ => none
  display := fun n => String.ofList (i128ToChars n)
  parse_display := fun n => by
    have digits := natToChars_digits n.natAbs
    have nonempty := natToChars_ne n.natAbs
    by_cases negative : n < 0
    · have split : splitSign (String.ofList (i128ToChars n)).toList =
          (true, natToChars n.natAbs) := by
        rw [String.toList_ofList, i128ToChars, if_pos negative]
        rfl
      rw [parseF64_digits digits nonempty split, natOfDigits_natToChars]
      simp only [if_true]
      congr 2
      omega
    · have split : splitSign (String.ofList (i128ToChars n)).toList =
          (false, natToChars n.natAbs) := by
        rw [String.toList_ofList, i128ToChars, if_neg negative, splitSign_digits digits nonempty]
      rw [parseF64_digits digits nonempty split, natOfDigits_natToChars]
      simp only [Bool.false_eq_true, if_false]
      congr 2
      omega

end Rust
