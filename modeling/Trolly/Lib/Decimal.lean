import Mathlib.Algebra.Order.Field.Rat
import Mathlib.Data.Rat.Cast.Order
import Mathlib.Tactic.FieldSimp
import Mathlib.Tactic.Ring

/-! Fixed-point decimals and their plain notation.
A decimal is a mantissa over a power of ten; a numeral is a sign, digits and maybe a point
with more digits. Text and numerals determine each other. -/

/-- The number `mantissa / 10 ^ scale`. -/
@[ext] structure Decimal where
  mantissa : Int
  scale : Nat
  deriving DecidableEq

namespace Decimal

def value (d : Decimal) : ℚ := d.mantissa / 10 ^ d.scale

def zero : Decimal := ⟨0, 0⟩

/-- The mantissa of the same number over `10 ^ scale`, for a scale at least its own. -/
def mantissaAt (d : Decimal) (scale : Nat) : Int := d.mantissa * 10 ^ (scale - d.scale)

def add (d e : Decimal) : Decimal :=
  ⟨d.mantissaAt (max d.scale e.scale) + e.mantissaAt (max d.scale e.scale), max d.scale e.scale⟩

theorem ten_pow_ne (n : Nat) : (10 : ℚ) ^ n ≠ 0 := pow_ne_zero n (by norm_num)

theorem mantissaAt_value (d : Decimal) {scale : Nat} (fine : d.scale ≤ scale) :
    (d.mantissaAt scale : ℚ) / 10 ^ scale = d.value := by
  obtain ⟨extra, rfl⟩ := Nat.exists_eq_add_of_le fine
  have own := ten_pow_ne d.scale
  have more := ten_pow_ne extra
  simp only [mantissaAt, value, Nat.add_sub_cancel_left, pow_add, Int.cast_mul, Int.cast_pow,
    Int.cast_ofNat]
  field_simp

theorem mantissaAt_mantissaAt (d : Decimal) {middle scale : Nat} (fine : d.scale ≤ middle)
    (finer : middle ≤ scale) :
    (⟨d.mantissaAt middle, middle⟩ : Decimal).mantissaAt scale = d.mantissaAt scale := by
  have steps : scale - d.scale = (middle - d.scale) + (scale - middle) := by omega
  simp only [mantissaAt]
  rw [steps, pow_add, mul_assoc]

theorem mantissaAt_add (d e : Decimal) {scale : Nat} (fine : max d.scale e.scale ≤ scale) :
    (d.add e).mantissaAt scale = d.mantissaAt scale + e.mantissaAt scale := by
  have left := d.mantissaAt_mantissaAt (le_max_left d.scale e.scale) fine
  have right := e.mantissaAt_mantissaAt (le_max_right d.scale e.scale) fine
  simp only [mantissaAt, add] at *
  rw [add_mul, left, right]

theorem add_assoc (d e f : Decimal) : (d.add e).add f = d.add (e.add f) := by
  have scale : max (max d.scale e.scale) f.scale = max d.scale (max e.scale f.scale) :=
    max_assoc ..
  refine Decimal.ext ?_ scale
  have left := d.mantissaAt_add e (le_max_left (max d.scale e.scale) f.scale)
  have right := e.mantissaAt_add f (le_max_right d.scale (max e.scale f.scale))
  have outer : (d.add e).scale = max d.scale e.scale := rfl
  have inner : (e.add f).scale = max e.scale f.scale := rfl
  conv_lhs => rw [add]
  conv_rhs => rw [add]
  simp only [outer, inner]
  rw [left, right, scale, Int.add_assoc]

theorem value_add (d e : Decimal) : (d.add e).value = d.value + e.value := by
  have left := d.mantissaAt_value (le_max_left d.scale e.scale)
  have right := e.mantissaAt_value (le_max_right d.scale e.scale)
  rw [← left, ← right, ← add_div]
  simp [value, add]

end Decimal

/-- A decimal as it is written: an optional minus, digits, and optionally a point and digits. -/
@[ext] structure Numeral where
  negative : Bool
  whole : List Char
  frac : Option (List Char)
  whole_digits : whole.all Char.isDigit = true
  whole_ne : whole ≠ []
  frac_digits : (frac.getD []).all Char.isDigit = true

namespace Numeral

def digits (n : Numeral) : List Char := n.whole ++ n.frac.getD []

def magnitude (n : Numeral) : Nat := Nat.ofDigitChars 10 n.digits 0

def decimal (n : Numeral) : Decimal :=
  ⟨if n.negative then -(n.magnitude : Int) else n.magnitude, (n.frac.getD []).length⟩

def unsignedText (n : Numeral) : List Char := n.whole ++ n.frac.elim [] (List.cons '.')

def text (n : Numeral) : List Char := if n.negative then '-' :: n.unsignedText else n.unsignedText

def ofUnsigned (negative : Bool) (cs : List Char) : Option Numeral :=
  if nonempty : cs.takeWhile Char.isDigit ≠ [] then
    match cs.dropWhile Char.isDigit with
    | [] => some ⟨negative, cs.takeWhile Char.isDigit, none, by simp, nonempty, rfl⟩
    | c :: frac =>
      if digits : c = '.' ∧ frac.all Char.isDigit = true then
        some ⟨negative, cs.takeWhile Char.isDigit, some frac, by simp, nonempty, digits.2⟩
      else none
  else none

def ofText : List Char → Option Numeral
  | '-' :: rest => ofUnsigned true rest
  | cs => ofUnsigned false cs

theorem unsignedText_split (n : Numeral) :
    n.unsignedText.takeWhile Char.isDigit = n.whole ∧
      n.unsignedText.dropWhile Char.isDigit = n.frac.elim [] (List.cons '.') := by
  have whole : ∀ c ∈ n.whole, c.isDigit = true := List.all_eq_true.mp n.whole_digits
  unfold unsignedText
  rw [List.takeWhile_append_of_pos whole, List.dropWhile_append_of_pos whole]
  cases n.frac with
  | none => simp
  | some frac =>
    have point : Char.isDigit '.' = false := by decide
    simp [point]

theorem ofUnsigned_text (n : Numeral) : ofUnsigned n.negative n.unsignedText = some n := by
  obtain ⟨taken, dropped⟩ := n.unsignedText_split
  have nonempty := n.whole_ne
  have digits := n.frac_digits
  unfold ofUnsigned
  simp only [taken, dropped, ne_eq, nonempty, not_false_eq_true, dite_true]
  cases shape : n.frac with
  | none =>
    simp only [Option.elim_none, Option.some.injEq]
    exact Numeral.ext rfl rfl shape.symm
  | some frac =>
    rw [shape, Option.getD_some] at digits
    simp only [Option.elim_some, digits, and_self, dite_true, Option.some.injEq]
    exact Numeral.ext rfl rfl shape.symm

theorem whole_head (n : Numeral) : ∃ c rest, n.whole = c :: rest ∧ c.isDigit = true := by
  cases shape : n.whole with
  | nil => exact absurd shape n.whole_ne
  | cons c rest =>
    have all := n.whole_digits
    rw [shape, List.all_cons, Bool.and_eq_true] at all
    exact ⟨c, rest, rfl, all.1⟩

theorem ofText_text (n : Numeral) : ofText n.text = some n := by
  have read := n.ofUnsigned_text
  cases sign : n.negative with
  | true =>
    rw [sign] at read
    simpa [text, sign, ofText] using read
  | false =>
    obtain ⟨c, rest, shape, digit⟩ := n.whole_head
    have notMinus : c ≠ '-' := by
      rintro rfl
      exact absurd digit (by decide)
    rw [sign] at read
    simp only [text, sign, Bool.false_eq_true, if_false]
    have front : n.unsignedText = c :: (rest ++ n.frac.elim [] (List.cons '.')) := by
      simp [unsignedText, shape]
    rw [front] at read ⊢
    unfold ofText
    split
    · rename_i other same
      exact absurd (List.cons.inj same).1 notMinus
    · exact read

theorem unsignedText_ofUnsigned {negative : Bool} {cs : List Char} {n : Numeral}
    (read : ofUnsigned negative cs = some n) : n.negative = negative ∧ n.unsignedText = cs := by
  have split := List.takeWhile_append_dropWhile (p := Char.isDigit) (l := cs)
  unfold ofUnsigned at read
  split at read
  · split at read
    · rename_i stop
      cases read
      rw [stop, List.append_nil] at split
      simpa [unsignedText] using split
    · rename_i c frac stop
      split at read
      · rename_i point
        cases read
        rw [stop, point.1] at split
        simpa [unsignedText] using split
      · cases read
  · cases read

theorem text_ofText {cs : List Char} {n : Numeral} (read : ofText cs = some n) : n.text = cs := by
  unfold ofText at read
  split at read
  · obtain ⟨sign, same⟩ := unsignedText_ofUnsigned read
    simp [text, sign, same]
  · obtain ⟨sign, same⟩ := unsignedText_ofUnsigned read
    simp [text, sign, same]

/-! A decimal has one numeral that is written without waste. -/

/-- No zero before another digit, no point without digits behind it, no minus before zero. -/
structure Canonical (n : Numeral) : Prop where
  lead : ∀ rest, n.whole = '0' :: rest → rest = []
  point : n.frac ≠ some []
  sign : n.negative = true → n.magnitude ≠ 0

theorem digit_lt {c : Char} (digit : c.isDigit = true) : c.toNat - '0'.toNat < 10 := by
  have range := Char.isDigit_iff_toNat.mp digit
  have ends : '0'.toNat = 48 ∧ '9'.toNat = 57 := by decide
  omega

theorem digit_injective {c d : Char} (left : c.isDigit = true) (right : d.isDigit = true)
    (same : c.toNat - '0'.toNat = d.toNat - '0'.toNat) : c = d := by
  have lower := Char.isDigit_iff_toNat.mp left
  have upper := Char.isDigit_iff_toNat.mp right
  have zero : '0'.toNat = 48 := by decide
  exact Char.toNat_inj.mp (by omega)

theorem ofDigitChars_step (c : Char) (cs : List Char) : Nat.ofDigitChars 10 (c :: cs) 0 =
    10 ^ cs.length * (c.toNat - '0'.toNat) + Nat.ofDigitChars 10 cs 0 := by
  rw [Nat.ofDigitChars_cons, Nat.ofDigitChars_eq_ofDigitChars_zero, Nat.mul_zero, Nat.zero_add]

theorem ofDigitChars_lt {cs : List Char} (digits : cs.all Char.isDigit = true) :
    Nat.ofDigitChars 10 cs 0 < 10 ^ cs.length := by
  induction cs with
  | nil => simp
  | cons c rest ih =>
    rw [List.all_cons, Bool.and_eq_true] at digits
    have lead := digit_lt digits.1
    have tail := ih digits.2
    rw [ofDigitChars_step, List.length_cons, pow_succ]
    calc 10 ^ rest.length * (c.toNat - '0'.toNat) + Nat.ofDigitChars 10 rest 0
        < 10 ^ rest.length * (c.toNat - '0'.toNat) + 10 ^ rest.length := by omega
      _ = 10 ^ rest.length * (c.toNat - '0'.toNat + 1) := by ring
      _ ≤ 10 ^ rest.length * 10 := Nat.mul_le_mul_left _ lead

/-- As many digits of the same value are the same digits. -/
theorem ofDigitChars_injective {cs ds : List Char} (left : cs.all Char.isDigit = true)
    (right : ds.all Char.isDigit = true) (length : cs.length = ds.length)
    (same : Nat.ofDigitChars 10 cs 0 = Nat.ofDigitChars 10 ds 0) : cs = ds := by
  induction cs generalizing ds with
  | nil => exact (List.length_eq_zero_iff.mp length.symm).symm
  | cons c rest ih =>
    obtain ⟨d, tail, rfl⟩ := List.exists_cons_of_length_eq_add_one length.symm
    rw [List.all_cons, Bool.and_eq_true] at left right
    have lengths : rest.length = tail.length := Nat.succ.inj length
    have below := ofDigitChars_lt left.2
    have above := ofDigitChars_lt right.2
    rw [ofDigitChars_step, ofDigitChars_step, lengths] at same
    rw [lengths] at below
    have positive : 0 < 10 ^ tail.length := Nat.pow_pos (by decide)
    have heads := congrArg (· / 10 ^ tail.length) same
    have tails := congrArg (· % 10 ^ tail.length) same
    simp only [Nat.mul_add_div positive, Nat.div_eq_of_lt below, Nat.div_eq_of_lt above,
      Nat.add_zero] at heads
    simp only [Nat.mul_add_mod, Nat.mod_eq_of_lt below, Nat.mod_eq_of_lt above] at tails
    rw [digit_injective left.1 right.1 heads, ih left.2 right.2 lengths tails]

/-- Without zeros in front, fewer digits have a smaller value. -/
theorem ofDigitChars_lead {cs : List Char} (digits : cs.all Char.isDigit = true)
    (lead : ∀ rest, cs = '0' :: rest → rest = []) (long : 2 ≤ cs.length) :
    10 ^ (cs.length - 1) ≤ Nat.ofDigitChars 10 cs 0 := by
  cases cs with
  | nil => cases long
  | cons c rest =>
    have notZero : c ≠ '0' := by
      rintro rfl
      rw [lead rest rfl] at long
      exact absurd long (by decide)
    rw [List.all_cons, Bool.and_eq_true] at digits
    have zero : '0'.toNat = 48 := by decide
    have range := Char.isDigit_iff_toNat.mp digits.1
    have positive : 1 ≤ c.toNat - '0'.toNat := by
      by_contra none
      exact notZero (digit_injective digits.1 (by decide) (by omega))
    rw [ofDigitChars_step, List.length_cons, Nat.add_sub_cancel]
    exact Nat.le_add_right_of_le (Nat.le_mul_of_pos_right _ positive)

theorem length_le_of_value {cs ds : List Char} (left : cs.all Char.isDigit = true)
    (right : ds.all Char.isDigit = true) (lead : ∀ rest, ds = '0' :: rest → rest = [])
    (nonempty : cs ≠ []) (same : Nat.ofDigitChars 10 cs 0 = Nat.ofDigitChars 10 ds 0) :
    ds.length ≤ cs.length := by
  have some := List.length_pos_iff.mpr nonempty
  by_contra longer
  have below := ofDigitChars_lt left
  have above := ofDigitChars_lead right lead (by omega)
  have steps : 10 ^ cs.length ≤ 10 ^ (ds.length - 1) := Nat.pow_le_pow_right (by decide) (by omega)
  omega

theorem magnitude_eq (n : Numeral) : n.magnitude =
    10 ^ (n.frac.getD []).length * Nat.ofDigitChars 10 n.whole 0 +
      Nat.ofDigitChars 10 (n.frac.getD []) 0 := by
  rw [magnitude, digits, Nat.ofDigitChars_append, Nat.ofDigitChars_eq_ofDigitChars_zero]

theorem Canonical.negative_iff {n : Numeral} (canonical : n.Canonical) :
    n.negative = true ↔ n.decimal.mantissa < 0 := by
  have sign := canonical.sign
  cases negative : n.negative with
  | true => simp [decimal, negative, Nat.pos_of_ne_zero (sign negative)]
  | false => simp [decimal, negative]

theorem natAbs_decimal (n : Numeral) : n.decimal.mantissa.natAbs = n.magnitude := by
  cases negative : n.negative <;> simp [decimal, negative]

theorem Canonical.unique {n m : Numeral} (left : n.Canonical) (right : m.Canonical)
    (same : n.decimal = m.decimal) : n = m := by
  have signs : n.negative = m.negative := by
    rw [Bool.eq_iff_iff, left.negative_iff, right.negative_iff, same]
  have lengths : (n.frac.getD []).length = (m.frac.getD []).length := congrArg Decimal.scale same
  have values : n.magnitude = m.magnitude := by
    rw [← natAbs_decimal, ← natAbs_decimal, same]
  have below := ofDigitChars_lt n.frac_digits
  have above := ofDigitChars_lt m.frac_digits
  rw [magnitude_eq, magnitude_eq, lengths] at values
  rw [lengths] at below
  have positive : 0 < 10 ^ (m.frac.getD []).length := Nat.pow_pos (by decide)
  have wholes := congrArg (· / 10 ^ (m.frac.getD []).length) values
  have fracs := congrArg (· % 10 ^ (m.frac.getD []).length) values
  simp only [Nat.mul_add_div positive, Nat.div_eq_of_lt below, Nat.div_eq_of_lt above,
    Nat.add_zero] at wholes
  simp only [Nat.mul_add_mod, Nat.mod_eq_of_lt below, Nat.mod_eq_of_lt above] at fracs
  have whole : n.whole = m.whole := by
    refine ofDigitChars_injective n.whole_digits m.whole_digits (Nat.le_antisymm ?_ ?_) wholes
    · exact length_le_of_value m.whole_digits n.whole_digits left.lead m.whole_ne wholes.symm
    · exact length_le_of_value n.whole_digits m.whole_digits right.lead n.whole_ne wholes
  have frac : n.frac.getD [] = m.frac.getD [] :=
    ofDigitChars_injective n.frac_digits m.frac_digits lengths fracs
  have points : n.frac = m.frac := by
    have own := left.point
    have other := right.point
    cases shape : n.frac with
    | none =>
      rw [shape] at frac
      cases shape' : m.frac with
      | none => rfl
      | some digits =>
        rw [shape'] at frac other
        exact absurd (congrArg some frac.symm) other
    | some digits =>
      rw [shape] at frac own
      cases shape' : m.frac with
      | none =>
        rw [shape'] at frac
        exact absurd (congrArg some frac) own
      | some others =>
        rw [shape'] at frac
        exact congrArg some frac
  exact Numeral.ext signs whole points

end Numeral
