import Trolly.Lib.Decimal
import Trolly.Spot.Account

/-! What `add_decimal_strings` computes. On two decimals whose scaled mantissas and sum
are `i128` values it is exact, unless a mantissa is the least `i128`: the digits are parsed
before the sign is put back, and the magnitude of the least value does not parse. -/
namespace Trolly.Spot

/-- The decimal a string spells: an optional minus, digits, and optionally a point and digits. -/
def decimalOf (s : String) : Option Decimal := (Numeral.ofText s.toList).map Numeral.decimal

/-- The decimal a string spells, when also a plus may stand before it and a point at either end. -/
def amountOf (s : String) : Option Decimal :=
  let (negative, body) := Rust.splitSign s.toList
  let (whole, frac) := (Rust.splitOnce '.' body).getD (body, [])
  let magnitude := Rust.natOfDigits (whole ++ frac)
  if (whole ++ frac).all Char.isDigit = true ∧ whole ++ frac ≠ [] then
    some ⟨if negative then -(magnitude : Int) else magnitude, frac.length⟩
  else none

/-! Digits. -/

theorem utf8Size_of_isDigit {c : Char} (digit : c.isDigit = true) : c.utf8Size = 1 := by
  have range := Char.isDigit_iff_toNat.mp digit
  exact Char.utf8Size_eq_one_iff.mpr (UInt32.le_iff_toNat_le.mpr (le_trans range.2 (by decide)))

section Digits

variable {cs : List Char} (digits : cs.all Char.isDigit = true)
include digits

theorem utf8Len_digits : Rust.utf8Len cs = cs.length := by
  induction cs with
  | nil => rfl
  | cons c rest ih =>
    rw [List.all_cons, Bool.and_eq_true] at digits
    have tail := ih digits.2
    simp only [Rust.utf8Len, List.map_cons, List.sum_cons] at tail ⊢
    rw [tail, utf8Size_of_isDigit digits.1, List.length_cons, Nat.add_comm]

theorem takeBytes_digits (n : Nat) (within : n ≤ cs.length) :
    Rust.takeBytes n cs = some (cs.take n) := by
  induction cs generalizing n with
  | nil => cases n <;> simp_all [Rust.takeBytes]
  | cons c rest ih =>
    rw [List.all_cons, Bool.and_eq_true] at digits
    cases n with
    | zero => rfl
    | succ n =>
      have tail := ih digits.2 n (by simpa using within)
      simp [Rust.takeBytes, utf8Size_of_isDigit digits.1, tail]

theorem not_mem_of_digits {sep : Char} (other : sep.isDigit = false) : sep ∉ cs := by
  intro member
  rw [List.all_eq_true.mp digits sep member] at other
  cases other

end Digits

theorem zeros_digits (n : Nat) : (List.replicate n '0').all Char.isDigit = true := by
  rw [List.all_eq_true]
  intro c member
  rw [List.eq_of_mem_replicate member]
  rfl

theorem natOfDigits_zeros (cs : List Char) (n : Nat) :
    Rust.natOfDigits (cs ++ List.replicate n '0') = Rust.natOfDigits cs * 10 ^ n := by
  rw [Rust.natOfDigits, Nat.ofDigitChars_append, Nat.ofDigitChars_replicate_zero, Nat.mul_comm]
  rfl

theorem parseI128_digits {cs : List Char} (digits : cs.all Char.isDigit = true)
    (nonempty : cs ≠ []) : Rust.parseI128 cs = Rust.checkedI128 (Rust.natOfDigits cs) := by
  have sign : Rust.splitSign cs = (false, cs) := by
    cases cs with
    | nil => rfl
    | cons c rest =>
      rw [List.all_cons, Bool.and_eq_true] at digits
      unfold Rust.splitSign
      split
      · rename_i same
        rw [(List.cons.inj same).1] at digits
        exact absurd digits.1 (by decide)
      · rename_i same
        rw [(List.cons.inj same).1] at digits
        exact absurd digits.1 (by decide)
      · rfl
  simp [Rust.parseI128, sign, digits, nonempty]

theorem checkedI128_range {m n : Int} (checked : Rust.checkedI128 m = some n) :
    n = m ∧ Rust.I128_MIN ≤ n ∧ n ≤ Rust.I128_MAX := by
  unfold Rust.checkedI128 at checked
  split at checked
  · rename_i inside
    cases checked
    exact ⟨rfl, inside⟩
  · cases checked

theorem checkedI128_isSome (n : Int) :
    (Rust.checkedI128 n).isSome = true ↔ Rust.I128_MIN ≤ n ∧ n ≤ Rust.I128_MAX := by
  unfold Rust.checkedI128
  split <;> simp_all

/-- What is left of a mantissa once its digits were parsed without their sign. -/
def parsedMantissa (m : Int) : Int := if (m.natAbs : Int) ≤ Rust.I128_MAX then m else 0

theorem parsedMantissa_eq {m : Int} (fits : Rust.I128_MIN ≤ m ∧ m ≤ Rust.I128_MAX) :
    parsedMantissa m = if m = Rust.I128_MIN then 0 else m := by
  unfold parsedMantissa Rust.I128_MIN Rust.I128_MAX at *
  split <;> split <;> omega

theorem parsedMantissa_inside (m : Int) :
    Rust.I128_MIN ≤ parsedMantissa m ∧ parsedMantissa m ≤ Rust.I128_MAX := by
  unfold parsedMantissa Rust.I128_MIN Rust.I128_MAX
  split <;> omega

/-- Parsing the digits of a magnitude and putting the sign back. -/
theorem signed_parse (negative : Bool) (m : Nat) :
    (if negative then -((Rust.checkedI128 m).getD 0) else (Rust.checkedI128 m).getD 0) =
      parsedMantissa (if negative then -(m : Int) else m) := by
  have lower : Rust.I128_MIN ≤ (m : Int) := le_trans (by decide) (Int.natCast_nonneg m)
  by_cases fits : (m : Int) ≤ Rust.I128_MAX
  · cases negative <;> simp [parsedMantissa, Rust.checkedI128, lower, fits]
  · cases negative <;> simp [parsedMantissa, Rust.checkedI128, fits]

/-! Reading an amount. -/

theorem splitOn_head (sep : Char) (cs : List Char) :
    (cs.splitOn sep)[0]? = some (cs.takeWhile (· ≠ sep)) := by
  induction cs with
  | nil => rfl
  | cons c rest ih =>
    rw [List.splitOn_cons_eq_if_modifyHead]
    by_cases here : c = sep
    · simp [here]
    · simp [here, List.getElem?_modifyHead, ih]

/-- The scale is the number of bytes between the first point and the next. -/
theorem decimalScale_eq (cs : List Char) : decimalScale cs =
    (Rust.splitOnce '.' cs).elim 0 (fun parts => Rust.utf8Len (parts.2.takeWhile (· ≠ '.'))) := by
  have spec := Rust.splitOnce_spec '.' cs
  cases found : Rust.splitOnce '.' cs with
  | none =>
    rw [found] at spec
    have single : cs.splitOn '.' = [cs] := List.splitOn_eq_singleton spec
    simp [decimalScale, single]
  | some parts =>
    rw [found] at spec
    obtain ⟨shape, absent⟩ := spec
    rw [decimalScale, shape, List.splitOn_append_cons_self_of_not_mem absent,
      List.getElem?_cons_succ, splitOn_head]
    rfl

/-- A sign moves no point. -/
theorem splitOnce_cons {sep c : Char} (other : c ≠ sep) (cs : List Char) :
    (Rust.splitOnce sep (c :: cs)).getD (c :: cs, []) =
      (c :: ((Rust.splitOnce sep cs).getD (cs, [])).1,
        ((Rust.splitOnce sep cs).getD (cs, [])).2) := by
  rw [Rust.splitOnce, if_neg other]
  cases Rust.splitOnce sep cs <;> rfl

theorem decimalScale_cons {c : Char} (other : c ≠ '.') (cs : List Char) :
    decimalScale (c :: cs) = decimalScale cs := by
  rw [decimalScale_eq, decimalScale_eq, Rust.splitOnce, if_neg other]
  cases Rust.splitOnce '.' cs <;> rfl

theorem splitOnce_getD {sep : Char} {cs whole frac : List Char}
    (parts : (Rust.splitOnce sep cs).getD (cs, []) = (whole, frac)) :
    Rust.splitOnce sep cs = none ∧ cs = whole ∧ frac = [] ∨
      Rust.splitOnce sep cs = some (whole, frac) ∧ cs = whole ++ sep :: frac := by
  have spec := Rust.splitOnce_spec sep cs
  cases found : Rust.splitOnce sep cs with
  | none =>
    rw [found] at parts
    cases parts
    exact .inl ⟨rfl, rfl, rfl⟩
  | some halves =>
    rw [found] at parts spec
    cases parts
    exact .inr ⟨rfl, spec.1⟩

/-- A text that splits into digits has them on both sides of its first point, if any. -/
theorem split_digits {cs whole frac : List Char}
    (parts : (Rust.splitOnce '.' cs).getD (cs, []) = (whole, frac))
    (digits : (whole ++ frac).all Char.isDigit = true) :
    decimalScale cs = frac.length ∧ cs.dropWhile (· == '-') = cs := by
  rw [List.all_append, Bool.and_eq_true] at digits
  have signless : ∀ rest, whole.dropWhile (· == '-') = whole ∧
      (whole ++ '.' :: rest).dropWhile (· == '-') = whole ++ '.' :: rest := by
    intro rest
    cases whole with
    | nil => exact ⟨rfl, List.dropWhile_cons_of_neg (by decide)⟩
    | cons c tail =>
      have digit : c ≠ '-' := Rust.ne_of_class (List.all_eq_true.mp digits.1 c (.head tail)) rfl
      exact ⟨List.dropWhile_cons_of_neg (by simpa using digit),
        List.dropWhile_cons_of_neg (by simpa using digit)⟩
  rcases splitOnce_getD parts with ⟨unsplit, rfl, rfl⟩ | ⟨split, rfl⟩
  · exact ⟨by rw [decimalScale_eq, unsplit]; rfl, (signless []).1⟩
  · have pointless : ∀ c ∈ frac, decide (c ≠ '.') = true := fun c member =>
      decide_eq_true (Rust.ne_of_class (List.all_eq_true.mp digits.2 c member) rfl)
    refine ⟨?_, (signless frac).2⟩
    rw [decimalScale_eq, split, Option.elim_some, List.takeWhile_eq_self_iff.mpr pointless,
      utf8Len_digits digits.2]

/-- What both signs leave: a minus is remembered, a plus stays in front of the digits. -/
theorem splitSign_split {cs body whole frac : List Char} {negative : Bool}
    (read : Rust.splitSign cs = (negative, body))
    (parts : (Rust.splitOnce '.' body).getD (body, []) = (whole, frac))
    (digits : (whole ++ frac).all Char.isDigit = true) :
    (cs.head? == some '-') = negative ∧ decimalScale cs = frac.length ∧
      ∃ plus, (plus = [] ∨ plus = ['+']) ∧
        (Rust.splitOnce '.' (cs.dropWhile (· == '-'))).getD (cs.dropWhile (· == '-'), []) =
          (plus ++ whole, frac) := by
  obtain ⟨scale, unsigned⟩ := split_digits parts digits
  unfold Rust.splitSign at read
  split at read <;> cases read
  · refine ⟨by simp, (decimalScale_cons (by decide) body).trans scale, [], .inl rfl, ?_⟩
    rw [List.dropWhile_cons_of_pos (by simp), unsigned]
    exact parts
  · refine ⟨by simp, (decimalScale_cons (by decide) body).trans scale, ['+'], .inr rfl, ?_⟩
    rw [List.dropWhile_cons_of_neg (by simp), splitOnce_cons (by decide), parts]
    rfl
  · rename_i positive _
    refine ⟨?_, scale, [], .inl rfl, by rw [unsigned]; exact parts⟩
    cases cs with
    | nil => rfl
    | cons c rest =>
      refine beq_eq_false_iff_ne.mpr (fun minus => positive rest ?_)
      rw [Option.some.inj minus]

theorem parseI128_signed {plus cs : List Char} (sign : plus = [] ∨ plus = ['+'])
    (digits : cs.all Char.isDigit = true) (nonempty : cs ≠ []) :
    Rust.parseI128 (plus ++ cs) = Rust.checkedI128 (Rust.natOfDigits cs) := by
  rcases sign with rfl | rfl
  · exact parseI128_digits digits nonempty
  · simp [Rust.parseI128, Rust.splitSign, digits, nonempty]

theorem splitOnce_unsignedText (n : Numeral) :
    (Rust.splitOnce '.' n.unsignedText).getD (n.unsignedText, []) = (n.whole, n.frac.getD []) := by
  have pointless : '.' ∉ n.whole := not_mem_of_digits n.whole_digits rfl
  unfold Numeral.unsignedText
  cases n.frac with
  | none => simp [Rust.splitOnce_none pointless]
  | some frac => simp [Rust.splitOnce_append pointless]

theorem splitSign_text (n : Numeral) : Rust.splitSign n.text = (n.negative, n.unsignedText) := by
  obtain ⟨c, rest, shape, digit⟩ := n.whole_head
  have notMinus : c ≠ '-' := Rust.ne_of_class digit (by decide)
  have notPlus : c ≠ '+' := Rust.ne_of_class digit (by decide)
  cases sign : n.negative with
  | true => simp [Numeral.text, sign, Rust.splitSign]
  | false =>
    simp [Numeral.text, sign, Numeral.unsignedText, shape, Rust.splitSign, notMinus, notPlus]

theorem amountOf_decimalOf {s : String} {d : Decimal} (read : decimalOf s = some d) :
    amountOf s = some d := by
  obtain ⟨n, numeral, rfl⟩ := Option.map_eq_some_iff.mp read
  have digits : (n.whole ++ n.frac.getD []).all Char.isDigit = true := by
    rw [List.all_append, n.whole_digits, n.frac_digits]
    rfl
  have nonempty : n.whole ++ n.frac.getD [] ≠ [] :=
    List.append_ne_nil_of_left_ne_nil n.whole_ne _
  simp only [amountOf, ← Numeral.text_ofText numeral, splitSign_text, splitOnce_unsignedText]
  exact if_pos ⟨digits, nonempty⟩

/-- Digits that are padded to a scale are not cut. -/
theorem takeBytes_padded {frac : List Char} (digits : frac.all Char.isDigit = true) {scale : Nat}
    (short : frac.length ≤ scale) :
    let padded := frac ++ List.replicate (scale - frac.length) '0'
    Rust.takeBytes (min scale (Rust.utf8Len padded)) padded = some padded := by
  intro padded
  have all : padded.all Char.isDigit = true := by
    rw [List.all_append, digits, zeros_digits, Bool.and_self]
  have length : padded.length = scale := by
    rw [List.length_append, List.length_replicate]
    exact Nat.add_sub_cancel' short
  rw [utf8Len_digits all, length, min_self, takeBytes_digits all scale length.ge, ← length,
    List.take_length]

theorem mantissaAt_signed (negative : Bool) (m own scale : Nat) :
    Decimal.mantissaAt ⟨if negative then -(m : Int) else m, own⟩ scale =
      if negative then -((m * 10 ^ (scale - own) : Nat) : Int)
      else (m * 10 ^ (scale - own) : Nat) := by
  rw [Decimal.mantissaAt]
  cases negative <;> push_cast <;> simp

/-! Writing a scaled sum. -/

/-- A numeral with the sign of `value` whose digits spell its magnitude. -/
theorem decimal_of_spelled {value : Int} {n : Numeral} (sign : n.negative = decide (value < 0))
    (spelled : Rust.natOfDigits n.digits = value.natAbs) :
    n.decimal = ⟨value, (n.frac.getD []).length⟩ := by
  have magnitude : n.magnitude = value.natAbs := spelled
  rw [Numeral.decimal, sign, magnitude]
  by_cases negative : value < 0
  · simp only [negative, decide_true, if_true, Decimal.mk.injEq, and_true]
    omega
  · simp only [negative, decide_false, Bool.false_eq_true, if_false, Decimal.mk.injEq, and_true]
    omega

theorem sign_of_spelled {value : Int} {n : Numeral} (sign : n.negative = decide (value < 0))
    (spelled : Rust.natOfDigits n.digits = value.natAbs) (negative : n.negative = true) :
    n.magnitude ≠ 0 := by
  have magnitude : n.magnitude = value.natAbs := spelled
  rw [sign, decide_eq_true_eq] at negative
  omega

/-- A number is printed without a zero before another digit. -/
theorem natToChars_lead (n : Nat) (rest : List Char) (zero : Rust.natToChars n = '0' :: rest) :
    rest = [] := by
  by_contra more
  have spelled := Rust.natOfDigits_natToChars n
  have digits := Rust.natToChars_digits n
  rw [zero] at spelled digits
  rw [List.all_cons, Bool.and_eq_true] at digits
  have value : Rust.natOfDigits rest = n := by
    rw [← spelled, Rust.natOfDigits, Rust.natOfDigits, Numeral.ofDigitChars_step]
    simp
  have small : n < 10 ^ rest.length := value ▸ Numeral.ofDigitChars_lt digits.2
  have short := (Nat.length_toDigits_le_iff (by decide) (List.length_pos_iff.mpr more)).mpr small
  have length := congrArg List.length zero
  rw [List.length_cons] at length
  unfold Rust.natToChars at length
  omega

/-- A sign and two halves that spell a magnitude are a canonical numeral. -/
theorem numeral_of_halves (value : Int) (whole frac : List Char)
    (digits : (whole ++ frac).all Char.isDigit = true) (nonempty : whole ≠ []) (behind : frac ≠ [])
    (spelled : Rust.natOfDigits (whole ++ frac) = value.natAbs)
    (lead : ∀ rest, whole = '0' :: rest → rest = []) :
    ∃ n : Numeral, n.text = (if value < 0 then '-' :: (whole ++ '.' :: frac)
        else whole ++ '.' :: frac) ∧ n.decimal = ⟨value, frac.length⟩ ∧ n.Canonical := by
  rw [List.all_append, Bool.and_eq_true] at digits
  let n : Numeral := ⟨value < 0, whole, some frac, digits.1, nonempty, digits.2⟩
  refine ⟨n, ?_, decimal_of_spelled (n := n) rfl spelled, lead, ?_,
    sign_of_spelled (n := n) rfl spelled⟩
  · simp [n, Numeral.text, Numeral.unsignedText]
  · exact fun point => behind (Option.some.inj point)

/-- What is written is the canonical numeral for the same mantissa over the same scale. -/
theorem formatScaled_numeral (value : Int) {scale : Nat} (narrow : scale ≤ Rust.WIDTH_MAX) :
    ∃ n : Numeral, formatScaled value scale = some n.text ∧ n.decimal = ⟨value, scale⟩ ∧
      n.Canonical := by
  let digits := Rust.natToChars value.natAbs
  have allDigits : digits.all Char.isDigit = true := Rust.natToChars_digits _
  have spelled : Rust.natOfDigits digits = value.natAbs := Rust.natOfDigits_natToChars _
  by_cases unscaled : scale = 0
  · subst unscaled
    let n : Numeral := ⟨value < 0, digits, none, allDigits, Rust.natToChars_ne _, rfl⟩
    have all : Rust.natOfDigits n.digits = value.natAbs := by
      simpa [n, Numeral.digits] using spelled
    refine ⟨n, ?_, decimal_of_spelled (n := n) rfl all, natToChars_lead _, by simp [n],
      sign_of_spelled (n := n) rfl all⟩
    simp [n, Numeral.text, Numeral.unsignedText, formatScaled, Rust.i128ToChars, digits]
  by_cases short : digits.length ≤ scale
  · let padded := List.replicate (scale - digits.length) '0' ++ digits
    have length : padded.length = scale := by
      rw [List.length_append, List.length_replicate, Nat.sub_add_cancel short]
    have all : Rust.natOfDigits (['0'] ++ padded) = value.natAbs := by
      rw [← spelled]
      simp [padded, Rust.natOfDigits, Nat.ofDigitChars_cons, Nat.ofDigitChars_append,
        Nat.ofDigitChars_replicate_zero]
    obtain ⟨n, text, decimal, canonical⟩ := numeral_of_halves value ['0'] padded
      (by simp [padded, allDigits]) (by simp) (List.ne_nil_of_length_pos (by omega)) all (by simp)
    refine ⟨n, ?_, length ▸ decimal, canonical⟩
    simp only [formatScaled, if_neg unscaled, digits, if_pos short, Rust.padLeft, if_pos narrow,
      Option.map_some, Option.bind_eq_bind, Option.bind_some, text]
    rfl
  · let cut := digits.length - scale
    have halves : digits.take cut ++ digits.drop cut = digits := List.take_append_drop cut digits
    have length : (digits.drop cut).length = scale := by
      simp only [cut, List.length_drop]
      omega
    have lead : ∀ rest, digits.take cut = '0' :: rest → rest = [] := by
      intro rest zero
      rw [zero, List.cons_append] at halves
      exact (List.append_eq_nil_iff.mp (natToChars_lead _ _ halves.symm)).1
    obtain ⟨n, text, decimal, canonical⟩ := numeral_of_halves value (digits.take cut)
      (digits.drop cut) (halves.symm ▸ allDigits)
      (List.ne_nil_of_length_pos (by simp only [cut, List.length_take]; omega))
      (List.ne_nil_of_length_pos (by omega)) (halves.symm ▸ spelled) lead
    refine ⟨n, ?_, length ▸ decimal, canonical⟩
    simp only [formatScaled, if_neg unscaled, digits, if_neg short, Option.bind_eq_bind,
      Option.bind_some, text]
    rfl

/-- Both mantissas over the larger scale, and their sum, are `i128` values. -/
def InRange (l r : Decimal) : Prop :=
  let scale := max l.scale r.scale
  (Rust.checkedI128 (l.mantissaAt scale)).isSome ∧ (Rust.checkedI128 (r.mantissaAt scale)).isSome ∧
    (Rust.checkedI128 (l.mantissaAt scale + r.mantissaAt scale)).isSome

/-- Moreover `format!` can pad to that scale. -/
def Fits (l r : Decimal) : Prop := InRange l r ∧ max l.scale r.scale ≤ Rust.WIDTH_MAX

/-- Neither mantissa over the larger scale is the least `i128`. -/
def Representable (l r : Decimal) : Prop :=
  l.mantissaAt (max l.scale r.scale) ≠ Rust.I128_MIN ∧
    r.mantissaAt (max l.scale r.scale) ≠ Rust.I128_MIN

instance (l r : Decimal) : Decidable (InRange l r) := inferInstanceAs (Decidable (_ ∧ _ ∧ _))

instance (l r : Decimal) : Decidable (Fits l r) := inferInstanceAs (Decidable (_ ∧ _))

instance (l r : Decimal) : Decidable (Representable l r) := inferInstanceAs (Decidable (_ ∧ _))

/-! The sum. -/

section Sum

variable [Rust.Build]

theorem i128Result_inside {n : Int} (inside : Rust.I128_MIN ≤ n ∧ n ≤ Rust.I128_MAX) :
    Rust.i128Result n = some n := by
  rw [Rust.i128Result, Rust.checkedI128, if_pos inside, Option.some_or]

theorem toScaledI128_amountOf {s : String} {d : Decimal} (read : amountOf s = some d) :
    decimalScale s.toList = d.scale ∧ ∀ scale, d.scale ≤ scale → scale ≤ Rust.WIDTH_MAX →
      toScaledI128 s.toList scale = some (parsedMantissa (d.mantissaAt scale)) := by
  unfold amountOf at read
  rcases sign : Rust.splitSign s.toList with ⟨negative, body⟩
  rcases parts : (Rust.splitOnce '.' body).getD (body, []) with ⟨whole, frac⟩
  simp only [sign, parts] at read
  split at read
  · rename_i proper
    obtain ⟨digits, nonempty⟩ := proper
    obtain ⟨head, fine, plus, plain, normalized⟩ := splitSign_split sign parts digits
    cases read
    refine ⟨fine, fun scale short narrow => ?_⟩
    let zeros := List.replicate (scale - frac.length) '0'
    have fracDigits : frac.all Char.isDigit = true := by
      rw [List.all_append, Bool.and_eq_true] at digits
      exact digits.2
    have parsed : Rust.parseI128 (plus ++ whole ++ (frac ++ zeros)) =
        Rust.checkedI128 (Rust.natOfDigits (whole ++ frac) * 10 ^ (scale - frac.length) : Nat) := by
      rw [List.append_assoc, parseI128_signed plain, ← List.append_assoc, natOfDigits_zeros]
      · rw [← List.append_assoc, List.all_append, digits, zeros_digits, Bool.and_self]
      · rw [← List.append_assoc]
        exact List.append_ne_nil_of_left_ne_nil nonempty _
    have inside := parsedMantissa_inside (if negative then
      -((Rust.natOfDigits (whole ++ frac) * 10 ^ (scale - frac.length) : Nat) : Int)
      else (Rust.natOfDigits (whole ++ frac) * 10 ^ (scale - frac.length) : Nat))
    rw [mantissaAt_signed, ← signed_parse]
    rw [← signed_parse] at inside
    simp only [toScaledI128, head, normalized, Rust.padRight, if_pos narrow, Option.bind_eq_bind,
      Option.bind_some]
    rw [takeBytes_padded fracDigits short, Option.bind_some, parsed]
    cases negative with
    | true => exact i128Result_inside inside
    | false => rfl
  · cases read

section Amounts

variable {lhs rhs : String} {l r : Decimal} (left : amountOf lhs = some l)
  (right : amountOf rhs = some r) (fits : Fits l r)
include left right fits

/-- What is written is the sum of what was parsed. -/
theorem addDecimalStrings_text :
    addDecimalStrings lhs rhs = (formatScaled
      (parsedMantissa (l.mantissaAt (max l.scale r.scale)) +
        parsedMantissa (r.mantissaAt (max l.scale r.scale))) (max l.scale r.scale)).map
          String.ofList := by
  obtain ⟨leftScale, leftScaled⟩ := toScaledI128_amountOf left
  obtain ⟨rightScale, rightScaled⟩ := toScaledI128_amountOf right
  obtain ⟨range, narrow⟩ := fits
  simp only [InRange, checkedI128_isSome] at range
  obtain ⟨leftFits, rightFits, sumFits⟩ := range
  let sum := parsedMantissa (l.mantissaAt (max l.scale r.scale)) +
    parsedMantissa (r.mantissaAt (max l.scale r.scale))
  have checked : Rust.i128Result sum = some sum := by
    refine i128Result_inside ?_
    simp only [sum, parsedMantissa_eq leftFits, parsedMantissa_eq rightFits]
    unfold Rust.I128_MIN Rust.I128_MAX at *
    split <;> split <;> omega
  simp only [addDecimalStrings, leftScale, rightScale, leftScaled _ (le_max_left _ _) narrow,
    rightScaled _ (le_max_right _ _) narrow, Option.bind_eq_bind, Option.bind_some]
  rw [show parsedMantissa (l.mantissaAt (max l.scale r.scale)) +
    parsedMantissa (r.mantissaAt (max l.scale r.scale)) = sum from rfl, checked, Option.bind_some]

theorem addDecimalStrings_parsed :
    ∃ out, addDecimalStrings lhs rhs = some out ∧
      decimalOf out = some ⟨parsedMantissa (l.mantissaAt (max l.scale r.scale)) +
        parsedMantissa (r.mantissaAt (max l.scale r.scale)), max l.scale r.scale⟩ := by
  obtain ⟨n, formatted, decimal, -⟩ := formatScaled_numeral
    (parsedMantissa (l.mantissaAt (max l.scale r.scale)) +
      parsedMantissa (r.mantissaAt (max l.scale r.scale))) fits.2
  refine ⟨String.ofList n.text, ?_, ?_⟩
  · rw [addDecimalStrings_text left right fits, formatted, Option.map_some]
  · rw [decimalOf, String.toList_ofList, Numeral.ofText_text, Option.map_some, decimal]

end Amounts

variable {lhs rhs : String} {l r : Decimal} (left : decimalOf lhs = some l)
  (right : decimalOf rhs = some r) (fits : Fits l r)
include left right fits

theorem addDecimalStrings_exact (representable : Representable l r) :
    ∃ out, addDecimalStrings lhs rhs = some out ∧ decimalOf out = some (l.add r) := by
  obtain ⟨out, added, read⟩ :=
    addDecimalStrings_parsed (amountOf_decimalOf left) (amountOf_decimalOf right) fits
  obtain ⟨range, -⟩ := fits
  simp only [InRange, checkedI128_isSome] at range
  refine ⟨out, added, read.trans ?_⟩
  rw [parsedMantissa_eq range.1, parsedMantissa_eq range.2.1, if_neg representable.1,
    if_neg representable.2]
  rfl

/-- Otherwise the operand that is not representable counts as zero. -/
theorem addDecimalStrings_inexact (unrepresentable : ¬ Representable l r) :
    ∃ out d, addDecimalStrings lhs rhs = some out ∧ decimalOf out = some d ∧
      d.value ≠ (l.add r).value := by
  obtain ⟨out, added, read⟩ :=
    addDecimalStrings_parsed (amountOf_decimalOf left) (amountOf_decimalOf right) fits
  refine ⟨out, _, added, read, ?_⟩
  obtain ⟨range, -⟩ := fits
  simp only [InRange, checkedI128_isSome] at range
  obtain ⟨leftFits, rightFits, sumFits⟩ := range
  simp only [Representable, not_and_or, not_not] at unrepresentable
  intro same
  have scales := Decimal.ten_pow_ne (max l.scale r.scale)
  simp only [Decimal.value, Decimal.add] at same
  have mantissas := (div_left_inj' scales).mp same
  have mantissas : parsedMantissa (l.mantissaAt (max l.scale r.scale)) +
      parsedMantissa (r.mantissaAt (max l.scale r.scale)) =
        l.mantissaAt (max l.scale r.scale) + r.mantissaAt (max l.scale r.scale) := by
    exact_mod_cast mantissas
  rw [parsedMantissa_eq leftFits, parsedMantissa_eq rightFits] at mantissas
  unfold Rust.I128_MIN Rust.I128_MAX at *
  rcases unrepresentable with least | least <;> rw [least] at mantissas sumFits <;>
    revert mantissas <;> split <;> omega

end Sum

end Trolly.Spot
