import Trolly.Spot.Balances
import Trolly.Spot.Sums

/-! Deltas and stored amounts that the scaled arithmetic cannot hold: an operand that does not
parse counts as zero, so the amount stays as it was only if writing it again changes nothing. -/
namespace Trolly.Spot

open Keyed

/-- Both amounts are decimals, and they and their sum are `i128` values over one scale. -/
def Exactly (stored delta : String) : Prop :=
  ∃ l r, amountOf stored = some l ∧ amountOf delta = some r ∧ InRange l r

/-- Moreover the scale is one that `format!` can pad to. -/
def Holdable (stored delta : String) : Prop :=
  ∃ l r, amountOf stored = some l ∧ amountOf delta = some r ∧ Fits l r

/-- What stands behind the first point of a text, and how much of it before the next. -/
def behindPoint (value : List Char) : List Char := (Rust.splitOnce '.' value).elim [] Prod.snd

def fraction (value : List Char) : List Char := (behindPoint value).takeWhile (· ≠ '.')

/-- The digits of a text over a scale: all before the first point, and as many bytes of what is
behind it, continued with zeros. There are none where that cuts a character. -/
def DigitsOver (value : List Char) (scale : Nat) (digits : List Char) : Prop :=
  let unsigned := value.dropWhile (· == '-')
  ∃ cut, cut <+: behindPoint unsigned ++ List.replicate scale '0' ∧ Rust.utf8Len cut = scale ∧
    digits = (Rust.splitOnce '.' unsigned).elim unsigned Prod.fst ++ cut

section Build

variable [Rust.Build]

/-- The stored amount is a canonical numeral, and the delta has no digits to change it: they are
zero or no number. (The least number is dropped itself, and needs itself as a delta.) -/
def Inert (stored delta : String) : Prop :=
  ∃ (n : Numeral) (digits : List Char), n.text = stored.toList ∧ n.Canonical ∧
    n.decimal.scale ≤ Rust.WIDTH_MAX ∧ Rust.utf8Len (fraction delta.toList) ≤ n.decimal.scale ∧
    DigitsOver delta.toList n.decimal.scale digits ∧
    (Rust.checkedI128 n.decimal.mantissa).isSome ∧
    if n.decimal.mantissa = Rust.I128_MIN then
      Rust.parseI128 digits = some Rust.I128_MIN ∧
        (delta.toList.head? = some '-' → Rust.Build.overflowChecks = false)
    else ∀ v, Rust.parseI128 digits = some v → v = 0

end Build

/-! Cutting. -/

theorem length_le_utf8Len (cs : List Char) : cs.length ≤ Rust.utf8Len cs := by
  induction cs with
  | nil => exact Nat.le_refl _
  | cons c rest ih =>
    have size := c.utf8Size_pos
    simp only [Rust.utf8Len, List.map_cons, List.sum_cons, List.length_cons] at ih ⊢
    omega

theorem utf8Len_cons (c : Char) (rest : List Char) :
    Rust.utf8Len (c :: rest) = c.utf8Size + Rust.utf8Len rest := by
  simp [Rust.utf8Len]

theorem utf8Len_eq_zero_iff {cs : List Char} : Rust.utf8Len cs = 0 ↔ cs = [] := by
  refine ⟨fun zero => ?_, fun empty => by rw [empty]; rfl⟩
  have short := length_le_utf8Len cs
  exact List.length_eq_zero_iff.mp (by omega)

theorem takeBytes_eq_some_iff {n : Nat} {cs cut : List Char} :
    Rust.takeBytes n cs = some cut ↔ cut <+: cs ∧ Rust.utf8Len cut = n := by
  induction cs generalizing n cut with
  | nil =>
    rw [List.prefix_nil]
    cases n with
    | zero =>
      rw [Rust.takeBytes, Option.some.injEq, utf8Len_eq_zero_iff, and_self]
      exact eq_comm
    | succ n =>
      refine ⟨fun taken => (by cases taken), ?_⟩
      rintro ⟨rfl, none⟩
      cases none
  | cons c rest ih =>
    have size := c.utf8Size_pos
    cases n with
    | zero =>
      rw [Rust.takeBytes, Option.some.injEq, utf8Len_eq_zero_iff]
      exact ⟨fun empty => ⟨empty ▸ List.nil_prefix, empty.symm⟩, fun empty => empty.2.symm⟩
    | succ n =>
      rw [Rust.takeBytes, List.prefix_cons_iff]
      constructor
      · intro taken
        split at taken
        · rename_i room
          obtain ⟨tail, front, rfl⟩ := Option.map_eq_some_iff.mp taken
          obtain ⟨isPrefix, bytes⟩ := ih.mp front
          refine ⟨.inr ⟨tail, rfl, isPrefix⟩, ?_⟩
          rw [utf8Len_cons, bytes]
          omega
        · cases taken
      · rintro ⟨rfl | ⟨tail, rfl, isPrefix⟩, bytes⟩
        · cases bytes
        · rw [utf8Len_cons] at bytes
          rw [if_pos (by omega), ih.mpr ⟨isPrefix, by omega⟩, Option.map_some]

/-- Padding to the scale and cutting there is cutting the fraction with zeros behind it. -/
theorem takeBytes_padded_iff {frac cut : List Char} {scale : Nat} :
    let padded := frac ++ List.replicate (scale - frac.length) '0'
    Rust.takeBytes (min scale (Rust.utf8Len padded)) padded = some cut ↔
      cut <+: frac ++ List.replicate scale '0' ∧ Rust.utf8Len cut = scale := by
  intro padded
  have long : scale ≤ padded.length := by
    simp only [padded, List.length_append, List.length_replicate]
    omega
  have front : padded <+: frac ++ List.replicate scale '0' := by
    rw [List.prefix_append_right_inj, List.prefix_replicate_iff, List.length_replicate]
    exact ⟨Nat.sub_le _ _, rfl⟩
  rw [Nat.min_eq_left (long.trans (length_le_utf8Len padded)), takeBytes_eq_some_iff]
  refine and_congr_left (fun bytes => ⟨fun isPrefix => isPrefix.trans front, fun isPrefix => ?_⟩)
  have short := length_le_utf8Len cut
  exact List.prefix_of_prefix_length_le isPrefix front (by omega)

theorem parseI128_range {cs : List Char} {n : Int} (read : Rust.parseI128 cs = some n) :
    Rust.I128_MIN ≤ n ∧ n ≤ Rust.I128_MAX := by
  simp only [Rust.parseI128] at read
  split at read
  · exact (checkedI128_range read).2
  · cases read

section Reading

variable [Rust.Build]

theorem toScaledI128_eq_some_iff {value : List Char} {scale : Nat} {r : Int} :
    toScaledI128 value scale = some r ↔ scale ≤ Rust.WIDTH_MAX ∧
      ∃ digits, DigitsOver value scale digits ∧
        let parsed := (Rust.parseI128 digits).getD 0
        (if value.head? == some '-' then Rust.i128Result (-parsed) else some parsed) = some r := by
  have halves (cs : List Char) : (Rust.splitOnce '.' cs).getD (cs, []) =
      ((Rust.splitOnce '.' cs).elim cs Prod.fst, behindPoint cs) := by
    rw [behindPoint]
    cases Rust.splitOnce '.' cs <;> rfl
  simp only [toScaledI128, halves, Option.bind_eq_bind, Rust.padRight]
  by_cases narrow : scale ≤ Rust.WIDTH_MAX
  · rw [if_pos narrow, Option.bind_some, Option.bind_eq_some_iff]
    constructor
    · rintro ⟨cut, taken, read⟩
      obtain ⟨isPrefix, bytes⟩ := takeBytes_padded_iff.mp taken
      exact ⟨narrow, _, ⟨cut, isPrefix, bytes, rfl⟩, read⟩
    · rintro ⟨-, digits, ⟨cut, isPrefix, bytes, rfl⟩, read⟩
      exact ⟨cut, takeBytes_padded_iff.mpr ⟨isPrefix, bytes⟩, read⟩
  · simp [narrow]

theorem i128Result_range {m n : Int} (result : Rust.i128Result m = some n) :
    (Rust.I128_MIN ≤ n ∧ n ≤ Rust.I128_MAX) ∧ ((2 : Int) ^ 128) ∣ m - n := by
  rw [Rust.i128Result, Option.or_eq_some_iff] at result
  rcases result with checked | ⟨-, wrapped⟩
  · obtain ⟨rfl, range⟩ := checkedI128_range checked
    exact ⟨range, by simp⟩
  · split at wrapped
    · cases wrapped
    · cases wrapped
      refine ⟨?_, Dvd.intro (m.bdiv (2 ^ 128)) ?_⟩
      · rw [Int.bmod_eq_emod]
        unfold Rust.I128_MIN Rust.I128_MAX
        split <;> omega
      · rw [Int.bmod_eq_self_sub_mul_bdiv, sub_sub_cancel]
        rfl

/-- An operand counts for nothing exactly when its digits are zero or no number. -/
theorem toScaledI128_zero_iff {value : List Char} {scale : Nat} :
    toScaledI128 value scale = some 0 ↔ scale ≤ Rust.WIDTH_MAX ∧
      ∃ digits, DigitsOver value scale digits ∧ ∀ v, Rust.parseI128 digits = some v → v = 0 := by
  rw [toScaledI128_eq_some_iff]
  refine and_congr_right (fun _ => exists_congr (fun digits => and_congr_right (fun _ => ?_)))
  cases parsed : Rust.parseI128 digits with
  | none =>
    have zero : Rust.i128Result 0 = some 0 := i128Result_inside (by decide)
    simp [zero]
  | some v =>
    have range := parseI128_range parsed
    simp only [Option.getD_some, Option.some.injEq, forall_eq']
    constructor
    · intro read
      split at read
      · obtain ⟨-, k, same⟩ := i128Result_range read
        unfold Rust.I128_MIN Rust.I128_MAX at range
        omega
      · exact Option.some.inj read
    · rintro rfl
      split
      · exact i128Result_inside (by decide)
      · rfl

/-- An operand is the least number exactly when its digits spell that, for the sign is put back
after they are parsed; negating it is an overflow. -/
theorem toScaledI128_least_iff {value : List Char} {scale : Nat} :
    toScaledI128 value scale = some Rust.I128_MIN ↔ scale ≤ Rust.WIDTH_MAX ∧
      ∃ digits, DigitsOver value scale digits ∧ Rust.parseI128 digits = some Rust.I128_MIN ∧
        (value.head? = some '-' → Rust.Build.overflowChecks = false) := by
  rw [toScaledI128_eq_some_iff]
  refine and_congr_right (fun _ => exists_congr (fun digits => and_congr_right (fun _ => ?_)))
  cases parsed : Rust.parseI128 digits with
  | none =>
    have zero : Rust.i128Result 0 = some 0 := i128Result_inside (by decide)
    have least : (0 : Int) ≠ Rust.I128_MIN := by decide
    simp [zero, least]
  | some v =>
    have range := parseI128_range parsed
    have overflow : Rust.i128Result (-Rust.I128_MIN) =
        if Rust.Build.overflowChecks then none else some Rust.I128_MIN := rfl
    simp only [Option.getD_some, Option.some.injEq, beq_iff_eq]
    constructor
    · intro read
      split at read
      · obtain ⟨-, k, same⟩ := i128Result_range read
        have least : v = Rust.I128_MIN := by
          unfold Rust.I128_MIN Rust.I128_MAX at *
          omega
        refine ⟨least, fun _ => ?_⟩
        rw [least, overflow] at read
        simpa using read
      · rename_i positive
        exact ⟨Option.some.inj read, fun minus => absurd minus positive⟩
    · rintro ⟨rfl, unchecked⟩
      split
      · rename_i minus
        rw [overflow, unchecked minus]
        rfl
      · rfl

theorem toScaledI128_range {value : List Char} {scale : Nat} {r : Int}
    (read : toScaledI128 value scale = some r) :
    scale ≤ Rust.WIDTH_MAX ∧ Rust.I128_MIN ≤ r ∧ r ≤ Rust.I128_MAX := by
  obtain ⟨narrow, digits, -, reads⟩ := toScaledI128_eq_some_iff.mp read
  refine ⟨narrow, ?_⟩
  split at reads
  · exact (i128Result_range reads).1
  · cases Option.some.inj reads
    cases parsed : Rust.parseI128 digits with
    | none => decide
    | some v => exact parseI128_range parsed

/-- What an operand must read as, so that adding it restores a number that lost itself. -/
theorem toScaledI128_lost_iff {v : Int} (range : Rust.I128_MIN ≤ v ∧ v ≤ Rust.I128_MAX)
    {value : List Char} {scale : Nat} :
    toScaledI128 value scale = some (v - parsedMantissa v) ↔ scale ≤ Rust.WIDTH_MAX ∧
      ∃ digits, DigitsOver value scale digits ∧
        if v = Rust.I128_MIN then
          Rust.parseI128 digits = some Rust.I128_MIN ∧
            (value.head? = some '-' → Rust.Build.overflowChecks = false)
        else ∀ w, Rust.parseI128 digits = some w → w = 0 := by
  rw [parsedMantissa_eq range]
  by_cases least : v = Rust.I128_MIN
  · simp only [if_pos least]
    rw [Int.sub_zero, least]
    exact toScaledI128_least_iff
  · simp only [if_neg least]
    rw [Int.sub_self]
    exact toScaledI128_zero_iff

end Reading

theorem decimalScale_fraction (value : List Char) :
    decimalScale value = Rust.utf8Len (fraction value) := by
  rw [decimalScale_eq, fraction, behindPoint]
  cases Rust.splitOnce '.' value <;> rfl

theorem amountOf_text (n : Numeral) : amountOf (String.ofList n.text) = some n.decimal := by
  refine amountOf_decimalOf ?_
  rw [decimalOf, String.toList_ofList, Numeral.ofText_text, Option.map_some]

section Stored

variable [Rust.Build]

/-- A numeral reads as its mantissa, but for the least number, which reads as zero. -/
theorem toScaledI128_numeral (n : Numeral) (narrow : n.decimal.scale ≤ Rust.WIDTH_MAX) :
    decimalScale n.text = n.decimal.scale ∧
      toScaledI128 n.text n.decimal.scale = some (parsedMantissa n.decimal.mantissa) := by
  obtain ⟨scale, reads⟩ := toScaledI128_amountOf (amountOf_text n)
  rw [String.toList_ofList] at scale reads
  have read := reads n.decimal.scale (Nat.le_refl _) narrow
  rw [Decimal.mantissaAt, Nat.sub_self, pow_zero, mul_one] at read
  exact ⟨scale, read⟩

theorem addDecimalStrings_stored_iff (stored delta : String) :
    addDecimalStrings stored delta = some stored ↔ Inert stored delta := by
  constructor
  · intro added
    simp only [addDecimalStrings, Option.bind_eq_bind, Option.bind_eq_some_iff,
      Option.map_eq_some_iff] at added
    obtain ⟨left, readLeft, right, readRight, sum, result, text, formatted, made⟩ := added
    generalize finest : max (decimalScale stored.toList) (decimalScale delta.toList) = scale at *
    obtain ⟨range, multiple⟩ := i128Result_range result
    obtain ⟨narrow, rightRange⟩ := toScaledI128_range readRight
    obtain ⟨n, written, decimal, canonical⟩ := formatScaled_numeral sum narrow
    rw [formatted, Option.some.injEq] at written
    have spelled : n.text = stored.toList := by rw [← made, String.toList_ofList, written]
    have scaled : n.decimal.scale = scale := by rw [decimal]
    have mantissa : n.decimal.mantissa = sum := by rw [decimal]
    have own := (toScaledI128_numeral n (scaled ▸ narrow)).2
    rw [scaled, mantissa, spelled, readLeft, Option.some.injEq] at own
    have lost : right = sum - parsedMantissa sum := by
      rw [own, parsedMantissa_eq range] at multiple
      rw [parsedMantissa_eq range]
      unfold Rust.I128_MIN Rust.I128_MAX at *
      split at multiple <;> split <;> omega
    obtain ⟨-, digits, padded, reads⟩ := (toScaledI128_lost_iff range).mp (lost ▸ readRight)
    refine ⟨n, digits, spelled, canonical, scaled ▸ narrow, ?_, scaled ▸ padded, ?_, ?_⟩
    · rw [scaled, ← decimalScale_fraction, ← finest]
      exact le_max_right _ _
    · rw [mantissa, checkedI128_isSome]
      exact range
    · rw [mantissa]
      exact reads
  · rintro ⟨n, digits, spelled, canonical, narrow, fine, padded, range, reads⟩
    rw [checkedI128_isSome] at range
    rw [← decimalScale_fraction] at fine
    obtain ⟨own, left⟩ := toScaledI128_numeral n narrow
    have right := (toScaledI128_lost_iff range).mpr ⟨narrow, digits, padded, reads⟩
    rw [spelled] at own left
    obtain ⟨m, formatted, decimal, canonical'⟩ := formatScaled_numeral n.decimal.mantissa narrow
    have same : m = n := canonical'.unique canonical decimal
    have result : Rust.i128Result (parsedMantissa n.decimal.mantissa +
        (n.decimal.mantissa - parsedMantissa n.decimal.mantissa)) = some n.decimal.mantissa := by
      rw [add_sub_cancel]
      exact i128Result_inside range
    rw [addDecimalStrings, own, max_eq_left fine, left, right]
    simp only [Option.bind_eq_bind, Option.bind_some, result, formatted, Option.map_some, same,
      spelled, String.ofList_toList]

/-- The event does not panic, and amounts without an exact sum leave the stored one alone. -/
def Guarded (book : AccountBook) (event : SpotUserEvent) (delta : Delta) : Prop :=
  ∃ next, book.apply event = some next ∧
    (¬Exactly ((book.entry delta.asset).amount delta.side) delta.amount →
      (next.entry delta.asset).amount delta.side = (book.entry delta.asset).amount delta.side)

/-- A delta is applied safely exactly when the amounts can be held or it is inert. -/
theorem guarded_iff (book : AccountBook) {event : SpotUserEvent} {delta : Delta}
    (changes : event.delta = some delta) :
    Guarded book event delta ↔
      Holdable ((book.entry delta.asset).amount delta.side) delta.amount ∨
        Inert ((book.entry delta.asset).amount delta.side) delta.amount := by
  have applied := book.apply_delta changes
  have amount (out : String) :
      ((book.write delta out).entry delta.asset).amount delta.side = out := by
    rw [book.entry_write_same, AssetBalance.withAmount_same]
  unfold Guarded
  rw [applied]
  generalize (book.entry delta.asset).amount delta.side = stored at *
  constructor
  · rintro ⟨next, made, kept⟩
    obtain ⟨out, added, rfl⟩ := Option.map_eq_some_iff.1 made
    by_cases exactly : Exactly stored delta.amount
    · obtain ⟨l, r, left, right, range⟩ := exactly
      simp only [addDecimalStrings, Option.bind_eq_bind, Option.bind_eq_some_iff] at added
      obtain ⟨_, read, -⟩ := added
      have narrow := (toScaledI128_range read).1
      rw [(toScaledI128_amountOf left).1, (toScaledI128_amountOf right).1] at narrow
      exact .inl ⟨l, r, left, right, range, narrow⟩
    · rw [amount] at kept
      exact .inr ((addDecimalStrings_stored_iff _ _).1 (by rw [added, kept exactly]))
  · rintro (⟨l, r, left, right, fits⟩ | inert)
    · obtain ⟨out, added, -⟩ := addDecimalStrings_parsed left right fits
      exact ⟨_, by rw [added]; rfl, fun unheld => absurd ⟨l, r, left, right, fits.1⟩ unheld⟩
    · have added := (addDecimalStrings_stored_iff _ _).2 inert
      exact ⟨_, by rw [added]; rfl, fun _ => amount stored⟩

end Stored

def bookWith (free : String) : AccountBook :=
  ⟨Map.empty.insert "BTC" ⟨"BTC", free, "0"⟩, Map.empty⟩

/-- The stored `1.50`. -/
def storedNumeral : Numeral := ⟨false, ['1'], some ['5', '0'], rfl, by simp, rfl⟩

theorem guarded_inert :
    @Guarded .release (bookWith "1.50") (.balanceUpdate ⟨1, "BTC", "n/a", 1⟩)
      ⟨.free, "BTC", "n/a"⟩ := by
  have canonical : storedNumeral.Canonical := ⟨by simp [storedNumeral], by decide, by decide⟩
  have padded : DigitsOver "n/a".toList 2 ['n', '/', 'a', '0', '0'] :=
    ⟨['0', '0'], by decide, by decide, by decide⟩
  exact (@guarded_iff .release (bookWith "1.50") _ _ rfl).2
    (.inr ⟨storedNumeral, _, by decide, canonical, by decide, by decide, padded, by decide,
      by decide⟩)

/-- A stored amount that is no number is replaced by the delta, and a delta that is cut inside
a character panics. -/
theorem malformed_amounts :
    ¬@Guarded .release (bookWith "n/a") (.balanceUpdate ⟨1, "BTC", "5", 1⟩)
      ⟨.free, "BTC", "5"⟩ ∧
    @AccountBook.apply .release (bookWith "1.55") (.balanceUpdate ⟨1, "BTC", "1..é", 1⟩) =
      none := by
  have unheld : ¬Exactly "n/a" "5" := by
    rintro ⟨l, r, left, -⟩
    have unread : amountOf "n/a" = none := by decide
    rw [unread] at left
    cases left
  refine ⟨?_, by decide⟩
  rintro ⟨next, made, kept⟩
  cases made
  exact absurd (kept unheld) (by decide)

end Trolly.Spot
