import Mathlib.Algebra.Ring.Nat
import Mathlib.Data.List.DropRight
import Mathlib.Data.List.Infix

/-! Text functions of the Rust standard library that the program calls.
They are stated over characters; `String` only wraps the character list. -/
namespace Rust

/-- `char::is_whitespace`: the Unicode property White_Space. -/
def isWhitespace (c : Char) : Bool :=
  let n := c.toNat
  (0x9 ≤ n && n ≤ 0xD) || n == 0x20 || n == 0x85 || n == 0xA0 || n == 0x1680 ||
    (0x2000 ≤ n && n ≤ 0x200A) || n == 0x2028 || n == 0x2029 || n == 0x202F ||
    n == 0x205F || n == 0x3000

def trimChars (cs : List Char) : List Char := (cs.dropWhile isWhitespace).rdropWhile isWhitespace

def trim (s : String) : String := String.ofList (trimChars s.toList)

/-- A character of a class is none outside of it. -/
theorem ne_of_class {p : Char → Bool} {c d : Char} (inside : p c = true) (outside : p d = false) :
    c ≠ d := by
  rintro rfl
  exact Bool.false_ne_true (outside.symm.trans inside)

/-- The number a list of decimal digits spells, most significant first. -/
def natOfDigits (cs : List Char) : Nat := Nat.ofDigitChars 10 cs 0

/-- What `f64::from_str` reads, before rounding to the nearest double. -/
inductive FloatLiteral where
  /-- `inf`, `infinity` or `nan`, in any letter case. -/
  | special
  /-- `± mantissa * 10 ^ exponent`. -/
  | number (negative : Bool) (mantissa : Nat) (exponent : Int)
  deriving DecidableEq, Repr

def splitSign : List Char → Bool × List Char
  | '-' :: rest => (true, rest)
  | '+' :: rest => (false, rest)
  | cs => (false, cs)

def parseExponent : List Char → Option Int
  | [] => some 0
  | c :: rest =>
    if c = 'e' ∨ c = 'E' then
      let (negative, digits) := splitSign rest
      if digits ≠ [] ∧ digits.all Char.isDigit then
        some (if negative then -(natOfDigits digits : Int) else natOfDigits digits)
      else none
    else none

/-- The grammar of `f64::from_str`: digits on at least one side of the point. -/
def parseF64 (s : String) : Option FloatLiteral :=
  let (negative, body) := splitSign s.toList
  if ["inf", "infinity", "nan"].contains (String.ofList (body.map Char.toLower)) then some .special
  else
    let whole := body.takeWhile Char.isDigit
    let rest := body.dropWhile Char.isDigit
    let (frac, rest) := match rest with
      | '.' :: tail => (tail.takeWhile Char.isDigit, tail.dropWhile Char.isDigit)
      | _ => ([], rest)
    if whole = [] ∧ frac = [] then none
    else (parseExponent rest).map
      (fun e => .number negative (natOfDigits (whole ++ frac)) (e - frac.length))

/-- Whether the nearest double equals `0.0`: the magnitude is at most half of the least
positive double `2 ^ -1074`, the tie going to the even zero. -/
def FloatLiteral.isZero : FloatLiteral → Bool
  | .special => false
  | .number _ mantissa exponent =>
    mantissa == 0 || (exponent < 0 && mantissa * 2 ^ 1075 ≤ 10 ^ exponent.natAbs)

def splitOnce (sep : Char) : List Char → Option (List Char × List Char)
  | [] => none
  | c :: rest =>
    if c = sep then some ([], rest)
    else (splitOnce sep rest).map (fun (front, back) => (c :: front, back))

theorem splitOnce_none {sep : Char} {cs : List Char} (absent : sep ∉ cs) :
    splitOnce sep cs = none := by
  induction cs with
  | nil => rfl
  | cons c rest ih =>
    rw [List.mem_cons, not_or] at absent
    simp [splitOnce, Ne.symm absent.1, ih absent.2]

theorem splitOnce_append {sep : Char} {front : List Char} (absent : sep ∉ front)
    (back : List Char) : splitOnce sep (front ++ sep :: back) = some (front, back) := by
  induction front with
  | nil => simp [splitOnce]
  | cons c rest ih =>
    rw [List.mem_cons, not_or] at absent
    simp [splitOnce, Ne.symm absent.1, ih absent.2]

theorem splitOnce_spec (sep : Char) (cs : List Char) : (splitOnce sep cs).elim (sep ∉ cs)
    (fun parts => cs = parts.1 ++ sep :: parts.2 ∧ sep ∉ parts.1) := by
  induction cs with
  | nil => exact List.not_mem_nil
  | cons c rest ih =>
    by_cases here : c = sep
    · rw [splitOnce, if_pos here, here]
      exact ⟨rfl, List.not_mem_nil⟩
    · rw [splitOnce, if_neg here]
      cases found : splitOnce sep rest with
      | none =>
        rw [found] at ih
        rw [Option.map_none, Option.elim_none, List.mem_cons, not_or]
        exact ⟨Ne.symm here, ih⟩
      | some parts =>
        rw [found] at ih
        obtain ⟨split, absent⟩ := ih
        rw [Option.map_some, Option.elim_some, List.mem_cons, not_or]
        exact ⟨by rw [split, List.cons_append], Ne.symm here, absent⟩

def stripPrefix (front cs : List Char) : Option (List Char) :=
  if front.isPrefixOf cs then some (cs.drop front.length) else none

/-- `str::contains` with a text. -/
def contains (cs needle : List Char) : Bool := decide (needle <:+: cs)

/-- `str::len`, in bytes. -/
def utf8Len (cs : List Char) : Nat := (cs.map Char.utf8Size).sum

/-- `&s[..n]`: the first `n` bytes; `none` is the panic off a character boundary. -/
def takeBytes : Nat → List Char → Option (List Char)
  | 0, _ => some []
  | _ + 1, [] => none
  | n + 1, c :: rest =>
    if c.utf8Size ≤ n + 1 then (takeBytes (n + 1 - c.utf8Size) rest).map (c :: ·) else none

/-- The largest width that `format!` takes at run time, `u16::MAX`; a larger one panics. -/
def WIDTH_MAX : Nat := 65535

/-- `{s:0<width$}`: zeros on the right up to a width in characters. -/
def padRight (cs : List Char) (width : Nat) : Option (List Char) :=
  if width ≤ WIDTH_MAX then some (cs ++ List.replicate (width - cs.length) '0') else none

/-- `{s:0>width$}` -/
def padLeft (cs : List Char) (width : Nat) : Option (List Char) :=
  if width ≤ WIDTH_MAX then some (List.replicate (width - cs.length) '0' ++ cs) else none

def I128_MIN : Int := -170141183460469231731687303715884105728

def I128_MAX : Int := 170141183460469231731687303715884105727

/-- A mathematical result as an `i128`; `none` where it is out of range. -/
def checkedI128 (n : Int) : Option Int := if I128_MIN ≤ n ∧ n ≤ I128_MAX then some n else none

/-- How the program is built: an overflow panics with overflow checks, and wraps without. -/
class Build where
  overflowChecks : Bool

abbrev Build.debug : Build := ⟨true⟩

abbrev Build.release : Build := ⟨false⟩

/-- What `+` and unary `-` make of a mathematical result on `i128`; `none` is the panic. -/
def i128Result [Build] (n : Int) : Option Int :=
  (checkedI128 n).or (if Build.overflowChecks then none else some (n.bmod (2 ^ 128)))

/-- `str::parse::<i128>`: an optional sign and at least one digit. -/
def parseI128 (cs : List Char) : Option Int :=
  let (negative, digits) := splitSign cs
  if digits ≠ [] ∧ digits.all Char.isDigit then
    checkedI128 (if negative then -(natOfDigits digits : Int) else natOfDigits digits)
  else none

def natToChars (n : Nat) : List Char := Nat.toDigits 10 n

theorem natToChars_digits (n : Nat) : (natToChars n).all Char.isDigit = true :=
  List.all_eq_true.mpr (fun _ member => Nat.isDigit_of_mem_toDigits (by decide) (by decide) member)

theorem natOfDigits_natToChars (n : Nat) : natOfDigits (natToChars n) = n :=
  Nat.ofDigitChars_ten_toDigits

theorem natToChars_ne (n : Nat) : natToChars n ≠ [] := Nat.toDigits_ne_nil

def i128ToChars (n : Int) : List Char :=
  if n < 0 then '-' :: natToChars n.natAbs else natToChars n.natAbs

def toAsciiLowercase (s : String) : String := String.ofList (s.toList.map Char.toLower)

/-- `str::to_lowercase`, of which only the part on ASCII texts is fixed here. -/
structure Lowercase where
  lower : String → String
  ascii : ∀ s, (∀ c ∈ s.toList, c.toNat < 128) → lower s = toAsciiLowercase s

def Lowercase.asciiOnly : Lowercase := ⟨toAsciiLowercase, fun _ _ => rfl⟩

def toAsciiUppercase (s : String) : String := String.ofList (s.toList.map Char.toUpper)

theorem toUpper_idem (c : Char) : c.toUpper.toUpper = c.toUpper := by
  unfold Char.toUpper
  split
  · rename_i lower
    refine dif_neg (fun again => ?_)
    simp only [UInt32.le_iff_toNat_le, UInt32.toNat_add] at lower again
    have letters : 'a'.val.toNat = 97 ∧ 'z'.val.toNat = 122 ∧
        ('A'.val - 'a'.val).toNat = 4294967264 := by decide
    omega
  · rfl

theorem toAsciiUppercase_idem (s : String) :
    toAsciiUppercase (toAsciiUppercase s) = toAsciiUppercase s := by
  have idem : Char.toUpper ∘ Char.toUpper = Char.toUpper := funext toUpper_idem
  rw [toAsciiUppercase, toAsciiUppercase, String.toList_ofList, List.map_map, idem]

/-- The Unicode table behind `str::to_uppercase`, which maps each character by itself.
Only its ASCII part is fixed here. -/
structure CaseTable where
  upper : Char → List Char
  ascii : ∀ c, c.toNat < 128 → upper c = [c.toUpper]

def CaseTable.asciiOnly : CaseTable := ⟨fun c => [c.toUpper], fun _ _ => rfl⟩

def CaseTable.toUppercase (table : CaseTable) (s : String) : String :=
  String.ofList (s.toList.flatMap table.upper)

/-- A character of a text under `{:?}`, where every character beyond ASCII counts as printable: a
text with others there is escaped differently. -/
def escapeDebug (c : Char) : List Char :=
  if c = '\x00' then ['\x5c', '0']
  else if c = '\t' then ['\x5c', 't']
  else if c = '\r' then ['\x5c', 'r']
  else if c = '\n' then ['\x5c', 'n']
  else if c = '\x22' ∨ c = '\x5c' then ['\x5c', c]
  else if c.toNat < 0x20 ∨ c.toNat = 0x7F then
    ['\x5c', 'u', '\x7b'] ++ Nat.toDigits 16 c.toNat ++ ['\x7d']
  else [c]

def debugText (s : String) : List Char := '\x22' :: s.toList.flatMap escapeDebug ++ ['\x22']

/-- `{:?}` of a vector of texts. -/
def debugTexts (texts : List String) : List Char :=
  '[' :: [',', ' '].intercalate (texts.map debugText) ++ [']']

end Rust
