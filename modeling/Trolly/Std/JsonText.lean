import Trolly.Lib.Separated
import Trolly.Std.Json
import Trolly.Std.Split

/-! JSON text in compact form, and a reader of it: texts with their escapes, unsigned integers,
arrays and objects, nested to a limit. -/
namespace SerdeJson

open Rust

/-- The escapes are the two that must be, the short ones, and four hexadecimal digits. -/
def escapeChar (c : Char) : List Char :=
  if c = '\x22' ∨ c = '\x5c' then ['\x5c', c]
  else if c = '\x08' then ['\x5c', 'b']
  else if c = '\t' then ['\x5c', 't']
  else if c = '\n' then ['\x5c', 'n']
  else if c = '\x0c' then ['\x5c', 'f']
  else if c = '\r' then ['\x5c', 'r']
  else if c.toNat < 0x20 then
    ['\x5c', 'u', '0', '0', Nat.digitChar (c.toNat / 16), Nat.digitChar (c.toNat % 16)]
  else [c]

def quoted (cs : List Char) : List Char := '\x22' :: cs.flatMap escapeChar ++ ['\x22']

mutual

def valueText : Value → List Char
  | .null => ['n', 'u', 'l', 'l']
  | .bool true => ['t', 'r', 'u', 'e']
  | .bool false => ['f', 'a', 'l', 's', 'e']
  | .number (.posInt n) => natToChars n.toNat
  | .number (.negInt n) => i128ToChars n.toInt
  | .number (.float text) => text.toList
  | .string s => quoted s.toList
  | .array items => '[' :: Separated.join ',' (itemTexts items) ++ [']']
  | .object fields => '\x7b' :: Separated.join ',' (fieldTexts fields) ++ ['\x7d']

def itemTexts : List Value → List (List Char)
  | [] => []
  | v :: rest => valueText v :: itemTexts rest

def fieldTexts : List (String × Value) → List (List Char)
  | [] => []
  | (name, v) :: rest => (quoted name.toList ++ ':' :: valueText v) :: fieldTexts rest

end

def hexValue (c : Char) : Option Nat :=
  if c.isDigit then some (c.toNat - '0'.toNat)
  else if 'a' ≤ c ∧ c ≤ 'f' then some (c.toNat - 'a'.toNat + 10)
  else if 'A' ≤ c ∧ c ≤ 'F' then some (c.toNat - 'A'.toNat + 10)
  else none

def unescape (c : Char) : Option Char :=
  if c = 'b' then some '\x08'
  else if c = 't' then some '\t'
  else if c = 'n' then some '\n'
  else if c = 'f' then some '\x0c'
  else if c = 'r' then some '\r'
  else if c = '\x22' ∨ c = '\x5c' ∨ c = '/' then some c
  else none

/-- The character of four hexadecimal digits; halves of a surrogate pair are not read. -/
def hexChar (digits : List Char) : Option Char := do
  let n ← digits.foldlM (fun n c => (hexValue c).map (16 * n + ·)) 0
  if n.isValidChar then some (Char.ofNat n) else none

def prepend (c : Char) (read : Option (List Char × List Char)) : Option (List Char × List Char) :=
  read.map (fun (cs, rest) => (c :: cs, rest))

/-- The text up to the closing quote. -/
def readQuoted : List Char → Option (List Char × List Char)
  | [] => none
  | c :: rest =>
    if c = '\x22' then some ([], rest)
    else if c = '\x5c' then
      match rest with
      | 'u' :: d₁ :: d₂ :: d₃ :: d₄ :: rest =>
        (hexChar [d₁, d₂, d₃, d₄]).bind (fun c => prepend c (readQuoted rest))
      | e :: rest => (unescape e).bind (fun c => prepend c (readQuoted rest))
      | [] => none
    else if c.toNat < 0x20 then none
    else prepend c (readQuoted rest)

def readField (value : List Char → Option (Value × List Char)) :
    List Char → Option ((String × Value) × List Char)
  | '\x22' :: rest => do
    let (name, rest) ← readQuoted rest
    match rest with
    | ':' :: rest => do
      let (v, rest) ← value rest
      some ((String.ofList name, v), rest)
    | _ => none
  | _ => none

def readNumber (text : List Char) : Option (Value × List Char) :=
  let digits := text.takeWhile Char.isDigit
  if digits ≠ [] ∧ natOfDigits digits < 2 ^ 64 then
    some (.number (.posInt (UInt64.ofNat (natOfDigits digits))), text.dropWhile Char.isDigit)
  else none

/-- One value; the depth bounds how far arrays and objects may nest. -/
def readValue : Nat → List Char → Option (Value × List Char)
  | depth, text =>
    match text, depth with
    | '\x22' :: rest, _ =>
      (readQuoted rest).map (fun (cs, rest) => (.string (String.ofList cs), rest))
    | '[' :: rest, depth + 1 =>
      (Separated.read ',' ']' (readValue depth) rest).map
        (fun (items, rest) => (.array items, rest))
    | '\x7b' :: rest, depth + 1 =>
      (Separated.read ',' '\x7d' (readField (readValue depth)) rest).map
        (fun (fields, rest) => (.object fields, rest))
    | text, _ => readNumber text

def toText (v : Value) : String := String.ofList (valueText v)

/-- The whole text is one value. -/
def ofText (text : String) : Option Value :=
  match readValue 127 text.toList with
  | some (v, []) => some v
  | _ => none

/-! ## What is written reads back -/

theorem hexChar_control : ∀ n < 32,
    hexChar ['0', '0', Nat.digitChar (n / 16), Nat.digitChar (n % 16)] = some (Char.ofNat n) := by
  decide

theorem readQuoted_escape (c : Char) (rest : List Char) :
    readQuoted (escapeChar c ++ rest) = prepend c (readQuoted rest) := by
  unfold escapeChar
  split_ifs with quote b t n f r control
  · rcases quote with rfl | rfl <;> rfl
  · subst b; rfl
  · subst t; rfl
  · subst n; rfl
  · subst f; rfl
  · subst r; rfl
  · simp [readQuoted, hexChar_control _ control]
  · rw [not_or] at quote
    rw [List.singleton_append, readQuoted.eq_def]
    exact (if_neg quote.1).trans ((if_neg quote.2).trans (if_neg control))

theorem readQuoted_quoted (cs rest : List Char) :
    readQuoted (cs.flatMap escapeChar ++ '\x22' :: rest) = some (cs, rest) := by
  induction cs with
  | nil =>
    rw [readQuoted.eq_def]
    rfl
  | cons c cs ih =>
    rw [List.flatMap_cons, List.append_assoc, readQuoted_escape, ih]
    rfl

theorem itemTexts_eq (items : List Value) : itemTexts items = items.map valueText := by
  induction items with
  | nil => rfl
  | cons v rest ih => rw [itemTexts, ih, List.map_cons]

def fieldText (field : String × Value) : List Char :=
  quoted field.1.toList ++ ':' :: valueText field.2

theorem fieldTexts_eq (fields : List (String × Value)) :
    fieldTexts fields = fields.map fieldText := by
  induction fields with
  | nil => rfl
  | cons field rest ih => rw [fieldTexts, ih, List.map_cons, fieldText]

section Number

variable {c : Char} {rest : List Char}

theorem readValue_digit (digit : c.isDigit = true) (depth : Nat) :
    readValue depth (c :: rest) = readNumber (c :: rest) := by
  have quote : c ≠ '\x22' := ne_of_class digit (by decide)
  have bracket : c ≠ '[' := ne_of_class digit (by decide)
  have brace : c ≠ '\x7b' := ne_of_class digit (by decide)
  rw [readValue.eq_def]
  split
  all_goals simp_all

theorem readNumber_text (n : UInt64) (stop : ∀ c ∈ rest.head?, c.isDigit = false) :
    readNumber (natToChars n.toNat ++ rest) = some (.number (.posInt n), rest) := by
  have digits := List.all_eq_true.mp (natToChars_digits n.toNat)
  have bound : n.toNat < 2 ^ 64 := n.toNat_lt
  simp only [readNumber, takeWhile_front digits stop, dropWhile_front digits stop,
    natOfDigits_natToChars]
  rw [if_pos ⟨natToChars_ne _, bound⟩, UInt64.ofNat_toNat]

end Number

theorem natToChars_cons (n : Nat) : ∃ c rest, natToChars n = c :: rest ∧ c.isDigit = true := by
  cases spelled : natToChars n with
  | nil => exact absurd spelled (natToChars_ne n)
  | cons c rest =>
    exact ⟨c, rest, rfl, List.all_eq_true.mp (natToChars_digits n) c (by rw [spelled]; simp)⟩

/-- No plain value begins like the end of an array. -/
theorem valueText_starts {depth : Nat} {v : Value} (plain : v.Plain depth) (rest : List Char) :
    (valueText v ++ rest).head? ≠ some ']' := by
  obtain ⟨s, rfl⟩ | ⟨n, rfl⟩ | ⟨_, _, ⟨items, rfl, _⟩ | ⟨fields, rfl, _⟩⟩ := plain.shape
  · simp [valueText, quoted]
  · obtain ⟨c, tail, spelled, digit⟩ := natToChars_cons n.toNat
    rw [valueText, spelled, List.cons_append, List.head?_cons]
    rintro ⟨rfl⟩
    exact absurd digit (by decide)
  · simp [valueText]
  · simp [valueText]

theorem readField_text {value : List Char → Option (Value × List Char)} {field : String × Value}
    {rest : List Char} (reads : value (valueText field.2 ++ rest) = some (field.2, rest)) :
    readField value (fieldText field ++ rest) = some (field, rest) := by
  simp [readField, fieldText, quoted, readQuoted_quoted, reads]

theorem readValue_quoted (depth : Nat) (s : String) (rest : List Char) :
    readValue depth (valueText (.string s) ++ rest) = some (.string s, rest) := by
  simp [readValue.eq_def, valueText, quoted, readQuoted_quoted]

theorem readValue_number (depth : Nat) (n : UInt64) {rest : List Char}
    (stop : ∀ c ∈ rest.head?, c.isDigit = false) :
    readValue depth (valueText (.number (.posInt n)) ++ rest) =
      some (.number (.posInt n), rest) := by
  obtain ⟨c, tail, spelled, digit⟩ := natToChars_cons n.toNat
  have number := readNumber_text n stop
  rw [spelled] at number
  rw [valueText, spelled]
  exact (readValue_digit digit depth).trans number

/-- No digit stands at either mark. -/
theorem mark_stops {marks : List Char} (known : marks.all (fun c => !c.isDigit) = true)
    {mark : Char} (member : mark ∈ marks) (text : List Char) :
    ∀ c ∈ (mark :: text).head?, c.isDigit = false := by
  rintro c ⟨rfl⟩
  simpa using List.all_eq_true.mp known mark member

/-- By induction on the depth: what a value contains is read at one less. -/
theorem readValue_text {depth : Nat} {v : Value} (plain : v.Plain depth) {rest : List Char}
    (stop : ∀ c ∈ rest.head?, c.isDigit = false) :
    readValue depth (valueText v ++ rest) = some (v, rest) := by
  induction depth using Nat.strong_induction_on generalizing v rest with
  | _ depth ih =>
    obtain ⟨s, rfl⟩ | ⟨n, rfl⟩ | ⟨below, rfl, ⟨items, rfl, plain⟩ | ⟨fields, rfl, plain⟩⟩ :=
      plain.shape
    · exact readValue_quoted depth s rest
    · exact readValue_number depth n stop
    · have read : Separated.read ',' ']' (readValue below)
          (Separated.join ',' (items.map valueText) ++ ']' :: rest) = some (items, rest) :=
        Separated.read_join (by decide)
          (fun v member mark known text =>
            ih below (Nat.lt_succ_self below) (plain v member)
              (mark_stops (by decide) known text))
          (fun v member => valueText_starts (plain v member)) rest
      simp [readValue, valueText, itemTexts_eq, read]
    · have read : Separated.read ',' '\x7d' (readField (readValue below))
          (Separated.join ',' (fields.map fieldText) ++ '\x7d' :: rest) = some (fields, rest) :=
        Separated.read_join (by decide)
          (fun field member mark known text =>
            readField_text (ih below (Nat.lt_succ_self below) (plain field member)
              (mark_stops (by decide) known text)))
          (fun field member text => by simp [fieldText, quoted]) rest
      simp [readValue, valueText, fieldTexts_eq, read]

theorem ofText_toText {v : Value} (plain : v.Plain 127) : ofText (toText v) = some v := by
  have read : readValue 127 (valueText v ++ []) = some (v, []) :=
    readValue_text plain (by simp)
  rw [List.append_nil] at read
  rw [ofText, toText, String.toList_ofList, read]

end SerdeJson
