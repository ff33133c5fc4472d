import Trolly.Std.Text

/-! Splitting at a text, at line ends and at blanks, and reading unsigned integers. -/
namespace Rust

variable {sep front back cs : List Char}

/-- `str::split_once` with a text: what stands before and after its first occurrence. -/
def splitOnceText (sep : List Char) : List Char → Option (List Char × List Char)
  | [] => if sep = [] then some ([], []) else none
  | c :: rest =>
    if sep.isPrefixOf (c :: rest) then some ([], (c :: rest).drop sep.length)
    else (splitOnceText sep rest).map (fun (front, back) => (c :: front, back))

theorem splitOnceText_here (back : List Char) :
    splitOnceText sep (sep ++ back) = some ([], back) := by
  cases whole : sep ++ back with
  | nil =>
    obtain ⟨rfl, rfl⟩ := List.append_eq_nil_iff.mp whole
    rfl
  | cons c rest =>
    have found : sep.isPrefixOf (c :: rest) = true := by
      rw [List.isPrefixOf_iff_prefix, ← whole]
      exact List.prefix_append sep back
    rw [splitOnceText, if_pos found, ← whole, List.drop_left]

/-! ## Where a text begins -/

section Unbegun

variable {α : Type} {sep front back : List α}

/-- The text does not begin inside `front`, also when it would end behind it. -/
def Unbegun (sep front back : List α) : Prop :=
  ∀ early tail, front = early ++ tail → tail ≠ [] → ¬sep <+: tail ++ (sep ++ back)

theorem unbegun_nil (sep back : List α) : Unbegun sep [] back := by
  intro early tail split nonempty
  exact absurd (List.append_eq_nil_iff.mp split.symm).2 nonempty

theorem unbegun_cons {x : α} (here : ¬sep <+: x :: (front ++ (sep ++ back)))
    (later : Unbegun sep front back) : Unbegun sep (x :: front) back := by
  intro early tail split nonempty
  cases early with
  | nil =>
    rw [List.nil_append] at split
    rwa [← split]
  | cons y early => exact later early tail (List.cons.inj split).2 nonempty

/-- A text does not begin where its first entry does not occur. -/
theorem unbegun_append_left {x : α} {rest others : List α} (absent : x ∉ others)
    (later : Unbegun (x :: rest) front back) : Unbegun (x :: rest) (others ++ front) back := by
  induction others with
  | nil => exact later
  | cons y others ih =>
    rw [List.mem_cons, not_or] at absent
    refine unbegun_cons (fun begins => absent.1 ?_) (ih absent.2)
    exact (List.cons_prefix_cons.mp begins).1

theorem unbegun_of_not_mem {x : α} {rest : List α} (absent : x ∉ front) :
    Unbegun (x :: rest) front back := by
  have whole := unbegun_append_left absent (unbegun_nil (x :: rest) back)
  rwa [List.append_nil] at whole

end Unbegun

theorem splitOnceText_append (unbegun : Unbegun sep front back) :
    splitOnceText sep (front ++ (sep ++ back)) = some (front, back) := by
  induction front with
  | nil => exact splitOnceText_here back
  | cons c rest ih =>
    have notHere : ¬sep.isPrefixOf (c :: (rest ++ (sep ++ back))) = true := by
      rw [List.isPrefixOf_iff_prefix]
      exact unbegun [] (c :: rest) rfl (List.cons_ne_nil c rest)
    have later : Unbegun sep rest back := fun early tail split nonempty =>
      unbegun (c :: early) tail (by rw [split, List.cons_append]) nonempty
    rw [List.cons_append, splitOnceText, if_neg notHere, ih later]
    rfl

/-! ## The longest front of a kind -/

section Front

variable {p : Char → Bool} (inside : ∀ c ∈ front, p c = true)
  (stop : ∀ c ∈ back.head?, p c = false)

include inside stop

theorem takeWhile_front : (front ++ back).takeWhile p = front := by
  rw [List.takeWhile_append_of_pos inside]
  cases back with
  | nil => rw [List.takeWhile_nil, List.append_nil]
  | cons c rest => simp [stop c rfl]

theorem dropWhile_front : (front ++ back).dropWhile p = back := by
  rw [List.dropWhile_append_of_pos inside]
  cases back with
  | nil => rfl
  | cons c rest => simp [stop c rfl]

end Front

/-! ## Lines and words -/

/-- `str::strip_suffix` with a character. -/
def stripLast (last : Char) (cs : List Char) : Option (List Char) :=
  if cs.getLast? = some last then some cs.dropLast else none

/-- `lines().next()`: up to the first line feed, without a carriage return before it. -/
def firstLine (cs : List Char) : Option (List Char) :=
  match splitOnce '\n' cs with
  | some (line, _) => some ((stripLast '\r' line).getD line)
  | none => if cs = [] then none else some cs

def splitWhitespace (cs : List Char) : List (List Char) :=
  (cs.splitOnP isWhitespace).filter (· ≠ [])

theorem splitWhitespace_cons {word rest : List Char} {blank : Char} (shown : word ≠ [])
    (solid : ∀ c ∈ word, isWhitespace c = false) (gap : isWhitespace blank = true) :
    splitWhitespace (word ++ blank :: rest) = word :: splitWhitespace rest := by
  have first : (word ++ blank :: rest).splitOnP isWhitespace =
      word :: rest.splitOnP isWhitespace :=
    List.splitOnP_append_cons_of_forall_mem (fun c member => by rw [solid c member]) blank gap rest
  rw [splitWhitespace, first, List.filter_cons_of_pos (by simpa using shown)]
  rfl

theorem splitOnce_append_left {sep : Char} {front : List Char} (absent : sep ∉ front)
    (rest : List Char) :
    splitOnce sep (front ++ rest) =
      (splitOnce sep rest).map (fun (line, back) => (front ++ line, back)) := by
  induction front with
  | nil => simp
  | cons c front ih =>
    rw [List.mem_cons, not_or] at absent
    rw [List.cons_append, splitOnce, if_neg (Ne.symm absent.1), ih absent.2, Option.map_map]
    rfl

theorem stripLast_append {front : List Char} {last feed : Char} (other : last ≠ feed)
    (line : List Char) :
    ∃ tail, (stripLast feed (front ++ [last] ++ line)).getD (front ++ [last] ++ line) =
      front ++ [last] ++ tail := by
  rcases List.eq_nil_or_concat line with rfl | ⟨inner, c, rfl⟩
  · have kept : stripLast feed (front ++ [last]) = none := if_neg (by simpa using other)
    exact ⟨[], by rw [List.append_nil, kept, Option.getD_none]⟩
  · rw [List.concat_eq_append, ← List.append_assoc, stripLast, List.getLast?_concat,
      List.dropLast_concat]
    split
    · exact ⟨inner, rfl⟩
    · exact ⟨inner ++ [c], by rw [Option.getD_none, List.append_assoc]⟩

/-- The first line begins like the text, up to a character that ends no line. -/
theorem firstLine_append {front : List Char} {last : Char} (noFeed : '\n' ∉ front ++ [last])
    (noReturn : last ≠ '\r') (rest : List Char) :
    ∃ tail, firstLine (front ++ [last] ++ rest) = some (front ++ [last] ++ tail) := by
  rw [firstLine, splitOnce_append_left noFeed]
  cases split : splitOnce '\n' rest with
  | none =>
    have shown : front ++ [last] ++ rest ≠ [] := by simp
    exact ⟨rest, if_neg shown⟩
  | some parts =>
    obtain ⟨tail, same⟩ := stripLast_append noReturn parts.1
    exact ⟨tail, congrArg some same⟩

/-! ## Unsigned integers -/

/-- `str::parse` of an unsigned integer: an optional plus sign and at least one digit. -/
def parseUnsigned (bits : Nat) (cs : List Char) : Option Nat :=
  let digits := (stripPrefix ['+'] cs).getD cs
  if digits ≠ [] ∧ digits.all Char.isDigit ∧ natOfDigits digits < 2 ^ bits then
    some (natOfDigits digits)
  else none

def parseU64 (cs : List Char) : Option UInt64 := (parseUnsigned 64 cs).map UInt64.ofNat

def parseU16 (cs : List Char) : Option UInt16 := (parseUnsigned 16 cs).map UInt16.ofNat

theorem stripPrefix_append (front back : List Char) :
    stripPrefix front (front ++ back) = some back := by
  rw [stripPrefix, if_pos (List.isPrefixOf_iff_prefix.mpr (List.prefix_append front back)),
    List.drop_left]

theorem stripPrefix_head {c d : Char} {rest : List Char} (other : c ≠ d) :
    stripPrefix [c] (d :: rest) = none := by
  refine if_neg ?_
  rw [List.isPrefixOf_iff_prefix, List.cons_prefix_cons]
  exact fun begins => other begins.1

theorem parseUnsigned_digits {bits : Nat} (digits : cs.all Char.isDigit = true)
    (nonempty : cs ≠ []) (fits : natOfDigits cs < 2 ^ bits) :
    parseUnsigned bits cs = some (natOfDigits cs) := by
  have plain : (stripPrefix ['+'] cs).getD cs = cs := by
    obtain ⟨d, rest, rfl⟩ := List.exists_cons_of_ne_nil nonempty
    have digit : d.isDigit = true := List.all_eq_true.mp digits d (.head rest)
    rw [stripPrefix_head (ne_of_class digit (by decide)).symm]
    rfl
  rw [parseUnsigned, plain]
  exact if_pos ⟨nonempty, digits, fits⟩

theorem parseUnsigned_natToChars {bits n : Nat} (fits : n < 2 ^ bits) :
    parseUnsigned bits (natToChars n) = some n := by
  have spelled := natOfDigits_natToChars n
  rw [parseUnsigned_digits (natToChars_digits n) (natToChars_ne n) (by rwa [spelled]), spelled]

theorem parseU64_natToChars (n : UInt64) : parseU64 (natToChars n.toNat) = some n := by
  rw [parseU64, parseUnsigned_natToChars n.toNat_lt, Option.map_some, UInt64.ofNat_toNat]

theorem parseU16_natToChars (n : UInt16) : parseU16 (natToChars n.toNat) = some n := by
  rw [parseU16, parseUnsigned_natToChars n.toNat_lt, Option.map_some, UInt16.ofNat_toNat]

end Rust
