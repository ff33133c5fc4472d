import Trolly.Lib.Utf8
import Mathlib.Data.List.Basic

/-! Reading application/x-www-form-urlencoded bytes, and when `key=value` pairs that were
joined without any escaping are read back as they were. -/
namespace FormUrlencoded

open Utf8

def hexValue (b : UInt8) : Option UInt8 :=
  if 0x30 ≤ b ∧ b ≤ 0x39 then some (b - 0x30)
  else if 0x41 ≤ b ∧ b ≤ 0x46 then some (b - 0x37)
  else if 0x61 ≤ b ∧ b ≤ 0x66 then some (b - 0x57)
  else none

/-- The byte that `%` and two hexadecimal digits stand for. -/
def escape (b high low : UInt8) : Option UInt8 :=
  if b = 0x25 then
    (hexValue high).bind (fun h => (hexValue low).map (fun l => h * 16 + l))
  else none

/-- A `%` that no two digits follow stands for itself. -/
def percentDecode : List UInt8 → List UInt8
  | b :: high :: low :: rest =>
    match escape b high low with
    | some byte => byte :: percentDecode rest
    | none => b :: percentDecode (high :: low :: rest)
  | bs => bs

def hasEscape : List UInt8 → Bool
  | b :: high :: low :: rest => (escape b high low).isSome || hasEscape (high :: low :: rest)
  | _ => false

def plusToSpace (bs : List UInt8) : List UInt8 := bs.map (fun b => if b = 0x2B then 0x20 else b)

def decodeText (bs : List UInt8) : String :=
  String.ofList (decode (percentDecode (plusToSpace bs)))

/-- A piece without `=` is a name with an empty value. -/
def decodePair (piece : List UInt8) : String × String :=
  (decodeText (piece.takeWhile (· ≠ 0x3D)), decodeText ((piece.dropWhile (· ≠ 0x3D)).drop 1))

def parse (bs : List UInt8) : List (String × String) :=
  ((bs.splitOn 0x26).filter (· ≠ [])).map decodePair

def pair (entry : String × String) : List UInt8 := bytes entry.1 ++ 0x3D :: bytes entry.2

def join (entries : List (String × String)) : List UInt8 := [0x26].intercalate (entries.map pair)

/-- Text that means itself between the separators: no `&`, no `+`, no escape. -/
def Plain (bs : List UInt8) : Prop := 0x26 ∉ bs ∧ 0x2B ∉ bs ∧ hasEscape bs = false

instance (bs : List UInt8) : Decidable (Plain bs) := inferInstanceAs (Decidable (_ ∧ _ ∧ _))

theorem hexValue_low {b value : UInt8} (digit : hexValue b = some value) : b < 128 := by
  unfold hexValue at digit
  split_ifs at digit with decimal upper lower
  · exact UInt8.lt_of_le_of_lt decimal.2 (by decide)
  · exact UInt8.lt_of_le_of_lt upper.2 (by decide)
  · exact UInt8.lt_of_le_of_lt lower.2 (by decide)

theorem escape_ascii {b high low value : UInt8} (read : escape b high low = some value) :
    ascii [b, high, low] = [b, high, low] := by
  unfold escape at read
  split_ifs at read with percent
  obtain ⟨h, upper, rest⟩ := Option.bind_eq_some_iff.1 read
  obtain ⟨l, lower, rfl⟩ := Option.map_eq_some_iff.1 rest
  have first := hexValue_low upper
  have second := hexValue_low lower
  simp [ascii, percent, first, second]

theorem percentDecode_plain {bs : List UInt8} (plain : hasEscape bs = false) :
    percentDecode bs = bs := by
  fun_induction percentDecode bs with
  | case1 b high low rest byte read _ => simp [hasEscape, read] at plain
  | case2 b high low rest unread ih =>
    rw [hasEscape, unread] at plain
    rw [ih (by simpa using plain)]
  | case3 bs short => rfl

/-- Each escape leaves fewer ASCII bytes than it had. -/
theorem ascii_percentDecode (bs : List UInt8) :
    (ascii (percentDecode bs)).length + (hasEscape bs).toNat ≤ (ascii bs).length := by
  fun_induction percentDecode bs with
  | case1 b high low rest byte read ih =>
    have split : b :: high :: low :: rest = [b, high, low] ++ rest := rfl
    have decoded : byte :: percentDecode rest = [byte] ++ percentDecode rest := rfl
    have single : (ascii [byte]).length ≤ 1 := List.length_filter_le ..
    have escaped : (hasEscape (b :: high :: low :: rest)).toNat = 1 := by simp [hasEscape, read]
    rw [escaped, split, decoded, ascii_append, ascii_append, escape_ascii read]
    simp only [List.length_append, List.length_cons, List.length_nil]
    omega
  | case2 b high low rest unread ih =>
    have split (tail : List UInt8) : b :: tail = [b] ++ tail := rfl
    have escaped : hasEscape (b :: high :: low :: rest) = hasEscape (high :: low :: rest) := by
      rw [hasEscape, unread, Option.isSome_none, Bool.false_or]
    rw [escaped, split, split (high :: low :: rest), ascii_append, ascii_append]
    simp only [List.length_append]
    omega
  | case3 bs short =>
    have unescaped : hasEscape bs = false := by
      unfold hasEscape
      split
      · exact absurd rfl (short _ _ _ _)
      · rfl
    rw [unescaped]
    exact Nat.le_refl _

theorem plus_not_mem (bs : List UInt8) : 0x2B ∉ plusToSpace bs := by
  intro member
  obtain ⟨b, _, same⟩ := List.mem_map.1 member
  split_ifs at same with plus
  · cases same
  · exact plus same

theorem plusToSpace_eq {bs : List UInt8} (absent : 0x2B ∉ bs) : plusToSpace bs = bs := by
  have kept : ∀ b ∈ bs, (if b = 0x2B then 0x20 else b) = id b :=
    fun b member => if_neg (fun plus : b = 0x2B => absent (plus ▸ member))
  rw [plusToSpace, List.map_congr_left kept, List.map_id]

theorem ascii_plusToSpace (bs : List UInt8) :
    (ascii (plusToSpace bs)).length = (ascii bs).length := by
  have kept : ∀ b : UInt8, decide ((if b = 0x2B then 0x20 else b) < 128) = decide (b < 128) := by
    intro b
    split_ifs with plus
    · subst plus
      rfl
    · rfl
  simp only [ascii, plusToSpace, List.filter_map, List.length_map, Function.comp_def, kept]

theorem ascii_decodeText (bs : List UInt8) :
    ascii (bytes (decodeText bs)) = ascii (percentDecode (plusToSpace bs)) := by
  rw [bytes, decodeText, String.toList_ofList, ascii_decode]

theorem ascii_decodeText_length (bs : List UInt8) :
    (ascii (bytes (decodeText bs))).length + (hasEscape (plusToSpace bs)).toNat ≤
      (ascii bs).length := by
  rw [ascii_decodeText, ← ascii_plusToSpace bs]
  exact ascii_percentDecode (plusToSpace bs)

theorem plain_of_free {bs : List UInt8} (free : ∀ b ∈ bs, b ≠ 0x25 ∧ b ≠ 0x26 ∧ b ≠ 0x2B) :
    Plain bs := by
  refine ⟨fun member => (free _ member).2.1 rfl, fun member => (free _ member).2.2 rfl, ?_⟩
  fun_induction hasEscape bs with
  | case1 b high low rest ih =>
    obtain ⟨first, later⟩ := List.forall_mem_cons.1 free
    rw [ih later, escape, if_neg first.1]
    rfl
  | case2 bs short => rfl

theorem plain_of_alphanum {cs : List Char} (all : ∀ c ∈ cs, c.isAlphanum) : Plain (encode cs) := by
  have letters : ∀ n < 128, (Char.ofNat n).isAlphanum → ∀ b ∈ String.utf8EncodeChar (Char.ofNat n),
      b ≠ 0x25 ∧ b ≠ 0x26 ∧ b ≠ 0x2B := by decide +kernel
  refine plain_of_free (fun b member => ?_)
  obtain ⟨c, listed, spelled⟩ := List.mem_flatMap.1 member
  have letter := all c listed
  have bound := toNat_lt_of_isAlphanum letter
  rw [← Char.ofNat_toNat c] at letter spelled
  exact letters c.toNat bound letter b spelled

theorem decodeText_plain {s : String} (plain : Plain (bytes s)) : decodeText (bytes s) = s := by
  obtain ⟨-, noPlus, noEscape⟩ := plain
  rw [decodeText, plusToSpace_eq noPlus, percentDecode_plain noEscape, bytes, decode_encode,
    String.ofList_toList]

theorem plain_of_decodeText {s : String} (single : 0x26 ∉ bytes s)
    (kept : decodeText (bytes s) = s) : Plain (bytes s) := by
  have bound := ascii_decodeText_length (bytes s)
  rw [kept] at bound
  have noEscape : hasEscape (plusToSpace (bytes s)) = false := by
    cases escaped : hasEscape (plusToSpace (bytes s)) with
    | false => rfl
    | true =>
      rw [escaped, Bool.toNat_true] at bound
      omega
  have skeleton := ascii_decodeText (bytes s)
  rw [kept, percentDecode_plain noEscape] at skeleton
  have noPlus : 0x2B ∉ bytes s := by
    intro member
    have counted : (0x2B : UInt8) ∈ ascii (bytes s) := List.mem_filter.2 ⟨member, rfl⟩
    rw [skeleton] at counted
    exact plus_not_mem _ (List.mem_filter.1 counted).1
  rw [plusToSpace_eq noPlus] at noEscape
  exact ⟨single, noPlus, noEscape⟩

theorem parse_append (xs ys : List UInt8) : parse (xs ++ 0x26 :: ys) = parse xs ++ parse ys := by
  simp only [parse, List.splitOn_append_cons_self, List.filter_append, List.map_append]

theorem parse_single {piece : List UInt8} (single : 0x26 ∉ piece) (nonempty : piece ≠ []) :
    parse piece = [decodePair piece] := by
  simp [parse, List.splitOn_eq_singleton single, nonempty]

def IsName (name : String) : Prop := Plain (bytes name) ∧ 0x3D ∉ bytes name

instance (name : String) : Decidable (IsName name) := inferInstanceAs (Decidable (_ ∧ _))

theorem decodePair_named {name : String} (isName : IsName name) (value : List UInt8) :
    decodePair (bytes name ++ 0x3D :: value) = (name, decodeText value) := by
  have before : ∀ b ∈ bytes name, decide (b ≠ 0x3D) = true :=
    fun b member => decide_eq_true (fun same => isName.2 (same ▸ member))
  rw [decodePair, List.takeWhile_append_of_pos before, List.dropWhile_append_of_pos before]
  simp [decodeText_plain isName.1]

theorem parse_named {name : String} (isName : IsName name) {value : List UInt8}
    (single : 0x26 ∉ value) : parse (bytes name ++ 0x3D :: value) = [(name, decodeText value)] := by
  have noSeparator : 0x26 ∉ bytes name ++ 0x3D :: value := by
    simp [isName.1.1, single]
  rw [parse_single noSeparator (by simp), decodePair_named isName]

theorem join_single (entry : String × String) : join [entry] = pair entry := by
  rw [join, List.map_singleton, List.intercalate_singleton]

theorem join_cons_cons (entry next : String × String) (rest : List (String × String)) :
    join (entry :: next :: rest) = pair entry ++ 0x26 :: join (next :: rest) := by
  rw [join, List.map_cons, List.map_cons, List.intercalate_cons_cons, List.append_assoc,
    List.singleton_append, join, List.map_cons]

theorem parse_join (entries : List (String × String)) :
    parse (join entries) = entries.flatMap (fun entry => parse (pair entry)) := by
  induction entries with
  | nil => rfl
  | cons entry rest ih =>
    cases rest with
    | nil => rw [join_single, List.flatMap_singleton]
    | cons next rest => rw [List.flatMap_cons, ← ih, join_cons_cons, parse_append]

theorem pair_single {entry : String × String} (isName : IsName entry.1)
    (plain : Plain (bytes entry.2)) : 0x26 ∉ pair entry := by
  simp [pair, isName.1.1, plain.1]

theorem parse_pair_plain {entry : String × String} (isName : IsName entry.1)
    (plain : Plain (bytes entry.2)) : parse (pair entry) = [entry] := by
  rw [pair, parse_named isName plain.1, decodeText_plain plain]

/-- What a pair is read as starts with its name and what precedes the first `&` in its value. -/
theorem parse_pair {entry : String × String} (isName : IsName entry.1) :
    ∃ front more, parse (pair entry) = (entry.1, decodeText front) :: more ∧
      (bytes entry.2 = front ∧ 0x26 ∉ front ∨ ∃ back, bytes entry.2 = front ++ 0x26 :: back) := by
  by_cases single : 0x26 ∈ bytes entry.2
  · obtain ⟨front, back, split, absent⟩ := List.eq_append_cons_of_mem single
    refine ⟨front, parse back, ?_, .inr ⟨back, split⟩⟩
    rw [pair, split, ← List.cons_append, ← List.append_assoc, parse_append,
      parse_named isName absent, List.singleton_append]
  · exact ⟨bytes entry.2, [], by rw [pair, parse_named isName single], .inl ⟨rfl, single⟩⟩

theorem plain_of_parse_pair {entry : String × String} (isName : IsName entry.1)
    (read : parse (pair entry) = [entry]) : Plain (bytes entry.2) := by
  obtain ⟨front, more, parsed, split⟩ := parse_pair isName
  rw [parsed, List.cons.injEq] at read
  have kept : decodeText front = entry.2 := congrArg Prod.snd read.1
  rcases split with ⟨whole, absent⟩ | ⟨back, split⟩
  · exact plain_of_decodeText (whole ▸ absent) (whole ▸ kept)
  · have bound := ascii_decodeText_length front
    have separator : ascii (0x26 :: back) = 0x26 :: ascii back := rfl
    rw [kept, split, ascii_append, separator, List.length_append, List.length_cons] at bound
    omega

theorem length_le_flatMap {α : Type} {read : α → List α} {xs : List α}
    (some : ∀ x ∈ xs, read x ≠ []) : xs.length ≤ (xs.flatMap read).length := by
  induction xs with
  | nil => exact Nat.le_refl _
  | cons x xs ih =>
    have head := List.length_pos_iff.2 (some x List.mem_cons_self)
    have tail := ih (fun y member => some y (List.mem_cons_of_mem _ member))
    rw [List.flatMap_cons, List.length_append, List.length_cons]
    omega

theorem flatMap_fixed {α : Type} {read : α → List α} {xs : List α}
    (some : ∀ x ∈ xs, read x ≠ []) (fixed : xs.flatMap read = xs) :
    ∀ x ∈ xs, read x = [x] := by
  induction xs with
  | nil => simp
  | cons x xs ih =>
    have later := fun y member => some y (List.mem_cons_of_mem x member)
    have enough := length_le_flatMap later
    rw [List.flatMap_cons] at fixed
    cases first : read x with
    | nil => exact absurd first (some x List.mem_cons_self)
    | cons head more =>
      rw [first, List.cons_append, List.cons.injEq] at fixed
      have lengths := congrArg List.length fixed.2
      rw [List.length_append] at lengths
      have done : more = [] := List.length_eq_zero_iff.1 (by omega)
      subst done
      intro y member
      rcases List.mem_cons.1 member with rfl | tail
      · rw [first, fixed.1]
      · exact ih later fixed.2 y tail

/-- Unescaped pairs are read back as they were exactly when every value is plain. -/
theorem parse_join_iff {entries : List (String × String)}
    (names : ∀ entry ∈ entries, IsName entry.1) :
    parse (join entries) = entries ↔ ∀ entry ∈ entries, Plain (bytes entry.2) := by
  rw [parse_join]
  constructor
  · intro fixed entry member
    have nonempty : ∀ e ∈ entries, parse (pair e) ≠ [] := by
      intro e listed
      obtain ⟨front, more, parsed, -⟩ := parse_pair (names e listed)
      rw [parsed]
      exact List.cons_ne_nil _ _
    exact plain_of_parse_pair (names entry member) (flatMap_fixed nonempty fixed entry member)
  · intro plain
    have single : ∀ e ∈ entries, parse (pair e) = [e] :=
      fun e member => parse_pair_plain (names e member) (plain e member)
    rw [List.flatMap_congr single, List.flatMap_singleton']

theorem count_join (first : String × String) (rest : List (String × String)) :
    (join (first :: rest)).count 0x26 =
      rest.length + ((first :: rest).flatMap pair).count 0x26 := by
  induction rest generalizing first with
  | nil => simp [join_single]
  | cons next rest ih =>
    have pieces :
        (first :: next :: rest).flatMap pair = pair first ++ (next :: rest).flatMap pair :=
      List.flatMap_cons
    rw [join_cons_cons, List.count_append, List.count_cons_self, ih next, pieces,
      List.count_append, List.length_cons]
    omega

theorem join_cons (entry : String × String) (rest : List (String × String)) :
    ∃ tail, join (entry :: rest) = pair entry ++ tail := by
  cases rest with
  | nil => exact ⟨[], by rw [join_single, List.append_nil]⟩
  | cons next rest => exact ⟨_, join_cons_cons entry next rest⟩

theorem join_concat (entries : List (String × String)) (last : String × String) :
    ∃ front, join (entries ++ [last]) = front ++ pair last := by
  induction entries with
  | nil => exact ⟨[], join_single last⟩
  | cons entry rest ih =>
    obtain ⟨front, split⟩ := ih
    cases found : rest ++ [last] with
    | nil => simp at found
    | cons next tail =>
      rw [found] at split
      refine ⟨pair entry ++ 0x26 :: front, ?_⟩
      rw [List.cons_append, found, join_cons_cons, split, List.append_assoc, List.cons_append]

theorem no_separator_iff (entries : List (String × String)) :
    (entries.flatMap pair).count 0x26 = 0 ↔ ∀ entry ∈ entries, 0x26 ∉ pair entry := by
  simp [List.count_eq_zero, List.mem_flatMap]

theorem pair_injective {entry other : String × String} (named : entry.1 = other.1)
    (same : pair entry = pair other) : entry = other := by
  rw [pair, pair, named, List.append_cancel_left_eq, List.cons.injEq] at same
  exact Prod.ext named (bytes_injective same.2)

theorem map_pair_injective {entries others : List (String × String)}
    (names : entries.map Prod.fst = others.map Prod.fst)
    (pieces : entries.map pair = others.map pair) : entries = others := by
  induction entries generalizing others with
  | nil => exact (List.map_eq_nil_iff.1 names.symm).symm
  | cons entry rest ih =>
    cases others with
    | nil => cases names
    | cons other rest' =>
      rw [List.map_cons, List.map_cons, List.cons.injEq] at names pieces
      rw [pair_injective names.1 pieces.1, ih names.2 pieces.2]

/-- Under the same names, pairs without a stray `&` come from one joined text only. -/
theorem join_injective {entries others : List (String × String)}
    (names : entries.map Prod.fst = others.map Prod.fst)
    (single : ∀ entry ∈ entries, 0x26 ∉ pair entry) (same : join entries = join others) :
    entries = others := by
  have lengths : entries.length = others.length := by
    simpa using congrArg List.length names
  cases entries with
  | nil => exact (List.length_eq_zero_iff.1 lengths.symm).symm
  | cons first rest =>
    obtain ⟨first', rest', rfl⟩ := List.exists_cons_of_length_eq_add_one lengths.symm
    have counts := congrArg (List.count 0x26) same
    rw [count_join, count_join, (no_separator_iff _).2 single] at counts
    simp only [List.length_cons] at lengths
    have otherSingle := (no_separator_iff (first' :: rest')).1 (by omega)
    have pieces := congrArg (List.splitOn 0x26) same
    rw [join, join, List.splitOn_intercalate 0x26 (List.forall_mem_map.2 single) (by simp),
      List.splitOn_intercalate 0x26 (List.forall_mem_map.2 otherSingle) (by simp)] at pieces
    exact map_pair_injective names pieces

end FormUrlencoded
