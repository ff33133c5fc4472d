import Mathlib.Data.List.TakeWhile

/-! UTF-8 as decoders read it: a sequence that starts no character is replaced by U+FFFD, as
far as it could still have become one. ASCII bytes always stand for themselves. -/
namespace Utf8

def encode (cs : List Char) : List UInt8 := cs.flatMap String.utf8EncodeChar

def bytes (s : String) : List UInt8 := encode s.toList

def isContinuation (b : UInt8) : Bool := 0x80 ≤ b && b ≤ 0xBF

/-- How many bytes must follow a lead byte, and the range of the first of them. -/
def follow (lead : UInt8) : Nat × UInt8 × UInt8 :=
  if 0xC2 ≤ lead ∧ lead ≤ 0xDF then (1, 0x80, 0xBF)
  else if lead = 0xE0 then (2, 0xA0, 0xBF)
  else if lead = 0xED then (2, 0x80, 0x9F)
  else if 0xE1 ≤ lead ∧ lead ≤ 0xEF then (2, 0x80, 0xBF)
  else if lead = 0xF0 then (3, 0x90, 0xBF)
  else if 0xF1 ≤ lead ∧ lead ≤ 0xF3 then (3, 0x80, 0xBF)
  else if lead = 0xF4 then (3, 0x80, 0x8F)
  else (0, 0x80, 0xBF)

/-- What is replaced together with a lead byte that starts no character. -/
def malformedTail (lead : UInt8) (rest : List UInt8) : List UInt8 :=
  let (count, low, high) := follow lead
  match rest with
  | [] => []
  | second :: rest =>
    if 0 < count ∧ low ≤ second ∧ second ≤ high then
      second :: (rest.take (count - 1)).takeWhile isContinuation
    else []

def decodeFuel : Nat → List UInt8 → List Char
  | 0, _ | _, [] => []
  | fuel + 1, b :: rest =>
    match (b :: rest).toByteArray.utf8DecodeChar? 0 with
    | some c => c :: decodeFuel fuel ((b :: rest).drop c.utf8Size)
    | none => '\uFFFD' :: decodeFuel fuel (rest.drop (malformedTail b rest).length)

/-- Lossy decoding; every byte costs at most one turn. -/
def decode (bs : List UInt8) : List Char := decodeFuel bs.length bs

theorem decodeChar_encode (c : Char) (rest : List UInt8) :
    (String.utf8EncodeChar c ++ rest).toByteArray.utf8DecodeChar? 0 = some c := by
  rw [List.toByteArray_append]
  exact ByteArray.utf8DecodeChar?_utf8EncodeChar_append

theorem encode_of_decodeChar {bs : List UInt8} {c : Char}
    (read : bs.toByteArray.utf8DecodeChar? 0 = some c) :
    bs = String.utf8EncodeChar c ++ bs.drop c.utf8Size := by
  obtain ⟨rest, split⟩ := ByteArray.exists_of_utf8DecodeChar?_eq_some read
  have lists := congrArg (fun b : ByteArray => b.data.toList) split
  simp only [ByteArray.data_append, Array.toList_append, List.data_toByteArray] at lists
  have dropped := congrArg (List.drop c.utf8Size) lists
  rw [← String.length_utf8EncodeChar, List.drop_left, String.length_utf8EncodeChar] at dropped
  rw [dropped]
  exact lists

theorem decodeFuel_encode (cs : List Char) (fuel : Nat) (enough : (encode cs).length ≤ fuel) :
    decodeFuel fuel (encode cs) = cs := by
  induction cs generalizing fuel with
  | nil => cases fuel <;> rfl
  | cons c rest ih =>
    have size := c.utf8Size_pos
    have split : encode (c :: rest) = String.utf8EncodeChar c ++ encode rest := List.flatMap_cons
    rw [split, List.length_append, String.length_utf8EncodeChar] at enough
    obtain ⟨fuel, rfl⟩ : ∃ n, fuel = n + 1 := ⟨fuel - 1, by omega⟩
    have read := decodeChar_encode c (encode rest)
    have dropped : (String.utf8EncodeChar c ++ encode rest).drop c.utf8Size = encode rest := by
      rw [← String.length_utf8EncodeChar, List.drop_left]
    rw [split]
    cases whole : String.utf8EncodeChar c ++ encode rest with
    | nil => simp [String.utf8EncodeChar_ne_nil] at whole
    | cons b tail =>
      rw [whole] at read dropped
      rw [decodeFuel]
      simp only [read, dropped]
      rw [ih fuel (by omega)]

/-- The bytes that stand for a character by themselves. -/
def ascii (bs : List UInt8) : List UInt8 := bs.filter (· < 128)

theorem toNat_lt_of_isAlphanum {c : Char} (letter : c.isAlphanum = true) : c.toNat < 128 := by
  have below (high : Char) (ascii : high.toNat < 128) (bound : c.val ≤ high.val) : c.toNat < 128 :=
    Nat.lt_of_le_of_lt (UInt32.le_iff_toNat_le.1 bound) ascii
  rcases Bool.or_eq_true_iff.1 letter with alpha | digit
  · rcases Bool.or_eq_true_iff.1 alpha with upper | lower
    · exact below 'Z' (by decide) (of_decide_eq_true upper).2
    · exact below 'z' (by decide) (of_decide_eq_true (Bool.and_eq_true_iff.1 lower).2)
  · exact below '9' (by decide) (of_decide_eq_true (Bool.and_eq_true_iff.1 digit).2)

theorem ascii_append (xs ys : List UInt8) : ascii (xs ++ ys) = ascii xs ++ ascii ys :=
  List.filter_append ..

theorem ascii_eq_nil {bs : List UInt8} (high : ∀ b ∈ bs, 128 ≤ b) : ascii bs = [] := by
  simpa [ascii] using high

theorem decodeChar_ascii {b : UInt8} (low : b < 128) (rest : List UInt8) :
    ((b :: rest).toByteArray.utf8DecodeChar? 0).isSome := by
  have spelled : ∀ n < 128, String.utf8EncodeChar (Char.ofNat n) = [UInt8.ofNat n] := by decide
  have bound : b.toNat < 128 := by simpa [UInt8.lt_iff_toNat_lt] using low
  have read := decodeChar_encode (Char.ofNat b.toNat) rest
  rw [spelled b.toNat bound, UInt8.ofNat_toNat] at read
  exact Option.isSome_iff_exists.2 ⟨_, read⟩

theorem high_of_unread {b : UInt8} {rest : List UInt8}
    (unread : (b :: rest).toByteArray.utf8DecodeChar? 0 = none) : 128 ≤ b := by
  by_contra low
  have readable := decodeChar_ascii (UInt8.not_le.1 low) rest
  rw [unread] at readable
  cases readable

theorem malformedTail_isPrefix (lead : UInt8) (rest : List UInt8) :
    malformedTail lead rest <+: rest := by
  unfold malformedTail
  cases rest with
  | nil => exact List.nil_prefix
  | cons second rest =>
    dsimp only
    split
    · have inner := (List.takeWhile_prefix (l := rest.take ((follow lead).1 - 1)) isContinuation)
      exact List.cons_prefix_cons.2 ⟨rfl, inner.trans (List.take_prefix ..)⟩
    · exact List.nil_prefix

theorem follow_low (lead : UInt8) : 128 ≤ (follow lead).2.1 := by
  unfold follow
  split_ifs <;> decide

theorem malformedTail_high {lead : UInt8} {rest : List UInt8} {b : UInt8}
    (member : b ∈ malformedTail lead rest) : 128 ≤ b := by
  unfold malformedTail at member
  cases rest with
  | nil => simp at member
  | cons second rest =>
    dsimp only at member
    split at member
    case isFalse => simp at member
    case isTrue inside =>
      rcases List.mem_cons.1 member with rfl | later
      · exact UInt8.le_trans (follow_low lead) inside.2.1
      · have continued := List.mem_takeWhile_imp later
        simp only [isContinuation, Bool.and_eq_true, decide_eq_true_eq] at continued
        exact continued.1

theorem ascii_malformed {lead : UInt8} (high : 128 ≤ lead) (rest : List UInt8) :
    ascii (lead :: malformedTail lead rest) = [] := by
  apply ascii_eq_nil
  intro b member
  rcases List.mem_cons.1 member with rfl | later
  · exact high
  · exact malformedTail_high later

theorem ascii_decodeFuel (bs : List UInt8) (fuel : Nat) (enough : bs.length ≤ fuel) :
    ascii (encode (decodeFuel fuel bs)) = ascii bs := by
  induction fuel generalizing bs with
  | zero => rw [List.length_eq_zero_iff.1 (Nat.le_zero.1 enough)]; rfl
  | succ fuel ih =>
    cases bs with
    | nil => rfl
    | cons b rest =>
      rw [List.length_cons] at enough
      rw [decodeFuel]
      split
      · rename_i c read
        have size := c.utf8Size_pos
        have split := encode_of_decodeChar read
        rw [encode, List.flatMap_cons, ascii_append, ← encode,
          ih _ (by rw [List.length_drop, List.length_cons]; omega), ← ascii_append, ← split]
      · rename_i unread
        have cut := List.prefix_iff_eq_append.1 (malformedTail_isPrefix b rest)
        have shorter : (rest.drop (malformedTail b rest).length).length ≤ fuel := by
          rw [List.length_drop]
          omega
        have replaced : ascii (String.utf8EncodeChar '\uFFFD') = [] := by decide
        have whole : ascii (b :: rest) = ascii (rest.drop (malformedTail b rest).length) :=
          calc ascii (b :: rest)
              = ascii (b :: malformedTail b rest ++ rest.drop (malformedTail b rest).length) := by
                rw [List.cons_append, cut]
            _ = ascii (rest.drop (malformedTail b rest).length) := by
                rw [ascii_append, ascii_malformed (high_of_unread unread), List.nil_append]
        rw [whole, encode, List.flatMap_cons, ascii_append, ← encode, ih _ shorter, replaced,
          List.nil_append]

theorem ascii_decode (bs : List UInt8) : ascii (encode (decode bs)) = ascii bs :=
  ascii_decodeFuel bs _ (Nat.le_refl _)

theorem decode_encode (cs : List Char) : decode (encode cs) = cs :=
  decodeFuel_encode cs _ (Nat.le_refl _)

theorem bytes_append (s t : String) : bytes (s ++ t) = bytes s ++ bytes t := by
  rw [bytes, String.toList_append, encode, List.flatMap_append]
  rfl

theorem bytes_injective {s t : String} (same : bytes s = bytes t) : s = t := by
  have texts := congrArg decode same
  rw [bytes, bytes, decode_encode, decode_encode] at texts
  exact String.toList_inj.1 texts

/-! ### Strict decoding -/

/-- Strict decoding: the text whose encoding the bytes are. -/
def fromUtf8 (bs : List UInt8) : Option (List Char) :=
  if encode (decode bs) = bs then some (decode bs) else none

theorem fromUtf8_encode (cs : List Char) : fromUtf8 (encode cs) = some cs := by
  rw [fromUtf8, decode_encode, if_pos rfl]

theorem fromUtf8_eq_some_iff {bs : List UInt8} {cs : List Char} :
    fromUtf8 bs = some cs ↔ encode cs = bs := by
  constructor
  · intro read
    obtain ⟨same, text⟩ := Option.ite_none_right_eq_some.mp read
    rw [← Option.some.inj text]
    exact same
  · rintro rfl
    exact fromUtf8_encode cs

theorem encode_append (cs ds : List Char) : encode (cs ++ ds) = encode cs ++ encode ds :=
  List.flatMap_append

theorem encode_cons (c : Char) (cs : List Char) :
    encode (c :: cs) = String.utf8EncodeChar c ++ encode cs := List.flatMap_cons

theorem encode_injective {cs ds : List Char} (same : encode cs = encode ds) : cs = ds := by
  rw [← decode_encode cs, same, decode_encode]

theorem encode_eq_nil_iff {cs : List Char} : encode cs = [] ↔ cs = [] := by
  cases cs with
  | nil => simp [encode]
  | cons c cs => simp [encode_cons, String.utf8EncodeChar_ne_nil]

/-- No encoding goes on where another one ends. -/
theorem encode_append_inv {front cs : List Char} {back : List UInt8}
    (whole : encode cs = encode front ++ back) :
    ∃ rest, cs = front ++ rest ∧ encode rest = back := by
  induction front generalizing cs with
  | nil => exact ⟨cs, rfl, whole⟩
  | cons c front ih =>
    rw [encode_cons, List.append_assoc] at whole
    cases cs with
    | nil => simp [encode, String.utf8EncodeChar_ne_nil] at whole
    | cons d cs =>
      rw [encode_cons] at whole
      have left := decodeChar_encode d (encode cs)
      rw [whole, decodeChar_encode c] at left
      obtain rfl := Option.some.inj left
      obtain ⟨rest, rfl, same⟩ := ih (List.append_cancel_left whole)
      exact ⟨rest, rfl, same⟩

/-- Only a byte of its own stands for an ASCII character. -/
theorem encodeChar_ascii {c : Char} {b : UInt8} (member : b ∈ String.utf8EncodeChar c)
    (low : b < 128) : String.utf8EncodeChar c = [b] := by
  have high : ∀ n, 128 ≤ n → n < 256 → b ≠ UInt8.ofNat n := by
    rintro n least most rfl
    rw [UInt8.lt_iff_toNat_lt, UInt8.toNat_ofNat', Nat.mod_eq_of_lt most] at low
    exact absurd low (Nat.not_lt_of_le least)
  unfold String.utf8EncodeChar at member ⊢
  simp only at member ⊢
  split_ifs at member ⊢ with one two three
  · rw [List.mem_singleton.mp member]
  all_goals
    simp only [List.mem_cons, List.not_mem_nil, or_false] at member
  · rcases member with same | same
    all_goals exact absurd same (high _ (by omega) (by omega))
  · rcases member with same | same | same
    all_goals exact absurd same (high _ (by omega) (by omega))
  · rcases member with same | same | same | same
    all_goals exact absurd same (high _ (by omega) (by omega))

/-- Text is cut at an ASCII byte as its bytes are. -/
theorem split_at_ascii {cs : List Char} (front : List UInt8) {back : List UInt8} {b : UInt8}
    (low : b < 128) (split : encode cs = front ++ b :: back) :
    ∃ early c late, cs = early ++ c :: late ∧ encode early = front ∧
      String.utf8EncodeChar c = [b] ∧ encode late = back := by
  induction cs generalizing front with
  | nil => simp [encode] at split
  | cons c cs ih =>
    rw [encode_cons, List.append_eq_append_iff] at split
    rcases split with ⟨inner, rfl, rest⟩ | ⟨inner, whole, rest⟩
    · obtain ⟨early, d, late, rfl, rfl, own, later⟩ := ih inner rest
      exact ⟨c :: early, d, late, rfl, encode_cons c early, own, later⟩
    · cases inner with
      | nil =>
        rw [List.nil_append] at rest
        rw [List.append_nil] at whole
        obtain ⟨early, d, late, rfl, empty, own, later⟩ := ih [] rest.symm
        refine ⟨c :: early, d, late, rfl, ?_, own, later⟩
        rw [encode_cons, empty, List.append_nil, whole]
      | cons x inner =>
        obtain ⟨rfl, tail⟩ := List.cons.inj rest
        have own := encodeChar_ascii (by rw [whole]; simp) low
        rw [own] at whole
        have alone : front = [] ∧ inner = [] := by
          cases front with
          | nil => exact ⟨rfl, (List.cons.inj whole).2.symm⟩
          | cons y front => simp at whole
        obtain ⟨rfl, rfl⟩ := alone
        exact ⟨[], c, cs, rfl, rfl, own, tail.symm⟩

end Utf8
