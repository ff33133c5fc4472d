import Trolly.Std.Text

/-! Trimming, upper-casing and splitting: which of them leaves what alone. -/
namespace Rust

/-! ## Trimming -/

/-- No blank at either end. -/
def Trimmed (cs : List Char) : Prop :=
  (∀ c ∈ cs.head?, isWhitespace c = false) ∧ ∀ c ∈ cs.getLast?, isWhitespace c = false

theorem trimChars_within (cs : List Char) : trimChars cs <:+: cs := by
  have front : trimChars cs <+: cs.dropWhile isWhitespace := List.rdropWhile_prefix _ _
  exact front.isInfix.trans (List.dropWhile_suffix _).isInfix

theorem trimChars_trimmed (cs : List Char) : Trimmed (trimChars cs) := by
  constructor
  · intro c first
    have kept : trimChars cs <+: cs.dropWhile isWhitespace := List.rdropWhile_prefix _ _
    obtain ⟨rest, split⟩ := kept
    have head : (cs.dropWhile isWhitespace).head? = some c := by
      rw [← split, List.head?_append, first]
      rfl
    have found := List.head?_dropWhile_not isWhitespace cs
    rw [head] at found
    exact found
  · intro c last
    have nonempty : trimChars cs ≠ [] := by
      intro empty
      rw [empty] at last
      cases last
    have found := List.rdropWhile_last_not isWhitespace (cs.dropWhile isWhitespace) nonempty
    rw [List.getLast?_eq_some_getLast nonempty] at last
    cases last
    exact eq_false_of_ne_true found

theorem trimChars_eq_self {cs : List Char} (trimmed : Trimmed cs) : trimChars cs = cs := by
  have front : cs.dropWhile isWhitespace = cs := by
    rw [List.dropWhile_eq_self_iff]
    intro positive
    have first := trimmed.1 cs[0] (by rw [Option.mem_def, List.head?_eq_getElem?]; simp)
    simp [first]
  rw [trimChars, front, List.rdropWhile_eq_self_iff]
  intro nonempty
  have last := trimmed.2 (cs.getLast nonempty) (List.getLast?_eq_some_getLast nonempty)
  simp [last]

theorem trimChars_eq_self_iff {cs : List Char} : trimChars cs = cs ↔ Trimmed cs :=
  ⟨fun same => same ▸ trimChars_trimmed cs, trimChars_eq_self⟩

theorem trim_eq_self_iff {s : String} : trim s = s ↔ Trimmed s.toList := by
  rw [← String.toList_inj, trim, String.toList_ofList, trimChars_eq_self_iff]

theorem ne_nil_of_trim {s : String} (shown : trim s ≠ "") : trimChars s.toList ≠ [] := by
  intro empty
  exact shown (by rw [trim, empty])

/-! ## Splitting -/

theorem splitOnce_some {sep : Char} {cs front back : List Char}
    (split : splitOnce sep cs = some (front, back)) : cs = front ++ sep :: back := by
  induction cs generalizing front with
  | nil => cases split
  | cons c rest ih =>
    rw [splitOnce] at split
    split_ifs at split with here
    · cases split
      rw [here, List.nil_append]
    · obtain ⟨⟨inner, tail⟩, found, same⟩ := Option.map_eq_some_iff.mp split
      cases same
      rw [ih found, List.cons_append]

theorem not_mem_of_mem_splitOn {sep : Char} {cs part : List Char}
    (member : part ∈ cs.splitOn sep) : sep ∉ part := by
  induction cs generalizing part with
  | nil =>
    rw [List.splitOn_nil, List.mem_singleton] at member
    simp [member]
  | cons c rest ih =>
    rw [List.splitOn_cons_eq_if_modifyHead] at member
    split at member
    · rcases List.mem_cons.mp member with rfl | later
      · exact List.not_mem_nil
      · exact ih later
    · rename_i other
      cases parts : rest.splitOn sep with
      | nil => simp [parts] at member
      | cons first others =>
        rw [parts] at member ih
        rcases List.mem_cons.mp member with rfl | later
        · have absent := ih (.head others)
          rw [List.mem_cons, not_or]
          exact ⟨fun same => other (by simp [same]), absent⟩
        · exact ih (.tail first later)

theorem flatMap_intercalate {α β : Type} (f : α → List β) (x : α) (parts : List (List α)) :
    ([x].intercalate parts).flatMap f = (f x).intercalate (parts.map (List.flatMap f)) := by
  induction parts with
  | nil => rfl
  | cons part rest ih =>
    cases rest with
    | nil => simp
    | cons next rest =>
      rw [List.map_cons] at ih
      rw [List.intercalate_cons_cons, List.map_cons, List.map_cons, List.intercalate_cons_cons,
        ← ih, List.flatMap_append, List.flatMap_append]
      simp

/-! ## ASCII case -/

theorem folded_high {c : Char} (high : ¬c.toNat < 128) : c.toLower = c ∧ c.toUpper = c := by
  have z : 'z'.val.toNat = 122 ∧ 'Z'.val.toNat = 90 := by decide
  have bound : ¬c.val.toNat < 128 := high
  constructor
  · unfold Char.toLower
    refine dif_neg (fun upper => ?_)
    have below := UInt32.le_iff_toNat_le.mp upper.2
    omega
  · unfold Char.toUpper
    refine dif_neg (fun lower => ?_)
    have below := UInt32.le_iff_toNat_le.mp lower.2
    omega

theorem folded_again (c : Char) : c.toLower.toUpper = c.toUpper ∧ c.toUpper.toLower = c.toLower := by
  by_cases ascii : c.toNat < 128
  · have each : ∀ n < 128, (Char.ofNat n).toLower.toUpper = (Char.ofNat n).toUpper ∧
        (Char.ofNat n).toUpper.toLower = (Char.ofNat n).toLower := by decide
    have found := each c.toNat ascii
    rwa [Char.ofNat_toNat] at found
  · obtain ⟨lower, upper⟩ := folded_high ascii
    rw [lower, upper, lower]
    exact ⟨rfl, rfl⟩

theorem lower_eq_iff (s t : String) :
    toAsciiLowercase s = toAsciiLowercase t ↔ toAsciiUppercase s = toAsciiUppercase t := by
  have upper : Char.toUpper ∘ Char.toLower = Char.toUpper := funext (fun c => (folded_again c).1)
  have lower : Char.toLower ∘ Char.toUpper = Char.toLower := funext (fun c => (folded_again c).2)
  have up : ∀ s, toAsciiUppercase (toAsciiLowercase s) = toAsciiUppercase s := fun s => by
    rw [toAsciiUppercase, toAsciiLowercase, String.toList_ofList, List.map_map, upper,
      toAsciiUppercase]
  have down : ∀ s, toAsciiLowercase (toAsciiUppercase s) = toAsciiLowercase s := fun s => by
    rw [toAsciiLowercase, toAsciiUppercase, String.toList_ofList, List.map_map, lower,
      toAsciiLowercase]
  exact ⟨fun same => by rw [← up s, same, up t], fun same => by rw [← down s, same, down t]⟩

/-! ## Upper case -/

theorem ascii_of_all {s : String} (all : s.toList.all (·.toNat < 128) = true) :
    ∀ c ∈ s.toList, c.toNat < 128 := by
  simpa using all

namespace CaseTable

variable (table : CaseTable)

/-- What the Unicode table keeps to at a character: its upper case is not empty and is its
own upper case, a comma comes from a comma only, and blanks and no others become blanks. -/
structure Tame (c : Char) : Prop where
  nonempty : table.upper c ≠ []
  fixed : ∀ d ∈ table.upper c, table.upper d = [d]
  comma : ',' ∈ table.upper c → c = ','
  blank : ∀ d ∈ table.upper c, isWhitespace d = isWhitespace c

theorem tame_of_upper {c : Char} (upper : table.upper c = [c.toUpper])
    (again : table.upper c.toUpper = [c.toUpper]) (comma : c.toUpper = ',' → c = ',')
    (blank : isWhitespace c.toUpper = isWhitespace c) : table.Tame c where
  nonempty := by simp [upper]
  fixed := by simp [upper, again]
  comma := by
    rw [upper, List.mem_singleton]
    exact fun same => comma same.symm
  blank := by simp [upper, blank]

theorem toUpper_ascii {c : Char} (ascii : c.toNat < 128) :
    c.toUpper.toNat < 128 ∧ (c.toUpper = ',' → c = ',') ∧
      isWhitespace c.toUpper = isWhitespace c := by
  have each : ∀ n < 128, (Char.ofNat n).toUpper.toNat < 128 ∧
      ((Char.ofNat n).toUpper = ',' → Char.ofNat n = ',') ∧
        isWhitespace (Char.ofNat n).toUpper = isWhitespace (Char.ofNat n) := by decide
  have found := each c.toNat ascii
  rwa [Char.ofNat_toNat] at found

theorem tame_ascii {c : Char} (ascii : c.toNat < 128) : table.Tame c := by
  obtain ⟨bound, comma, blank⟩ := toUpper_ascii ascii
  refine table.tame_of_upper (table.ascii c ascii) ?_ comma blank
  rw [table.ascii _ bound, toUpper_idem]

theorem asciiOnly_tame (c : Char) : asciiOnly.Tame c := by
  by_cases ascii : c.toNat < 128
  · exact asciiOnly.tame_ascii ascii
  · have same : c.toUpper = c := by
      unfold Char.toUpper
      refine dif_neg (fun lower => ascii ?_)
      have z : 'z'.val.toNat = 122 := by decide
      have bound := UInt32.le_iff_toNat_le.mp lower.2
      rw [z] at bound
      exact Nat.lt_of_le_of_lt bound (by decide)
    exact asciiOnly.tame_of_upper rfl (congrArg (fun d => [d]) (toUpper_idem c))
      (fun comma => same ▸ comma) (by rw [same])

@[simp] theorem toUppercase_toList (s : String) :
    (table.toUppercase s).toList = s.toList.flatMap table.upper := String.toList_ofList

theorem toUppercase_ascii {s : String} (ascii : ∀ c ∈ s.toList, c.toNat < 128) :
    table.toUppercase s = toAsciiUppercase s := by
  rw [toUppercase, List.flatMap_congr (fun c member => table.ascii c (ascii c member)),
    ← List.map_eq_flatMap, toAsciiUppercase]

variable {table} {cs : List Char}

theorem upper_fixed (fixed : ∀ c ∈ cs, table.upper c = [c]) : cs.flatMap table.upper = cs := by
  rw [List.flatMap_congr fixed, List.flatMap_singleton']

theorem fixed_upper (tame : ∀ c ∈ cs, table.Tame c) :
    ∀ d ∈ cs.flatMap table.upper, table.upper d = [d] := by
  intro d member
  obtain ⟨c, inside, under⟩ := List.mem_flatMap.mp member
  exact (tame c inside).fixed d under

theorem toUpper_fixed {c : Char} (fixed : table.upper c = [c]) : c.toUpper = c := by
  by_cases ascii : c.toNat < 128
  · rw [table.ascii c ascii, List.cons.injEq] at fixed
    exact fixed.1
  · exact (folded_high ascii).2

theorem toUppercase_idem (tame : ∀ c, table.Tame c) (s : String) :
    table.toUppercase (table.toUppercase s) = table.toUppercase s := by
  have fixed : ∀ c ∈ (table.toUppercase s).toList, table.upper c = [c] := by
    rw [toUppercase_toList]
    exact fixed_upper (fun c _ => tame c)
  rw [toUppercase, upper_fixed fixed, String.ofList_toList]

theorem comma_of_upper (tame : ∀ c ∈ cs, table.Tame c) (comma : ',' ∈ cs.flatMap table.upper) :
    ',' ∈ cs := by
  obtain ⟨c, inside, under⟩ := List.mem_flatMap.mp comma
  exact (tame c inside).comma under ▸ inside

theorem upper_eq_nil_iff (tame : ∀ c ∈ cs, table.Tame c) :
    cs.flatMap table.upper = [] ↔ cs = [] := by
  rw [List.flatMap_eq_nil_iff]
  constructor
  · intro empty
    cases cs with
    | nil => rfl
    | cons c rest => exact absurd (empty c (.head _)) (tame c (.head _)).nonempty
  · rintro rfl
    simp

theorem trimmed_upper_iff (tame : ∀ c ∈ cs, table.Tame c) :
    Trimmed (cs.flatMap table.upper) ↔ Trimmed cs := by
  have ends : ∀ c ∈ cs, ∀ d ∈ table.upper c, isWhitespace d = false ↔ isWhitespace c = false :=
    fun c inside d under => by rw [(tame c inside).blank d under]
  refine and_congr ?_ ?_
  · cases cs with
    | nil => rfl
    | cons c rest =>
      obtain ⟨d, ds, upper⟩ := List.exists_cons_of_ne_nil (tame c (.head _)).nonempty
      simp [upper, ends c (.head _) d (by simp [upper])]
  · rcases List.eq_nil_or_concat cs with rfl | ⟨rest, c, rfl⟩
    · rfl
    · rw [List.concat_eq_append] at tame ends ⊢
      have inside : c ∈ rest ++ [c] := by simp
      obtain ⟨ds, d, upper⟩ := (List.eq_nil_or_concat _).resolve_left (tame c inside).nonempty
      rw [List.concat_eq_append] at upper
      simp [upper, ends c inside d (by simp [upper])]

/-- Upper-casing does not move the commas. -/
theorem splitOn_upper (lawful : ∀ c, table.Tame c) (cs : List Char) :
    (cs.flatMap table.upper).splitOn ',' = (cs.splitOn ',').map (List.flatMap table.upper) := by
  have comma : table.upper ',' = [','] := table.ascii ',' (by decide)
  have noComma : ∀ part ∈ (cs.splitOn ',').map (List.flatMap table.upper), ',' ∉ part := by
    intro part member inside
    obtain ⟨under, listed, rfl⟩ := List.mem_map.mp member
    exact not_mem_of_mem_splitOn listed (comma_of_upper (fun c _ => lawful c) inside)
  calc (cs.flatMap table.upper).splitOn ','
      = (([','].intercalate (cs.splitOn ',')).flatMap table.upper).splitOn ',' := by
        rw [List.intercalate_splitOn]
    _ = ([','].intercalate ((cs.splitOn ',').map (List.flatMap table.upper))).splitOn ',' := by
        rw [flatMap_intercalate, comma]
    _ = (cs.splitOn ',').map (List.flatMap table.upper) :=
        List.splitOn_intercalate ',' noComma (by simp [List.splitOn_ne_nil])

end CaseTable

end Rust
