import Trolly.Std.Casing
import Trolly.Std.Split

/-! The text of a book, `update_id: N, bids: [p:q, ...], asks:[p:q, ...]`, and its reader:
a split, a scan for the bracket that closes the bids, and a search for `price:qty` pairs. -/
namespace Trolly.Tui

open Rust

/-! ### The reader -/

/-- What stands before the id, the bids and the asks. -/
def UPDATE_ID : List Char := "update_id: ".toList

def BIDS : List Char := ", bids: ".toList

def ASKS : List Char := ", asks:".toList

abbrev TextLevel := String × String

/-- The class `[0-9.eE+-]`. -/
def isLevelChar (c : Char) : Bool :=
  c.isDigit || c == '.' || c == 'e' || c == 'E' || c == '+' || c == '-'

/-- A match of `[0-9.eE+-]+:[0-9.eE+-]+` at the front. A colon is not in the class, so the
longest run before it is the only one that can match. -/
def matchLevel (cs : List Char) : Option (List Char × List Char) :=
  let p := cs.takeWhile isLevelChar
  match p, cs.dropWhile isLevelChar with
  | [], _ => none
  | _, ':' :: rest =>
    let q := rest.takeWhile isLevelChar
    if q = [] then none else some (p, q)
  | _, _ => none

/-- `captures_iter`, leftmost first: the number is of characters that the last match used. -/
def capturesIter : Nat → List Char → List (List Char × List Char)
  | _, [] => []
  | used + 1, _ :: rest => capturesIter used rest
  | 0, c :: rest =>
    match matchLevel (c :: rest) with
    | some (p, q) => (p, q) :: capturesIter (p.length + q.length) rest
    | none => capturesIter 0 rest

def tuplesFromSide (inner : List Char) : List TextLevel :=
  (capturesIter 0 inner).map (fun (p, q) => (String.ofList p, String.ofList q))

def trimStart (cs : List Char) : List Char := cs.dropWhile isWhitespace

/-- The scan of `split_bids_asks_sections`: `depth` brackets are open and `seen` was read. -/
def scanSections (depth : Nat) (seen : List Char) : List Char → Option (List Char × List Char)
  | [] => none
  | '[' :: rest => scanSections (depth + 1) (seen ++ ['[']) rest
  | ']' :: rest =>
    match depth with
    | 0 => none
    | 1 => do
      let bidsInner := seen.drop 1
      let tail ← stripPrefix ASKS (trimStart rest)
      let asksInner ← stripLast ']' (← stripPrefix ['['] (trimStart tail))
      return (bidsInner, asksInner)
    | depth + 1 => scanSections depth (seen ++ [']']) rest
  | c :: rest => scanSections depth (seen ++ [c]) rest

def splitBidsAsksSections (s : List Char) : Option (List Char × List Char) :=
  if s.head? = some '[' then scanSections 0 [] s else none

def parseBookDisplay (s : String) : Option (UInt64 × List TextLevel × List TextLevel) := do
  let (idS, afterBidsKw) ← splitOnceText BIDS (trimChars s.toList)
  let idS ← stripPrefix UPDATE_ID idS
  let id ← parseU64 idS
  let (bidsInner, asksInner) ← splitBidsAsksSections (trimStart afterBidsKw)
  return (id, tuplesFromSide bidsInner, tuplesFromSide asksInner)

/-! ### The text -/

def levelText (level : TextLevel) : List Char := level.1.toList ++ ':' :: level.2.toList

/-- The levels of a side, a comma and a blank between them. -/
def sideText (levels : List TextLevel) : List Char := [',', ' '].intercalate (levels.map levelText)

def bookText (id : UInt64) (bids asks : List TextLevel) : String :=
  String.ofList (UPDATE_ID ++ natToChars id.toNat ++ BIDS ++
    '[' :: sideText bids ++ ']' :: ASKS ++ '[' :: sideText asks ++ [']'])

/-- A price or a quantity as a book prints it. -/
structure Token where
  text : String
  nonempty : text ≠ ""
  plain : ∀ c ∈ text.toList, isLevelChar c = true

def Token.texts (levels : List (Token × Token)) : List TextLevel :=
  levels.map (fun (p, q) => (p.text, q.text))

/-! ### The pairs of a side -/

theorem capturesIter_drop (n : Nat) (cs : List Char) :
    capturesIter n cs = capturesIter 0 (cs.drop n) := by
  induction cs generalizing n with
  | nil => rw [List.drop_nil, capturesIter, capturesIter]
  | cons c rest ih =>
    cases n with
    | zero => rfl
    | succ n => rw [capturesIter, ih n, List.drop_succ_cons]

section Level

variable {p q rest : List Char}

/-- The characters of a token. -/
def Plain (cs : List Char) : Prop := cs ≠ [] ∧ ∀ c ∈ cs, isLevelChar c = true

/-- What follows a level does not prolong its quantity. -/
def Ends (rest : List Char) : Prop := ∀ c ∈ rest.head?, isLevelChar c = false

theorem matchLevel_level (price : Plain p) (qty : Plain q) (ends : Ends rest) :
    matchLevel (p ++ ':' :: (q ++ rest)) = some (p, q) := by
  have colon : Ends (':' :: (q ++ rest)) := by
    rintro c ⟨⟩
    rfl
  have front : (p ++ ':' :: (q ++ rest)).takeWhile isLevelChar = p :=
    takeWhile_front price.2 colon
  have back : (p ++ ':' :: (q ++ rest)).dropWhile isLevelChar = ':' :: (q ++ rest) :=
    dropWhile_front price.2 colon
  have second : (q ++ rest).takeWhile isLevelChar = q := takeWhile_front qty.2 ends
  obtain ⟨c, cs, rfl⟩ := List.exists_cons_of_ne_nil price.1
  simp only [matchLevel, front, back, second, if_neg qty.1]

theorem capturesIter_level (price : Plain p) (qty : Plain q) (ends : Ends rest) :
    capturesIter 0 (p ++ ':' :: (q ++ rest)) = (p, q) :: capturesIter 0 rest := by
  have found := matchLevel_level price qty ends
  obtain ⟨c, cs, rfl⟩ := List.exists_cons_of_ne_nil price.1
  have used : (cs ++ ':' :: (q ++ rest)).drop ((c :: cs).length + q.length) = rest := by
    have split : cs ++ ':' :: (q ++ rest) = (cs ++ ':' :: q) ++ rest := by simp
    have length : (c :: cs).length + q.length = (cs ++ ':' :: q).length := by
      simp only [List.length_cons, List.length_append]
      omega
    rw [split, length, List.drop_left]
  rw [List.cons_append] at found ⊢
  simp only [capturesIter, found]
  rw [capturesIter_drop, used]

end Level

theorem Token.plain_toList (token : Token) : Plain token.text.toList :=
  ⟨fun empty => token.nonempty (String.toList_eq_nil_iff.mp empty), token.plain⟩

theorem capturesIter_sideText (levels : List (Token × Token)) :
    capturesIter 0 (sideText (Token.texts levels)) =
      levels.map (fun (p, q) => (p.text.toList, q.text.toList)) := by
  induction levels with
  | nil => rfl
  | cons level levels ih =>
    obtain ⟨p, q⟩ := level
    cases levels with
    | nil =>
      have ends : Ends [] := fun c none => nomatch none
      have read := capturesIter_level p.plain_toList q.plain_toList ends
      simpa [sideText, Token.texts, levelText, capturesIter] using read
    | cons next levels =>
      let later := sideText (Token.texts (next :: levels))
      have ends : Ends (',' :: ' ' :: later) := by
        rintro c ⟨⟩
        rfl
      have whole : sideText (Token.texts ((p, q) :: next :: levels)) =
          p.text.toList ++ ':' :: (q.text.toList ++ ',' :: ' ' :: later) := by
        simp [later, sideText, Token.texts, levelText, List.intercalate_cons_cons]
      have blanks : capturesIter 0 (',' :: ' ' :: later) = capturesIter 0 later := rfl
      rw [whole, capturesIter_level p.plain_toList q.plain_toList ends, blanks, ih]
      rfl

theorem tuplesFromSide_sideText (levels : List (Token × Token)) :
    tuplesFromSide (sideText (Token.texts levels)) = Token.texts levels := by
  rw [tuplesFromSide, capturesIter_sideText, List.map_map, Token.texts]
  refine List.map_congr_left (fun level _ => ?_)
  simp

/-! ### The brackets -/

theorem isLevelChar_ne {c : Char} (plain : isLevelChar c = true) : c ≠ '[' ∧ c ≠ ']' :=
  ⟨ne_of_class plain (by decide), ne_of_class plain (by decide)⟩

def NoBracket (cs : List Char) : Prop := ∀ c ∈ cs, c ≠ '[' ∧ c ≠ ']'

theorem sideText_noBracket (levels : List (Token × Token)) :
    NoBracket (sideText (Token.texts levels)) := by
  induction levels with
  | nil => exact fun c member => nomatch member
  | cons level levels ih =>
    obtain ⟨p, q⟩ := level
    have first : NoBracket (levelText (p.text, q.text)) := by
      intro c member
      rcases List.mem_append.mp member with price | rest
      · exact isLevelChar_ne (p.plain c price)
      · rcases List.mem_cons.mp rest with rfl | qty
        · decide
        · exact isLevelChar_ne (q.plain c qty)
    cases levels with
    | nil => simpa [sideText, Token.texts] using first
    | cons next levels =>
      have whole : sideText (Token.texts ((p, q) :: next :: levels)) =
          levelText (p.text, q.text) ++ [',', ' '] ++ sideText (Token.texts (next :: levels)) := by
        simp [sideText, Token.texts, List.intercalate_cons_cons]
      intro c member
      rw [whole, List.mem_append, List.mem_append] at member
      rcases member with (inside | blank) | later
      · exact first c inside
      · have each : NoBracket [',', ' '] := by
          intro d
          simp only [List.mem_cons, List.not_mem_nil, or_false]
          rintro (rfl | rfl) <;> decide
        exact each c blank
      · exact ih c later

theorem scanSections_plain {cs : List Char} (plain : NoBracket cs) (depth : Nat)
    (seen rest : List Char) :
    scanSections depth seen (cs ++ rest) = scanSections depth (seen ++ cs) rest := by
  induction cs generalizing seen with
  | nil => rw [List.nil_append, List.append_nil]
  | cons c cs ih =>
    obtain ⟨notOpen, notClose⟩ := plain c (.head cs)
    rw [List.cons_append, scanSections.eq_6 _ _ _ _ notOpen notClose,
      ih (fun d later => plain d (.tail c later)), List.append_assoc, List.singleton_append]

theorem stripLast_concat (cs : List Char) (last : Char) :
    stripLast last (cs ++ [last]) = some cs := by
  simp [stripLast]

theorem trimStart_cons {c : Char} {cs : List Char} (shown : isWhitespace c = false) :
    trimStart (c :: cs) = c :: cs := by
  simp [trimStart, shown]

theorem splitBidsAsksSections_text {bids : List Char} (plain : NoBracket bids)
    (asks : List Char) :
    splitBidsAsksSections ('[' :: (bids ++ ']' :: (ASKS ++ '[' :: (asks ++ [']'])))) =
      some (bids, asks) := by
  have comma : ASKS = ',' :: " asks:".toList := by decide
  have tail : trimStart (ASKS ++ '[' :: (asks ++ [']'])) =
      ASKS ++ '[' :: (asks ++ [']']) := by
    rw [comma]
    exact trimStart_cons (by decide)
  have inner : stripPrefix ['['] ('[' :: (asks ++ [']'])) = some (asks ++ [']']) :=
    stripPrefix_append ['['] _
  rw [splitBidsAsksSections, List.head?_cons, if_pos rfl, scanSections, scanSections_plain plain,
    scanSections, tail, stripPrefix_append, Option.bind_eq_bind, Option.bind_some,
    trimStart_cons (by decide), inner, Option.bind_some, stripLast_concat]
  rfl

/-! ### The whole text -/

theorem trimmed_between {first last : Char} (front : isWhitespace first = false)
    (back : isWhitespace last = false) (middle : List Char) :
    Trimmed (first :: (middle ++ [last])) := by
  constructor
  · rintro c ⟨⟩
    exact front
  · intro c same
    rw [← List.cons_append, List.getLast?_concat] at same
    cases same
    exact back

theorem bookText_ends (id : UInt64) (bids asks : List TextLevel) :
    ∃ middle, (bookText id bids asks).toList = 'u' :: (middle ++ [']']) := by
  have opening : UPDATE_ID = 'u' :: "pdate_id: ".toList := by decide
  refine ⟨"pdate_id: ".toList ++ natToChars id.toNat ++ BIDS ++
    '[' :: sideText bids ++ ']' :: ASKS ++ '[' :: sideText asks, ?_⟩
  rw [bookText, String.toList_ofList, opening]
  simp only [List.cons_append, List.append_assoc]

theorem comma_not_mem_digits (n : Nat) : ',' ∉ natToChars n := by
  intro member
  exact absurd (List.all_eq_true.mp (natToChars_digits n) ',' member) (by decide)

/-- Whatever the id and the levels, the text of a book is read back as they are. -/
theorem parse_book_text (id : UInt64) (bids asks : List (Token × Token)) :
    parseBookDisplay (bookText id (Token.texts bids) (Token.texts asks)) =
      some (id, Token.texts bids, Token.texts asks) := by
  let sections := '[' :: (sideText (Token.texts bids) ++
    ']' :: (ASKS ++ '[' :: (sideText (Token.texts asks) ++ [']'])))
  have text : (bookText id (Token.texts bids) (Token.texts asks)).toList =
      (UPDATE_ID ++ natToChars id.toNat) ++ (BIDS ++ sections) := by
    simp [bookText, sections, List.append_assoc]
  have trimmed : trimChars (bookText id (Token.texts bids) (Token.texts asks)).toList =
      (bookText id (Token.texts bids) (Token.texts asks)).toList := by
    obtain ⟨middle, whole⟩ := bookText_ends id (Token.texts bids) (Token.texts asks)
    rw [whole]
    exact trimChars_eq_self (trimmed_between (by decide) (by decide) middle)
  have noComma : ',' ∉ UPDATE_ID ++ natToChars id.toNat := by
    rw [List.mem_append, not_or]
    exact ⟨by decide, comma_not_mem_digits _⟩
  have split : splitOnceText BIDS ((UPDATE_ID ++ natToChars id.toNat) ++
      (BIDS ++ sections)) =
        some (UPDATE_ID ++ natToChars id.toNat, sections) :=
    splitOnceText_append (unbegun_of_not_mem noComma)
  have opened : trimStart sections = sections := trimStart_cons (by decide)
  rw [parseBookDisplay, trimmed, text, split]
  simp only [Option.bind_eq_bind, Option.bind_some, stripPrefix_append, parseU64_natToChars, opened]
  rw [splitBidsAsksSections_text (sideText_noBracket bids), Option.bind_some,
    tuplesFromSide_sideText, tuplesFromSide_sideText]
  rfl

example : parseBookDisplay "update_id: 7, bids: [], asks:[1e3:2, 4:5]" =
    some (7, [], [("1e3", "2"), ("4", "5")]) := by decide

end Trolly.Tui
