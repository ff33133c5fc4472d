import Mathlib.Data.List.Chain
import Mathlib.Data.List.DropRight
import Trolly.Lib.Traversal

/-! Requests of HTTP/1.1 as a server reads them: lines that end in CR LF, up to an empty one, each
by the grammar of its kind, and a body of the announced length. A server that goes by the grammar
refuses a bare CR, a bare LF and a NUL wherever they stand. -/
namespace MessageHead

section Lines

/-- The lines before the empty one, and what follows it; `line` was read already. -/
def headLines (line : List UInt8) : List UInt8 → Option (List (List UInt8) × List UInt8)
  | [] | [_] => none
  | a :: b :: rest =>
    if a = 13 ∧ b = 10 then
      if line = [] then some ([], rest)
      else (headLines [] rest).map (fun (lines, body) => (line :: lines, body))
    else headLines (line ++ [a]) (b :: rest)

/-- A line is read up to its end. -/
theorem headLines_line {line rest : List UInt8} (plain : 13 ∉ line) (read : List UInt8) :
    headLines read (line ++ 13 :: 10 :: rest) =
      if read ++ line = [] then some ([], rest)
      else (headLines [] rest).map (fun (lines, body) => ((read ++ line) :: lines, body)) := by
  induction line generalizing read with
  | nil => simp [headLines]
  | cons a line ih =>
    rw [List.mem_cons, not_or] at plain
    have next := ih plain.2 (read ++ [a])
    have inside : ∀ b, ¬(a = 13 ∧ b = (10 : UInt8)) := fun b feed => plain.1 feed.1.symm
    rw [List.append_assoc, List.singleton_append] at next
    rw [← next]
    cases line with
    | nil => rw [List.singleton_append, headLines, if_neg (inside 13), List.nil_append]
    | cons b line => rw [List.cons_append, List.cons_append, headLines, if_neg (inside b)]

end Lines

/-! ### The grammar -/

section Grammar

def isDigit (b : UInt8) : Bool := 48 ≤ b && b ≤ 57

def isAlpha (b : UInt8) : Bool := (65 ≤ b && b ≤ 90) || (97 ≤ b && b ≤ 122)

def isHex (b : UInt8) : Bool := isDigit b || (65 ≤ b && b ≤ 70) || (97 ≤ b && b ≤ 102)

/-- A byte of a method or of a field name. -/
def isTokenByte (b : UInt8) : Bool :=
  isAlpha b || isDigit b ||
    [33, 35, 36, 37, 38, 39, 42, 43, 45, 46, 94, 95, 96, 124, 126].contains b

def isToken (bs : List UInt8) : Bool := !bs.isEmpty && bs.all isTokenByte

/-- A byte of a registered name, but for the escapes. -/
def isNameByte (b : UInt8) : Bool :=
  isAlpha b || isDigit b || [45, 46, 95, 126].contains b ||
    [33, 36, 38, 39, 40, 41, 42, 43, 44, 59, 61].contains b

/-- A byte of a path or of a query, but for the escapes. -/
def isTargetByte (b : UInt8) : Bool := isNameByte b || [58, 64, 47, 63].contains b

/-- Only bytes of a class, and escapes of two hexadecimal digits. -/
def escaped (p : UInt8 → Bool) : List UInt8 → Bool
  | [] => true
  | 37 :: high :: low :: rest => isHex high && isHex low && escaped p rest
  | b :: rest => p b && escaped p rest

/-- A path and perhaps a query. -/
def isTarget (bs : List UInt8) : Bool := bs.head? == some 47 && escaped isTargetByte bs

/-- A byte of a field value: none of the control characters but the tab. -/
def isValueByte (b : UInt8) : Bool := b == 9 || (32 ≤ b && b != 127)

def isBlank (b : UInt8) : Bool := b == 32 || b == 9

/-- Without the blanks around it. -/
def trimBlanks (bs : List UInt8) : List UInt8 := (bs.dropWhile isBlank).rdropWhile isBlank

/-- A field value, as it is once the blanks around it are gone. -/
def isValue (bs : List UInt8) : Bool := bs.all isValueByte && trimBlanks bs == bs

/-- What stands before and after the first `sep`. -/
def cut (sep : UInt8) : List UInt8 → Option (List UInt8 × List UInt8)
  | [] => none
  | b :: rest =>
    if b = sep then some ([], rest)
    else (cut sep rest).map (fun (front, back) => (b :: front, back))

/-- A name or an IPv4 address, and perhaps a port. -/
def isHost (bs : List UInt8) : Bool :=
  match cut 58 bs with
  | none => escaped isNameByte bs
  | some (name, port) => escaped isNameByte name && port.all isDigit

def lower (b : UInt8) : UInt8 := if 65 ≤ b ∧ b ≤ 90 then b + 32 else b

/-- Field names are compared without regard to case. -/
def sameName (a b : List UInt8) : Bool := a.map lower == b.map lower

def number (digits : List UInt8) : Option Nat :=
  if digits ≠ [] ∧ digits.all isDigit then
    some (digits.foldl (fun n b => 10 * n + (b.toNat - 48)) 0)
  else none

theorem cut_append {sep : UInt8} {front : List UInt8} (absent : sep ∉ front) (back : List UInt8) :
    cut sep (front ++ sep :: back) = some (front, back) := by
  induction front with
  | nil => simp [cut]
  | cons b front ih =>
    rw [List.mem_cons, not_or] at absent
    rw [List.cons_append, cut, if_neg (Ne.symm absent.1), ih absent.2]
    rfl

/-- No line end, no blank and no colon is in a token. -/
theorem not_mem_token {b : UInt8} (other : isTokenByte b = false) {bs : List UInt8}
    (token : isToken bs = true) : b ∉ bs := by
  intro member
  rw [isToken, Bool.and_eq_true] at token
  rw [List.all_eq_true.mp token.2 b member] at other
  cases other

theorem not_mem_value {b : UInt8} (other : isValueByte b = false) {bs : List UInt8}
    (value : isValue bs = true) : b ∉ bs := by
  intro member
  rw [isValue, Bool.and_eq_true] at value
  rw [List.all_eq_true.mp value.1 b member] at other
  cases other

theorem mem_escaped {p : UInt8 → Bool} {b : UInt8} {bs : List UInt8}
    (plain : escaped p bs = true) (member : b ∈ bs) : p b = true ∨ b = 37 ∨ isHex b = true := by
  fun_induction escaped p bs with
  | case1 => cases member
  | case2 high low rest ih =>
    rw [Bool.and_eq_true, Bool.and_eq_true] at plain
    simp only [List.mem_cons] at member
    obtain rfl | rfl | rfl | inside := member
    · exact .inr (.inl rfl)
    · exact .inr (.inr plain.1.1)
    · exact .inr (.inr plain.1.2)
    · exact ih plain.2 inside
  | case3 c rest _ ih =>
    rw [Bool.and_eq_true] at plain
    obtain rfl | inside := List.mem_cons.mp member
    · exact .inl plain.1
    · exact ih plain.2 inside

theorem not_mem_target {b : UInt8} (other : isTargetByte b = false ∧ b ≠ 37 ∧ isHex b = false)
    {bs : List UInt8} (target : isTarget bs = true) : b ∉ bs := by
  intro member
  rw [isTarget, Bool.and_eq_true] at target
  obtain own | own | own := mem_escaped target.2 member
  · rw [own] at other
    exact Bool.noConfusion other.1
  · exact other.2.1 own
  · rw [own] at other
    exact Bool.noConfusion other.2.2

/-- Without any blank and any control character a text is a value. -/
theorem isValue_of_solid {bs : List UInt8} (solid : ∀ b ∈ bs, 33 ≤ b ∧ b ≠ 127) :
    isValue bs = true := by
  have shown : ∀ b ∈ bs, isValueByte b = true ∧ isBlank b = false := by
    intro b member
    obtain ⟨low, other⟩ := solid b member
    simp only [isValueByte, isBlank]
    grind
  have front : bs.dropWhile isBlank = bs := by
    cases bs with
    | nil => rfl
    | cons b bs => rw [List.dropWhile_cons_of_neg (by simp [(shown b (.head bs)).2])]
  have trimmed : trimBlanks bs = bs := by
    rw [trimBlanks, front, List.rdropWhile_eq_self_iff]
    intro any
    simp [(shown _ (List.getLast_mem any)).2]
  rw [isValue, Bool.and_eq_true, List.all_eq_true, beq_iff_eq]
  exact ⟨fun b member => (shown b member).1, trimmed⟩

theorem solid_nameByte {b : UInt8} (own : isNameByte b = true ∨ b = 37 ∨ isHex b = true) :
    33 ≤ b ∧ b ≠ 127 := by
  have table : ∀ n < 256, isNameByte (.ofNat n) = true ∨ UInt8.ofNat n = 37 ∨
      isHex (.ofNat n) = true → 33 ≤ UInt8.ofNat n ∧ UInt8.ofNat n ≠ 127 := by decide +kernel
  have found := table b.toNat b.toNat_lt
  rw [UInt8.ofNat_toNat] at found
  exact found own

theorem mem_of_cut {sep b : UInt8} {bs front back : List UInt8}
    (found : cut sep bs = some (front, back)) (member : b ∈ bs) :
    b ∈ front ∨ b = sep ∨ b ∈ back := by
  fun_induction cut sep bs generalizing front with
  | case1 => cases member
  | case2 rest =>
    cases found
    exact .inr (List.mem_cons.mp member)
  | case3 c rest _ ih =>
    rw [Option.map_eq_some_iff] at found
    obtain ⟨⟨head, tail⟩, split, same⟩ := found
    cases same
    obtain rfl | inside := List.mem_cons.mp member
    · exact .inl (.head head)
    · exact (ih split inside).imp_left (List.mem_cons_of_mem c)

theorem isValue_of_isHost {bs : List UInt8} (host : isHost bs = true) : isValue bs = true := by
  refine isValue_of_solid (fun b member => ?_)
  rw [isHost] at host
  cases split : cut 58 bs with
  | none =>
    rw [split] at host
    exact solid_nameByte (mem_escaped host member)
  | some parts =>
    rw [split, Bool.and_eq_true, List.all_eq_true] at host
    obtain inName | rfl | inPort := mem_of_cut split member
    · exact solid_nameByte (mem_escaped host.1 inName)
    · decide
    · have digit := host.2 b inPort
      simp only [isDigit] at digit
      grind

end Grammar

section Requests

def VERSION : List UInt8 := [72, 84, 84, 80, 47, 49, 46, 49]

def HOST : List UInt8 := [72, 111, 115, 116]

def CONTENT_LENGTH : List UInt8 :=
  [67, 111, 110, 116, 101, 110, 116, 45, 76, 101, 110, 103, 116, 104]

structure Request where
  method : List UInt8
  target : List UInt8
  fields : List (List UInt8 × List UInt8)
  body : List UInt8

def requestLine (line : List UInt8) : Option (List UInt8 × List UInt8) := do
  let (method, rest) ← cut 32 line
  let (target, version) ← cut 32 rest
  if isToken method ∧ isTarget target ∧ version = VERSION then some (method, target) else none

def field (line : List UInt8) : Option (List UInt8 × List UInt8) := do
  let (name, rest) ← cut 58 line
  let value := trimBlanks rest
  if isToken name ∧ isValue value then some (name, value) else none

/-- The values of the fields of one name. -/
def valuesOf (name : List UInt8) (fields : List (List UInt8 × List UInt8)) : List (List UInt8) :=
  (fields.filter (fun field => sameName field.1 name)).map Prod.snd

/-- The length of the body, which is announced once. -/
def announced (fields : List (List UInt8 × List UInt8)) : Option Nat :=
  match valuesOf CONTENT_LENGTH fields with
  | [value] => number value
  | _ => none

/-- The host is named, once. -/
def hosted (fields : List (List UInt8 × List UInt8)) : Bool :=
  match valuesOf HOST fields with
  | [value] => isHost value
  | _ => false

/-- The first request of a stream of bytes, and what follows it. -/
def read (raw : List UInt8) : Option (Request × List UInt8) := do
  let (lines, rest) ← headLines [] raw
  let first ← lines.head?
  let (method, target) ← requestLine first
  let fields ← lines.tail.mapM field
  let length ← announced fields
  if hosted fields ∧ length ≤ rest.length then
    some (⟨method, target, fields, rest.take length⟩, rest.drop length)
  else none

def fieldLine (field : List UInt8 × List UInt8) : List UInt8 := field.1 ++ 58 :: 32 :: field.2

/-- A request on the wire. -/
def write (request : Request) : List UInt8 :=
  (request.method ++ 32 :: (request.target ++ 32 :: VERSION)) ++ 13 :: 10 ::
    (request.fields.flatMap (fun field => fieldLine field ++ [13, 10]) ++ 13 :: 10 :: request.body)

/-- The parts of a request are what the grammar asks of them. -/
structure Plain (request : Request) : Prop where
  target : isTarget request.target = true
  values : ∀ field ∈ request.fields, isValue field.2 = true
  host : hosted request.fields = true

/-- What the writer of a request sees to. -/
structure WellMade (request : Request) : Prop where
  method : isToken request.method = true
  names : ∀ field ∈ request.fields, isToken field.1 = true
  length : announced request.fields = some request.body.length

theorem requestLine_write {method target : List UInt8} (word : isToken method = true)
    (path : isTarget target = true) :
    requestLine (method ++ 32 :: (target ++ 32 :: VERSION)) = some (method, target) := by
  have blankless : 32 ∉ method := not_mem_token (by decide) word
  have whole : 32 ∉ target := not_mem_target (by decide) path
  simp only [requestLine, cut_append blankless, cut_append whole, Option.bind_eq_bind,
    Option.bind_some, word, path, and_self, if_true]

theorem requestLine_plain {line method target : List UInt8}
    (found : requestLine line = some (method, target)) : isTarget target = true := by
  simp only [requestLine, Option.bind_eq_bind, Option.bind_eq_some_iff] at found
  obtain ⟨_, _, _, _, same⟩ := found
  split_ifs at same with proper
  cases same
  exact proper.2.1

theorem field_write {name value : List UInt8} (token : isToken name = true)
    (plain : isValue value = true) : field (fieldLine (name, value)) = some (name, value) := by
  have colonless : 58 ∉ name := not_mem_token (by decide) token
  have trimmed : trimBlanks value = value := by
    rw [isValue, Bool.and_eq_true, beq_iff_eq] at plain
    exact plain.2
  have blank : trimBlanks (32 :: value) = value := by
    rw [trimBlanks, List.dropWhile_cons_of_pos (by decide), ← trimBlanks, trimmed]
  simp only [field, fieldLine, cut_append colonless, Option.bind_eq_bind, Option.bind_some, blank,
    token, plain, and_self, if_true]

theorem field_plain {line : List UInt8} {found : List UInt8 × List UInt8}
    (split : field line = some found) : isValue found.2 = true := by
  simp only [field, Option.bind_eq_bind, Option.bind_eq_some_iff] at split
  obtain ⟨_, _, same⟩ := split
  split_ifs at same with proper
  cases same
  exact proper.2

/-- Whatever is read is plain. -/
theorem read_plain {raw rest : List UInt8} {request : Request}
    (found : read raw = some (request, rest)) : Plain request := by
  simp only [read, Option.bind_eq_bind, Option.bind_eq_some_iff] at found
  obtain ⟨⟨lines, behind⟩, -, first, -, ⟨method, target⟩, asked, fields, listed, length, -, same⟩ :=
    found
  split_ifs at same with proper
  cases same
  refine ⟨requestLine_plain asked, ?_, proper.1⟩
  intro field member
  obtain ⟨line, -, split⟩ := Traversal.mapM_some_mem listed member
  exact field_plain split

theorem fieldLine_plain {name value : List UInt8} (token : isToken name = true)
    (plain : isValue value = true) : 13 ∉ fieldLine (name, value) := by
  have inName : 13 ∉ name := not_mem_token (by decide) token
  have inValue : 13 ∉ value := not_mem_value (by decide) plain
  simp [fieldLine, inName, inValue]

/-- The lines of a request are read as they were written. -/
theorem headLines_fields (fields : List (List UInt8 × List UInt8)) (body : List UInt8)
    (single : ∀ field ∈ fields, 13 ∉ fieldLine field) :
    headLines [] (fields.flatMap (fun field => fieldLine field ++ [13, 10]) ++ 13 :: 10 :: body) =
      some (fields.map fieldLine, body) := by
  induction fields with
  | nil => simp [headLines]
  | cons first rest ih =>
    obtain ⟨own, others⟩ := List.forall_mem_cons.mp single
    have shown : fieldLine first ≠ [] := by simp [fieldLine]
    rw [List.flatMap_cons, List.append_assoc, List.append_assoc, List.cons_append, List.cons_append,
      List.nil_append, headLines_line own, ih others, List.nil_append, if_neg shown]
    rfl

theorem read_write {request : Request} (made : WellMade request) (plain : Plain request) :
    read (write request) = some (request, []) := by
  obtain ⟨word, names, length⟩ := made
  obtain ⟨target, values, host⟩ := plain
  have opening : 13 ∉ request.method ++ 32 :: (request.target ++ 32 :: VERSION) := by
    have inMethod : 13 ∉ request.method := not_mem_token (by decide) word
    have inTarget : 13 ∉ request.target := not_mem_target (by decide) target
    simp [inMethod, inTarget, VERSION]
  have lines : ∀ field ∈ request.fields, 13 ∉ fieldLine field :=
    fun field member => fieldLine_plain (names field member) (values field member)
  have shown : request.method ++ 32 :: (request.target ++ 32 :: VERSION) ≠ [] := by simp
  have fields : (request.fields.map fieldLine).mapM field = some request.fields :=
    Traversal.mapM_map_some (fun f member => field_write (names f member) (values f member))
  rw [read, write, headLines_line opening, headLines_fields request.fields request.body lines,
    List.nil_append, if_neg shown]
  simp only [Option.map_some, Option.bind_eq_bind, Option.bind_some, List.head?_cons,
    List.tail_cons, requestLine_write word target, fields, length, host, le_refl, and_self,
    if_true, List.take_length, List.drop_length]

/-- A server reads exactly what was written, and nothing behind it, when the target, the values
and the host are what the grammar asks for, and else something different or nothing. -/
theorem read_write_iff {request : Request} (made : WellMade request) :
    read (write request) = some (request, []) ↔ Plain request :=
  ⟨read_plain, read_write made⟩

end Requests

end MessageHead
