import Trolly.Exec.Orders
import Trolly.Lib.Utf8
import Trolly.Std.Split

/-! Replies to the hand-written HTTP requests of the execution crates: how a server may frame
a body, and what the reader, which takes everything behind the head for the body, makes of it. -/
namespace Trolly.Exec

open Rust Utf8

/-! ### The reader -/

/-- Where reading a reply fails. -/
inductive HttpFault where
  | notUtf8
  | malformed
  | missingStatusLine
  | missingStatusCode
  | invalidStatusCode
  deriving DecidableEq, Repr

def okOr {ε α : Type} (fault : ε) : Option α → Except ε α
  | some x => .ok x
  | none => .error fault

def BLANK_LINE : List Char := ['\r', '\n', '\r', '\n']

/-- The steps that the readers of the crates share. -/
def readHttpResponse (raw : List UInt8) : Except HttpFault HttpResponse := do
  let text ← okOr .notUtf8 (fromUtf8 raw)
  let (headerBlock, body) ← okOr .malformed (splitOnceText BLANK_LINE text)
  let statusLine ← okOr .missingStatusLine (firstLine headerBlock)
  let code ← okOr .missingStatusCode (splitWhitespace statusLine)[1]?
  let status ← okOr .invalidStatusCode (parseU16 code)
  return { status, body := String.ofList body }

/-- The messages of the order transports; `utf8Error` is the text of a `Utf8Error`. -/
def orderFault (utf8Error : String) : HttpFault → TransportError
  | .notUtf8 => .http utf8Error
  | .malformed => .http "malformed http response"
  | .missingStatusLine => .http "missing status line"
  | .missingStatusCode => .http "missing status code"
  | .invalidStatusCode => .http "invalid status code"

inductive ListenKeyError where
  | transport (message : String)

def listenKeyFault (utf8Error : String) : HttpFault → ListenKeyError
  | .notUtf8 => .transport utf8Error
  | .malformed => .transport "malformed http response"
  | .missingStatusLine => .transport "missing status line"
  | .missingStatusCode | .invalidStatusCode => .transport "invalid status line"

/-- `parse_http_response` with the errors of its crate. -/
def parseHttpResponse {E : Type} (fault : HttpFault → E) (raw : List UInt8) :
    Except E HttpResponse :=
  (readHttpResponse raw).mapError fault

/-- `parse_http_response` of the orders of both crates. -/
def orderParseHttpResponse (utf8Error : String) (raw : List UInt8) :
    Except TransportError HttpResponse :=
  parseHttpResponse (orderFault utf8Error) raw

/-- `parse_http_response` of the listen keys. -/
def listenKeyParseHttpResponse (utf8Error : String) (raw : List UInt8) :
    Except ListenKeyError HttpResponse :=
  parseHttpResponse (listenKeyFault utf8Error) raw

/-! ### The replies of a server -/

def CRLF : List UInt8 := [13, 10]

def NoLineEnd (bs : List UInt8) : Prop := ∀ b ∈ bs, b ≠ 13 ∧ b ≠ 10

/-- A header, without the end of its line. -/
structure HeaderLine where
  bytes : List UInt8
  nonempty : bytes ≠ []
  noLineEnd : NoLineEnd bytes

def hexDigit (b : UInt8) : Option Nat :=
  if 48 ≤ b ∧ b ≤ 57 then some (b.toNat - 48)
  else if 65 ≤ b ∧ b ≤ 70 then some (b.toNat - 55)
  else if 97 ≤ b ∧ b ≤ 102 then some (b.toNat - 87)
  else none

/-- The number that hexadecimal digits spell, in either case. -/
def hexNumber (digits : List UInt8) : Option Nat :=
  digits.foldlM (fun n b => (hexDigit b).map (16 * n + ·)) 0

/-- A chunk of a chunked body. -/
structure Chunk where
  size : List UInt8
  data : List UInt8
  spelled : size ≠ [] ∧ hexNumber size = some data.length
  nonempty : data ≠ []

def VERSION : List Char := "HTTP/1.1 ".toList

def CONTENT_LENGTH : List Char := "Content-Length: ".toList

def CHUNKED : List Char := "Transfer-Encoding: chunked".toList

/-- How a server delimits a body: by its length, by the end of the connection or by chunks. -/
inductive Framing where
  | contentLength (body : List UInt8)
  | untilClose (body : List UInt8)
  | chunked (chunks : List Chunk)

namespace Framing

/-- The body that is framed. -/
def body : Framing → List UInt8
  | contentLength body => body
  | untilClose body => body
  | chunked chunks => chunks.flatMap Chunk.data

/-- What is sent behind the head. -/
def payload : Framing → List UInt8
  | contentLength body => body
  | untilClose body => body
  | chunked chunks =>
    chunks.flatMap (fun chunk => chunk.size ++ CRLF ++ chunk.data ++ CRLF) ++
      48 :: CRLF ++ CRLF

def isChunked : Framing → Bool
  | chunked _ => true
  | _ => false

/-- The header that announces the framing. -/
def headers : Framing → List (List UInt8)
  | contentLength body => [encode (CONTENT_LENGTH ++ natToChars body.length)]
  | untilClose _ => []
  | chunked _ => [encode CHUNKED]

end Framing

/-- A reply with any headers around the one of its framing. -/
structure Reply where
  status : UInt16
  reason : List UInt8
  plainReason : NoLineEnd reason
  before : List HeaderLine
  after : List HeaderLine
  framing : Framing

namespace Reply

def statusText (status : UInt16) : List Char :=
  VERSION ++ natToChars status.toNat ++ [' ']

def lines (reply : Reply) : List (List UInt8) :=
  (encode (statusText reply.status) ++ reply.reason) ::
    (reply.before.map HeaderLine.bytes ++ reply.framing.headers ++
      reply.after.map HeaderLine.bytes)

/-- The status line and the headers. -/
def head (reply : Reply) : List UInt8 := CRLF.intercalate reply.lines

def bytes (reply : Reply) : List UInt8 :=
  reply.head ++ (CRLF ++ CRLF ++ reply.framing.payload)

end Reply

/-! ### The head and what is behind it -/

theorem plain_of_all {cs : List Char} (all : cs.all (fun c => c != '\r' && c != '\n') = true) :
    ∀ c ∈ cs, c ≠ '\r' ∧ c ≠ '\n' := by
  simpa using all

theorem noLineEnd_encode {cs : List Char} (plain : ∀ c ∈ cs, c ≠ '\r' ∧ c ≠ '\n') :
    NoLineEnd (encode cs) := by
  intro b member
  obtain ⟨c, inside, own⟩ := List.mem_flatMap.mp member
  have alone : ∀ d : Char, encode [d] = [b] → b < 128 → c = d := by
    intro d spelled low
    have same : encode [c] = encode [d] := by
      rw [spelled, encode_cons, encodeChar_ascii own low]
      rfl
    exact (List.cons.inj (encode_injective same)).1
  constructor
  · rintro rfl
    exact (plain c inside).1 (alone '\r' (by decide) (by decide))
  · rintro rfl
    exact (plain c inside).2 (alone '\n' (by decide) (by decide))

theorem digits_plain (n : Nat) : ∀ c ∈ natToChars n, c ≠ '\r' ∧ c ≠ '\n' := by
  intro c member
  have digit : c.isDigit = true := List.all_eq_true.mp (natToChars_digits n) c member
  exact ⟨ne_of_class digit (by decide), ne_of_class digit (by decide)⟩

/-- No line ends in a line, and none is empty. -/
def Lines (lines : List (List UInt8)) : Prop := ∀ line ∈ lines, line ≠ [] ∧ NoLineEnd line

/-- The first blank line is the one behind the last line. -/
theorem unbegun_lines {lines : List (List UInt8)} (proper : Lines lines) (back : List UInt8) :
    Unbegun (CRLF ++ CRLF) (CRLF.intercalate lines) back := by
  have absent : ∀ line, NoLineEnd line → (13 : UInt8) ∉ line := fun line plain member =>
    (plain 13 member).1 rfl
  induction lines with
  | nil => exact unbegun_nil _ back
  | cons line lines ih =>
    have first := proper line (.head lines)
    have later : Lines lines := fun other member => proper other (.tail line member)
    cases lines with
    | nil =>
      rw [List.intercalate_singleton]
      exact unbegun_of_not_mem (absent line first.2)
    | cons next lines =>
      obtain ⟨shown, plain⟩ := proper next (.tail line (.head lines))
      obtain ⟨b, rest, rfl⟩ := List.exists_cons_of_ne_nil shown
      have start : ∃ tail, CRLF.intercalate ((b :: rest) :: lines) = b :: tail := by
        cases lines with
        | nil => exact ⟨rest, by rw [List.intercalate_singleton]⟩
        | cons third lines => exact ⟨_, by rw [List.intercalate_cons_cons]; rfl⟩
      obtain ⟨tail, opening⟩ := start
      rw [List.intercalate_cons_cons, List.append_assoc]
      refine unbegun_append_left (absent line first.2) ?_
      refine unbegun_cons (fun begins => ?_) (unbegun_cons (fun begins => ?_) (ih later))
      · rw [opening] at begins
        have third := (List.cons_prefix_cons.mp (List.cons_prefix_cons.mp
          (List.cons_prefix_cons.mp begins).2).2).1
        exact (plain b (.head rest)).1 third.symm
      · exact absurd (List.cons_prefix_cons.mp begins).1 (by decide)

theorem unbegun_of_encode {sep front back : List Char}
    (unbegun : Unbegun (encode sep) (encode front) (encode back)) : Unbegun sep front back := by
  rintro early tail rfl nonempty ⟨rest, whole⟩
  refine unbegun (encode early) (encode tail) (encode_append early tail) ?_ ⟨encode rest, ?_⟩
  · rwa [Ne, encode_eq_nil_iff]
  · rw [← encode_append, whole, encode_append, encode_append]

namespace Reply

variable (reply : Reply)

theorem statusText_plain (status : UInt16) : ∀ c ∈ statusText status, c ≠ '\r' ∧ c ≠ '\n' := by
  intro c member
  have version : ∀ d ∈ VERSION, d ≠ '\r' ∧ d ≠ '\n' := plain_of_all (by decide)
  simp only [statusText, List.mem_append, List.mem_singleton] at member
  rcases member with (inside | digit) | rfl
  · exact version c inside
  · exact digits_plain _ c digit
  · decide

theorem statusLine_proper :
    encode (statusText reply.status) ++ reply.reason ≠ [] ∧
      NoLineEnd (encode (statusText reply.status) ++ reply.reason) := by
  constructor
  · rw [Ne, List.append_eq_nil_iff, encode_eq_nil_iff]
    exact fun empty => absurd empty.1 (by simp [statusText])
  · intro b inside
    rcases List.mem_append.mp inside with own | spoken
    · exact noLineEnd_encode (statusText_plain reply.status) b own
    · exact reply.plainReason b spoken

theorem framing_headers_proper (framing : Framing) : Lines framing.headers := by
  intro line announced
  cases framing with
  | contentLength body =>
    rw [Framing.headers, List.mem_singleton] at announced
    subst announced
    have name : ∀ c ∈ CONTENT_LENGTH, c ≠ '\r' ∧ c ≠ '\n' := plain_of_all (by decide)
    refine ⟨?_, noLineEnd_encode (fun c inside => ?_)⟩
    · rw [Ne, encode_eq_nil_iff]
      exact fun empty => natToChars_ne _ (List.append_eq_nil_iff.mp empty).2
    · exact (List.mem_append.mp inside).elim (name c) (digits_plain _ c)
  | untilClose body => cases announced
  | chunked chunks =>
    rw [Framing.headers, List.mem_singleton] at announced
    subst announced
    have name : ∀ c ∈ CHUNKED, c ≠ '\r' ∧ c ≠ '\n' := plain_of_all (by decide)
    exact ⟨by rw [Ne, encode_eq_nil_iff]; decide, noLineEnd_encode name⟩

theorem lines_proper : Lines reply.lines := by
  intro line member
  simp only [lines, List.mem_cons, List.mem_append, List.mem_map] at member
  rcases member with rfl | (⟨header, _, rfl⟩ | announced) | ⟨header, _, rfl⟩
  · exact reply.statusLine_proper
  · exact ⟨header.nonempty, header.noLineEnd⟩
  · exact framing_headers_proper reply.framing line announced
  · exact ⟨header.nonempty, header.noLineEnd⟩

theorem head_begins : ∃ tail, reply.head = encode (statusText reply.status) ++ tail := by
  rw [head, lines]
  cases reply.before.map HeaderLine.bytes ++ reply.framing.headers ++
      reply.after.map HeaderLine.bytes with
  | nil => exact ⟨reply.reason, by rw [List.intercalate_singleton]⟩
  | cons next rest =>
    rw [List.intercalate_cons_cons, List.append_assoc, List.append_assoc]
    exact ⟨_, rfl⟩

end Reply

/-! ### Reading a reply -/

namespace Reply

variable (reply : Reply)

theorem firstLine_head {h : List Char} (text : encode h = reply.head) :
    ∃ tail, firstLine h = some (statusText reply.status ++ tail) := by
  obtain ⟨tail, begins⟩ := reply.head_begins
  obtain ⟨rest, rfl, _⟩ := encode_append_inv (text.trans begins)
  have noFeed : '\n' ∉ statusText reply.status := fun member =>
    (statusText_plain reply.status '\n' member).2 rfl
  exact firstLine_append noFeed (by decide) rest

/-- The status is the second word of the status line, whatever the reason. -/
theorem statusText_code (status : UInt16) (tail : List Char) :
    (splitWhitespace (statusText status ++ tail))[1]? = some (natToChars status.toNat) := by
  have version : VERSION = "HTTP/1.1".toList ++ [' '] := by decide
  have text : statusText status ++ tail =
      "HTTP/1.1".toList ++ ' ' :: (natToChars status.toNat ++ ' ' :: tail) := by
    rw [statusText, version]
    simp only [List.append_assoc, List.cons_append, List.nil_append]
  have solid : ∀ c ∈ "HTTP/1.1".toList, isWhitespace c = false := by
    have all : "HTTP/1.1".toList.all (fun c => !isWhitespace c) = true := by decide
    simpa using all
  have digits : ∀ c ∈ natToChars status.toNat, isWhitespace c = false := by
    intro c member
    have range := Char.isDigit_iff_toNat.mp
      (List.all_eq_true.mp (natToChars_digits status.toNat) c member)
    have zero : '0'.toNat = 48 := by decide
    have nine : '9'.toNat = 57 := by decide
    simp only [isWhitespace, Bool.or_eq_false_iff, Bool.and_eq_false_iff, decide_eq_false_iff_not,
      beq_eq_false_iff_ne]
    omega
  rw [text, splitWhitespace_cons (by decide) solid (by decide),
    splitWhitespace_cons (natToChars_ne _) digits (by decide)]
  rfl

/-- Where head and payload are text, the reader returns the status and the payload. -/
theorem readHttpResponse_bytes {h p : List Char} (text : encode h = reply.head)
    (rest : encode p = reply.framing.payload) :
    readHttpResponse reply.bytes = .ok ⟨reply.status, String.ofList p⟩ := by
  have blank : encode BLANK_LINE = CRLF ++ CRLF := by decide
  have whole : encode (h ++ (BLANK_LINE ++ p)) = reply.bytes := by
    rw [encode_append, encode_append, text, blank, rest, bytes]
  have first : Unbegun BLANK_LINE h p := by
    refine unbegun_of_encode ?_
    rw [blank, text]
    exact unbegun_lines reply.lines_proper _
  obtain ⟨tail, line⟩ := reply.firstLine_head text
  rw [readHttpResponse, ← whole, fromUtf8_encode]
  simp only [okOr, bind, Except.bind, splitOnceText_append first, line, statusText_code,
    parseU16_natToChars]
  rfl

/-- Where the whole reply is text, so are its head and its payload. -/
theorem parts_of_text {cs : List Char} (text : encode cs = reply.bytes) :
    ∃ h p, encode h = reply.head ∧ encode p = reply.framing.payload := by
  obtain ⟨h, _, one, _, head, _, later⟩ := split_at_ascii _ (by decide) text
  obtain ⟨_, _, two, _, _, _, later⟩ := split_at_ascii [] (by decide) later
  obtain ⟨_, _, three, _, _, _, later⟩ := split_at_ascii [] (by decide) later
  obtain ⟨_, _, p, _, _, _, rest⟩ := split_at_ascii [] (by decide) later
  exact ⟨h, p, head, rest⟩

end Reply

theorem length_framed (chunks : List Chunk) :
    (chunks.flatMap Chunk.data).length ≤
      (chunks.flatMap (fun chunk => chunk.size ++ CRLF ++ chunk.data ++ CRLF)).length := by
  induction chunks with
  | nil => exact Nat.le_refl _
  | cons chunk chunks ih =>
    simp only [List.flatMap_cons, List.length_append]
    omega

/-- Chunks are longer than what they carry. -/
theorem payload_eq_body_iff (framing : Framing) :
    framing.payload = framing.body ↔ framing.isChunked = false := by
  cases framing with
  | contentLength body => exact iff_of_true rfl rfl
  | untilClose body => exact iff_of_true rfl rfl
  | chunked chunks =>
    refine iff_of_false (fun same => ?_) (fun plain => nomatch plain)
    have lengths := congrArg List.length same
    have framed := length_framed chunks
    simp only [Framing.payload, Framing.body, List.length_append, List.length_cons] at lengths
    omega

/-! ### Which replies are read right -/

/-- The reader returns the status of the reply and exactly its body. -/
def ReadsReply {E : Type} (fault : HttpFault → E) (reply : Reply) : Prop :=
  ∃ text, Utf8.bytes text = reply.framing.body ∧
    parseHttpResponse fault reply.bytes = .ok ⟨reply.status, text⟩

theorem parseHttpResponse_ok_iff {E : Type} (fault : HttpFault → E) (raw : List UInt8)
    (response : HttpResponse) :
    parseHttpResponse fault raw = .ok response ↔ readHttpResponse raw = .ok response := by
  rw [parseHttpResponse]
  cases readHttpResponse raw <;> simp [Except.mapError]

theorem readHttpResponse_text {raw : List UInt8} {response : HttpResponse}
    (read : readHttpResponse raw = .ok response) : ∃ cs, encode cs = raw := by
  cases text : fromUtf8 raw with
  | none => simp [readHttpResponse, text, okOr, bind, Except.bind] at read
  | some cs => exact ⟨cs, fromUtf8_eq_some_iff.mp text⟩

/-- A reply is read right exactly when it is text and its body is not chunked. -/
theorem reads_reply_iff {E : Type} (fault : HttpFault → E) (reply : Reply) :
    ReadsReply fault reply ↔
      reply.framing.isChunked = false ∧ (fromUtf8 reply.head).isSome ∧
        (fromUtf8 reply.framing.body).isSome := by
  constructor
  · rintro ⟨text, body, read⟩
    rw [parseHttpResponse_ok_iff] at read
    obtain ⟨cs, whole⟩ := readHttpResponse_text read
    obtain ⟨h, p, head, payload⟩ := reply.parts_of_text whole
    rw [reply.readHttpResponse_bytes head payload] at read
    have same : String.ofList p = text := congrArg HttpResponse.body (Except.ok.inj read)
    have carried : reply.framing.payload = reply.framing.body := by
      rw [← body, ← same, Utf8.bytes, String.toList_ofList, payload]
    refine ⟨(payload_eq_body_iff _).mp carried, ?_, ?_⟩
    · rw [← head, fromUtf8_encode]
      rfl
    · rw [← carried, ← payload, fromUtf8_encode]
      rfl
  · rintro ⟨plain, headText, bodyText⟩
    obtain ⟨h, readHead⟩ := Option.isSome_iff_exists.mp headText
    obtain ⟨p, readBody⟩ := Option.isSome_iff_exists.mp bodyText
    have body := fromUtf8_eq_some_iff.mp readBody
    have payload : encode p = reply.framing.payload := by
      rw [body, (payload_eq_body_iff _).mpr plain]
    refine ⟨String.ofList p, ?_, ?_⟩
    · rw [Utf8.bytes, String.toList_ofList, body]
    · rw [parseHttpResponse_ok_iff]
      exact reply.readHttpResponse_bytes (fromUtf8_eq_some_iff.mp readHead) payload

/-- A body of two bytes in one chunk. -/
def chunkedReply : Reply where
  status := 200
  reason := encode ['O', 'K']
  plainReason := noLineEnd_encode (plain_of_all (by decide))
  before := []
  after := []
  framing := .chunked [⟨[50], [123, 125], by decide, by decide⟩]

/-- The acknowledgement is taken together with the sizes around it, which is not what an
exchange that acknowledges by `{}` says. -/
theorem chunked_acknowledgement_lost :
    chunkedReply.framing.body = Utf8.bytes "\x7b\x7d" ∧
    (∃ answer, orderParseHttpResponse "" chunkedReply.bytes = .ok answer ∧ answer.status = 200 ∧
      answer.body = "2\r\n\x7b\x7d\r\n0\r\n\r\n" ∧
      parsePlaceOrderResponse
        ⟨fun body => if body = "\x7b\x7d" then .ok () else .error "trailing", fun _ => none⟩
        answer = .error (.parse "trailing")) ∧
    ¬ReadsReply (orderFault "") chunkedReply := by
  let head : List Char := "HTTP/1.1 200 OK\r\nTransfer-Encoding: chunked".toList
  let framed : List Char := "2\r\n\x7b\x7d\r\n0\r\n\r\n".toList
  have headText : encode head = chunkedReply.head := by decide
  have payload : encode framed = chunkedReply.framing.payload := by decide
  have read := chunkedReply.readHttpResponse_bytes headText payload
  refine ⟨by decide, ⟨⟨200, String.ofList framed⟩, ?_, rfl, by decide, ?_⟩, ?_⟩
  · exact (parseHttpResponse_ok_iff _ _ _).mpr read
  · have other : String.ofList framed ≠ "\x7b\x7d" := by decide
    rw [parsePlaceOrderResponse, if_pos rfl]
    simp only [if_neg other]
    rfl
  · rintro ⟨text, body, parsed⟩
    rw [parseHttpResponse_ok_iff, read] at parsed
    have same : String.ofList framed = text := congrArg HttpResponse.body (Except.ok.inj parsed)
    rw [← same] at body
    exact absurd body (by decide)

end Trolly.Exec
