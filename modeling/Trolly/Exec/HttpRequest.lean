import Trolly.Exec.Crates
import Trolly.Exec.HttpReply
import Trolly.Lib.MessageHead

/-! The hand-written HTTP requests of the execution crates: where a URL leads, what is written to
the connection, and what a server reads there. -/
namespace Trolly.Exec

open Rust Utf8
open MessageHead (Request Plain WellMade read write fieldLine number announced valuesOf hosted
  isToken isTarget isValue isHost isValue_of_solid isValue_of_isHost read_write read_write_iff)

/-! ### The writer -/

def HTTPS : List Char := "https://".toList

/-- `parse_https_url` with the error of its crate: host, port and path. -/
def parseHttpsUrl {E : Type} (fault : String → E) (url : String) :
    Except E (String × UInt16 × String) := do
  let rest ← okOr (fault "only https URLs are supported") (stripPrefix HTTPS url.toList)
  let (authority, path) := match splitOnce '/' rest with
    | some (authority, path) => (authority, '/' :: path)
    | none => (rest, ['/'])
  match splitOnce ':' authority with
  | some (host, port) => do
    let port ← okOr (fault "invalid port") (parseU16 port)
    return (String.ofList host, port, String.ofList path)
  | none => return (String.ofList authority, 443, String.ofList path)

/-- The text of a request; the headers are lines of their own. -/
def requestText (method path : String) (headers : List (String × String)) (body : String) :
    String :=
  method ++ " " ++ path ++ " HTTP/1.1\r\n" ++
    String.join (headers.map (fun header => header.1 ++ ": " ++ header.2 ++ "\r\n")) ++
    "\r\n" ++ body

/-- `str::len`, in decimal. -/
def lenText (body : String) : String := String.ofList (natToChars (bytes body).length)

def formHeaders (host apiKey body : String) : List (String × String) :=
  [("Host", host), ("X-MBX-APIKEY", apiKey),
    ("Content-Type", "application/x-www-form-urlencoded"), ("Content-Length", lenText body),
    ("Connection", "close")]

def listenKeyHeaders (host apiKey body : String) : List (String × String) :=
  [("Host", host), ("X-MBX-APIKEY", apiKey), ("Content-Length", lenText body),
    ("Connection", "close")]

/-- The request that `post_form_native_tls` writes. -/
def formText (path host apiKey body : String) : String :=
  requestText "POST" path (formHeaders host apiKey body) body

/-- The calls of `ListenKeyClient`, by their HTTP methods. -/
inductive ListenKeyCall where
  | create
  | keepalive
  | close
  deriving DecidableEq

def ListenKeyCall.method : ListenKeyCall → String
  | create => "POST"
  | keepalive => "PUT"
  | close => "DELETE"

/-- The request that the `request_native_tls` of the listen keys writes; no call has a body. -/
def listenKeyText (call : ListenKeyCall) (path host apiKey : String) : String :=
  requestText call.method path (listenKeyHeaders host apiKey "") ""

/-! ### What a server reads -/

/-- The request that is meant. -/
def request (method path : String) (headers : List (String × String)) (body : String) : Request :=
  ⟨bytes method, bytes path, headers.map (fun header => (bytes header.1, bytes header.2)),
    bytes body⟩

/-- A text that is a path, and perhaps a query, as it stands. -/
def PlainPath (text : String) : Prop := isTarget (bytes text) = true

/-- A text without a control character in it and without a blank around it. -/
def PlainValue (text : String) : Prop := isValue (bytes text) = true

/-- A text that is the name of a host. -/
def PlainHost (text : String) : Prop := isHost (bytes text) = true

theorem bytes_join (texts : List String) : bytes (String.join texts) = texts.flatMap bytes := by
  induction texts with
  | nil => rfl
  | cons text rest ih =>
    have joined : String.join (text :: rest) = text ++ String.join rest := by
      rw [String.join_cons]
    rw [joined, bytes_append, ih, List.flatMap_cons]

theorem bytes_requestText (method path : String) (headers : List (String × String))
    (body : String) :
    bytes (requestText method path headers body) = write (request method path headers body) := by
  have version : bytes " HTTP/1.1\r\n" = 32 :: MessageHead.VERSION ++ [13, 10] := by decide
  have blank : bytes " " = [32] := by decide
  have colon : bytes ": " = [58, 32] := by decide
  have feed : bytes "\r\n" = [13, 10] := by decide
  simp only [requestText, bytes_append, version, blank, feed, bytes_join, write, request,
    List.flatMap_map, fieldLine, colon]
  simp

/-! A number in decimal -/

theorem encode_digit {c : Char} (digit : c.isDigit = true) :
    String.utf8EncodeChar c = [c.toNat.toUInt8] ∧ 48 ≤ c.toNat ∧ c.toNat ≤ 57 := by
  obtain ⟨low, high⟩ := Char.isDigit_iff_toNat.mp digit
  have table : ∀ n < 58, 48 ≤ n →
      String.utf8EncodeChar (Char.ofNat n) = [(Char.ofNat n).toNat.toUInt8] := by decide
  have zero : '0'.toNat = 48 := by decide
  have nine : '9'.toNat = 57 := by decide
  have found := table c.toNat (by omega) (by omega)
  rw [Char.ofNat_toNat] at found
  exact ⟨found, by omega, by omega⟩

theorem encode_digits {cs : List Char} (digits : ∀ c ∈ cs, c.isDigit = true) :
    encode cs = cs.map (fun c => c.toNat.toUInt8) := by
  induction cs with
  | nil => rfl
  | cons c cs ih =>
    obtain ⟨own, others⟩ := List.forall_mem_cons.mp digits
    rw [encode_cons, (encode_digit own).1, ih others]
    rfl

theorem digit_byte {c : Char} (digit : c.isDigit = true) :
    c.toNat.toUInt8.toNat = c.toNat ∧ 48 ≤ c.toNat.toUInt8 ∧ c.toNat.toUInt8 ≤ 57 := by
  obtain ⟨_, low, high⟩ := encode_digit digit
  have same : c.toNat.toUInt8.toNat = c.toNat := by
    rw [Nat.toUInt8, UInt8.toNat_ofNat', Nat.mod_eq_of_lt (by omega)]
  refine ⟨same, ?_, ?_⟩
  · rw [UInt8.le_iff_toNat_le, same]
    exact low
  · rw [UInt8.le_iff_toNat_le, same]
    exact high

theorem foldl_digits {cs : List Char} (digits : ∀ c ∈ cs, c.isDigit = true) (n : Nat) :
    (cs.map (fun c => c.toNat.toUInt8)).foldl (fun n b => 10 * n + (b.toNat - 48)) n =
      Nat.ofDigitChars 10 cs n := by
  induction cs generalizing n with
  | nil => simp
  | cons c cs ih =>
    obtain ⟨own, others⟩ := List.forall_mem_cons.mp digits
    have zero : '0'.toNat = 48 := by decide
    rw [List.map_cons, List.foldl_cons, ih others, Nat.ofDigitChars_cons, (digit_byte own).1, zero]

theorem number_encode {cs : List Char} (digits : ∀ c ∈ cs, c.isDigit = true) (shown : cs ≠ []) :
    number (encode cs) = some (natOfDigits cs) := by
  have bounds : (cs.map (fun c => c.toNat.toUInt8)).all MessageHead.isDigit := by
    rw [List.all_map, List.all_eq_true]
    intro c inside
    simpa [MessageHead.isDigit] using (digit_byte (digits c inside)).2
  rw [encode_digits digits, number, if_pos ⟨by simpa using shown, bounds⟩, foldl_digits digits]
  rfl

/-- The announced length is a plain value and reads as the number of bytes. -/
theorem lenText_spec (body : String) :
    number (bytes (lenText body)) = some (bytes body).length ∧ PlainValue (lenText body) := by
  have digits : ∀ c ∈ natToChars (bytes body).length, c.isDigit = true :=
    List.all_eq_true.mp (natToChars_digits _)
  have spelled : bytes (lenText body) = encode (natToChars (bytes body).length) := by
    rw [lenText, bytes, String.toList_ofList]
  have each : ∀ b ∈ bytes (lenText body), 48 ≤ b ∧ b ≤ 57 := by
    rw [spelled, encode_digits digits]
    intro b member
    obtain ⟨c, inside, rfl⟩ := List.mem_map.mp member
    exact (digit_byte (digits c inside)).2
  refine ⟨?_, isValue_of_solid (fun b member => ?_)⟩
  · rw [spelled, number_encode digits (natToChars_ne _), natOfDigits_natToChars]
  · have bounds := each b member
    grind

/-! ### Which requests are read as they are meant -/

def formRequest (path host apiKey body : String) : Request :=
  request "POST" path (formHeaders host apiKey body) body

def listenKeyRequest (call : ListenKeyCall) (path host apiKey : String) : Request :=
  request call.method path (listenKeyHeaders host apiKey "") ""

theorem announced_one {fields : List (List UInt8 × List UInt8)} {value : List UInt8}
    (once : valuesOf MessageHead.CONTENT_LENGTH fields = [value]) :
    announced fields = number value := by
  rw [announced, once]

theorem hosted_one {fields : List (List UInt8 × List UInt8)} {value : List UInt8}
    (once : valuesOf MessageHead.HOST fields = [value]) : hosted fields = isHost value := by
  rw [hosted, once]

/-- Which of the headers that the writers use are of one name. -/
theorem names_apart : ∀ name ∈ ["Host", "X-MBX-APIKEY", "Content-Type", "Content-Length",
    "Connection"],
      MessageHead.sameName (bytes name) MessageHead.HOST = (name == "Host") ∧
        MessageHead.sameName (bytes name) MessageHead.CONTENT_LENGTH =
          (name == "Content-Length") ∧ isToken (bytes name) = true := by
  decide +kernel

/-- The headers of either writer: `type` is what the order writers say of their body. -/
def clientHeaders (type : List (String × String)) (host apiKey body : String) :
    List (String × String) :=
  [("Host", host), ("X-MBX-APIKEY", apiKey)] ++ type ++
    [("Content-Length", lenText body), ("Connection", "close")]

section ClientHeaders

variable {method path host apiKey body : String} {type : List (String × String)}

theorem clientHeaders_host (single : ∀ header ∈ type, header.1 = "Content-Type") :
    valuesOf MessageHead.HOST
      (request method path (clientHeaders type host apiKey body) body).fields = [bytes host] := by
  have quiet : type.filter ((fun field => MessageHead.sameName field.1 MessageHead.HOST) ∘
      fun header => (bytes header.1, bytes header.2)) = [] := by
    rw [List.filter_eq_nil_iff]
    intro header member
    simp [single header member, (names_apart "Content-Type" (by simp)).1]
  simp [valuesOf, request, clientHeaders, List.filter_map, quiet, (names_apart "Host" (by simp)).1,
    (names_apart "X-MBX-APIKEY" (by simp)).1, (names_apart "Content-Length" (by simp)).1,
    (names_apart "Connection" (by simp)).1]

theorem clientHeaders_length (single : ∀ header ∈ type, header.1 = "Content-Type") :
    valuesOf MessageHead.CONTENT_LENGTH
      (request method path (clientHeaders type host apiKey body) body).fields =
        [bytes (lenText body)] := by
  have quiet : type.filter ((fun field => MessageHead.sameName field.1
      MessageHead.CONTENT_LENGTH) ∘ fun header => (bytes header.1, bytes header.2)) = [] := by
    rw [List.filter_eq_nil_iff]
    intro header member
    simp [single header member, (names_apart "Content-Type" (by simp)).2.1]
  simp [valuesOf, request, clientHeaders, List.filter_map, quiet,
    (names_apart "Host" (by simp)).2.1, (names_apart "X-MBX-APIKEY" (by simp)).2.1,
    (names_apart "Content-Length" (by simp)).2.1, (names_apart "Connection" (by simp)).2.1]

theorem clientRequest_made (word : isToken (bytes method) = true)
    (single : ∀ header ∈ type, header.1 = "Content-Type") :
    WellMade (request method path (clientHeaders type host apiKey body) body) := by
  refine ⟨word, ?_, (announced_one (clientHeaders_length single)).trans (lenText_spec body).1⟩
  have named : ∀ header ∈ clientHeaders type host apiKey body, header.1 ∈ ["Host",
      "X-MBX-APIKEY", "Content-Type", "Content-Length", "Connection"] := by
    intro header member
    simp only [clientHeaders, List.mem_append, List.mem_cons] at member
    obtain ((rfl | rfl | ⟨⟨⟩⟩) | typed) | rfl | rfl | ⟨⟨⟩⟩ := member
    · simp
    · simp
    · simp [single header typed]
    · simp
    · simp
  intro field member
  obtain ⟨header, inside, rfl⟩ := List.mem_map.mp member
  exact (names_apart header.1 (named header inside)).2.2

/-- The texts of a request that come from the configuration of a client are plain. -/
structure PlainClient (path host apiKey : String) : Prop where
  path : PlainPath path
  host : PlainHost host
  apiKey : PlainValue apiKey

theorem clientRequest_plain_iff (single : ∀ header ∈ type, header.1 = "Content-Type")
    (fixed : ∀ header ∈ type, PlainValue header.2) :
    Plain (request method path (clientHeaders type host apiKey body) body) ↔
      PlainClient path host apiKey := by
  have close : PlainValue "close" := by
    rw [PlainValue]
    decide +kernel
  constructor
  · rintro ⟨target, values, named⟩
    rw [hosted_one (clientHeaders_host single)] at named
    exact ⟨target, named, values (bytes "X-MBX-APIKEY", bytes apiKey) (by simp [request,
      clientHeaders])⟩
  · rintro ⟨target, own, key⟩
    refine ⟨target, ?_, (hosted_one (clientHeaders_host single)).trans own⟩
    simp only [request, clientHeaders, List.forall_mem_map, List.forall_mem_append,
      List.forall_mem_cons]
    exact ⟨⟨⟨isValue_of_isHost own, key, by simp⟩, fixed⟩, (lenText_spec body).2, close, by simp⟩

end ClientHeaders

theorem formRequest_eq (path host apiKey body : String) :
    formRequest path host apiKey body = request "POST" path
      (clientHeaders [("Content-Type", "application/x-www-form-urlencoded")] host apiKey body)
      body := rfl

theorem listenKeyRequest_eq (call : ListenKeyCall) (path host apiKey : String) :
    listenKeyRequest call path host apiKey =
      request call.method path (clientHeaders [] host apiKey "") "" := rfl

theorem formRequest_made (path host apiKey body : String) :
    WellMade (formRequest path host apiKey body) := by
  rw [formRequest_eq]
  exact clientRequest_made (by decide) (by simp)

theorem listenKeyRequest_made (call : ListenKeyCall) (path host apiKey : String) :
    WellMade (listenKeyRequest call path host apiKey) := by
  rw [listenKeyRequest_eq]
  exact clientRequest_made (by cases call <;> decide) (by simp)

theorem formRequest_plain_iff (path host apiKey body : String) :
    Plain (formRequest path host apiKey body) ↔ PlainClient path host apiKey := by
  rw [formRequest_eq]
  refine clientRequest_plain_iff (by simp) ?_
  rw [List.forall_mem_singleton, PlainValue]
  decide +kernel

theorem listenKeyRequest_plain_iff (call : ListenKeyCall) (path host apiKey : String) :
    Plain (listenKeyRequest call path host apiKey) ↔ PlainClient path host apiKey := by
  rw [listenKeyRequest_eq]
  exact clientRequest_plain_iff (by simp) (by simp)

/-- A server reads an order, or a listen-key call, exactly as it is meant and nothing behind it,
whatever the body, if and only if the path, the host and the key of its client are plain. -/
theorem requests_read_iff (path host apiKey : String) :
    (∀ body, read (bytes (formText path host apiKey body)) =
        some (formRequest path host apiKey body, []) ↔ PlainClient path host apiKey) ∧
      ∀ call, read (bytes (listenKeyText call path host apiKey)) =
        some (listenKeyRequest call path host apiKey, []) ↔ PlainClient path host apiKey := by
  constructor
  · intro body
    rw [formText, bytes_requestText]
    exact (read_write_iff (formRequest_made path host apiKey body)).trans
      (formRequest_plain_iff path host apiKey body)
  · intro call
    rw [listenKeyText, bytes_requestText]
    exact (read_write_iff (listenKeyRequest_made call path host apiKey)).trans
      (listenKeyRequest_plain_iff call path host apiKey)

/-! ### Where a URL leads -/

/-- A base URL: a host, perhaps a port, perhaps a path, and any slashes behind it. -/
structure BaseUrl where
  host : List Char
  port : Option UInt16
  path : List Char
  slashes : Nat
  hostShown : host ≠ []
  hostPlain : '/' ∉ host ∧ ':' ∉ host
  pathRooted : ∀ c ∈ path.head?, c = '/'
  pathEnds : ∀ c ∈ path.getLast?, c ≠ '/'

namespace BaseUrl

def portText : Option UInt16 → List Char
  | some port => ':' :: natToChars port.toNat
  | none => []

def authority (base : BaseUrl) : List Char := base.host ++ portText base.port

def text (base : BaseUrl) : String :=
  String.ofList (HTTPS ++ (base.authority ++ base.path) ++ List.replicate base.slashes '/')

theorem slash_not_mem_portText (port : Option UInt16) : '/' ∉ portText port := by
  cases port with
  | none => exact List.not_mem_nil
  | some port =>
    rw [portText, List.mem_cons, not_or]
    refine ⟨by decide, fun member => ?_⟩
    exact ne_of_class (List.all_eq_true.mp (natToChars_digits _) _ member)
      (by decide : Char.isDigit '/' = false) rfl

theorem slash_not_mem_authority (base : BaseUrl) : '/' ∉ base.authority := by
  rw [authority, List.mem_append, not_or]
  exact ⟨base.hostPlain.1, slash_not_mem_portText base.port⟩

theorem rdropWhile_replicate (cs : List Char) (count : Nat) :
    (cs ++ List.replicate count '/').rdropWhile (· == '/') = cs.rdropWhile (· == '/') := by
  induction count with
  | zero => simp
  | succ count ih =>
    rw [List.replicate_succ', ← List.append_assoc, List.rdropWhile_concat_pos _ _ _ (by simp), ih]

/-- The slashes behind a base URL are dropped, and no others. -/
theorem trimEndSlashes_text (base : BaseUrl) :
    trimEndSlashes base.text = String.ofList (HTTPS ++ (base.authority ++ base.path)) := by
  rw [trimEndSlashes, text, String.toList_ofList, rdropWhile_replicate]
  congr 1
  rw [List.rdropWhile_eq_self_iff]
  intro shown slash
  have found := List.getLast?_eq_some_getLast shown
  rw [beq_iff_eq.mp slash, List.getLast?_append, List.getLast?_append] at found
  cases last : base.path.getLast? with
  | some c =>
    rw [last, Option.some_or, Option.some_or] at found
    exact base.pathEnds c last (Option.some.inj found)
  | none =>
    rw [last, Option.none_or] at found
    cases ends : base.authority.getLast? with
    | none => simp [authority, base.hostShown] at ends
    | some c =>
      rw [ends, Option.some_or] at found
      exact base.slash_not_mem_authority (Option.some.inj found ▸ List.mem_of_getLast? ends)

theorem parse_authority {E : Type} (fault : String → E) (base : BaseUrl) {path : List Char}
    (rooted : ∃ rest, path = '/' :: rest) :
    parseHttpsUrl fault (String.ofList (HTTPS ++ (base.authority ++ path))) =
      .ok (String.ofList base.host, base.port.getD 443, String.ofList path) := by
  obtain ⟨rest, rfl⟩ := rooted
  rw [parseHttpsUrl, String.toList_ofList, stripPrefix_append]
  simp only [okOr, bind, Except.bind, splitOnce_append base.slash_not_mem_authority]
  cases port : base.port with
  | none =>
    have whole : base.authority = base.host := by simp [authority, portText, port]
    rw [whole, splitOnce_none base.hostPlain.2]
    rfl
  | some number =>
    have whole : base.authority = base.host ++ ':' :: natToChars number.toNat := by
      simp [authority, portText, port]
    rw [whole, splitOnce_append base.hostPlain.2]
    simp only [parseU16_natToChars]
    rfl

/-- An endpoint behind a base URL leads to the host, at its port or 443. -/
theorem parse_endpoint {E : Type} (fault : String → E) (base : BaseUrl) {endpoint : List Char}
    (rooted : ∃ rest, endpoint = '/' :: rest) :
    parseHttpsUrl fault (trimEndSlashes base.text ++ String.ofList endpoint) =
      .ok (String.ofList base.host, base.port.getD 443, String.ofList (base.path ++ endpoint)) := by
  rw [trimEndSlashes_text, ← String.ofList_append, List.append_assoc, List.append_assoc]
  refine base.parse_authority fault ?_
  cases path : base.path with
  | nil => exact rooted
  | cons c rest =>
    have root : c = '/' := base.pathRooted c (by simp [path])
    exact ⟨rest ++ endpoint, by rw [root, List.cons_append]⟩

end BaseUrl

/-! ### Over a connection -/

/-- What comes of connecting to a host, the TLS session, writing some bytes, ending the sending
side and reading to the end; where it fails, the text of the error. -/
abbrev Network := String → UInt16 → List UInt8 → Except String (List UInt8)

section Clients

variable (utf8Error : String) (network : Network)

def postFormNativeTls (url apiKey body : String) : Except TransportError HttpResponse := do
  let (host, port, path) ← parseHttpsUrl .http url
  let raw ← (network host port (bytes (formText path host apiKey body))).mapError .http
  orderParseHttpResponse utf8Error raw

/-- `place_order` of either crate, over its production transport. -/
def placeOrderTls {R Response : Type} (api : OrderApi R Response) (client : OrderClient)
    (exchange : Exchange) (now : UInt64) (request : R) : Except PlaceOrderError Response :=
  match orderPost api client exchange now request with
  | .error error => .error (.builder error)
  | .ok post => readAnswer api (postFormNativeTls utf8Error network post.url post.apiKey post.body)

def requestNativeTls (call : ListenKeyCall) (url apiKey : String) :
    Except ListenKeyError HttpResponse := do
  let (host, port, path) ← parseHttpsUrl .transport url
  let raw ← (network host port (bytes (listenKeyText call path host apiKey))).mapError .transport
  listenKeyParseHttpResponse utf8Error raw

/-- The errors of a listen-key call: those of the request, and what is wrong with the reply. -/
inductive ListenKeyCallError where
  | request (error : ListenKeyError)
  | unexpectedStatus (status : UInt16) (body : String)
  | parse (message : String)

structure ListenKeyClient where
  restBaseUrl : String
  credentials : ApiCredentials

namespace ListenKeyClient

def withRestBase (restBaseUrl : String) (credentials : ApiCredentials) : ListenKeyClient :=
  ⟨trimEndSlashes restBaseUrl, credentials⟩

def listenKeyUrl (self : ListenKeyClient) : String := self.restBaseUrl ++ "/fapi/v1/listenKey"

/-- What the three calls share. -/
def request (self : ListenKeyClient) (call : ListenKeyCall) :
    Except ListenKeyCallError HttpResponse := do
  let response ← (requestNativeTls utf8Error network call self.listenKeyUrl
    self.credentials.apiKey).mapError .request
  if response.status ≠ 200 then .error (.unexpectedStatus response.status response.body)
  else return response

/-- `create`; `listenKey` reads a body as a `ListenKeyResponse`. -/
def create (listenKey : String → Except String String) (self : ListenKeyClient) :
    Except ListenKeyCallError String := do
  let response ← self.request utf8Error network .create
  (listenKey response.body).mapError .parse

def keepalive (self : ListenKeyClient) : Except ListenKeyCallError Unit := do
  let _ ← self.request utf8Error network .keepalive
  return ()

def close (self : ListenKeyClient) : Except ListenKeyCallError Unit := do
  let _ ← self.request utf8Error network .close
  return ()

end ListenKeyClient

end Clients

/-- Servers by host and port, which answer the one request that they read and hang up on anything
else. -/
abbrev Servers := String → UInt16 → Request → Reply

def Servers.network (servers : Servers) : Network := fun host port raw =>
  match read raw with
  | some (request, []) => .ok (servers host port request).bytes
  | _ => .error "connection closed"

/-- A reply with a text for its body, which is not chunked. -/
structure Carries (reply : Reply) (text : String) : Prop where
  unchunked : reply.framing.isChunked = false
  head : (fromUtf8 reply.head).isSome
  body : bytes text = reply.framing.body

theorem Carries.read {reply : Reply} {text : String} (carries : Carries reply text) :
    readHttpResponse reply.bytes = .ok ⟨reply.status, text⟩ := by
  obtain ⟨h, spelled⟩ := Option.isSome_iff_exists.mp carries.head
  have payload : encode text.toList = reply.framing.payload :=
    carries.body.trans ((payload_eq_body_iff _).mpr carries.unchunked).symm
  rw [reply.readHttpResponse_bytes (fromUtf8_eq_some_iff.mp spelled) payload, String.ofList_toList]

theorem network_form (servers : Servers) {path host apiKey : String}
    (plain : PlainClient path host apiKey) (port : UInt16) (body : String) :
    servers.network host port (bytes (formText path host apiKey body)) =
      .ok (servers host port (formRequest path host apiKey body)).bytes := by
  rw [Servers.network, formText, bytes_requestText]
  rw [show read (write (request "POST" path (formHeaders host apiKey body) body)) =
    some (formRequest path host apiKey body, []) from
      read_write (formRequest_made path host apiKey body)
        ((formRequest_plain_iff path host apiKey body).mpr plain)]

theorem network_listenKey (servers : Servers) {path host apiKey : String}
    (plain : PlainClient path host apiKey) (port : UInt16) (call : ListenKeyCall) :
    servers.network host port (bytes (listenKeyText call path host apiKey)) =
      .ok (servers host port (listenKeyRequest call path host apiKey)).bytes := by
  rw [Servers.network, listenKeyText, bytes_requestText]
  rw [show read (write (request call.method path (listenKeyHeaders host apiKey "") "")) =
    some (listenKeyRequest call path host apiKey, []) from
      read_write (listenKeyRequest_made call path host apiKey)
        ((listenKeyRequest_plain_iff call path host apiKey).mpr plain)]

theorem postForm_served (utf8Error : String) (servers : Servers) {url path host apiKey : String}
    {port : UInt16} (leads : parseHttpsUrl TransportError.http url = .ok (host, port, path))
    (plain : PlainClient path host apiKey) (body : String) {text : String}
    (carries : Carries (servers host port (formRequest path host apiKey body)) text) :
    postFormNativeTls utf8Error servers.network url apiKey body =
      .ok ⟨(servers host port (formRequest path host apiKey body)).status, text⟩ := by
  simp only [postFormNativeTls, leads, bind, Except.bind, network_form servers plain,
    Except.mapError, orderParseHttpResponse, parseHttpResponse, carries.read]

theorem listenKey_served (utf8Error : String) (servers : Servers) {url path host apiKey : String}
    {port : UInt16} (leads : parseHttpsUrl ListenKeyError.transport url = .ok (host, port, path))
    (plain : PlainClient path host apiKey) (call : ListenKeyCall) {text : String}
    (carries : Carries (servers host port (listenKeyRequest call path host apiKey)) text) :
    requestNativeTls utf8Error servers.network call url apiKey =
      .ok ⟨(servers host port (listenKeyRequest call path host apiKey)).status, text⟩ := by
  simp only [requestNativeTls, leads, bind, Except.bind, network_listenKey servers plain,
    Except.mapError, listenKeyParseHttpResponse, parseHttpResponse, carries.read]

namespace BaseUrl

/-- The path of an endpoint behind a base URL. -/
def pathOf (base : BaseUrl) (endpoint : String) : String :=
  String.ofList (base.path ++ endpoint.toList)

/-- A client of this base URL, asking for an endpoint, is plain. -/
def Plain (base : BaseUrl) (endpoint apiKey : String) : Prop :=
  PlainClient (base.pathOf endpoint) (String.ofList base.host) apiKey

/-- The server that a base URL leads to. -/
def server (base : BaseUrl) (servers : Servers) : Request → Reply :=
  servers (String.ofList base.host) (base.port.getD 443)

theorem leads {E : Type} (fault : String → E) (base : BaseUrl) {endpoint : String}
    (rooted : ∃ rest, endpoint.toList = '/' :: rest) :
    parseHttpsUrl fault (trimEndSlashes base.text ++ endpoint) =
      .ok (String.ofList base.host, base.port.getD 443, base.pathOf endpoint) := by
  have parsed := base.parse_endpoint fault rooted
  rw [String.ofList_toList] at parsed
  exact parsed

end BaseUrl

/-- An order that can be built is asked of the server of the base URL, and of no other, as it was
signed; what the client returns is its reading of what this server says to just this order. -/
def OrdersReach {R Response : Type} (api : OrderApi R Response) : Prop :=
  ∀ (utf8Error : String) (servers : Servers) (base : BaseUrl) (credentials : ApiCredentials)
    (exchange : Exchange) (now : UInt64) (order : R) (params : Params),
    base.Plain api.path credentials.apiKey → api.buildOrderParams order = .ok params →
    let reply := base.server servers (formRequest (base.pathOf api.path)
      (String.ofList base.host) credentials.apiKey
      (signedParamsPayload (signFormParams exchange.hmac credentials.secretKey now params)))
    ∀ text, Carries reply text →
      placeOrderTls utf8Error servers.network api ⟨credentials, base.text⟩ exchange now order =
        parsePlaceOrderResponse api.format ⟨reply.status, text⟩

theorem api_orders_reach {R Response : Type} {api : OrderApi R Response}
    (rooted : ∃ rest, api.path.toList = '/' :: rest) : OrdersReach api := by
  intro utf8Error servers base credentials exchange now order params plain accepted reply text
    carries
  have built : orderPost api ⟨credentials, base.text⟩ exchange now order =
      .ok ⟨trimEndSlashes base.text ++ api.path, credentials.apiKey,
        signedParamsPayload (signFormParams exchange.hmac credentials.secretKey now params)⟩ := by
    rw [orderPost, buildSignedFormParams, accepted]
    rfl
  have answered := postForm_served utf8Error servers (base.leads TransportError.http rooted)
    plain _ carries
  simp only [placeOrderTls, built, answered]
  rfl

/-- In either crate an order and its answer arrive, over the hand-written HTTP. -/
theorem orders_reach {SpotResponse UsdmResponse : Type} (spot : ResponseFormat SpotResponse)
    (usdm : ResponseFormat UsdmResponse) :
    OrdersReach (Spot.orderApi spot) ∧ OrdersReach (Usdm.orderApi usdm) :=
  ⟨api_orders_reach ⟨"api/v3/order".toList, show "/api/v3/order".toList = _ by decide⟩,
    api_orders_reach ⟨"fapi/v1/order".toList, show "/fapi/v1/order".toList = _ by decide⟩⟩

def spotBase : BaseUrl where
  host := "api.binance.com".toList
  port := none
  path := []
  slashes := 1
  hostShown := by decide
  hostPlain := by decide
  pathRooted := by simp
  pathEnds := by simp

theorem ok_plain : NoLineEnd (encode ['O', 'K']) := noLineEnd_encode (plain_of_all (by decide))

/-- A server that answers everything with an empty object. -/
def emptyObjects : Servers := fun _ _ _ =>
  { status := 200
    reason := encode ['O', 'K']
    plainReason := ok_plain
    before := []
    after := []
    framing := .contentLength (bytes "\x7b\x7d") }

theorem emptyObjects_carries (host : String) (port : UInt16) (asked : Request) :
    Carries (emptyObjects host port asked) "\x7b\x7d" := by
  have head : (fromUtf8 (emptyObjects "" 0 ⟨[], [], [], []⟩).head).isSome := by decide +kernel
  exact ⟨rfl, head, rfl⟩

theorem spotBase_plain (endpoint : String) (rooted : PlainPath (spotBase.pathOf endpoint)) :
    spotBase.Plain endpoint "key" := by
  refine ⟨rooted, ?_, ?_⟩
  · rw [PlainHost]
    decide +kernel
  · rw [PlainValue]
    decide +kernel

/-- A limit order at the spot exchange, which acknowledges it by an empty object. -/
theorem orders_reach_spot :
    placeOrderTls "" emptyObjects.network (Spot.orderApi apiErrors)
      ⟨⟨"key", "secret"⟩, "https://api.binance.com/"⟩ rejecting 1747385641636 limitOrder =
        .ok () := by
  obtain ⟨params, accepted⟩ : ∃ params, Spot.buildOrderParams limitOrder = .ok params := ⟨_, rfl⟩
  have text : spotBase.text = "https://api.binance.com/" := by decide
  have plain : spotBase.Plain "/api/v3/order" "key" :=
    spotBase_plain _ (by rw [PlainPath]; decide +kernel)
  have reached := (orders_reach apiErrors apiErrors).1 "" emptyObjects spotBase ⟨"key", "secret"⟩
    rejecting 1747385641636 limitOrder params plain accepted "\x7b\x7d" (emptyObjects_carries _ _ _)
  rw [text] at reached
  exact reached

end Trolly.Exec
