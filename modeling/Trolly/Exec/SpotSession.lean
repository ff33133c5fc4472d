import Trolly.Exec.SignedForm
import Trolly.Lib.Traversal
import Trolly.Std.JsonText

/-! The signed subscription to the spot user-data stream, and what an exchange makes of it that
knows the secrets of its accounts. -/
namespace Trolly.Exec

open SerdeJson Utf8 FormUrlencoded SortedMap

variable (hmac : Hmac)

/-- `current_timestamp_ms` is called here and once more by `sign_params`, which replaces what is
read here. -/
def buildSubscribeSignatureParams (clock : Nat → UInt64) (apiKey secretKey : String) : Params :=
  let params := (∅ : Params).insert "apiKey" apiKey
  let params := params.insert "timestamp" (timestampText (clock 0))
  signFormParams hmac secretKey (clock 1) params

structure BinanceSpotUserStream where
  credentials : ApiCredentials
  wsApiUrl : String

namespace BinanceSpotUserStream

def subscribeRequest (params : Params) : Value :=
  .object [("id", .string "binance-spot-exec-subscribe"),
    ("method", .string "userDataStream.subscribe.signature"),
    ("params", .object (params.entries.map (fun (name, value) => (name, .string value))))]

def subscribeRequestJson (self : BinanceSpotUserStream) (clock : Nat → UInt64) : String :=
  toText (subscribeRequest (buildSubscribeSignatureParams hmac clock self.credentials.apiKey
    self.credentials.secretKey))

/-- The symbols are ignored: user data is of the whole account. -/
def wsSubscriptions (self : BinanceSpotUserStream) (clock : Nat → UInt64)
    (_symbols : List String) : List String :=
  [self.subscribeRequestJson hmac clock]

end BinanceSpotUserStream

/-! ### The exchange -/

/-- What the exchange takes from a frame: the parameters other than the signature are signed as
they stand. -/
structure SignedRequest where
  apiKey : String
  timestamp : String
  signature : String
  payload : String

/-- The texts of an object. -/
def textFields : Value → Option (List (String × String))
  | .object fields => fields.mapM (fun (name, v) => v.asStr.map (name, ·))
  | _ => none

def SignedRequest.ofFrame (frame : String) : Option SignedRequest := do
  let request ← ofText frame
  let method ← (request.get "method").bind Value.asStr
  let params ← (request.get "params").bind textFields
  let apiKey ← params.lookup "apiKey"
  let timestamp ← params.lookup "timestamp"
  let signature ← params.lookup "signature"
  let payload := payloadOf (params.filter (fun entry => entry.1 ≠ "signature"))
  if method = "userDataStream.subscribe.signature" then
    some { apiKey, timestamp, signature, payload }
  else none

structure Authenticated where
  apiKey : String
  timestamp : String

/-- The signature is checked under the secret of the account that the request names. -/
def authenticate (accounts : String → Option String) (frame : String) : Option Authenticated := do
  let request ← SignedRequest.ofFrame frame
  let secretKey ← accounts request.apiKey
  if request.signature = signHmacSha256Hex hmac secretKey request.payload then
    some { apiKey := request.apiKey, timestamp := request.timestamp }
  else none

/-- Two texts, each under its own key, with the same HMAC. -/
def Collides (secretKey payload secretKey' payload' : String) : Prop :=
  payload ≠ payload' ∧
    hmac (bytes secretKey) (bytes payload) = hmac (bytes secretKey') (bytes payload')

/-- The request of a stream, with the second reading of the clock. -/
def BinanceSpotUserStream.signedRequest (self : BinanceSpotUserStream) (clock : Nat → UInt64) :
    SignedRequest :=
  let timestamp := timestampText (clock 1)
  let payload := payloadOf [("apiKey", self.credentials.apiKey), ("timestamp", timestamp)]
  { apiKey := self.credentials.apiKey
    timestamp := timestamp
    signature := signHmacSha256Hex hmac self.credentials.secretKey payload
    payload := payload }

/-! ### What is sent -/

theorem subscribeParams_entries (self : BinanceSpotUserStream) (clock : Nat → UInt64) :
    (buildSubscribeSignatureParams hmac clock self.credentials.apiKey
      self.credentials.secretKey).entries =
      [("apiKey", self.credentials.apiKey),
        ("signature", (self.signedRequest hmac clock).signature),
        ("timestamp", timestampText (clock 1))] := by
  have stamped : (stamp (((∅ : Params).insert "apiKey" self.credentials.apiKey).insert "timestamp"
      (timestampText (clock 0))) (clock 1)).entries =
        [("apiKey", self.credentials.apiKey), ("timestamp", timestampText (clock 1))] := by
    simp (disch := decide) only [stamp, entries_insert, entries_empty, insertEntry_nil,
      insertEntry_after, insertEntry_same]
  rw [buildSubscribeSignatureParams, signFormParams, signedParamsPayload, entries_insert, stamped]
  simp (disch := decide) only [insertEntry_after, insertEntry_before]
  rfl

variable {hmac}

theorem textFields_texts (entries : List (String × String)) :
    textFields (.object (entries.map (fun (name, value) => (name, .string value)))) =
      some entries :=
  Traversal.mapM_map_some (fun _ _ => rfl)

theorem subscribeRequest_plain (params : Params) :
    (BinanceSpotUserStream.subscribeRequest params).Plain 127 := by
  simp only [BinanceSpotUserStream.subscribeRequest, Value.Plain, List.forall_mem_cons,
    List.forall_mem_map]
  exact ⟨trivial, trivial, fun _ _ => trivial, by simp⟩

theorem ofFrame_own (self : BinanceSpotUserStream) (clock : Nat → UInt64) :
    SignedRequest.ofFrame (self.subscribeRequestJson hmac clock) =
      some (self.signedRequest hmac clock) := by
  set params := buildSubscribeSignatureParams hmac clock self.credentials.apiKey
    self.credentials.secretKey with built
  have entries := subscribeParams_entries hmac self clock
  have read := ofText_toText (subscribeRequest_plain params)
  have method : (BinanceSpotUserStream.subscribeRequest params).get "method" =
      some (.string "userDataStream.subscribe.signature") := rfl
  have fields : ((BinanceSpotUserStream.subscribeRequest params).get "params").bind textFields =
      some params.entries := textFields_texts params.entries
  rw [← built] at entries
  rw [SignedRequest.ofFrame, BinanceSpotUserStream.subscribeRequestJson, ← built, read]
  simp only [Option.bind_eq_bind, Option.bind_some, method, Value.asStr, fields, entries]
  rfl

theorem authenticate_iff {accounts : String → Option String} {frame : String}
    {request : SignedRequest} (read : SignedRequest.ofFrame frame = some request)
    (found : Authenticated) :
    authenticate hmac accounts frame = some found ↔
      found = ⟨request.apiKey, request.timestamp⟩ ∧ ∃ secretKey,
        accounts request.apiKey = some secretKey ∧
          request.signature = signHmacSha256Hex hmac secretKey request.payload := by
  simp only [authenticate, read, Option.bind_eq_bind, Option.bind_some, Option.bind_eq_some_iff]
  constructor
  · rintro ⟨secretKey, known, signed⟩
    obtain ⟨right, made⟩ := Option.ite_none_right_eq_some.mp signed
    exact ⟨(Option.some.inj made).symm, secretKey, known, right⟩
  · rintro ⟨rfl, secretKey, known, right⟩
    exact ⟨secretKey, known, if_pos right⟩

theorem ofFrame_params {frame : String} {request : SignedRequest}
    (read : SignedRequest.ofFrame frame = some request) : ∃ params : List (String × String),
      params.lookup "apiKey" = some request.apiKey ∧
      params.lookup "timestamp" = some request.timestamp ∧
      request.payload = payloadOf (params.filter (fun entry => entry.1 ≠ "signature")) := by
  simp only [SignedRequest.ofFrame, Option.bind_eq_bind, Option.bind_eq_some_iff] at read
  obtain ⟨_, _, _, _, params, _, apiKey, key, timestamp, time, _, _, checked⟩ := read
  obtain ⟨_, made⟩ := Option.ite_none_right_eq_some.mp checked
  cases made
  exact ⟨params, key, time, rfl⟩

/-! ### What else carries the signature -/

theorem hexEncode_injective {bs cs : List UInt8} (same : hexEncode bs = hexEncode cs) :
    bs = cs := by
  have digits : ∀ m < 16, ∀ n < 16, Nat.digitChar m = Nat.digitChar n → m = n := by decide
  replace same := String.ofList_injective same
  induction bs generalizing cs with
  | nil =>
    cases cs with
    | nil => rfl
    | cons c cs => simp at same
  | cons b bs ih =>
    cases cs with
    | nil => simp at same
    | cons c cs =>
      simp only [List.flatMap_cons, List.cons_append, List.nil_append, List.cons.injEq] at same
      obtain ⟨high, low, rest⟩ := same
      have bound := b.toNat_lt
      have bound' := c.toNat_lt
      have upper := digits _ (by omega) _ (by omega) high
      have lower := digits _ (by omega) _ (by omega) low
      have equal : b = c := UInt8.toNat_inj.mp (by omega)
      rw [equal, ih rest]

theorem mem_signed {params : List (String × String)} {name value : String}
    (found : params.lookup name = some value) (other : name ≠ "signature") :
    (name, value) ∈ params.filter (fun entry => entry.1 ≠ "signature") := by
  obtain ⟨front, back, rfl, _⟩ := List.lookup_eq_some_iff.mp found
  simp [other]

/-- Two entries, neither of which has a stray `&`, are the only ones that are signed so, if both
of the names must be there. -/
theorem two_signed {apiKey timestamp : String} {entries : List (String × String)}
    (single : 0x26 ∉ bytes apiKey) (digits : 0x26 ∉ bytes timestamp) {apiKey' timestamp' : String}
    (keyed : ("apiKey", apiKey') ∈ entries) (timed : ("timestamp", timestamp') ∈ entries)
    (same : join entries = join [("apiKey", apiKey), ("timestamp", timestamp)]) :
    apiKey' = apiKey ∧ timestamp' = timestamp := by
  have own : ∀ entry ∈ [("apiKey", apiKey), ("timestamp", timestamp)], 0x26 ∉ pair entry := by
    have names : 0x26 ∉ bytes "apiKey" ∧ 0x26 ∉ bytes "timestamp" := by decide
    simp [pair, names, single, digits]
  obtain ⟨first, rest, rfl⟩ := List.exists_cons_of_ne_nil (List.ne_nil_of_mem keyed)
  have counts := congrArg (List.count 0x26) same
  rw [count_join, count_join, (no_separator_iff _).mpr own] at counts
  have different : ("apiKey", apiKey') ≠ ("timestamp", timestamp') := by simp
  rcases rest with _ | ⟨second, _ | ⟨third, more⟩⟩
  · exact absurd ((List.mem_singleton.mp keyed).trans (List.mem_singleton.mp timed).symm) different
  · rcases List.mem_pair.mp keyed with rfl | rfl
    · obtain rfl := (List.mem_pair.mp timed).resolve_left different.symm
      have entries : [("apiKey", apiKey), ("timestamp", timestamp)] =
          [("apiKey", apiKey'), ("timestamp", timestamp')] := join_injective rfl own same.symm
      simp only [List.cons.injEq, Prod.mk.injEq, true_and, and_true] at entries
      exact ⟨entries.1.symm, entries.2.symm⟩
    · obtain rfl := (List.mem_pair.mp timed).resolve_right different.symm
      have spelled : bytes "timestamp" = 0x74 :: bytes "imestamp" ∧
        bytes "apiKey" = 0x61 :: bytes "piKey" := by decide
      rw [join_cons_cons, join_cons_cons, pair, pair, spelled.1, spelled.2] at same
      cases congrArg List.head? same
  · simp only [List.length_cons, List.length_nil] at counts
    omega

theorem signed_once (self : BinanceSpotUserStream) (clock : Nat → UInt64)
    (single : 0x26 ∉ bytes self.credentials.apiKey) {frame : String} {request : SignedRequest}
    (read : SignedRequest.ofFrame frame = some request)
    (same : request.payload = (self.signedRequest hmac clock).payload) :
    request.apiKey = self.credentials.apiKey ∧ request.timestamp = timestampText (clock 1) := by
  obtain ⟨params, key, time, signed⟩ := ofFrame_params read
  have joined := congrArg bytes (signed.symm.trans same)
  rw [BinanceSpotUserStream.signedRequest, bytes_payloadOf, bytes_payloadOf] at joined
  exact two_signed single (timestampText_plain _).1 (mem_signed key (by decide))
    (mem_signed time (by decide)) joined

def deskStream : BinanceSpotUserStream :=
  ⟨⟨"desk", "secret"⟩, "wss://ws-api.binance.com:443/ws-api/v3"⟩

end Trolly.Exec
