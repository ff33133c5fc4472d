import Trolly.Std.JsonText
import Trolly.Strategy.Messages

/-! The envelope of a stream event: one flat object whose field `kind` names the variant, with
the fields of the update beside it. A field that is absent in the update is left out, and one
that is missing in the object is read as absent. -/
namespace Trolly.Strategy

open SerdeJson Trolly.Stream

/-- `serde_json` below the derived code: a text read as a value, with the fields of an object
in order and repeated ones kept; a value in compact form; what the error on a text says. -/
structure JsonCodec where
  fromStr : String → Option Value
  toStr : Value → String
  message : String → String

inductive ParseError where
  | notText
  | invalidJson (message : String)

/-! ## Writing -/

def EventKind.tag : EventKind → String
  | depth => "depth"
  | execution => "execution"
  | account => "account"

def levelToValue (level : PriceLevel) : Value :=
  .object [("price", .string level.price), ("qty", .string level.qty)]

def depthFields (update : DepthUpdate) : List (String × Value) :=
  [("symbol", .string update.symbol),
    ("bids", .array (update.bids.map levelToValue)),
    ("asks", .array (update.asks.map levelToValue))] ++
  presentField "update_id" (fun id => .number (.posInt id)) update.updateId

def executionFields (update : ExecutionUpdate) : List (String × Value) :=
  [("symbol", .string update.symbol),
    ("order_id", .string update.orderId),
    ("side", .string update.side),
    ("fill_qty", .string update.fillQty),
    ("fill_price", .string update.fillPrice)]

def accountFields (update : AccountUpdate) : List (String × Value) :=
  [("asset", .string update.asset), ("balance", .string update.balance)] ++
  presentField "symbol" .string update.symbol

def eventFields : StreamEvent → List (String × Value)
  | .depth update => depthFields update
  | .execution update => executionFields update
  | .account update => accountFields update

def eventToValue (event : StreamEvent) : Value :=
  .object (("kind", .string event.kind.tag) :: eventFields event)

def envelopeMessage (json : JsonCodec) (event : StreamEvent) : Message :=
  .text (json.toStr (eventToValue event))

/-! ## Reading -/

def levelFromValue : Value → Option PriceLevel
  | .object fields => do
    let price ← requiredField fields "price" Value.asStr
    let qty ← requiredField fields "qty" Value.asStr
    some ⟨price, qty⟩
  | .array [price, qty] => do
    let price ← price.asStr
    let qty ← qty.asStr
    some ⟨price, qty⟩
  | _ => none

def levelsFromValue (v : Value) : Option (List PriceLevel) :=
  v.asArray.bind (fun items => items.mapM levelFromValue)

/-- The last field has a default, so an array may end before it. -/
def depthFromValue : Value → Option DepthUpdate
  | .object fields => do
    let symbol ← requiredField fields "symbol" Value.asStr
    let bids ← requiredField fields "bids" levelsFromValue
    let asks ← requiredField fields "asks" levelsFromValue
    let updateId ← optionField fields "update_id" optionU64
    some ⟨symbol, bids, asks, updateId⟩
  | .array (symbol :: bids :: asks :: last) => do
    let symbol ← symbol.asStr
    let bids ← levelsFromValue bids
    let asks ← levelsFromValue asks
    let updateId ← match last with
      | [] => some none
      | [id] => optionU64 id
      | _ => none
    some ⟨symbol, bids, asks, updateId⟩
  | _ => none

def executionFromValue : Value → Option ExecutionUpdate
  | .object fields => do
    let symbol ← requiredField fields "symbol" Value.asStr
    let orderId ← requiredField fields "order_id" Value.asStr
    let side ← requiredField fields "side" Value.asStr
    let fillQty ← requiredField fields "fill_qty" Value.asStr
    let fillPrice ← requiredField fields "fill_price" Value.asStr
    some ⟨symbol, orderId, side, fillQty, fillPrice⟩
  | .array [symbol, orderId, side, fillQty, fillPrice] => do
    let symbol ← symbol.asStr
    let orderId ← orderId.asStr
    let side ← side.asStr
    let fillQty ← fillQty.asStr
    let fillPrice ← fillPrice.asStr
    some ⟨symbol, orderId, side, fillQty, fillPrice⟩
  | _ => none

def accountFromValue : Value → Option AccountUpdate
  | .object fields => do
    let asset ← requiredField fields "asset" Value.asStr
    let balance ← requiredField fields "balance" Value.asStr
    let symbol ← optionField fields "symbol" optionString
    some ⟨asset, balance, symbol⟩
  | .array (asset :: balance :: last) => do
    let asset ← asset.asStr
    let balance ← balance.asStr
    let symbol ← match last with
      | [] => some none
      | [symbol] => optionString symbol
      | _ => none
    some ⟨asset, balance, symbol⟩
  | _ => none

def eventFromValue (v : Value) : Option StreamEvent := do
  let (tag, content) ← takeTag "kind" v
  match tag with
  | "depth" => (depthFromValue content).map .depth
  | "execution" => (executionFromValue content).map .execution
  | "account" => (accountFromValue content).map .account
  | _ => none

def parseEnvelope (json : JsonCodec) : Message → Except ParseError StreamEvent
  | .text text =>
    match (json.fromStr text).bind eventFromValue with
    | some event => .ok event
    | none => .error (.invalidJson (json.message text))
  | _ => .error .notText

/-! ## Each value reads back -/

theorem level_reads_back (level : PriceLevel) :
    levelFromValue (levelToValue level) = some level := by
  simp [levelFromValue, levelToValue, requiredField, Value.asStr]

theorem levels_read_back (levels : List PriceLevel) :
    levelsFromValue (.array (levels.map levelToValue)) = some levels := by
  simp only [levelsFromValue, Value.asArray, Option.bind_some, List.mapM_map]
  induction levels with
  | nil => rfl
  | cons level rest ih => simp [level_reads_back, ih]

/-- The last field is there or left out, and both read back. -/
theorem depth_reads_back (update : DepthUpdate) :
    depthFromValue (.object (depthFields update)) = some update := by
  obtain ⟨symbol, bids, asks, _ | id⟩ := update <;>
    simp [depthFromValue, depthFields, presentField, requiredField, optionField, optionU64,
      levels_read_back, Value.asStr, Value.asU64]

theorem execution_reads_back (update : ExecutionUpdate) :
    executionFromValue (.object (executionFields update)) = some update := by
  simp [executionFromValue, executionFields, requiredField, Value.asStr]

theorem account_reads_back (update : AccountUpdate) :
    accountFromValue (.object (accountFields update)) = some update := by
  obtain ⟨asset, balance, _ | symbol⟩ := update <;>
    simp [accountFromValue, accountFields, presentField, requiredField, optionField, optionString,
      Value.asStr]

/-- No update has a field under the name of the tag. -/
theorem kind_not_a_field (event : StreamEvent) :
    ∀ field ∈ eventFields event, field.1 ≠ "kind" := by
  cases event with
  | depth update =>
    obtain ⟨symbol, bids, asks, _ | id⟩ := update <;>
      simp [eventFields, depthFields, presentField]
  | execution update => simp [eventFields, executionFields]
  | account update =>
    obtain ⟨asset, balance, _ | symbol⟩ := update <;>
      simp [eventFields, accountFields, presentField]

theorem event_reads_back (event : StreamEvent) :
    eventFromValue (eventToValue event) = some event := by
  rw [eventFromValue, eventToValue, takeTag_cons (kind_not_a_field event)]
  cases event with
  | depth update =>
    exact congrArg (fun read => read.map StreamEvent.depth) (depth_reads_back update)
  | execution update =>
    exact congrArg (fun read => read.map StreamEvent.execution) (execution_reads_back update)
  | account update =>
    exact congrArg (fun read => read.map StreamEvent.account) (account_reads_back update)

/-! ## An event is plain JSON, three levels deep -/

theorem plain_level (level : PriceLevel) (depth : Nat) :
    (levelToValue level).Plain (depth + 1) := by
  simp [Value.Plain, levelToValue]

theorem plain_event (event : StreamEvent) (depth : Nat) :
    (eventToValue event).Plain (depth + 3) := by
  cases event with
  | depth update =>
    obtain ⟨symbol, bids, asks, _ | id⟩ := update <;>
      simp [eventToValue, eventFields, depthFields, presentField, plain_level, Value.Plain]
  | execution update => simp [eventToValue, eventFields, executionFields, Value.Plain]
  | account update =>
    obtain ⟨asset, balance, _ | symbol⟩ := update <;>
      simp [eventToValue, eventFields, accountFields, presentField, Value.Plain]

/-! ## The wire -/

section Wire

variable (json : JsonCodec)

/-- What is relied on of the crate: texts and unsigned integers come back as they were
written, inside at most 127 arrays and objects. -/
def RoundTrips : Prop := ∀ v : Value, v.Plain 127 → json.fromStr (json.toStr v) = some v

variable {json} (lossless : RoundTrips json)

include lossless

theorem parse_message (event : StreamEvent) :
    parseEnvelope json (envelopeMessage json event) = .ok event := by
  have written : json.fromStr (json.toStr (eventToValue event)) = some (eventToValue event) :=
    lossless _ (plain_event event 124)
  rw [envelopeMessage, parseEnvelope, written, Option.bind_some, event_reads_back]

theorem envelope_round_trip :
    (∀ event, parseEnvelope json (envelopeMessage json event) = .ok event) ∧
      Function.Injective (envelopeMessage json) ∧
      (∀ event, (parseEnvelope json (envelopeMessage json event)).map
        (fun parsed => (parsed.routingId, parsed.kind)) = .ok (event.routingId, event.kind)) ∧
      ∀ frame event, parseEnvelope json frame = .ok event →
        parseEnvelope json (envelopeMessage json event) = .ok event := by
  refine ⟨parse_message lossless, fun first second same => ?_, fun event => ?_,
    fun _ event _ => parse_message lossless event⟩
  · have parsed := parse_message lossless first
    rw [same, parse_message lossless second] at parsed
    exact (Except.ok.inj parsed).symm
  · rw [parse_message lossless event]
    rfl

end Wire

def JsonCodec.compact : JsonCodec := ⟨ofText, toText, fun _ => "expected value"⟩

theorem compact_round_trips : RoundTrips .compact := fun _ plain => ofText_toText plain

theorem envelope_of_a_book :
    envelopeMessage .compact (.depth ⟨"BTC\"USDT", [⟨"100", "1"⟩], [], some 7⟩) =
      .text ("\x7b\"kind\":\"depth\",\"symbol\":\"BTC\\\"USDT\"," ++
        "\"bids\":[\x7b\"price\":\"100\",\"qty\":\"1\"\x7d],\"asks\":[],\"update_id\":7\x7d") ∧
    parseEnvelope .compact
      (envelopeMessage .compact (.depth ⟨"BTC\"USDT", [⟨"100", "1"⟩], [], some 7⟩)) =
        .ok (.depth ⟨"BTC\"USDT", [⟨"100", "1"⟩], [], some 7⟩) :=
  ⟨congrArg Message.text (by decide +kernel),
    (envelope_round_trip compact_round_trips).1 (.depth ⟨"BTC\"USDT", [⟨"100", "1"⟩], [], some 7⟩)⟩

end Trolly.Strategy
