import Trolly.Std.Json
import Trolly.Stream.Multiplexor

/-! Events of the spot user-data stream and the parser of one websocket message.
`serde_json::from_str` is the parameter `fromStr`. -/
namespace Trolly.Spot

open SerdeJson Trolly.Stream

def ACCOUNT_ROUTE_ID : String := "__account__"

structure ExecutionReport where
  eventTime : UInt64
  symbol : String
  clientOrderId : String
  side : String
  orderType : String
  timeInForce : String
  quantity : String
  price : String
  executionType : String
  orderStatus : String
  orderId : Int64
  lastQty : String
  cumulativeQty : String
  lastPrice : String
  transactionTime : UInt64
  tradeId : Int64
  isOnBook : Bool
  deriving DecidableEq

structure AssetBalance where
  asset : String
  free : String
  locked : String
  deriving DecidableEq

structure OutboundAccountPosition where
  eventTime : UInt64
  lastUpdateTime : UInt64
  balances : List AssetBalance
  deriving DecidableEq

structure BalanceUpdate where
  eventTime : UInt64
  asset : String
  delta : String
  clearTime : UInt64
  deriving DecidableEq

structure ListStatusOrder where
  symbol : String
  orderId : Int64
  clientOrderId : String
  deriving DecidableEq

structure ListStatus where
  eventTime : UInt64
  symbol : String
  listStatusType : String
  listOrderStatus : String
  orders : List ListStatusOrder
  deriving DecidableEq

structure ExternalLockUpdate where
  eventTime : UInt64
  asset : String
  delta : String
  transactionTime : UInt64
  deriving DecidableEq

structure EventStreamTerminated where
  eventTime : UInt64
  deriving DecidableEq

inductive SpotUserEvent where
  | executionReport (report : ExecutionReport)
  | outboundAccountPosition (pos : OutboundAccountPosition)
  | balanceUpdate (update : BalanceUpdate)
  | listStatus (status : ListStatus)
  | externalLockUpdate (lock : ExternalLockUpdate)
  | eventStreamTerminated (terminated : EventStreamTerminated)
  deriving DecidableEq

def SpotUserEvent.routeId : SpotUserEvent → String
  | executionReport r => r.symbol
  | listStatus r => r.symbol
  | outboundAccountPosition _ | balanceUpdate _ | externalLockUpdate _ | eventStreamTerminated _ =>
    ACCOUNT_ROUTE_ID

inductive ParseError (JsonError : Type) where
  | invalidMessage
  | json (error : JsonError)
  | unknownEvent (event : String)
  | missingField (field : String)

variable {JsonError : Type}

/-- A typed field; `strField` and its siblings differ in the reader only. -/
def field {α : Type} (read : Value → Option α) (value : Value) (key : String) :
    Except (ParseError JsonError) α :=
  match (value.get key).bind read with
  | some a => .ok a
  | none => .error (.missingField key)

def strField : Value → String → Except (ParseError JsonError) String := field Value.asStr

def u64Field : Value → String → Except (ParseError JsonError) UInt64 := field Value.asU64

def i64Field : Value → String → Except (ParseError JsonError) Int64 := field Value.asI64

def boolField : Value → String → Except (ParseError JsonError) Bool := field Value.asBool

def arrayField : Value → String → Except (ParseError JsonError) (List Value) := field Value.asArray

def parseExecutionReport (value : Value) : Except (ParseError JsonError) ExecutionReport := do
  let eventTime ← u64Field value "E"
  let symbol ← strField value "s"
  let clientOrderId ← strField value "c"
  let side ← strField value "S"
  let orderType ← strField value "o"
  let timeInForce ← strField value "f"
  let quantity ← strField value "q"
  let price ← strField value "p"
  let executionType ← strField value "x"
  let orderStatus ← strField value "X"
  let orderId ← i64Field value "i"
  let lastQty ← strField value "l"
  let cumulativeQty ← strField value "z"
  let lastPrice ← strField value "L"
  let transactionTime ← u64Field value "T"
  let tradeId ← i64Field value "t"
  let isOnBook ← boolField value "w"
  pure { eventTime, symbol, clientOrderId, side, orderType, timeInForce, quantity, price,
         executionType, orderStatus, orderId, lastQty, cumulativeQty, lastPrice, transactionTime,
         tradeId, isOnBook }

def parseAssetBalance (entry : Value) : Except (ParseError JsonError) AssetBalance := do
  let asset ← strField entry "a"
  let free ← strField entry "f"
  let locked ← strField entry "l"
  pure { asset, free, locked }

def parseOutboundAccountPosition (value : Value) :
    Except (ParseError JsonError) OutboundAccountPosition := do
  let entries ← arrayField value "B"
  let balances ← entries.mapM parseAssetBalance
  let eventTime ← u64Field value "E"
  let lastUpdateTime ← u64Field value "u"
  pure { eventTime, lastUpdateTime, balances }

def parseBalanceUpdate (value : Value) : Except (ParseError JsonError) BalanceUpdate := do
  let eventTime ← u64Field value "E"
  let asset ← strField value "a"
  let delta ← strField value "d"
  let clearTime ← u64Field value "T"
  pure { eventTime, asset, delta, clearTime }

def parseListStatusOrder (entry : Value) : Except (ParseError JsonError) ListStatusOrder := do
  let symbol ← strField entry "s"
  let orderId ← i64Field entry "i"
  let clientOrderId ← strField entry "c"
  pure { symbol, orderId, clientOrderId }

def parseListStatus (value : Value) : Except (ParseError JsonError) ListStatus := do
  let entries ← arrayField value "O"
  let orders ← entries.mapM parseListStatusOrder
  let eventTime ← u64Field value "E"
  let symbol ← strField value "s"
  let listStatusType ← strField value "l"
  let listOrderStatus ← strField value "L"
  pure { eventTime, symbol, listStatusType, listOrderStatus, orders }

def parseExternalLockUpdate (value : Value) : Except (ParseError JsonError) ExternalLockUpdate := do
  let eventTime ← u64Field value "E"
  let asset ← strField value "a"
  let delta ← strField value "d"
  let transactionTime ← u64Field value "T"
  pure { eventTime, asset, delta, transactionTime }

def parseEventStreamTerminated (value : Value) :
    Except (ParseError JsonError) EventStreamTerminated := do
  let eventTime ← u64Field value "E"
  pure { eventTime }

def parseEvent (payload : Value) (eventType : String) :
    Except (ParseError JsonError) SpotUserEvent :=
  if eventType = "executionReport" then .executionReport <$> parseExecutionReport payload
  else if eventType = "outboundAccountPosition" then
    .outboundAccountPosition <$> parseOutboundAccountPosition payload
  else if eventType = "balanceUpdate" then .balanceUpdate <$> parseBalanceUpdate payload
  else if eventType = "listStatus" then .listStatus <$> parseListStatus payload
  else if eventType = "externalLockUpdate" then
    .externalLockUpdate <$> parseExternalLockUpdate payload
  else if eventType = "eventStreamTerminated" then
    .eventStreamTerminated <$> parseEventStreamTerminated payload
  else .error (.unknownEvent eventType)

def parseRoot (root : Value) : Except (ParseError JsonError) (Option SpotUserEvent) :=
  if (root.get "result").isSome ∧ (root.get "id").isSome then .ok none
  else do
    let payload := (root.get "event").getD root
    let eventType ← strField payload "e"
    let event ← parseEvent payload eventType
    pure (some event)

def parseUserDataMessage (fromStr : String → Except JsonError Value) (msg : Message) :
    Except (ParseError JsonError) (Option SpotUserEvent) :=
  match msg with
  | .text text =>
    match fromStr text with
    | .ok root => parseRoot root
    | .error e => .error (.json e)
  | _ => .ok none

end Trolly.Spot
