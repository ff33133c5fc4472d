import Trolly.Std.Json
import Trolly.Stream.Multiplexor
import Trolly.Usdm.Types

/-! Parsing of one user-data websocket payload into routed updates.
`serde_json::from_str` is the parameter `fromStr`; everything after it is the program's. -/
namespace Trolly.Usdm

open SerdeJson Trolly.Stream

inductive ParseError (JsonError : Type) where
  | notText
  | json (error : JsonError)
  | unknownEvent (event : String)
  | missingField (field : String) (context : String)

variable {JsonError : Type}

def requiredStr (value : Value) (field context : String) : Except (ParseError JsonError) String :=
  match (value.get field).bind Value.asStr with
  | some s => .ok s
  | none => .error (.missingField field context)

def optionalStr (value : Value) (field : String) : String :=
  ((value.get field).bind Value.asStr).getD ""

def requiredU64 (value : Value) (field context : String) : Except (ParseError JsonError) UInt64 :=
  match (value.get field).bind Value.asU64 with
  | some n => .ok n
  | none => .error (.missingField field context)

def requiredI64 (value : Value) (field context : String) : Except (ParseError JsonError) Int64 :=
  match (value.get field).bind Value.asI64 with
  | some n => .ok n
  | none => .error (.missingField field context)

def requiredValue (value : Value) (field context : String) : Except (ParseError JsonError) Value :=
  match value.get field with
  | some v => .ok v
  | none => .error (.missingField field context)

def unwrapCombinedEnvelope (root : Value) : Value := (root.get "data").getD root

def parseOrderTradeUpdate (payload : Value) : Except (ParseError JsonError) OrderTradeUpdate := do
  let eventTime ← requiredU64 payload "E" "ORDER_TRADE_UPDATE"
  let transactionTime ← requiredU64 payload "T" "ORDER_TRADE_UPDATE"
  let order ← requiredValue payload "o" "ORDER_TRADE_UPDATE"
  let symbol ← requiredStr order "s" "order"
  let side ← requiredStr order "S" "order"
  let orderType ← requiredStr order "o" "order"
  let executionType ← requiredStr order "x" "order"
  let orderStatus ← requiredStr order "X" "order"
  let orderId ← requiredI64 order "i" "order"
  pure {
    eventTime, transactionTime, symbol, side, orderType, executionType, orderStatus, orderId
    clientOrderId := optionalStr order "c"
    timeInForce := optionalStr order "f"
    originalQty := optionalStr order "q"
    originalPrice := optionalStr order "p"
    averagePrice := optionalStr order "ap"
    lastFilledQty := optionalStr order "l"
    accumulatedFilledQty := optionalStr order "z"
    lastFilledPrice := optionalStr order "L"
    tradeId := ((order.get "t").bind Value.asI64).getD 0
    positionSide := optionalStr order "ps"
    realizedProfit := optionalStr order "rp" }

def parseBalanceRow (eventTime : UInt64) (reason : String) (balance : Value) :
    Except (ParseError JsonError) UsdmExecUpdate := do
  let asset ← requiredStr balance "a" "balance"
  pure (.balanceChange {
    eventTime, reason, asset
    walletBalance := optionalStr balance "wb"
    crossWalletBalance := optionalStr balance "cw"
    balanceChange := optionalStr balance "bc" })

def parsePositionRow (eventTime : UInt64) (reason : String) (position : Value) :
    Except (ParseError JsonError) UsdmExecUpdate := do
  let symbol ← requiredStr position "s" "position"
  pure (.positionChange {
    eventTime, reason, symbol
    positionAmount := optionalStr position "pa"
    entryPrice := optionalStr position "ep"
    unrealizedPnl := optionalStr position "up"
    marginType := optionalStr position "mt"
    isolatedWallet := optionalStr position "iw"
    positionSide := optionalStr position "ps" })

/-- The rows of an optional array field; a field of another type counts as absent. -/
def rowsOf (value : Value) (field : String) : List Value :=
  ((value.get field).bind Value.asArray).getD []

/-- Balance rows first, then position rows, each in payload order. -/
def parseAccountUpdate (payload : Value) : Except (ParseError JsonError) (List UsdmExecUpdate) := do
  let eventTime ← requiredU64 payload "E" "ACCOUNT_UPDATE"
  let account ← requiredValue payload "a" "ACCOUNT_UPDATE"
  let reason := optionalStr account "m"
  let balances ← (rowsOf account "B").mapM (parseBalanceRow eventTime reason)
  let positions ← (rowsOf account "P").mapM (parsePositionRow eventTime reason)
  pure (balances ++ positions)

/-- A defaulted string of `MarginCallPositionRaw`: absent is empty, another type is an error. -/
def defaultedStr : Option Value → Option String
  | none => some ""
  | some v => v.asStr

/-- `serde_json::from_value::<MarginCallPositionRaw>`. The derived visitor reads an object by
name and an array by position; only the symbol has no default. -/
def marginCallPositionFromValue (row : Value) : Option MarginCallPosition :=
  let read (symbol : Option Value) (rest : String → Nat → Option Value) := do
    let symbol ← symbol.bind Value.asStr
    let positionSide ← defaultedStr (rest "ps" 1)
    let positionAmount ← defaultedStr (rest "pa" 2)
    let marginType ← defaultedStr (rest "mt" 3)
    let isolatedWallet ← defaultedStr (rest "iw" 4)
    let markPrice ← defaultedStr (rest "mp" 5)
    let unrealizedPnl ← defaultedStr (rest "up" 6)
    let maintenanceMarginRequired ← defaultedStr (rest "mm" 7)
    some { symbol, positionSide, positionAmount, marginType, isolatedWallet, markPrice,
           unrealizedPnl, maintenanceMarginRequired }
  match row with
  | .object fields => read (fields.lookup "s") (fun key _ => fields.lookup key)
  | .array items => if items.length ≤ 8 then read items[0]? (fun _ i => items[i]?) else none
  | _ => none

/-- Rows of a margin call that do not deserialize are dropped. -/
def parseMarginCall (payload : Value) : Except (ParseError JsonError) MarginCall := do
  let eventTime ← requiredU64 payload "E" "MARGIN_CALL"
  pure {
    eventTime
    crossWalletBalance := optionalStr payload "cw"
    positions := (rowsOf payload "p").filterMap marginCallPositionFromValue }

/-- A subscription ack carries both `result` and `id`. -/
def isAck (payload : Value) : Bool := (payload.get "result").isSome && (payload.get "id").isSome

def parsePayload (payload : Value) : Except (ParseError JsonError) (List UsdmExecUpdate) :=
  if isAck payload then .ok []
  else match (payload.get "e").bind Value.asStr with
    | none => .error (.unknownEvent "(missing)")
    | some eventType =>
      if eventType = "ORDER_TRADE_UPDATE" then do
        let update ← parseOrderTradeUpdate payload
        pure [.orderTrade update]
      else if eventType = "ACCOUNT_UPDATE" then parseAccountUpdate payload
      else if eventType = "listenKeyExpired" then .ok [.listenKeyExpired]
      else if eventType = "MARGIN_CALL" then do
        let call ← parseMarginCall payload
        pure [.marginCall call]
      else .error (.unknownEvent eventType)

def parseUserEvents (fromStr : String → Except JsonError Value) (msg : Message) :
    Except (ParseError JsonError) (List UsdmExecUpdate) :=
  match msg with
  | .text text =>
    match fromStr text with
    | .ok root => parsePayload (unwrapCombinedEnvelope root)
    | .error e => .error (.json e)
  | _ => .error .notText

def UsdmExecUpdate.isRow : UsdmExecUpdate → Bool
  | balanceChange _ | positionChange _ => true
  | _ => false

/-! What a parse that succeeds has read. -/

section Parsed

variable {JsonError : Type}

theorem parseBalanceRow_ok {eventTime : UInt64} {reason : String} {row : Value}
    {update : UsdmExecUpdate}
    (parsed : @parseBalanceRow JsonError eventTime reason row = .ok update) :
    ∃ balance, update = .balanceChange balance ∧
      (row.get "a").bind Value.asStr = some balance.asset := by
  simp only [parseBalanceRow, requiredStr, bind, Except.bind, pure, Except.pure] at parsed
  cases found : (row.get "a").bind Value.asStr with
  | none => simp [found] at parsed
  | some asset =>
    simp only [found, Except.ok.injEq] at parsed
    exact ⟨_, parsed.symm, rfl⟩

theorem parsePositionRow_ok {eventTime : UInt64} {reason : String} {row : Value}
    {update : UsdmExecUpdate}
    (parsed : @parsePositionRow JsonError eventTime reason row = .ok update) :
    ∃ position, update = .positionChange position ∧
      (row.get "s").bind Value.asStr = some position.symbol := by
  simp only [parsePositionRow, requiredStr, bind, Except.bind, pure, Except.pure] at parsed
  cases found : (row.get "s").bind Value.asStr with
  | none => simp [found] at parsed
  | some symbol =>
    simp only [found, Except.ok.injEq] at parsed
    exact ⟨_, parsed.symm, rfl⟩

theorem parseAccountUpdate_ok {payload : Value} {updates : List UsdmExecUpdate}
    (parsed : @parseAccountUpdate JsonError payload = .ok updates) :
    ∃ account eventTime balances positions, payload.get "a" = some account ∧
      (rowsOf account "B").mapM (@parseBalanceRow JsonError eventTime (optionalStr account "m")) =
        .ok balances ∧
      (rowsOf account "P").mapM (@parsePositionRow JsonError eventTime (optionalStr account "m")) =
        .ok positions ∧
      updates = balances ++ positions := by
  simp only [parseAccountUpdate, requiredValue, bind, Except.bind, pure, Except.pure] at parsed
  split at parsed
  · cases parsed
  rename_i eventTime time
  split at parsed
  · cases parsed
  rename_i account read
  have found : payload.get "a" = some account := by
    cases here : payload.get "a" <;> simp [here] at read
    exact congrArg some read
  split at parsed
  · cases parsed
  rename_i balances balanceRows
  split at parsed
  · cases parsed
  rename_i positions positionRows
  cases parsed
  exact ⟨account, eventTime, balances, positions, found, balanceRows, positionRows, rfl⟩

theorem parsePayload_ok {payload : Value} {updates : List UsdmExecUpdate}
    (parsed : @parsePayload JsonError payload = .ok updates) :
    (isAck payload = true ∧ updates = []) ∨
      isAck payload = false ∧
        (((payload.get "e").bind Value.asStr = some "ACCOUNT_UPDATE" ∧
            @parseAccountUpdate JsonError payload = .ok updates) ∨
          ((payload.get "e").bind Value.asStr = some "MARGIN_CALL" ∧
            ∃ call, @parseMarginCall JsonError payload = .ok call ∧ updates = [.marginCall call]) ∨
          ((payload.get "e").bind Value.asStr ≠ some "ACCOUNT_UPDATE" ∧
            (payload.get "e").bind Value.asStr ≠ some "MARGIN_CALL" ∧
            (updates = [.listenKeyExpired] ∨ ∃ order, updates = [.orderTrade order]))) := by
  unfold parsePayload at parsed
  split at parsed
  · rename_i ack
    cases parsed
    exact Or.inl ⟨ack, rfl⟩
  rename_i noAck
  refine Or.inr ⟨by simpa using noAck, ?_⟩
  split at parsed
  · cases parsed
  rename_i event kind
  rw [kind]
  split at parsed
  · rename_i order
    subst order
    cases read : @parseOrderTradeUpdate JsonError payload with
    | error e => simp [read, bind, Except.bind] at parsed
    | ok update =>
      simp only [read, bind, Except.bind, pure, Except.pure, Except.ok.injEq] at parsed
      exact Or.inr (Or.inr ⟨by decide, by decide, Or.inr ⟨update, parsed.symm⟩⟩)
  split at parsed
  · rename_i account
    exact Or.inl ⟨congrArg some account, parsed⟩
  split at parsed
  · rename_i expired
    subst expired
    cases parsed
    exact Or.inr (Or.inr ⟨by decide, by decide, Or.inl rfl⟩)
  split at parsed
  · rename_i margin
    cases read : @parseMarginCall JsonError payload with
    | error e => simp [read, bind, Except.bind] at parsed
    | ok call =>
      simp only [read, bind, Except.bind, pure, Except.pure, Except.ok.injEq] at parsed
      exact Or.inr (Or.inl ⟨congrArg some margin, call, rfl, parsed.symm⟩)
  · cases parsed

end Parsed

end Trolly.Usdm
