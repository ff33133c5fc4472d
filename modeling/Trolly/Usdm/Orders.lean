import Trolly.Exec.Orders

/-! USD-M orders: what a request becomes as form parameters, and which strategy commands
become requests. -/
namespace Trolly.Usdm

open Exec Strategy SortedMap

inductive TimeInForce where
  | gtc
  | ioc
  | fok
  | gtx
  deriving DecidableEq

namespace TimeInForce

def asStr : TimeInForce → String
  | gtc => "GTC"
  | ioc => "IOC"
  | fok => "FOK"
  | gtx => "GTX"

def parse (value : String) : Except OrderBuilderError TimeInForce :=
  match Rust.toAsciiUppercase value with
  | "GTC" => .ok gtc
  | "IOC" => .ok ioc
  | "FOK" => .ok fok
  | "GTX" => .ok gtx
  | other => .error (.invalidTimeInForce other)

end TimeInForce

inductive PositionSide where
  | long
  | short
  | both
  deriving DecidableEq

namespace PositionSide

def asStr : PositionSide → String
  | long => "LONG"
  | short => "SHORT"
  | both => "BOTH"

def parse (value : String) : Except OrderBuilderError PositionSide :=
  match Rust.toAsciiUppercase value with
  | "LONG" => .ok long
  | "SHORT" => .ok short
  | "BOTH" => .ok both
  | other => .error (.invalidPositionSide other)

end PositionSide

structure PlaceOrderRequest where
  symbol : String
  side : OrderSide
  orderType : Exec.OrderType
  quantity : String
  price : Option String
  timeInForce : Option TimeInForce
  positionSide : Option PositionSide
  newClientOrderId : Option String
  deriving DecidableEq

/-- Parameters before the timestamp and the signature. -/
def buildOrderParams (request : PlaceOrderRequest) : Except OrderBuilderError Params := do
  let params : Params := ∅
  let params := params.insert "symbol" (Rust.toAsciiUppercase request.symbol)
  let params := params.insert "side" request.side.asStr
  let params := params.insert "type" request.orderType.asStr
  let params := params.insert "quantity" request.quantity
  let params := params.insert "positionSide" (request.positionSide.getD .both).asStr
  let params ← match request.orderType, request.price with
    | .market, some _ => .error .marketWithPrice
    | .market, none => .ok params
    | .limit, none => .error .limitRequiresPrice
    | .limit, some price => .ok ((params.insert "price" price).insert "timeInForce"
        (request.timeInForce.getD .gtc).asStr)
  match request.newClientOrderId with
  | some clientId => return params.insert "newClientOrderId" clientId
  | none => return params

def placeOrderFromOutbound : OutboundMessage → Except EgressError PlaceOrderRequest
  | .orderRequest order => do
    let side ← (OrderSide.parse order.side).mapError .builder
    let timeInForce ← (order.timeInForce.mapM TimeInForce.parse).mapError .builder
    let positionSide ← (order.positionSide.mapM PositionSide.parse).mapError .builder
    return {
      symbol := Rust.toAsciiUppercase order.symbol
      side
      orderType := if order.price.isSome then .limit else .market
      quantity := order.qty
      price := order.price
      timeInForce
      positionSide
      newClientOrderId := none }
  | .subscribe _ _ => .error (.unsupported "subscribe")
  | .raw _ => .error (.unsupported "raw")

def orderApi {Response : Type} (format : ResponseFormat Response) :
    OrderApi PlaceOrderRequest Response where
  path := "/fapi/v1/order"
  buildOrderParams := buildOrderParams
  format := format
  placeOrderFromOutbound := placeOrderFromOutbound

/-- The limit order's own parameters around the common ones, in the order of their keys. -/
def paramEntries (request : PlaceOrderRequest) : List (String × String) :=
  request.newClientOrderId.toList.map (fun id => ("newClientOrderId", id)) ++
    ("positionSide", (request.positionSide.getD .both).asStr) ::
    (request.price.toList.map (fun price => ("price", price)) ++
      ("quantity", request.quantity) :: ("side", request.side.asStr) ::
      ("symbol", Rust.toAsciiUppercase request.symbol) ::
      (request.price.toList.map
        (fun _ => ("timeInForce", (request.timeInForce.getD .gtc).asStr)) ++
        [("type", request.orderType.asStr)]))

/-- An accepted request prices exactly its limit orders, and its parameters are known. -/
theorem buildOrderParams_eq {request : PlaceOrderRequest} {params : Params}
    (accepted : buildOrderParams request = .ok params) :
    (request.orderType = .limit ↔ request.price.isSome) ∧
      params.entries = paramEntries request := by
  obtain ⟨symbol, side, orderType, quantity, price, timeInForce, positionSide, id⟩ := request
  cases orderType <;> cases price <;> cases id <;> cases accepted <;>
    refine ⟨by simp, ?_⟩ <;>
    simp (disch := decide) only [entries_insert, entries_empty, insertEntry_nil,
      insertEntry_before, insertEntry_after] <;> rfl

theorem buildOrderParams_ok {request : PlaceOrderRequest}
    (priced : request.orderType = .limit ↔ request.price.isSome) :
    ∃ params, buildOrderParams request = .ok params := by
  obtain ⟨symbol, side, orderType, quantity, price, timeInForce, positionSide, id⟩ := request
  cases orderType <;> cases price <;> cases id <;> simp at priced <;> exact ⟨_, rfl⟩

end Trolly.Usdm
