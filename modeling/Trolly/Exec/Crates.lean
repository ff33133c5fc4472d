import Trolly.Exec.SignedForm
import Trolly.Exec.Executor
import Trolly.Usdm.OrderCommands
import Trolly.Spot.Orders

/-! The spot and the USD-M crate as instances: the form of a signed order, and the executor
behind the order egress. -/
namespace Trolly.Exec

open Utf8 FormUrlencoded Strategy Pipeline

/-- The texts of a request that its caller chooses freely. -/
structure PlainTexts (symbol quantity : String) (price clientId : Option String) : Prop where
  symbol : Plain (bytes (Rust.toAsciiUppercase symbol))
  quantity : Plain (bytes quantity)
  price : ∀ text ∈ price, Plain (bytes text)
  clientId : ∀ text ∈ clientId, Plain (bytes text)

def usdmKeys (client : Bool) (type : OrderType) : List String :=
  (if client then ["newClientOrderId"] else []) ++ match type with
    | .market => ["positionSide", "quantity", "side", "symbol", "type"]
    | .limit => ["positionSide", "price", "quantity", "side", "symbol", "timeInForce", "type"]

def spotKeys (client : Bool) (type : OrderType) : List String :=
  (if client then ["newClientOrderId"] else []) ++ match type with
    | .market => ["quantity", "side", "symbol", "type"]
    | .limit => ["price", "quantity", "side", "symbol", "timeInForce", "type"]

theorem usdm_regular : Regular Usdm.buildOrderParams usdmKeys where
  known := by
    intro client type
    cases client <;> cases type <;> decide
  shaped := by
    intro request params accepted
    obtain ⟨priced, entries⟩ := Usdm.buildOrderParams_eq accepted
    refine ⟨request.newClientOrderId.isSome, request.orderType, ?_, ?_⟩
    all_goals rw [entries]
    all_goals obtain ⟨symbol, side, orderType, quantity, price, timeInForce, positionSide, id⟩ :=
      request
    · cases orderType <;> cases price <;> cases id <;> simp at priced <;> rfl
    · constructor
      · cases id <;> exact ⟨_, _, _, rfl, by simp [leading]⟩
      · exact ⟨_, by simp only [Usdm.paramEntries, ← List.cons_append, ← List.append_assoc]; rfl⟩

theorem spot_regular : Regular Spot.buildOrderParams spotKeys where
  known := by
    intro client type
    cases client <;> cases type <;> decide
  shaped := by
    intro request params accepted
    obtain ⟨priced, entries⟩ := Spot.buildOrderParams_eq accepted
    refine ⟨request.newClientOrderId.isSome, request.orderType, ?_, ?_⟩
    all_goals rw [entries]
    all_goals obtain ⟨symbol, side, orderType, quantity, price, timeInForce, id⟩ := request
    · cases orderType <;> cases price <;> cases id <;> simp at priced <;> rfl
    · constructor
      · cases id <;> cases price <;> exact ⟨_, _, _, rfl, by simp [leading]⟩
      · exact ⟨_, by simp only [Spot.paramEntries, ← List.cons_append, ← List.append_assoc]; rfl⟩

theorem OrderSide.plain (side : OrderSide) : Plain (bytes side.asStr) := by
  cases side <;> decide

theorem OrderType.plain (type : OrderType) : Plain (bytes type.asStr) := by
  cases type <;> decide

theorem usdm_plain_iff (request : Usdm.PlaceOrderRequest) :
    (∀ entry ∈ Usdm.paramEntries request, Plain (bytes entry.2)) ↔
      PlainTexts request.symbol request.quantity request.price request.newClientOrderId := by
  have sidePlain := request.side.plain
  have typePlain := request.orderType.plain
  have positionPlain : Plain (bytes (request.positionSide.getD .both).asStr) := by
    cases request.positionSide.getD .both <;> decide
  have timePlain : Plain (bytes (request.timeInForce.getD .gtc).asStr) := by
    cases request.timeInForce.getD .gtc <;> decide
  simp only [Usdm.paramEntries, List.forall_mem_append, List.forall_mem_cons, List.forall_mem_map,
    Option.mem_toList]
  constructor
  · rintro ⟨clientId, -, price, quantity, -, symbol, -⟩
    exact ⟨symbol, quantity, price, clientId⟩
  · rintro ⟨symbol, quantity, price, clientId⟩
    exact ⟨clientId, positionPlain, price, quantity, sidePlain, symbol, fun _ _ => timePlain,
      typePlain, by simp⟩

theorem spot_plain_iff (request : Spot.PlaceOrderRequest) :
    (∀ entry ∈ Spot.paramEntries request, Plain (bytes entry.2)) ↔
      PlainTexts request.symbol request.quantity request.price request.newClientOrderId := by
  have sidePlain := request.side.plain
  have typePlain := request.orderType.plain
  have timePlain : Plain (bytes (request.timeInForce.getD .gtc).asStr) := by
    cases request.timeInForce.getD .gtc <;> decide
  simp only [Spot.paramEntries, List.forall_mem_append, List.forall_mem_cons, List.forall_mem_map,
    Option.mem_toList]
  constructor
  · rintro ⟨clientId, price, quantity, -, symbol, -⟩
    exact ⟨symbol, quantity, price, clientId⟩
  · rintro ⟨symbol, quantity, price, clientId⟩
    exact ⟨clientId, price, quantity, sidePlain, symbol, fun _ _ => timePlain, typePlain, by simp⟩

/-- In either crate, the form of an accepted order comes back as its parameters, is signed as
it comes back and is no other order's, exactly when its free texts are plain. -/
theorem signed_form_roundTrips_iff (hmac : Hmac) (secretKey : String) (now : UInt64) :
    (∀ request params, Usdm.buildOrderParams request = .ok params →
      (RoundTrips Usdm.buildOrderParams hmac secretKey now params ↔
        PlainTexts request.symbol request.quantity request.price request.newClientOrderId)) ∧
    ∀ request params, Spot.buildOrderParams request = .ok params →
      (RoundTrips Spot.buildOrderParams hmac secretKey now params ↔
        PlainTexts request.symbol request.quantity request.price request.newClientOrderId) := by
  constructor
  · intro request params accepted
    rw [usdm_regular.roundTrips_iff accepted, (Usdm.buildOrderParams_eq accepted).2, usdm_plain_iff]
  · intro request params accepted
    rw [spot_regular.roundTrips_iff accepted, (Spot.buildOrderParams_eq accepted).2, spot_plain_iff]

def limitOrder : Spot.PlaceOrderRequest where
  symbol := "btcusdt"
  side := .buy
  orderType := .limit
  quantity := "0.01"
  price := some "50000.00"
  timeInForce := none
  newClientOrderId := some "desk-1"

theorem signed_form_roundTrips_limit : ∃ params, Spot.buildOrderParams limitOrder = .ok params ∧
    RoundTrips Spot.buildOrderParams undigested "secret" 1747385641636 params := by
  have plain : PlainTexts limitOrder.symbol limitOrder.quantity limitOrder.price
      limitOrder.newClientOrderId :=
    ⟨by decide, by decide, fun text same => by cases same; decide,
      fun text same => by cases same; decide⟩
  exact ⟨_, rfl, ((signed_form_roundTrips_iff _ _ _).2 limitOrder _ rfl).2 plain⟩

def smuggling : Usdm.PlaceOrderRequest where
  symbol := "BTCUSDT"
  side := .buy
  orderType := .market
  quantity := "1&quantity=2"
  price := none
  timeInForce := none
  positionSide := none
  newClientOrderId := none

/-- A quantity with an `&` in it arrives as a second quantity. -/
theorem quantity_smuggled : ∃ params, Usdm.buildOrderParams smuggling = .ok params ∧
    received (fun _ _ => [0x5A]) "secret" 1747385641636 params =
      [("positionSide", "BOTH"), ("quantity", "1"), ("quantity", "2"), ("side", "BUY"),
        ("signature", "5a"), ("symbol", "BTCUSDT"), ("timestamp", "1747385641636"),
        ("type", "MARKET")] ∧
    received (fun _ _ => [0x5A]) "secret" 1747385641636 params ≠
      (signFormParams (fun _ _ => [0x5A]) "secret" 1747385641636 params).entries :=
  ⟨_, rfl, by decide +kernel, by decide +kernel⟩

section Executor

variable {SpotResponse UsdmResponse : Type} (spot : ResponseFormat SpotResponse)
  (usdm : ResponseFormat UsdmResponse)

theorem usdm_buildable : Buildable (Usdm.orderApi usdm) := by
  intro message request accepted
  cases message with
  | orderRequest order => exact Usdm.buildOrderParams_converted (Usdm.converted accepted)
  | subscribe => cases accepted
  | raw => cases accepted

theorem spot_buildable : Buildable (Spot.orderApi spot) := by
  intro message request accepted
  cases message with
  | orderRequest order =>
    simp only [Spot.orderApi, Spot.placeOrderFromOutbound, bind_ok_iff, mapError_ok_iff] at accepted
    obtain ⟨side, -, timeInForce, -, made⟩ := accepted
    cases made
    exact Spot.buildOrderParams_ok (by cases order.price <;> simp)
  | subscribe => cases accepted
  | raw => cases accepted

/-- Every order that a dispatch enqueued is posted, once and in the order of the queue, by the
time the executor has returned. -/
def PostsAll {Request Response : Type} (api : OrderApi Request Response) (client : OrderClient)
    (exchange : Exchange) (actions : List Action) : Prop :=
  ((start.run api client exchange actions).drain api client exchange).posts.map .ok =
    postsOf api client exchange (start.enqueued api client exchange actions)

/-- Only the last order of the queue may be answered by a failure. -/
def AnsweredBeforeLast {Request Response : Type} (api : OrderApi Request Response)
    (client : OrderClient) (exchange : Exchange) (actions : List Action) : Prop :=
  ∀ call, call + 1 < (start.enqueued api client exchange actions).length →
    Acknowledged api exchange call

/-- In either crate the executor posts the whole queue exactly when no order with another one
behind it is answered by a failure. -/
theorem executor_posts_all_iff (client : OrderClient) (exchange : Exchange)
    (actions : List Action) :
    (PostsAll (Spot.orderApi spot) client exchange actions ↔
        AnsweredBeforeLast (Spot.orderApi spot) client exchange actions) ∧
      (PostsAll (Usdm.orderApi usdm) client exchange actions ↔
        AnsweredBeforeLast (Usdm.orderApi usdm) client exchange actions) :=
  ⟨drain_posts_iff (spot_buildable spot) client exchange actions,
    drain_posts_iff (usdm_buildable usdm) client exchange actions⟩

end Executor

def marketOrder (qty : String) : OutboundMessage :=
  .orderRequest ⟨"btcusdt", "buy", qty, none, none, none⟩

def rejecting : Exchange where
  hmac := fun _ _ => []
  clock := fun call => 1747385641636 + call.toUInt64
  answers := fun _ => .ok ⟨400, "margin is insufficient"⟩

def apiErrors : ResponseFormat Unit where
  acknowledgement := fun _ => .ok ()
  apiError := fun body => some (-2019, body)

/-- After a rejected order, the one behind it is never posted. -/
theorem order_behind_rejection_lost :
    ¬PostsAll (Usdm.orderApi apiErrors) ⟨⟨"key", "secret"⟩, "https://fapi.binance.com"⟩ rejecting
      [.dispatch (marketOrder "1"), .dispatch (marketOrder "2")] := by
  intro all
  have lengths := congrArg List.length all
  revert lengths
  decide +kernel

end Trolly.Exec
