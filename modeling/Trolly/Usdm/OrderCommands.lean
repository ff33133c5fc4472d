import Trolly.Usdm.Orders

/-! From a strategy command to the parameters of a USD-M order: an accepted command never
fails in the builder, and what two commands with equal parameters have in common. -/
namespace Trolly.Usdm

open Exec Strategy

theorem TimeInForce.parse_ok {value : String} {timeInForce : TimeInForce}
    (read : parse value = .ok timeInForce) : Rust.toAsciiUppercase value = timeInForce.asStr := by
  unfold parse at read
  split at read <;> cases read <;> assumption

theorem PositionSide.parse_ok {value : String} {positionSide : PositionSide}
    (read : parse value = .ok positionSide) :
    Rust.toAsciiUppercase value = positionSide.asStr := by
  unfold parse at read
  split at read <;> cases read <;> assumption

theorem asStr_getD {α : Type} {parse : String → Except OrderBuilderError α} {asStr : α → String}
    (spelled : ∀ value a, parse value = .ok a → Rust.toAsciiUppercase value = asStr a)
    {text : Option String} {value : Option α} (read : text.mapM parse = .ok value)
    {default : String} {fallback : α} (same : Rust.toAsciiUppercase default = asStr fallback) :
    asStr (value.getD fallback) = Rust.toAsciiUppercase (text.getD default) := by
  cases text with
  | none =>
    cases read
    exact same.symm
  | some text =>
    cases found : parse text with
    | error error => simp [Option.mapM_some, found] at read
    | ok a =>
      simp [Option.mapM_some, found] at read
      cases read
      exact (spelled text a found).symm

structure Converted (order : OrderCommand) (request : PlaceOrderRequest) : Prop where
  symbol : request.symbol = Rust.toAsciiUppercase order.symbol
  side : request.side.asStr = Rust.toAsciiUppercase order.side
  orderType : request.orderType = if order.price.isSome then .limit else .market
  quantity : request.quantity = order.qty
  price : request.price = order.price
  timeInForce : (request.timeInForce.getD .gtc).asStr =
    Rust.toAsciiUppercase (order.timeInForce.getD "GTC")
  positionSide : (request.positionSide.getD .both).asStr =
    Rust.toAsciiUppercase (order.positionSide.getD "BOTH")
  newClientOrderId : request.newClientOrderId = none

theorem converted {order : OrderCommand} {request : PlaceOrderRequest}
    (accepted : placeOrderFromOutbound (.orderRequest order) = .ok request) :
    Converted order request := by
  simp only [placeOrderFromOutbound, bind_ok_iff, mapError_ok_iff] at accepted
  obtain ⟨side, readSide, timeInForce, readTime, positionSide, readPosition, made⟩ := accepted
  cases made
  exact {
    symbol := rfl
    side := (Exec.OrderSide.parse_ok readSide).symm
    orderType := rfl
    quantity := rfl
    price := rfl
    timeInForce := asStr_getD (fun _ _ => TimeInForce.parse_ok) readTime (by decide)
    positionSide := asStr_getD (fun _ _ => PositionSide.parse_ok) readPosition (by decide)
    newClientOrderId := rfl }

theorem buildOrderParams_converted {order : OrderCommand} {request : PlaceOrderRequest}
    (converted : Converted order request) : ∃ params, buildOrderParams request = .ok params := by
  have orderType := converted.orderType
  rw [← converted.price] at orderType
  exact buildOrderParams_ok (by rw [orderType]; cases request.price <;> simp)

def commandEntries (order : OrderCommand) : List (String × String) :=
  ("positionSide", Rust.toAsciiUppercase (order.positionSide.getD "BOTH")) ::
    (order.price.toList.map (fun price => ("price", price)) ++
      ("quantity", order.qty) :: ("side", Rust.toAsciiUppercase order.side) ::
      ("symbol", Rust.toAsciiUppercase order.symbol) ::
      (order.price.toList.map
        (fun _ => ("timeInForce", Rust.toAsciiUppercase (order.timeInForce.getD "GTC"))) ++
        [("type", (if order.price.isSome then Exec.OrderType.limit else .market).asStr)]))

theorem paramEntries_converted {order : OrderCommand} {request : PlaceOrderRequest}
    (converted : Converted order request) : paramEntries request = commandEntries order := by
  simp only [paramEntries, commandEntries, converted.symbol, converted.side, converted.orderType,
    converted.quantity, converted.price, converted.timeInForce, converted.positionSide,
    converted.newClientOrderId, Rust.toAsciiUppercase_idem, Option.toList_none, List.map_nil,
    List.nil_append]

/-- Two commands for the same order: names count up to ASCII case, and the time in force
only where there is a price. -/
structure SameOrder (order other : OrderCommand) : Prop where
  qty : order.qty = other.qty
  price : order.price = other.price
  symbol : Rust.toAsciiUppercase order.symbol = Rust.toAsciiUppercase other.symbol
  side : Rust.toAsciiUppercase order.side = Rust.toAsciiUppercase other.side
  positionSide : Rust.toAsciiUppercase (order.positionSide.getD "BOTH") =
    Rust.toAsciiUppercase (other.positionSide.getD "BOTH")
  timeInForce : order.price.isSome → Rust.toAsciiUppercase (order.timeInForce.getD "GTC") =
    Rust.toAsciiUppercase (other.timeInForce.getD "GTC")

theorem commandEntries_eq_iff (order other : OrderCommand) :
    commandEntries order = commandEntries other ↔ SameOrder order other := by
  constructor
  · intro same
    cases price : order.price <;> cases price' : other.price <;>
      simp [commandEntries, price, price'] at same
    · constructor <;> simp_all
    · constructor <;> simp_all
  · rintro ⟨qty, price, symbol, side, positionSide, timeInForce⟩
    cases priced : order.price with
    | none => simp [commandEntries, ← price, priced, qty, symbol, side, positionSide]
    | some amount =>
      have inForce := timeInForce (by rw [priced]; rfl)
      simp [commandEntries, ← price, priced, qty, symbol, side, positionSide, inForce]

/-- An accepted command never fails in the builder, and two of them have equal parameters
exactly when they are the same order. -/
theorem commands_translated :
    (∀ order request, placeOrderFromOutbound (.orderRequest order) = .ok request →
      ∃ params, buildOrderParams request = .ok params) ∧
    ∀ order other request request' params params',
      placeOrderFromOutbound (.orderRequest order) = .ok request →
      placeOrderFromOutbound (.orderRequest other) = .ok request' →
      buildOrderParams request = .ok params → buildOrderParams request' = .ok params' →
      (params = params' ↔ SameOrder order other) := by
  refine ⟨fun order request accepted => buildOrderParams_converted (converted accepted), ?_⟩
  intro order other request request' params params' accepted accepted' built built'
  have entries := (buildOrderParams_eq built).2
  have entries' := (buildOrderParams_eq built').2
  rw [paramEntries_converted (converted accepted)] at entries
  rw [paramEntries_converted (converted accepted')] at entries'
  rw [← commandEntries_eq_iff, ← entries, ← entries']
  exact ⟨congrArg SortedMap.entries, SortedMap.ext_entries⟩

def limitCommand (timeInForce positionSide : Option String) : OrderCommand :=
  ⟨"ethusdt", "sell", "1.5", some "2500.00", timeInForce, positionSide⟩

/-- The defaults spelled out give the parameters of the command that omits them. -/
theorem commands_translated_defaults : ∃ request request' params params',
    placeOrderFromOutbound (.orderRequest (limitCommand none none)) = .ok request ∧
    placeOrderFromOutbound (.orderRequest (limitCommand (some "gtc") (some "Both"))) =
      .ok request' ∧
    buildOrderParams request = .ok params ∧ buildOrderParams request' = .ok params' ∧
    params = params' := by
  have same : SameOrder (limitCommand none none) (limitCommand (some "gtc") (some "Both")) :=
    ⟨rfl, rfl, rfl, rfl, by decide, fun _ => by decide⟩
  exact ⟨_, _, _, _, rfl, rfl, rfl, rfl,
    (commands_translated.2 _ _ _ _ _ _ rfl rfl rfl rfl).2 same⟩

def marketCommand (timeInForce : String) : OrderCommand :=
  ⟨"BTCUSDT", "BUY", "0.01", none, some timeInForce, none⟩

/-- On a market order the time in force is checked, and then dropped. -/
theorem market_time_in_force_dropped : ∃ request request' params,
    placeOrderFromOutbound (.orderRequest (marketCommand "IOC")) = .ok request ∧
    placeOrderFromOutbound (.orderRequest (marketCommand "FOK")) = .ok request' ∧
    buildOrderParams request = .ok params ∧ buildOrderParams request' = .ok params ∧
    (marketCommand "IOC").timeInForce.map Rust.toAsciiUppercase ≠
      (marketCommand "FOK").timeInForce.map Rust.toAsciiUppercase :=
  ⟨_, _, _, rfl, rfl, rfl, rfl, by decide⟩

end Trolly.Usdm
