import Trolly.Lib.Keyed
import Trolly.Std.Text

/-! Normalized updates of the USD-M user-data stream and the two ledgers they feed:
the per-symbol bookkeeping of one handler and the account-wide book all handlers share. -/
namespace Trolly.Usdm

open Keyed

def ACCOUNT_ROUTING_ID : String := "__account__"

structure OrderTradeUpdate where
  eventTime : UInt64
  transactionTime : UInt64
  symbol : String
  clientOrderId : String
  side : String
  orderType : String
  timeInForce : String
  originalQty : String
  originalPrice : String
  averagePrice : String
  executionType : String
  orderStatus : String
  orderId : Int64
  lastFilledQty : String
  accumulatedFilledQty : String
  lastFilledPrice : String
  tradeId : Int64
  positionSide : String
  realizedProfit : String
  deriving DecidableEq

structure BalanceChange where
  eventTime : UInt64
  reason : String
  asset : String
  walletBalance : String
  crossWalletBalance : String
  balanceChange : String
  deriving DecidableEq

structure PositionChange where
  eventTime : UInt64
  reason : String
  symbol : String
  positionAmount : String
  entryPrice : String
  unrealizedPnl : String
  marginType : String
  isolatedWallet : String
  positionSide : String
  deriving DecidableEq

structure MarginCallPosition where
  symbol : String
  positionSide : String
  positionAmount : String
  marginType : String
  isolatedWallet : String
  markPrice : String
  unrealizedPnl : String
  maintenanceMarginRequired : String
  deriving DecidableEq

structure MarginCall where
  eventTime : UInt64
  crossWalletBalance : String
  positions : List MarginCallPosition
  deriving DecidableEq

inductive UsdmExecUpdate where
  | orderTrade (order : OrderTradeUpdate)
  | balanceChange (balance : BalanceChange)
  | positionChange (position : PositionChange)
  | listenKeyExpired
  | marginCall (call : MarginCall)
  deriving DecidableEq

def UsdmExecUpdate.routingId : UsdmExecUpdate → String
  | orderTrade order => order.symbol
  | positionChange position => position.symbol
  | balanceChange _ | listenKeyExpired | marginCall _ => ACCOUNT_ROUTING_ID

/-- A futures leg: the symbol and its hedge-mode side. -/
structure PositionKey where
  symbol : String
  positionSide : String
  deriving DecidableEq

def PositionChange.key (position : PositionChange) : PositionKey :=
  ⟨position.symbol, position.positionSide⟩

def isPositionClosed (positionAmount : String) : Bool :=
  let trimmed := Rust.trim positionAmount
  if trimmed = "" ∨ trimmed = "0" then true
  else match Rust.parseF64 trimmed with
    | some literal => literal.isZero
    | none => false

/-- What the row leaves of its leg: the row itself, or nothing once the leg is flat. -/
def PositionChange.remains (position : PositionChange) : Option PositionChange :=
  if isPositionClosed position.positionAmount then none else some position

/-- A position ledger: the latest row of every open leg. -/
abbrev Positions := Map PositionKey PositionChange

/-- Closed legs are removed, others replaced. `SymbolBookkeeping` and
`UsdmAccountBookkeeping` both keep their positions this way. -/
def applyPositionTo (positions : Positions) (position : PositionChange) : Positions :=
  if isPositionClosed position.positionAmount then positions.remove position.key
  else positions.insert position.key position

theorem get_applyPositionTo (positions : Positions) (position : PositionChange) (k : PositionKey) :
    (applyPositionTo positions position).get k =
      if k = position.key then position.remains else positions.get k := by
  by_cases closed : isPositionClosed position.positionAmount
  · simp [applyPositionTo, PositionChange.remains, closed, Map.get_remove]
  · simp [applyPositionTo, PositionChange.remains, closed, Map.get_insert]

@[ext] structure SymbolBookkeeping where
  openOrders : Map Int64 OrderTradeUpdate
  positions : Positions
  latestMarginCall : Option MarginCall

def SymbolBookkeeping.default : SymbolBookkeeping := ⟨Map.empty, Map.empty, none⟩

def SymbolBookkeeping.applyPosition (self : SymbolBookkeeping) (position : PositionChange) :
    SymbolBookkeeping :=
  { self with positions := applyPositionTo self.positions position }

@[ext] structure UsdmAccountBookkeeping where
  balances : Map String BalanceChange
  positions : Positions
  latestMarginCall : Option MarginCall

namespace UsdmAccountBookkeeping

def default : UsdmAccountBookkeeping := ⟨Map.empty, Map.empty, none⟩

def applyBalance (self : UsdmAccountBookkeeping) (balance : BalanceChange) :
    UsdmAccountBookkeeping :=
  { self with balances := self.balances.insert balance.asset balance }

def applyPosition (self : UsdmAccountBookkeeping) (position : PositionChange) :
    UsdmAccountBookkeeping :=
  { self with positions := applyPositionTo self.positions position }

/-- Keeps the call unless the stored one is newer; the flag says whether it was kept. -/
def applyMarginCall (self : UsdmAccountBookkeeping) (call : MarginCall) :
    UsdmAccountBookkeeping × Bool :=
  match self.latestMarginCall with
  | some existing =>
    if call.eventTime < existing.eventTime then (self, false)
    else ({ self with latestMarginCall := some call }, true)
  | none => ({ self with latestMarginCall := some call }, true)

@[simp] theorem applyMarginCall_positions (self : UsdmAccountBookkeeping) (call : MarginCall) :
    (self.applyMarginCall call).1.positions = self.positions := by
  unfold applyMarginCall
  split
  · split <;> rfl
  · rfl

@[simp] theorem applyMarginCall_balances (self : UsdmAccountBookkeeping) (call : MarginCall) :
    (self.applyMarginCall call).1.balances = self.balances := by
  unfold applyMarginCall
  split
  · split <;> rfl
  · rfl

end UsdmAccountBookkeeping

end Trolly.Usdm
