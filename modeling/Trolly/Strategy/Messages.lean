import Trolly.Stream.Multiplexor

/-! What strategies consume and emit: normalized stream events, and the commands that
leave through a stream egress. -/
namespace Trolly.Strategy

inductive EventKind where
  | depth
  | execution
  | account

structure PriceLevel where
  price : String
  qty : String

structure DepthUpdate where
  symbol : String
  bids : List PriceLevel
  asks : List PriceLevel
  updateId : Option UInt64

structure ExecutionUpdate where
  symbol : String
  orderId : String
  side : String
  fillQty : String
  fillPrice : String

structure AccountUpdate where
  asset : String
  balance : String
  symbol : Option String

/-- Venue-neutral event, routed by symbol or account asset. -/
inductive StreamEvent where
  | depth (update : DepthUpdate)
  | execution (update : ExecutionUpdate)
  | account (update : AccountUpdate)

namespace StreamEvent

def kind : StreamEvent → EventKind
  | depth _ => .depth
  | execution _ => .execution
  | account _ => .account

def routingId : StreamEvent → String
  | depth update => update.symbol
  | execution update => update.symbol
  | account update => update.symbol.getD update.asset

end StreamEvent

/-- The fields of `OutboundMessage::OrderRequest`; without a price it is a market order. -/
structure OrderCommand where
  symbol : String
  side : String
  qty : String
  price : Option String
  timeInForce : Option String
  positionSide : Option String
  deriving DecidableEq

inductive OutboundMessage where
  | orderRequest (order : OrderCommand)
  | subscribe (symbol channel : String)
  | raw (message : Stream.Message)

/-- The trait `StreamEgress`: an implementor and the outcome of a dispatch. -/
structure StreamEgress (E Error : Type) where
  dispatch : E → OutboundMessage → E × Except Error Unit

end Trolly.Strategy
