import Trolly.Usdm.Parse

/-! The USD-M execution handlers and the hub that routes updates to them.
All handlers of a hub hold clones of one context, so its account and its outbound
channel are one state of the hub. -/
namespace Trolly.Usdm

open Keyed SerdeJson Trolly.Stream

/-- What the shared `UsdmExecContext` points to. -/
@[ext] structure UsdmExecContext where
  outbound : Option (UnboundedSender UsdmExecUpdate)
  account : UsdmAccountBookkeeping

def UsdmExecContext.new (outbound : Option (UnboundedSender UsdmExecUpdate)) : UsdmExecContext :=
  ⟨outbound, .default⟩

/-- One execution bookkeeper; `recorded` is the test hook of the source. -/
@[ext] structure UsdmExecHandler where
  routingId : String
  accountEventsOnly : Bool
  state : SymbolBookkeeping
  recorded : Option (List UsdmExecUpdate)

namespace UsdmExecHandler

def new (routingId : String) : UsdmExecHandler :=
  ⟨routingId, routingId = ACCOUNT_ROUTING_ID, .default, none⟩

/-- The match of `apply`: the ledgers after the update, or `none` where the source
returns early because the handler does not keep this kind of event. -/
def book (self : UsdmExecHandler) (ctx : UsdmExecContext) (update : UsdmExecUpdate) :
    Option (UsdmExecHandler × UsdmExecContext) :=
  match update with
  | .orderTrade order =>
    if self.accountEventsOnly then none
    else if order.orderStatus = "NEW" ∨ order.orderStatus = "PARTIALLY_FILLED" then
      some ({ self with state.openOrders := self.state.openOrders.insert order.orderId order }, ctx)
    else some ({ self with state.openOrders := self.state.openOrders.remove order.orderId }, ctx)
  | .positionChange position =>
    if self.accountEventsOnly then none
    else some ({ self with state := self.state.applyPosition position },
      { ctx with account := ctx.account.applyPosition position })
  | .balanceChange balance =>
    if !self.accountEventsOnly then none
    else some (self, { ctx with account := ctx.account.applyBalance balance })
  | .marginCall call =>
    if !self.accountEventsOnly then none
    else
      let (account, applied) := ctx.account.applyMarginCall call
      if applied then
        some ({ self with state.latestMarginCall := some call }, { ctx with account })
      else some (self, { ctx with account })
  | .listenKeyExpired => some (self, ctx)

/-- The tail of `apply`: send on the outbound channel, then record. -/
def forward (self : UsdmExecHandler) (ctx : UsdmExecContext) (update : UsdmExecUpdate) :
    UsdmExecHandler × UsdmExecContext :=
  ({ self with recorded := self.recorded.map (· ++ [update]) },
    { ctx with outbound := ctx.outbound.map (·.send update) })

/-- `UsdmExecHandler::apply`; it never fails. -/
def apply (self : UsdmExecHandler) (ctx : UsdmExecContext) (update : UsdmExecUpdate) :
    UsdmExecHandler × UsdmExecContext :=
  match self.book ctx update with
  | none => (self, ctx)
  | some (self, ctx) => self.forward ctx update

/-- The kinds of update `apply` does not return early on. -/
def keeps (self : UsdmExecHandler) : UsdmExecUpdate → Bool
  | .orderTrade _ | .positionChange _ => !self.accountEventsOnly
  | .balanceChange _ | .marginCall _ => self.accountEventsOnly
  | .listenKeyExpired => true

theorem book_isSome (self : UsdmExecHandler) (ctx : UsdmExecContext) (update : UsdmExecUpdate) :
    (self.book ctx update).isSome = self.keeps update := by
  cases only : self.accountEventsOnly <;> cases update <;> simp only [book, keeps, only] <;>
    simp [apply_ite Option.isSome]

theorem apply_ignored (self : UsdmExecHandler) (ctx : UsdmExecContext) {update : UsdmExecUpdate}
    (ignored : self.keeps update = false) : self.apply ctx update = (self, ctx) := by
  have absent := self.book_isSome ctx update
  rw [ignored, Option.isSome_eq_false_iff, Option.isNone_iff_eq_none] at absent
  simp only [apply, absent]

end UsdmExecHandler

/-- `to_id` and `handle_update` of `impl EventHandler<UsdmExec> for UsdmExecHandler`. -/
def usdmRouting : UpdateHandler UsdmExecHandler UsdmExecContext UsdmExecUpdate where
  toId := UsdmExecUpdate.routingId
  handleUpdate := UsdmExecHandler.apply

/-- The whole trait implementation: `parse_update` keeps the first parsed update only. -/
def usdmExec {JsonError : Type} (fromStr : String → Except JsonError Value) :
    EventHandler UsdmExecHandler UsdmExecContext UsdmExecUpdate (ParseError JsonError) where
  toUpdateHandler := usdmRouting
  parseUpdate msg := do
    let events ← parseUserEvents fromStr msg
    pure events.head?

abbrev UsdmHub := MonitorMultiplexor UsdmExecHandler UsdmExecContext

namespace UsdmHub

variable {JsonError : Type} (fromStr : String → Except JsonError Value)

def routeUpdate (hub : UsdmHub) (event : UsdmExecUpdate) : UsdmHub :=
  hub.deliver usdmRouting event

def routeAll (hub : UsdmHub) (events : List UsdmExecUpdate) : UsdmHub :=
  events.foldl routeUpdate hub

/-- `ingest_user_data`: every parsed update is routed; a parse error is logged. -/
def ingestUserData (hub : UsdmHub) (msg : Message) : UsdmHub :=
  match parseUserEvents fromStr msg with
  | .ok events => hub.routeAll events
  | .error _ => hub

def updatesOf (msg : Message) : List UsdmExecUpdate :=
  match parseUserEvents fromStr msg with
  | .ok events => events
  | .error _ => []

def buildMultiplexorWithContext (symbols : List String) (ctx : UsdmExecContext) : UsdmHub :=
  let writers := symbols.foldl (fun m symbol => m.insert symbol (UsdmExecHandler.new symbol)) Map.empty
  .fromWriters (writers.insert ACCOUNT_ROUTING_ID (UsdmExecHandler.new ACCOUNT_ROUTING_ID)) ctx

def buildMultiplexor (symbols : List String)
    (outbound : Option (UnboundedSender UsdmExecUpdate)) : UsdmHub :=
  buildMultiplexorWithContext symbols (.new outbound)

end UsdmHub

end Trolly.Usdm
