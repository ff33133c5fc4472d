import Trolly.Usdm.Hub

/-! What one routed update does, said once: which ledgers of the hub it writes, under
which key, and what it leaves alone. Every later result about runs starts from here. -/
namespace Trolly.Usdm

open Keyed SerdeJson Trolly.Stream

def accountStep (account : UsdmAccountBookkeeping) : UsdmExecUpdate → UsdmAccountBookkeeping
  | .positionChange position => account.applyPosition position
  | .balanceChange balance => account.applyBalance balance
  | .marginCall call => (account.applyMarginCall call).1
  | .orderTrade _ | .listenKeyExpired => account

/-- An order is open while its status is `NEW` or `PARTIALLY_FILLED`. -/
def OrderTradeUpdate.isOpen (order : OrderTradeUpdate) : Bool :=
  order.orderStatus = "NEW" ∨ order.orderStatus = "PARTIALLY_FILLED"

/-- The effect of a kept update on its handler; only a margin call looks at the account. -/
def stateStep (account : UsdmAccountBookkeeping) (state : SymbolBookkeeping) :
    UsdmExecUpdate → SymbolBookkeeping
  | .orderTrade order =>
    { state with openOrders :=
        if order.isOpen then state.openOrders.insert order.orderId order
        else state.openOrders.remove order.orderId }
  | .positionChange position => state.applyPosition position
  | .marginCall call =>
    if (account.applyMarginCall call).2 then { state with latestMarginCall := some call } else state
  | .balanceChange _ | .listenKeyExpired => state

theorem book_eq (self : UsdmExecHandler) (ctx : UsdmExecContext) {update : UsdmExecUpdate}
    (kept : self.keeps update = true) :
    self.book ctx update = some
      ({ self with state := stateStep ctx.account self.state update },
        { ctx with account := accountStep ctx.account update }) := by
  obtain ⟨id, only, state, recorded⟩ := self
  cases update with
  | orderTrade order =>
    have only : only = false := by simpa [UsdmExecHandler.keeps] using kept
    subst only
    by_cases isOpen : order.orderStatus = "NEW" ∨ order.orderStatus = "PARTIALLY_FILLED" <;>
      simp [UsdmExecHandler.book, isOpen, stateStep, accountStep, OrderTradeUpdate.isOpen]
  | positionChange position =>
    have only : only = false := by simpa [UsdmExecHandler.keeps] using kept
    subst only
    rfl
  | balanceChange balance =>
    have only : only = true := kept
    subst only
    rfl
  | marginCall call =>
    have only : only = true := kept
    subst only
    cases applied : (ctx.account.applyMarginCall call).2 <;>
      simp [UsdmExecHandler.book, stateStep, accountStep, applied]
  | listenKeyExpired => rfl

/-- The spec of `apply`: an update the handler keeps moves both ledgers and is forwarded. -/
theorem apply_kept (self : UsdmExecHandler) (ctx : UsdmExecContext) {update : UsdmExecUpdate}
    (kept : self.keeps update = true) :
    self.apply ctx update =
      (⟨self.routingId, self.accountEventsOnly, stateStep ctx.account self.state update,
          self.recorded.map (· ++ [update])⟩,
        ⟨ctx.outbound.map (·.send update), accountStep ctx.account update⟩) := by
  simp only [UsdmExecHandler.apply, book_eq self ctx kept, UsdmExecHandler.forward]

theorem apply_accountEventsOnly (self : UsdmExecHandler) (ctx : UsdmExecContext)
    (update : UsdmExecUpdate) :
    (self.apply ctx update).1.accountEventsOnly = self.accountEventsOnly := by
  cases kept : self.keeps update
  · rw [self.apply_ignored ctx kept]
  · rw [apply_kept self ctx kept]

namespace UsdmHub

/-- The hub has a handler for the update, and that handler keeps this kind. -/
def accepts (hub : UsdmHub) (update : UsdmExecUpdate) : Bool :=
  (hub.writers.get update.routingId).any (·.keeps update)

theorem accepts_eq (hub : UsdmHub) (update : UsdmExecUpdate) {writer : UsdmExecHandler}
    (found : hub.writers.get update.routingId = some writer) :
    hub.accepts update = writer.keeps update := by
  simp [accepts, found]

theorem routeUpdate_writer (hub : UsdmHub) (update : UsdmExecUpdate) (id : String) :
    (hub.routeUpdate update).writers.get id =
      if id = update.routingId then
        (hub.writers.get id).map (fun writer => (writer.apply hub.ctx update).1)
      else hub.writers.get id := by
  split
  · subst id
    exact hub.deliver_writer usdmRouting update
  · rename_i other
    exact hub.deliver_other usdmRouting update other

theorem routeUpdate_ignored (hub : UsdmHub) {update : UsdmExecUpdate}
    (ignored : hub.accepts update = false) : hub.routeUpdate update = hub := by
  cases found : hub.writers.get update.routingId with
  | none => exact hub.deliver_missing usdmRouting update found
  | some writer =>
    rw [hub.accepts_eq update found] at ignored
    rw [routeUpdate, hub.deliver_found usdmRouting update found]
    simp only [usdmRouting, writer.apply_ignored hub.ctx ignored]
    rw [Map.insert_get _ found]

theorem routeUpdate_ctx (hub : UsdmHub) {update : UsdmExecUpdate}
    (accepted : hub.accepts update = true) :
    (hub.routeUpdate update).ctx =
      ⟨hub.ctx.outbound.map (·.send update), accountStep hub.ctx.account update⟩ := by
  cases found : hub.writers.get update.routingId with
  | none => simp [accepts, found] at accepted
  | some writer =>
    rw [hub.accepts_eq update found] at accepted
    rw [routeUpdate, hub.deliver_found usdmRouting update found]
    simp only [usdmRouting, apply_kept writer hub.ctx accepted]

theorem routeUpdate_account (hub : UsdmHub) (update : UsdmExecUpdate) :
    (hub.routeUpdate update).ctx.account =
      if hub.accepts update then accountStep hub.ctx.account update else hub.ctx.account := by
  cases accepted : hub.accepts update
  · simp [hub.routeUpdate_ignored accepted]
  · simp [hub.routeUpdate_ctx accepted]

theorem accepts_routeUpdate (hub : UsdmHub) (update other : UsdmExecUpdate) :
    (hub.routeUpdate update).accepts other = hub.accepts other := by
  have keeps_eq : ∀ writer : UsdmExecHandler,
      (writer.apply hub.ctx update).1.keeps other = writer.keeps other := by
    intro writer
    cases other <;> simp [UsdmExecHandler.keeps, apply_accountEventsOnly]
  simp only [accepts, routeUpdate_writer]
  split
  · cases hub.writers.get other.routingId <;> simp [keeps_eq]
  · rfl

end UsdmHub

end Trolly.Usdm
