import Trolly.Usdm.Ledger

/-! What the ledgers hold after a run of messages, read off the log of parsed updates.
A hub is wired when its writers are exactly the listed symbols and the account route;
from there each ledger entry is the last write to its key. -/
namespace Trolly.Usdm

open Keyed SerdeJson Trolly.Stream

/-! Readings of one update: the row it carries for a leg, an order or an asset. -/

def rowFor (k : PositionKey) : UsdmExecUpdate → Option PositionChange
  | .positionChange position => if k = position.key then some position else none
  | _ => none

def orderFor (symbol : String) (orderId : Int64) : UsdmExecUpdate → Option OrderTradeUpdate
  | .orderTrade order =>
    if symbol = order.symbol ∧ orderId = order.orderId then some order else none
  | _ => none

def balanceFor (asset : String) : UsdmExecUpdate → Option BalanceChange
  | .balanceChange balance => if asset = balance.asset then some balance else none
  | _ => none

def OrderTradeUpdate.remains (order : OrderTradeUpdate) : Option OrderTradeUpdate :=
  if order.isOpen then some order else none

theorem stateStep_positions (account : UsdmAccountBookkeeping) (state : SymbolBookkeeping)
    (update : UsdmExecUpdate) (k : PositionKey) :
    (stateStep account state update).positions.get k =
      ((rowFor k update).map PositionChange.remains).getD (state.positions.get k) := by
  cases update with
  | positionChange position =>
    simp only [stateStep, SymbolBookkeeping.applyPosition, get_applyPositionTo, rowFor]
    split <;> rfl
  | marginCall call => simp only [stateStep]; split <;> rfl
  | _ => rfl

theorem stateStep_openOrders (account : UsdmAccountBookkeeping) (state : SymbolBookkeeping)
    (update : UsdmExecUpdate) (orderId : Int64) :
    (stateStep account state update).openOrders.get orderId =
      ((orderFor update.routingId orderId update).map OrderTradeUpdate.remains).getD
        (state.openOrders.get orderId) := by
  cases update with
  | orderTrade order =>
    by_cases own : orderId = order.orderId <;> by_cases isOpen : order.isOpen <;>
      simp [stateStep, orderFor, UsdmExecUpdate.routingId, OrderTradeUpdate.remains, own, isOpen,
        Map.get_insert, Map.get_remove]
  | marginCall call => simp only [stateStep]; split <;> rfl
  | _ => rfl

theorem accountStep_positions (account : UsdmAccountBookkeeping) (update : UsdmExecUpdate)
    (k : PositionKey) :
    (accountStep account update).positions.get k =
      ((rowFor k update).map PositionChange.remains).getD (account.positions.get k) := by
  cases update with
  | positionChange position =>
    simp only [accountStep, UsdmAccountBookkeeping.applyPosition, get_applyPositionTo, rowFor]
    split <;> rfl
  | marginCall call => simp [accountStep, rowFor]
  | _ => rfl

theorem accountStep_balances (account : UsdmAccountBookkeeping) (update : UsdmExecUpdate)
    (asset : String) :
    (accountStep account update).balances.get asset =
      (balanceFor asset update).or (account.balances.get asset) := by
  cases update with
  | balanceChange balance =>
    simp only [accountStep, UsdmAccountBookkeeping.applyBalance, Map.get_insert, balanceFor]
    split <;> rfl
  | marginCall call => simp [accountStep, balanceFor]
  | _ => rfl

theorem rowFor_symbol {k : PositionKey} {update : UsdmExecUpdate} {row : PositionChange}
    (carried : rowFor k update = some row) :
    update = .positionChange row ∧ k = row.key ∧ update.routingId = k.symbol := by
  cases update with
  | positionChange position =>
    simp only [rowFor, Option.ite_none_right_eq_some, Option.some.injEq] at carried
    obtain ⟨rfl, rfl⟩ := carried
    exact ⟨rfl, rfl, rfl⟩
  | _ => simp [rowFor] at carried

theorem orderFor_routingId {symbol : String} {orderId : Int64} {update : UsdmExecUpdate}
    (other : symbol ≠ update.routingId) : orderFor symbol orderId update = none := by
  cases update with
  | orderTrade order => exact if_neg (fun carried => other carried.1)
  | _ => rfl

theorem rowFor_routingId {k : PositionKey} {update : UsdmExecUpdate}
    (other : k.symbol ≠ update.routingId) : rowFor k update = none := by
  cases carried : rowFor k update with
  | none => rfl
  | some row => exact absurd (rowFor_symbol carried).2.2.symm other

namespace UsdmHub

def positionOf (hub : UsdmHub) (s : String) (k : PositionKey) : Option PositionChange :=
  (hub.writers.get s).bind (fun writer => writer.state.positions.get k)

def orderOf (hub : UsdmHub) (s : String) (orderId : Int64) : Option OrderTradeUpdate :=
  (hub.writers.get s).bind (fun writer => writer.state.openOrders.get orderId)

/-- An update as the ledgers see it: nothing when no handler keeps it. -/
def kept {V : Type} (hub : UsdmHub) (read : UsdmExecUpdate → Option V) (update : UsdmExecUpdate) :
    Option V :=
  if hub.accepts update then read update else none

theorem kept_map {V W : Type} (hub : UsdmHub) (read : UsdmExecUpdate → Option V) (f : V → W)
    (update : UsdmExecUpdate) :
    hub.kept (fun update => (read update).map f) update = (hub.kept read update).map f := by
  unfold kept
  split <;> rfl

/-- How one entry of a handler's state moves: by what `read` finds in a kept update of
its own route. -/
theorem routeUpdate_entry {V : Type} (hub : UsdmHub) (update : UsdmExecUpdate) (s : String)
    (entry : SymbolBookkeeping → Option V) (read : UsdmExecUpdate → Option (Option V))
    (spec : ∀ account state, s = update.routingId →
      entry (stateStep account state update) = (read update).getD (entry state))
    (elsewhere : s ≠ update.routingId → read update = none) :
    ((hub.routeUpdate update).writers.get s).bind (fun writer => entry writer.state) =
      (hub.kept read update).getD ((hub.writers.get s).bind (fun writer => entry writer.state)) := by
  rw [routeUpdate_writer]
  by_cases own : s = update.routingId
  · subst own
    cases found : hub.writers.get update.routingId with
    | none => simp [kept, accepts, found]
    | some writer =>
      rw [if_pos rfl, kept, hub.accepts_eq _ found]
      cases keeps : writer.keeps update with
      | false => simp [writer.apply_ignored hub.ctx keeps]
      | true => simp [apply_kept writer hub.ctx keeps, spec _ _ rfl]
  · rw [if_neg own, kept, elsewhere own, ite_self]
    rfl

theorem routeUpdate_positionOf (hub : UsdmHub) (update : UsdmExecUpdate) (s : String)
    (k : PositionKey) :
    (hub.routeUpdate update).positionOf s k =
      (if k.symbol = s then (hub.kept (rowFor k) update).map PositionChange.remains
        else none).getD (hub.positionOf s k) := by
  have moved := hub.routeUpdate_entry update s (fun state => state.positions.get k)
    (fun update => if k.symbol = s then (rowFor k update).map PositionChange.remains else none)
    (fun account state own => by
      rw [stateStep_positions]
      by_cases leg : k.symbol = s
      · rw [if_pos leg]
      · rw [if_neg leg, rowFor_routingId (own ▸ leg), Option.map_none])
    (fun other => by
      by_cases leg : k.symbol = s
      · rw [if_pos leg, rowFor_routingId (leg ▸ other), Option.map_none]
      · rw [if_neg leg])
  by_cases leg : k.symbol = s
  · simpa only [positionOf, if_pos leg, kept_map] using moved
  · simpa only [positionOf, if_neg leg, kept, ite_self] using moved

theorem routeUpdate_orderOf (hub : UsdmHub) (update : UsdmExecUpdate) (s : String)
    (orderId : Int64) :
    (hub.routeUpdate update).orderOf s orderId =
      ((hub.kept (orderFor s orderId) update).map OrderTradeUpdate.remains).getD
        (hub.orderOf s orderId) := by
  rw [← kept_map]
  apply hub.routeUpdate_entry update s (fun state => state.openOrders.get orderId)
  · intro account state own
    rw [stateStep_openOrders, own]
  · intro other
    rw [orderFor_routingId other, Option.map_none]

theorem routeUpdate_accountPosition (hub : UsdmHub) (update : UsdmExecUpdate) (k : PositionKey) :
    (hub.routeUpdate update).ctx.account.positions.get k =
      ((hub.kept (rowFor k) update).map PositionChange.remains).getD
        (hub.ctx.account.positions.get k) := by
  rw [routeUpdate_account, kept]
  split
  · exact accountStep_positions _ _ _
  · rfl

theorem routeUpdate_balance (hub : UsdmHub) (update : UsdmExecUpdate) (asset : String) :
    (hub.routeUpdate update).ctx.account.balances.get asset =
      (hub.kept (balanceFor asset) update).or (hub.ctx.account.balances.get asset) := by
  rw [routeUpdate_account, kept]
  split
  · exact accountStep_balances _ _ _
  · rfl

end UsdmHub

/-! The hub of `build_multiplexor`: who is there, and what its handlers keep. -/

/-- The listed symbols with a handler of their own. -/
def Subscribed (symbols : List String) (symbol : String) : Prop :=
  symbol ∈ symbols ∧ symbol ≠ ACCOUNT_ROUTING_ID

instance (symbols : List String) (symbol : String) : Decidable (Subscribed symbols symbol) :=
  inferInstanceAs (Decidable (_ ∧ _))

/-- The writers are the subscribed symbols and the account route, each with its filter. -/
structure Wired (symbols : List String) (hub : UsdmHub) : Prop where
  account : ∃ writer, hub.writers.get ACCOUNT_ROUTING_ID = some writer ∧
    writer.accountEventsOnly = true
  symbol : ∀ s, Subscribed symbols s →
    ∃ writer, hub.writers.get s = some writer ∧ writer.accountEventsOnly = false
  missing : ∀ s, s ≠ ACCOUNT_ROUTING_ID → s ∉ symbols → hub.writers.get s = none

namespace UsdmHub

theorem build_writer (symbols : List String) (ctx : UsdmExecContext) (id : String) :
    (buildMultiplexorWithContext symbols ctx).writers.get id =
      if id = ACCOUNT_ROUTING_ID ∨ id ∈ symbols then some (UsdmExecHandler.new id) else none := by
  simp only [buildMultiplexorWithContext, MonitorMultiplexor.fromWriters, Map.get_insert,
    Map.get_foldl_insert, Map.get_empty]
  by_cases own : id = ACCOUNT_ROUTING_ID
  · simp [own]
  · simp [own]

theorem build_wired (symbols : List String) (ctx : UsdmExecContext) :
    Wired symbols (buildMultiplexorWithContext symbols ctx) where
  account := ⟨.new ACCOUNT_ROUTING_ID, by simp [build_writer], by simp [UsdmExecHandler.new]⟩
  symbol := fun s ⟨listed, own⟩ =>
    ⟨.new s, by simp [build_writer, listed], by simp [UsdmExecHandler.new, own]⟩
  missing := fun s own unlisted => by simp [build_writer, own, unlisted]

theorem routeUpdate_flag (hub : UsdmHub) (update : UsdmExecUpdate) {id : String}
    {writer : UsdmExecHandler} (found : hub.writers.get id = some writer) :
    ∃ next, (hub.routeUpdate update).writers.get id = some next ∧
      next.accountEventsOnly = writer.accountEventsOnly := by
  rw [routeUpdate_writer, found]
  split
  · exact ⟨_, rfl, apply_accountEventsOnly _ _ _⟩
  · exact ⟨writer, rfl, rfl⟩

theorem routeUpdate_wired {symbols : List String} {hub : UsdmHub} (wired : Wired symbols hub)
    (update : UsdmExecUpdate) : Wired symbols (hub.routeUpdate update) where
  account := by
    obtain ⟨writer, found, only⟩ := wired.account
    obtain ⟨next, there, same⟩ := hub.routeUpdate_flag update found
    exact ⟨next, there, same.trans only⟩
  symbol := fun s subscribed => by
    obtain ⟨writer, found, all⟩ := wired.symbol s subscribed
    obtain ⟨next, there, same⟩ := hub.routeUpdate_flag update found
    exact ⟨next, there, same.trans all⟩
  missing := fun s own unlisted => by
    rw [routeUpdate_writer, wired.missing s own unlisted]
    simp

/-- A row reaches the ledgers exactly when its symbol is subscribed. -/
theorem accepts_position {symbols : List String} {hub : UsdmHub} (wired : Wired symbols hub)
    (position : PositionChange) :
    hub.accepts (.positionChange position) = decide (Subscribed symbols position.symbol) := by
  by_cases subscribed : Subscribed symbols position.symbol
  · obtain ⟨writer, found, all⟩ := wired.symbol _ subscribed
    rw [hub.accepts_eq (.positionChange position) found]
    simp [UsdmExecHandler.keeps, all, subscribed]
  · by_cases own : position.symbol = ACCOUNT_ROUTING_ID
    · obtain ⟨writer, found, only⟩ := wired.account
      rw [hub.accepts_eq (.positionChange position) (own ▸ found)]
      simp [UsdmExecHandler.keeps, only, subscribed]
    · have missing := wired.missing _ own (fun listed => subscribed ⟨listed, own⟩)
      simp [accepts, UsdmExecUpdate.routingId, missing, subscribed]

theorem kept_row {symbols : List String} {hub : UsdmHub} (wired : Wired symbols hub)
    (k : PositionKey) (update : UsdmExecUpdate) :
    hub.kept (rowFor k) update = if Subscribed symbols k.symbol then rowFor k update else none := by
  cases carried : rowFor k update with
  | none => simp [kept, carried]
  | some row =>
    obtain ⟨rfl, rfl, _⟩ := rowFor_symbol carried
    simp only [kept, accepts_position wired row, carried, decide_eq_true_eq]
    rfl

theorem kept_order {symbols : List String} {hub : UsdmHub} (wired : Wired symbols hub)
    {s : String} (subscribed : Subscribed symbols s) (orderId : Int64) (update : UsdmExecUpdate) :
    hub.kept (orderFor s orderId) update = orderFor s orderId update := by
  cases update with
  | orderTrade order =>
    by_cases own : s = order.symbol
    · subst own
      obtain ⟨writer, found, all⟩ := wired.symbol _ subscribed
      rw [kept, hub.accepts_eq (.orderTrade order) found]
      simp [UsdmExecHandler.keeps, all]
    · rw [kept, orderFor_routingId own, ite_self]
  | _ => simp [kept, orderFor]

theorem kept_balance {symbols : List String} {hub : UsdmHub} (wired : Wired symbols hub)
    (asset : String) (update : UsdmExecUpdate) :
    hub.kept (balanceFor asset) update = balanceFor asset update := by
  cases update with
  | balanceChange balance =>
    obtain ⟨writer, found, only⟩ := wired.account
    rw [kept, hub.accepts_eq (.balanceChange balance) found]
    simp [UsdmExecHandler.keeps, only]
  | _ => simp [kept, balanceFor]

end UsdmHub

end Trolly.Usdm
