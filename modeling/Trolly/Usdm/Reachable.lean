import Trolly.Usdm.Bookkeeping

/-! The ledgers in every state a hub can reach from `build_multiplexor`. -/
namespace Trolly.Usdm

open Keyed SerdeJson Trolly.Stream

def lastRow (k : PositionKey) (log : List UsdmExecUpdate) : Option PositionChange :=
  last? (rowFor k) log

def lastOrder (s : String) (orderId : Int64) (log : List UsdmExecUpdate) : Option OrderTradeUpdate :=
  last? (orderFor s orderId) log

def lastBalance (asset : String) (log : List UsdmExecUpdate) : Option BalanceChange :=
  last? (balanceFor asset) log

theorem getD_map_none {α β : Type} (o : Option α) (f : α → Option β) :
    (o.map f).getD none = o.bind f := by
  cases o <;> rfl

namespace UsdmHub

variable {JsonError : Type} (fromStr : String → Except JsonError Value)

theorem ingest_eq_routeAll (hub : UsdmHub) (msgs : List Message) :
    msgs.foldl (ingestUserData fromStr) hub = hub.routeAll (msgs.flatMap (updatesOf fromStr)) := by
  induction msgs generalizing hub with
  | nil => rfl
  | cons msg rest ih =>
    have step : hub.ingestUserData fromStr msg = hub.routeAll (updatesOf fromStr msg) := by
      unfold ingestUserData updatesOf
      split <;> rfl
    rw [List.foldl_cons, ih, step, List.flatMap_cons, routeAll, routeAll, routeAll,
      List.foldl_append]

section Run

variable {symbols : List String} (outbound : Option (UnboundedSender UsdmExecUpdate))
  (log : List UsdmExecUpdate)

def reached (symbols : List String) (outbound : Option (UnboundedSender UsdmExecUpdate))
    (log : List UsdmExecUpdate) : UsdmHub :=
  (buildMultiplexorWithContext symbols (.new outbound)).routeAll log

theorem reached_wired : Wired symbols (reached symbols outbound log) :=
  run_invariant routeUpdate (Wired symbols) (fun _ update wired => routeUpdate_wired wired update)
    log _ (build_wired symbols _)

/-- What an entry holds in a reached state, when in wired hubs a step writes it by `write`. -/
theorem reached_entry {V : Type} (entry : UsdmHub → Option V)
    (write : UsdmExecUpdate → Option (Option V))
    (start : entry (buildMultiplexorWithContext symbols (.new outbound)) = none)
    (step : ∀ hub update, Wired symbols hub →
      entry (hub.routeUpdate update) = (write update).getD (entry hub)) :
    entry (reached symbols outbound log) = (last? write log).getD none := by
  rw [reached, routeAll, run_view routeUpdate entry write (Wired symbols)
    (fun _ update wired => routeUpdate_wired wired update) step log _ (build_wired symbols _), start]

theorem reached_positionOf {s : String} (subscribed : Subscribed symbols s) (k : PositionKey) :
    (reached symbols outbound log).positionOf s k =
      if k.symbol = s then (lastRow k log).bind PositionChange.remains else none := by
  rw [reached_entry outbound log (fun hub => hub.positionOf s k)
    (fun update => if k.symbol = s then (rowFor k update).map PositionChange.remains else none),
    last?_guard, last?_map_some]
  · split
    · exact getD_map_none _ _
    · rfl
  · simp [positionOf, build_writer, subscribed.1, UsdmExecHandler.new, SymbolBookkeeping.default]
  · intro hub update wired
    rw [routeUpdate_positionOf, kept_row wired]
    by_cases leg : k.symbol = s
    · simp only [leg, subscribed, if_true]
    · simp only [if_neg leg]

theorem reached_orderOf {s : String} (subscribed : Subscribed symbols s) (orderId : Int64) :
    (reached symbols outbound log).orderOf s orderId =
      (lastOrder s orderId log).bind OrderTradeUpdate.remains := by
  rw [reached_entry outbound log (fun hub => hub.orderOf s orderId)
    (fun update => (orderFor s orderId update).map OrderTradeUpdate.remains), last?_map_some]
  · exact getD_map_none _ _
  · simp [orderOf, build_writer, subscribed.1, UsdmExecHandler.new, SymbolBookkeeping.default]
  · intro hub update wired
    rw [routeUpdate_orderOf, kept_order wired subscribed]

theorem reached_accountPosition (k : PositionKey) :
    (reached symbols outbound log).ctx.account.positions.get k =
      if Subscribed symbols k.symbol then (lastRow k log).bind PositionChange.remains else none := by
  rw [reached_entry outbound log (fun hub => hub.ctx.account.positions.get k)
    (fun update => if Subscribed symbols k.symbol then (rowFor k update).map PositionChange.remains
      else none), last?_guard, last?_map_some]
  · split
    · exact getD_map_none _ _
    · rfl
  · rfl
  · intro hub update wired
    rw [routeUpdate_accountPosition, kept_row wired]
    split <;> rfl

theorem reached_balance (asset : String) :
    (reached symbols outbound log).ctx.account.balances.get asset = lastBalance asset log := by
  rw [reached_entry outbound log (fun hub => hub.ctx.account.balances.get asset)
    (fun update => (balanceFor asset update).map some), last?_map_some, getD_map_none]
  · cases found : last? (balanceFor asset) log <;> simp [lastBalance, found]
  · rfl
  · intro hub update wired
    rw [routeUpdate_balance, kept_balance wired]
    cases balanceFor asset update <;> rfl

def AccountHandlerIdle (hub : UsdmHub) : Prop :=
  ∃ writer, hub.writers.get ACCOUNT_ROUTING_ID = some writer ∧ writer.accountEventsOnly = true ∧
    writer.state.positions = Map.empty ∧ writer.state.openOrders = Map.empty

theorem stateStep_accountKind (account : UsdmAccountBookkeeping) (state : SymbolBookkeeping)
    {update : UsdmExecUpdate} {writer : UsdmExecHandler} (only : writer.accountEventsOnly = true)
    (kept : writer.keeps update = true) :
    (stateStep account state update).positions = state.positions ∧
      (stateStep account state update).openOrders = state.openOrders := by
  cases update with
  | orderTrade _ => simp [UsdmExecHandler.keeps, only] at kept
  | positionChange _ => simp [UsdmExecHandler.keeps, only] at kept
  | marginCall call => simp only [stateStep]; split <;> exact ⟨rfl, rfl⟩
  | _ => exact ⟨rfl, rfl⟩

theorem routeUpdate_accountHandlerIdle {hub : UsdmHub} (idle : AccountHandlerIdle hub)
    (update : UsdmExecUpdate) : AccountHandlerIdle (hub.routeUpdate update) := by
  obtain ⟨writer, found, only, positions, orders⟩ := idle
  rw [AccountHandlerIdle, routeUpdate_writer, found]
  split
  · cases kept : writer.keeps update with
    | false =>
      exact ⟨writer, by rw [Option.map_some, writer.apply_ignored hub.ctx kept], only, positions, orders⟩
    | true =>
      have same := stateStep_accountKind hub.ctx.account writer.state only kept
      refine ⟨(writer.apply hub.ctx update).1, rfl, ?_⟩
      rw [apply_kept writer hub.ctx kept]
      exact ⟨only, same.1.trans positions, same.2.trans orders⟩
  · exact ⟨writer, rfl, only, positions, orders⟩

theorem reached_accountHandlerIdle : AccountHandlerIdle (reached symbols outbound log) := by
  refine run_invariant routeUpdate AccountHandlerIdle
    (fun _ update idle => routeUpdate_accountHandlerIdle idle update) log _ ?_
  refine ⟨.new ACCOUNT_ROUTING_ID, by simp [build_writer], by simp [UsdmExecHandler.new], ?_⟩
  exact ⟨rfl, rfl⟩

/-- Every ledger of the hub agrees with the log of parsed updates. -/
structure LedgersMatch (symbols : List String) (log : List UsdmExecUpdate) (hub : UsdmHub) :
    Prop where
  /-- A symbol's handler holds its open legs, each mapped to its last row. -/
  positions : ∀ s, Subscribed symbols s → ∃ writer, hub.writers.get s = some writer ∧
    ∀ k, writer.state.positions.get k =
      if k.symbol = s then (lastRow k log).bind PositionChange.remains else none
  /-- It holds its open orders, each mapped to its last report. -/
  openOrders : ∀ s, Subscribed symbols s → ∃ writer, hub.writers.get s = some writer ∧
    ∀ orderId, writer.state.openOrders.get orderId =
      (lastOrder s orderId log).bind OrderTradeUpdate.remains
  /-- The account holds the union of the handlers' positions. -/
  union : ∀ k row, hub.ctx.account.positions.get k = some row ↔
    ∃ s, Subscribed symbols s ∧ hub.positionOf s k = some row
  /-- No leg is in two handlers. -/
  disjoint : ∀ k s t, Subscribed symbols s → Subscribed symbols t →
    (hub.positionOf s k).isSome → (hub.positionOf t k).isSome → s = t
  accountHandler : AccountHandlerIdle hub
  balances : ∀ asset, hub.ctx.account.balances.get asset = lastBalance asset log

theorem reached_union (k : PositionKey) (row : PositionChange) :
    (reached symbols outbound log).ctx.account.positions.get k = some row ↔
      ∃ s, Subscribed symbols s ∧ (reached symbols outbound log).positionOf s k = some row := by
  rw [reached_accountPosition, Option.ite_none_right_eq_some]
  constructor
  · rintro ⟨subscribed, held⟩
    exact ⟨k.symbol, subscribed, by rw [reached_positionOf outbound log subscribed, if_pos rfl, held]⟩
  · rintro ⟨s, subscribed, held⟩
    rw [reached_positionOf outbound log subscribed, Option.ite_none_right_eq_some] at held
    obtain ⟨rfl, held⟩ := held
    exact ⟨subscribed, held⟩

theorem reached_own_legs {s : String} (subscribed : Subscribed symbols s) {k : PositionKey}
    (held : ((reached symbols outbound log).positionOf s k).isSome) : k.symbol = s := by
  by_contra other
  simp [reached_positionOf outbound log subscribed, other] at held

theorem reached_ledgersMatch : LedgersMatch symbols log (reached symbols outbound log) where
  positions := fun s subscribed => by
    obtain ⟨writer, found, _⟩ := (reached_wired outbound log).symbol s subscribed
    exact ⟨writer, found, fun k => by
      simpa [positionOf, found] using reached_positionOf outbound log subscribed k⟩
  openOrders := fun s subscribed => by
    obtain ⟨writer, found, _⟩ := (reached_wired outbound log).symbol s subscribed
    exact ⟨writer, found, fun orderId => by
      simpa [orderOf, found] using reached_orderOf outbound log subscribed orderId⟩
  union := reached_union outbound log
  disjoint := fun _ _ _ atS atT inS inT =>
    (reached_own_legs outbound log atS inS).symm.trans (reached_own_legs outbound log atT inT)
  accountHandler := reached_accountHandlerIdle outbound log
  balances := reached_balance outbound log

end Run

/-- In every reachable state the two position ledgers, the open orders and the balances
are what the ingested messages say, for all listed symbols at once. -/
theorem ledgers_match (symbols : List String) (outbound : Option (UnboundedSender UsdmExecUpdate))
    (msgs : List Message) :
    LedgersMatch symbols (msgs.flatMap (updatesOf fromStr))
      (msgs.foldl (ingestUserData fromStr) (buildMultiplexorWithContext symbols (.new outbound))) := by
  rw [ingest_eq_routeAll]
  exact reached_ledgersMatch outbound _

end UsdmHub

end Trolly.Usdm
