import Trolly.Lib.Interleaving
import Trolly.Spot.Hub

/-! Open orders of one symbol under reports for others. The shared book keeps orders by
their id alone, so a report for another symbol with the same id takes the entry over. -/
namespace Trolly.Spot

open Keyed Interleaving SerdeJson Trolly.Stream

def ExecutionReport.remains (report : ExecutionReport) : Option ExecutionReport :=
  if report.orderStatus ∈ ["FILLED", "CANCELED", "EXPIRED", "REJECTED"] then none else some report

theorem AccountBook.applyExecutionReport_get (book : AccountBook) (report : ExecutionReport)
    (orderId : Int64) :
    (book.applyExecutionReport report).openOrders.get orderId =
      if orderId = report.orderId then report.remains else book.openOrders.get orderId := by
  unfold applyExecutionReport ExecutionReport.remains
  split <;> simp [Map.get_remove, Map.get_insert]

namespace SpotHub

def openOrder (hub : SpotHub) (orderId : Int64) : Option ExecutionReport :=
  hub.ctx.account.bind (fun book => book.openOrders.get orderId)

def orderOf (hub : SpotHub) (symbol : String) (orderId : Int64) : Option ExecutionReport :=
  (hub.openOrder orderId).filter (fun report => report.symbol = symbol)

/-- The hub has a handler for the report's symbol, and that handler takes it. -/
def takes (hub : SpotHub) (report : ExecutionReport) : Bool :=
  (hub.writers.get report.symbol).any (·.takes (.executionReport report))

/-- The report as the entry under `orderId` sees it: nothing unless it is taken there. -/
def touch (hub : SpotHub) (orderId : Int64) (report : ExecutionReport) : Option ExecutionReport :=
  if hub.takes report ∧ orderId = report.orderId then some report else none

def touchOf (hub : SpotHub) (symbol : String) (orderId : Int64) (report : ExecutionReport) :
    Option ExecutionReport :=
  (hub.touch orderId report).filter (fun report => report.symbol = symbol)

def ownOrder (hub : SpotHub) (symbol : String) (orderId : Int64) (reports : List ExecutionReport) :
    Option ExecutionReport :=
  ((last? (hub.touchOf symbol orderId) reports).map ExecutionReport.remains).getD
    (hub.orderOf symbol orderId)

/-- No order that the symbol's own reports leave open has a later report of another symbol
under its id. -/
def Undisturbed (hub : SpotHub) (symbol : String) (reports : List ExecutionReport) : Prop :=
  ∀ orderId, (hub.ownOrder symbol orderId reports).isSome →
    last? (hub.touch orderId) reports = last? (hub.touchOf symbol orderId) reports

theorem remains_symbol {report left : ExecutionReport} (open_ : report.remains = some left) :
    left = report := by
  unfold ExecutionReport.remains at open_
  split at open_
  · cases open_
  · exact (Option.some.inj open_).symm

theorem touchOf_along (hub : SpotHub) (symbol : String) (orderId : Int64)
    (reports : List ExecutionReport) :
    last? (hub.touchOf symbol orderId) (along ExecutionReport.symbol symbol reports) =
      last? (hub.touchOf symbol orderId) reports := by
  refine last?_filter _ _ (fun report reads => ?_) reports
  obtain ⟨own, read⟩ := Option.isSome_iff_exists.mp reads
  obtain ⟨touched, same⟩ := Option.filter_eq_some_iff.mp read
  simp only [touch, Option.ite_none_right_eq_some, Option.some.injEq] at touched
  rw [touched.2]
  exact same

theorem ownOrder_along (hub : SpotHub) {symbol : String} {us vs : List ExecutionReport}
    (same : along ExecutionReport.symbol symbol us = along ExecutionReport.symbol symbol vs)
    (orderId : Int64) : hub.ownOrder symbol orderId us = hub.ownOrder symbol orderId vs := by
  rw [ownOrder, ownOrder, ← touchOf_along, same, touchOf_along]

theorem undisturbed_along (hub : SpotHub) (symbol : String) (reports : List ExecutionReport) :
    hub.Undisturbed symbol (along ExecutionReport.symbol symbol reports) := by
  intro orderId _
  refine last?_congr (fun report member => ?_)
  have ours : report.symbol = symbol := by simpa using (List.mem_filter.mp member).2
  rw [touchOf]
  cases touched : hub.touch orderId report with
  | none => rfl
  | some own =>
    simp only [touch, Option.ite_none_right_eq_some, Option.some.injEq] at touched
    rw [← touched.2, Option.filter_some, if_pos (by simpa using ours)]

theorem build_healthy (table : Rust.CaseTable) (symbols : List String)
    (events : UnboundedSender SpotUserEvent) (book : AccountBook) :
    (buildMultiplexor table symbols ⟨events, some book⟩).ctx.account.isSome = true := rfl

section Reports

variable [Rust.Build]

def routeReport (hub : SpotHub) (report : ExecutionReport) : SpotHub :=
  hub.routeEvent (.executionReport report)

def routeReports (hub : SpotHub) (reports : List ExecutionReport) : SpotHub :=
  reports.foldl routeReport hub

theorem routeReport_account (hub : SpotHub) {book : AccountBook}
    (held : hub.ctx.account = some book) (report : ExecutionReport) :
    (hub.routeReport report).ctx.account =
      some (if hub.takes report then book.applyExecutionReport report else book) := by
  cases found : hub.writers.get report.symbol with
  | none =>
    have skipped : hub.routeReport report = hub := hub.deliver_missing spotRouting _ found
    simp [skipped, held, takes, found]
  | some writer =>
    have routed := hub.deliver_found spotRouting (.executionReport report) found
    rw [routeReport, routeEvent, routed]
    simp only [takes, found, Option.any_some, spotRouting]
    cases taken : writer.takes (.executionReport report) with
    | false => simp [writer.handleUpdate_ignored hub.ctx taken, held]
    | true => simp [writer.handleUpdate_taken hub.ctx taken held rfl]

theorem takes_routeReport (hub : SpotHub) (report other : ExecutionReport) :
    (hub.routeReport report).takes other = hub.takes other := by
  simp only [takes, routeReport, routeEvent_writers]

theorem routeReport_openOrder (hub : SpotHub) (healthy : hub.ctx.account.isSome)
    (report : ExecutionReport) (orderId : Int64) :
    (hub.routeReport report).openOrder orderId =
      ((hub.touch orderId report).map ExecutionReport.remains).getD (hub.openOrder orderId) := by
  obtain ⟨book, held⟩ := Option.isSome_iff_exists.mp healthy
  simp only [openOrder, hub.routeReport_account held, held, Option.bind_some, touch]
  cases hub.takes report with
  | false => simp
  | true =>
    simp only [if_true, AccountBook.applyExecutionReport_get, true_and]
    split <;> rfl

/-- After a run the entry of an order id is what the last report with that id left. -/
theorem routeReports_openOrder (hub : SpotHub) (healthy : hub.ctx.account.isSome)
    (reports : List ExecutionReport) (orderId : Int64) :
    (hub.routeReports reports).openOrder orderId =
      ((last? (hub.touch orderId) reports).map ExecutionReport.remains).getD
        (hub.openOrder orderId) := by
  rw [← last?_map_some]
  refine run_view routeReport (fun h => h.openOrder orderId) _
    (fun h => h.ctx.account.isSome = true ∧ ∀ report, h.takes report = hub.takes report)
    ?_ ?_ reports hub ⟨healthy, fun _ => rfl⟩
  · rintro h report ⟨healthy, same⟩
    obtain ⟨book, held⟩ := Option.isSome_iff_exists.mp healthy
    exact ⟨by rw [h.routeReport_account held, Option.isSome_some],
      fun other => (h.takes_routeReport report other).trans (same other)⟩
  · rintro h report ⟨healthy, same⟩
    rw [h.routeReport_openOrder healthy, touch, touch, same]

/-- Order by order, other symbols leave the entry alone exactly when they do not come last
on an order that is open. -/
theorem orderOf_routeReports_iff (hub : SpotHub) (healthy : hub.ctx.account.isSome)
    (symbol : String) (reports : List ExecutionReport) (orderId : Int64) :
    (hub.routeReports reports).orderOf symbol orderId = hub.ownOrder symbol orderId reports ↔
      ((hub.ownOrder symbol orderId reports).isSome →
        last? (hub.touch orderId) reports = last? (hub.touchOf symbol orderId) reports) := by
  rw [orderOf, hub.routeReports_openOrder healthy]
  cases touched : last? (hub.touch orderId) reports with
  | none =>
    have own : last? (hub.touchOf symbol orderId) reports = none := last?_filter_none touched
    simp [ownOrder, own, orderOf]
  | some report =>
    by_cases ours : report.symbol = symbol
    · have own : last? (hub.touchOf symbol orderId) reports = some report :=
        last?_filter_some touched (by simpa using ours)
      cases left : report.remains with
      | none => simp [ownOrder, own, left]
      | some same => simp [ownOrder, own, left, remains_symbol left, ours]
    · have hidden : report.remains.filter (fun report => report.symbol = symbol) = none := by
        cases left : report.remains with
        | none => rfl
        | some same => simp [remains_symbol left, ours]
      have apart : some report ≠ last? (hub.touchOf symbol orderId) reports := by
        intro own
        obtain ⟨x, _, read⟩ := last?_mem own.symm
        exact ours (by simpa using (Option.filter_eq_some_iff.mp read).2)
      simp only [Option.map_some, Option.getD_some, hidden, apart, imp_false, Bool.not_eq_true,
        Option.isSome_eq_false_iff, Option.isNone_iff_eq_none]
      exact eq_comm

/-- A run whose open orders of a symbol are told by the symbol's own reports, whatever the
others do, is one in which no open order is disturbed. -/
theorem open_orders_independent_iff (table : Rust.CaseTable) (symbols : List String)
    (events : UnboundedSender SpotUserEvent) (book : AccountBook) (symbol : String)
    (us : List ExecutionReport) :
    let hub := buildMultiplexor table symbols ⟨events, some book⟩
    (∀ vs, along ExecutionReport.symbol symbol us = along ExecutionReport.symbol symbol vs →
        hub.Undisturbed symbol vs → ∀ orderId,
        (hub.routeReports us).orderOf symbol orderId = (hub.routeReports vs).orderOf symbol orderId) ↔
      hub.Undisturbed symbol us := by
  intro hub
  have healthy : hub.ctx.account.isSome = true := build_healthy table symbols events book
  constructor
  · intro independent orderId
    have own := independent (along ExecutionReport.symbol symbol us) (by simp [along])
      (hub.undisturbed_along symbol us) orderId
    have alone := (hub.orderOf_routeReports_iff healthy symbol _ orderId).mpr
      (hub.undisturbed_along symbol us orderId)
    have same : hub.ownOrder symbol orderId (along ExecutionReport.symbol symbol us) =
        hub.ownOrder symbol orderId us := hub.ownOrder_along (by simp [along]) orderId
    exact (hub.orderOf_routeReports_iff healthy symbol us orderId).mp (own.trans (alone.trans same))
  · intro undisturbed vs same undisturbed' orderId
    rw [(hub.orderOf_routeReports_iff healthy symbol us orderId).mpr (undisturbed orderId),
      (hub.orderOf_routeReports_iff healthy symbol vs orderId).mpr (undisturbed' orderId),
      hub.ownOrder_along same]

end Reports

/-! Two symbols that share an order id. -/

def newOrder (symbol : String) (orderId : Int64) : ExecutionReport :=
  { eventTime := 1, symbol, clientOrderId := "c", side := "BUY", orderType := "LIMIT"
    timeInForce := "GTC", quantity := "1", price := "1", executionType := "NEW"
    orderStatus := "NEW", orderId, lastQty := "0", cumulativeQty := "0", lastPrice := "0"
    transactionTime := 1, tradeId := -1, isOnBook := true }

/-- An ETHUSDT report takes over the entry of the open BTCUSDT order with the same id. -/
theorem open_order_hidden :
    let hub := buildMultiplexor .asciiOnly ["BTCUSDT", "ETHUSDT"] ⟨⟨true, []⟩, some .default⟩
    let us := [newOrder "BTCUSDT" 7, newOrder "ETHUSDT" 7]
    let vs := [newOrder "BTCUSDT" 7]
    along ExecutionReport.symbol "BTCUSDT" us = along ExecutionReport.symbol "BTCUSDT" vs ∧
      (@routeReports .release hub us).orderOf "BTCUSDT" 7 ≠
        (@routeReports .release hub vs).orderOf "BTCUSDT" 7 := by
  decide

end SpotHub

end Trolly.Spot
