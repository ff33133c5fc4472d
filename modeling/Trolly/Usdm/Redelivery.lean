import Trolly.Usdm.MarginCalls

/-! What the hub knows is what its channel received: a hub that is rebuilt from it has the same
ledgers, and updates that are delivered once more, as behind a reconnect, change none of them. -/
namespace Trolly.Usdm

open Keyed SerdeJson Trolly.Stream

/-- Two logs end alike for every key. -/
structure SameEnds (log log' : List UsdmExecUpdate) : Prop where
  rows : ∀ k, lastRow k log = lastRow k log'
  orders : ∀ s orderId, lastOrder s orderId log = lastOrder s orderId log'
  balances : ∀ asset, lastBalance asset log = lastBalance asset log'
  call : keptCall log = keptCall log'

theorem sameEnds_redelivered (before after : List UsdmExecUpdate) :
    SameEnds (before ++ after ++ after) (before ++ after) where
  rows k := last?_redelivered _ before after
  orders s orderId := last?_redelivered _ before after
  balances asset := last?_redelivered _ before after
  call := by
    simp only [keptCall, List.filterMap_append]
    exact foldl_keepLatest_redelivered MarginCall.time _ _

namespace UsdmHub

/-- The same handlers and the same account. -/
def SameLedgers (hub hub' : UsdmHub) : Prop :=
  hub.writers = hub'.writers ∧ hub.ctx.account = hub'.ctx.account

/-- A handler is as it was built but for its state. -/
def Shells (hub : UsdmHub) : Prop :=
  ∀ id writer, hub.writers.get id = some writer →
    writer = { UsdmExecHandler.new id with state := writer.state }

theorem routeUpdate_shells {hub : UsdmHub} (shells : Shells hub) (update : UsdmExecUpdate) :
    Shells (hub.routeUpdate update) := by
  intro id writer there
  rw [routeUpdate_writer] at there
  split at there
  · obtain ⟨before, found, rfl⟩ := Option.map_eq_some_iff.mp there
    have shell := shells id before found
    cases kept : before.keeps update with
    | false => rwa [before.apply_ignored hub.ctx kept]
    | true =>
      rw [apply_kept before hub.ctx kept, shell]
      rfl
  · exact shells id writer there

variable {symbols : List String} (outbound outbound' : Option (UnboundedSender UsdmExecUpdate))

theorem reached_shells (log : List UsdmExecUpdate) : Shells (reached symbols outbound log) := by
  refine run_invariant routeUpdate Shells (fun _ update shells => routeUpdate_shells shells update)
    log _ (fun id writer found => ?_)
  rw [build_writer, Option.ite_none_right_eq_some] at found
  cases found.2
  rfl

theorem reached_callsMatch (log : List UsdmExecUpdate) :
    CallsMatch symbols log (reached symbols outbound log) :=
  routeAll_callsMatch (build_callsMatch symbols outbound) log

/-- What the handler of a route knows after a log. -/
def stateOf (id : String) (log : List UsdmExecUpdate) : SymbolBookkeeping :=
  if id = ACCOUNT_ROUTING_ID then ⟨Map.empty, Map.empty, keptCall log⟩
  else
    { openOrders := ⟨fun orderId => (lastOrder id orderId log).bind OrderTradeUpdate.remains⟩
      positions := ⟨fun k =>
        if k.symbol = id then (lastRow k log).bind PositionChange.remains else none⟩
      latestMarginCall := none }

theorem reached_state {log : List UsdmExecUpdate} {id : String} {writer : UsdmExecHandler}
    (found : (reached symbols outbound log).writers.get id = some writer) :
    writer.state = stateOf id log := by
  have calls : CallsMatch symbols log (reached symbols outbound log) :=
    reached_callsMatch outbound log
  by_cases own : id = ACCOUNT_ROUTING_ID
  · subst own
    obtain ⟨idle, held, _, positions, orders⟩ : AccountHandlerIdle (reached symbols outbound log) :=
      reached_accountHandlerIdle outbound log
    obtain ⟨caller, named, call⟩ := calls.handler
    cases found.symm.trans held
    cases found.symm.trans named
    rw [stateOf, if_pos rfl]
    exact SymbolBookkeeping.ext orders positions call
  · have listed : id ∈ symbols := by
      by_contra unlisted
      rw [calls.wired.missing id own unlisted] at found
      cases found
    rw [stateOf, if_neg own]
    apply SymbolBookkeeping.ext
    · apply Map.ext
      funext orderId
      simpa [orderOf, found] using reached_orderOf outbound log ⟨listed, own⟩ orderId
    · apply Map.ext
      funext k
      simpa [positionOf, found] using reached_positionOf outbound log ⟨listed, own⟩ k
    · exact calls.symbol id writer own found

theorem stateOf_ends {log log' : List UsdmExecUpdate} (ends : SameEnds log log') (id : String) :
    stateOf id log = stateOf id log' := by
  simp only [stateOf, ends.rows, ends.orders, ends.call]

theorem reached_writers (log : List UsdmExecUpdate) (id : String) :
    (reached symbols outbound log).writers.get id =
      if id = ACCOUNT_ROUTING_ID ∨ id ∈ symbols then
        some { UsdmExecHandler.new id with state := stateOf id log }
      else none := by
  have wired : Wired symbols (reached symbols outbound log) := reached_wired outbound log
  split
  · rename_i listed
    obtain ⟨writer, found⟩ : ∃ writer, (reached symbols outbound log).writers.get id = some writer := by
      by_cases own : id = ACCOUNT_ROUTING_ID
      · subst own
        obtain ⟨writer, found, _⟩ := wired.account
        exact ⟨writer, found⟩
      · obtain ⟨writer, found, _⟩ := wired.symbol id ⟨listed.resolve_left own, own⟩
        exact ⟨writer, found⟩
    rw [found, ← reached_state outbound found]
    exact congrArg some (reached_shells outbound log id writer found)
  · rename_i unlisted
    obtain ⟨own, absent⟩ := not_or.mp unlisted
    exact wired.missing id own absent

/-- Hubs whose logs end alike have the same ledgers, whatever their channels. -/
theorem reached_sameLedgers {log log' : List UsdmExecUpdate} (ends : SameEnds log log') :
    SameLedgers (reached symbols outbound log) (reached symbols outbound' log') := by
  constructor
  · apply Map.ext
    funext id
    rw [reached_writers, reached_writers, stateOf_ends ends]
  · apply UsdmAccountBookkeeping.ext
    · apply Map.ext
      funext asset
      rw [reached_balance, reached_balance, ends.balances]
    · apply Map.ext
      funext k
      rw [reached_accountPosition, reached_accountPosition, ends.rows]
    · rw [(reached_callsMatch outbound log).account, (reached_callsMatch outbound' log').account,
        ends.call]

theorem routeAll_forwarded {hub : UsdmHub} (wired : Wired symbols hub)
    (log : List UsdmExecUpdate) :
    hub.routeAll (log.filter (fun update => Forwarded symbols update)) = hub.routeAll log := by
  induction log generalizing hub with
  | nil => rfl
  | cons update rest ih =>
    have accepts := accepts_forwarded wired update
    have later := ih (routeUpdate_wired wired update)
    by_cases forwarded : Forwarded symbols update
    · simpa [routeAll, forwarded] using later
    · rw [decide_eq_false forwarded] at accepts
      rw [hub.routeUpdate_ignored accepts] at later
      simpa [routeAll, forwarded, hub.routeUpdate_ignored accepts] using later

variable {JsonError : Type} (fromStr : String → Except JsonError Value)

/-- In every reached state a hub that is rebuilt from what the channel received has the same
ledgers; and so has the hub itself when any end of its messages is delivered once more. -/
theorem channel_rebuilds_the_hub (symbols : List String) (before after : List Message) :
    let hub := (before ++ after).foldl (ingestUserData fromStr)
      (buildMultiplexor symbols (some ⟨true, []⟩))
    (∃ received, hub.ctx.outbound = some ⟨true, received⟩ ∧
        ∀ outbound, SameLedgers ((buildMultiplexor symbols outbound).routeAll received) hub) ∧
      SameLedgers (after.foldl (ingestUserData fromStr) hub) hub := by
  intro hub
  set log := before.flatMap (updatesOf fromStr) with parsed
  set end_ := after.flatMap (updatesOf fromStr) with parsedEnd
  have ran : hub = reached symbols (some ⟨true, []⟩) (log ++ end_) := by
    rw [reached, parsed, parsedEnd, ← List.flatMap_append, ← ingest_eq_routeAll]
    rfl
  refine ⟨⟨(log ++ end_).filter (fun update => Forwarded symbols update), ?_,
    fun outbound => ?_⟩, ?_⟩
  · rw [ran]
    have sent := routeAll_outbound (build_wired symbols (.new (some ⟨true, []⟩))) rfl (log ++ end_)
    rwa [List.nil_append] at sent
  · rw [buildMultiplexor, routeAll_forwarded (build_wired symbols (.new outbound)), ran]
    exact reached_sameLedgers outbound _ ⟨fun _ => rfl, fun _ _ => rfl, fun _ => rfl, rfl⟩
  · have again : after.foldl (ingestUserData fromStr) hub =
        reached symbols (some ⟨true, []⟩) (log ++ end_ ++ end_) := by
      rw [ingest_eq_routeAll, ran, reached, reached, routeAll, routeAll, routeAll,
        ← List.foldl_append]
    rw [again, ran]
    exact reached_sameLedgers _ _ (sameEnds_redelivered log end_)

end UsdmHub

end Trolly.Usdm
