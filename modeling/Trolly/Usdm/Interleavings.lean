import Trolly.Lib.Interleaving
import Trolly.Usdm.Ledger

/-! Updates of different routes commute, although every handler writes the one shared
account: a route only touches its own keys there. Only the outbound channel sees the
order of arrival, so it is left out of the compared state. -/
namespace Trolly.Usdm

open Keyed Interleaving Trolly.Stream

theorem applyPositionTo_comm (positions : Positions) {p q : PositionChange} (apart : p.key ≠ q.key) :
    applyPositionTo (applyPositionTo positions p) q =
      applyPositionTo (applyPositionTo positions q) p := by
  ext1
  funext k
  simp only [get_applyPositionTo]
  by_cases atP : k = p.key
  · simp [atP, apart]
  · simp [atP]

theorem applyMarginCall_applyPosition (account : UsdmAccountBookkeeping) (p : PositionChange)
    (call : MarginCall) :
    (account.applyPosition p).applyMarginCall call =
      ((account.applyMarginCall call).1.applyPosition p, (account.applyMarginCall call).2) := by
  obtain ⟨balances, positions, latest⟩ := account
  cases latest with
  | none => simp [UsdmAccountBookkeeping.applyMarginCall, UsdmAccountBookkeeping.applyPosition]
  | some existing =>
    by_cases older : call.eventTime < existing.eventTime <;>
      simp [UsdmAccountBookkeeping.applyMarginCall, UsdmAccountBookkeeping.applyPosition, older]

theorem applyBalance_applyPosition (account : UsdmAccountBookkeeping) (p : PositionChange)
    (b : BalanceChange) :
    (account.applyPosition p).applyBalance b = (account.applyBalance b).applyPosition p := by
  simp only [UsdmAccountBookkeeping.applyPosition, UsdmAccountBookkeeping.applyBalance]

/-- Account-kind updates share a route, so of two routes at most one writes balances or
the margin call, and two position rows of different routes are different legs. -/
theorem accountStep_comm (account : UsdmAccountBookkeeping) {e f : UsdmExecUpdate}
    (apart : e.routingId ≠ f.routingId) :
    accountStep (accountStep account e) f = accountStep (accountStep account f) e := by
  cases e with
  | orderTrade order => rfl
  | listenKeyExpired => rfl
  | positionChange p =>
    cases f with
    | positionChange q =>
      have legs : p.key ≠ q.key := fun same => apart (congrArg PositionKey.symbol same)
      simp only [accountStep, UsdmAccountBookkeeping.applyPosition, applyPositionTo_comm _ legs]
    | balanceChange b => simp only [accountStep, applyBalance_applyPosition]
    | marginCall call => simp only [accountStep, applyMarginCall_applyPosition]
    | orderTrade _ | listenKeyExpired => simp only [accountStep]
  | balanceChange b =>
    cases f with
    | balanceChange _ | marginCall _ | listenKeyExpired => exact absurd rfl apart
    | orderTrade order => rfl
    | positionChange q => simp only [accountStep, applyBalance_applyPosition]
  | marginCall call =>
    cases f with
    | balanceChange _ | marginCall _ | listenKeyExpired => exact absurd rfl apart
    | orderTrade order => rfl
    | positionChange q => simp only [accountStep, applyMarginCall_applyPosition]

/-- What a handler does with an update does not depend on updates of other routes. -/
theorem stateStep_after_other (account : UsdmAccountBookkeeping) (state : SymbolBookkeeping)
    {e f : UsdmExecUpdate} (apart : e.routingId ≠ f.routingId) :
    stateStep (accountStep account e) state f = stateStep account state f := by
  cases f with
  | marginCall call =>
    cases e with
    | balanceChange _ | marginCall _ | listenKeyExpired => exact absurd rfl apart
    | orderTrade order => rfl
    | positionChange p => simp only [stateStep, accountStep, applyMarginCall_applyPosition]
  | _ => rfl

namespace UsdmHub

theorem apply_after_other (hub : UsdmHub) (writer : UsdmExecHandler) {e f : UsdmExecUpdate}
    (apart : e.routingId ≠ f.routingId) :
    (writer.apply (hub.routeUpdate e).ctx f).1 = (writer.apply hub.ctx f).1 := by
  cases accepted : hub.accepts e with
  | false => rw [hub.routeUpdate_ignored accepted]
  | true =>
    cases kept : writer.keeps f with
    | false => rw [writer.apply_ignored _ kept, writer.apply_ignored _ kept]
    | true =>
      rw [apply_kept writer _ kept, apply_kept writer _ kept, hub.routeUpdate_ctx accepted]
      simp only [stateStep_after_other hub.ctx.account writer.state apart]

theorem writers_comm (hub : UsdmHub) {e f : UsdmExecUpdate} (apart : e.routingId ≠ f.routingId) :
    ((hub.routeUpdate e).routeUpdate f).writers = ((hub.routeUpdate f).routeUpdate e).writers := by
  ext1
  funext id
  simp only [routeUpdate_writer]
  by_cases own : id = f.routingId
  · have other : id ≠ e.routingId := fun same => apart (same.symm.trans own)
    simp only [own, if_true, if_neg (own ▸ other), apply_after_other hub _ apart]
  · by_cases at_e : id = e.routingId
    · simp only [at_e, if_true, if_neg apart, apply_after_other hub _ (Ne.symm apart)]
    · simp only [if_neg own, if_neg at_e]

theorem account_comm (hub : UsdmHub) {e f : UsdmExecUpdate} (apart : e.routingId ≠ f.routingId) :
    ((hub.routeUpdate e).routeUpdate f).ctx.account =
      ((hub.routeUpdate f).routeUpdate e).ctx.account := by
  simp only [routeUpdate_account, accepts_routeUpdate]
  cases hub.accepts e <;> cases hub.accepts f <;> simp [accountStep_comm hub.ctx.account apart]

/-- The hub without its outbound channel: all ledgers, and nothing that sees the order. -/
def quiet (hub : UsdmHub) : UsdmHub := ⟨hub.writers, none, hub.ctx.account⟩

def quietStep (hub : UsdmHub) (update : UsdmExecUpdate) : UsdmHub := (hub.routeUpdate update).quiet

theorem quiet_routeUpdate (hub : UsdmHub) (update : UsdmExecUpdate) :
    hub.quiet.quietStep update = (hub.routeUpdate update).quiet := by
  have accepted : hub.quiet.accepts update = hub.accepts update := rfl
  have applied : ∀ writer : UsdmExecHandler,
      (writer.apply hub.quiet.ctx update).1 = (writer.apply hub.ctx update).1 := by
    intro writer
    cases kept : writer.keeps update with
    | false => rw [writer.apply_ignored _ kept, writer.apply_ignored _ kept]
    | true => rw [apply_kept writer _ kept, apply_kept writer _ kept]; rfl
  have writers : (hub.quiet.routeUpdate update).writers = (hub.routeUpdate update).writers := by
    ext1
    funext id
    simp only [routeUpdate_writer, applied]
    rfl
  have account : (hub.quiet.routeUpdate update).ctx.account =
      (hub.routeUpdate update).ctx.account := by
    simp only [routeUpdate_account, accepted]
    rfl
  exact MonitorMultiplexor.ext writers (congrArg (UsdmExecContext.mk none) account)

theorem quiet_routeAll (hub : UsdmHub) (log : List UsdmExecUpdate) :
    (hub.routeAll log).quiet = log.foldl quietStep hub.quiet := by
  induction log generalizing hub with
  | nil => rfl
  | cons e rest ih =>
    rw [routeAll, List.foldl_cons, ← routeAll, ih, List.foldl_cons, quiet_routeUpdate]

theorem quietStep_commuting : Commuting quietStep UsdmExecUpdate.routingId := by
  intro hub e f apart
  have merge : ∀ a b, (hub.quietStep a).quietStep b = ((hub.routeUpdate a).routeUpdate b).quiet :=
    fun a b => quiet_routeUpdate (hub.routeUpdate a) b
  simp only [merge, quiet, writers_comm hub apart, account_comm hub apart]

/-- Interleavings of the same per-route subsequences end in the same ledgers: every
handler and the whole shared account agree. -/
theorem interleavings_agree (symbols : List String) (ctx : UsdmExecContext)
    (us vs : List UsdmExecUpdate) (same : SameRoutes UsdmExecUpdate.routingId us vs) :
    let hub := buildMultiplexorWithContext symbols ctx
    (hub.routeAll us).writers = (hub.routeAll vs).writers ∧
      (hub.routeAll us).ctx.account = (hub.routeAll vs).ctx.account := by
  intro hub
  have quiet_eq : (hub.routeAll us).quiet = (hub.routeAll vs).quiet := by
    rw [quiet_routeAll, quiet_routeAll, run_eq_of_sameRoutes quietStep_commuting same]
  have writers : (hub.routeAll us).quiet.writers = (hub.routeAll vs).quiet.writers := by
    rw [quiet_eq]
  have account : (hub.routeAll us).quiet.ctx.account = (hub.routeAll vs).quiet.ctx.account := by
    rw [quiet_eq]
  exact ⟨writers, account⟩

/-- Two open legs reported in either order. -/
theorem interleavings_agree_two_legs :
    let btc : PositionChange := ⟨1, "ORDER", "BTCUSDT", "1", "", "", "", "", "LONG"⟩
    let eth : PositionChange := ⟨2, "ORDER", "ETHUSDT", "5", "", "", "", "", "SHORT"⟩
    let hub := buildMultiplexorWithContext ["BTCUSDT", "ETHUSDT"] (.new none)
    SameRoutes UsdmExecUpdate.routingId [.positionChange btc, .positionChange eth]
        [.positionChange eth, .positionChange btc] ∧
      (hub.routeAll [.positionChange btc, .positionChange eth]).ctx.account =
        (hub.routeAll [.positionChange eth, .positionChange btc]).ctx.account := by
  intro btc eth hub
  have same : SameRoutes UsdmExecUpdate.routingId [.positionChange btc, .positionChange eth]
      [.positionChange eth, .positionChange btc] := by
    intro id
    by_cases atBtc : id = "BTCUSDT"
    · simp [along, UsdmExecUpdate.routingId, btc, eth, atBtc]
    · by_cases atEth : id = "ETHUSDT"
      · simp [along, UsdmExecUpdate.routingId, btc, eth, atEth]
      · simp [along, UsdmExecUpdate.routingId, btc, eth, Ne.symm atBtc, Ne.symm atEth]
  exact ⟨same, (interleavings_agree ["BTCUSDT", "ETHUSDT"] (.new none) _ _ same).2⟩

end UsdmHub

end Trolly.Usdm
