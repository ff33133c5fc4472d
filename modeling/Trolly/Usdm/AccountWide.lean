import Trolly.Usdm.Reachable

/-! Whether the account book is account-wide. Position rows only reach the shared account
through the handler of their symbol, so a leg of an unsubscribed symbol is lost. -/
namespace Trolly.Usdm

open Keyed SerdeJson Trolly.Stream

namespace UsdmHub

variable {JsonError : Type} (fromStr : String → Except JsonError Value)

/-- The account holds exactly the legs whose last reported row is not closed, over all
rows of all messages. -/
def AccountWide (log : List UsdmExecUpdate) (hub : UsdmHub) : Prop :=
  ∀ k, hub.ctx.account.positions.get k = (lastRow k log).bind PositionChange.remains

def ingested (symbols : List String) (outbound : Option (UnboundedSender UsdmExecUpdate))
    (msgs : List Message) : UsdmHub :=
  msgs.foldl (ingestUserData fromStr) (buildMultiplexor symbols outbound)

theorem remains_eq_none (row : PositionChange) :
    row.remains = none ↔ isPositionClosed row.positionAmount = true := by
  unfold PositionChange.remains
  split <;> simp_all

/-- The account book covers the whole account exactly when every leg of a symbol without a
handler of its own, unlisted or the reserved account route, was last reported closed. -/
theorem accountWide_iff (symbols : List String) (outbound : Option (UnboundedSender UsdmExecUpdate))
    (msgs : List Message) :
    AccountWide (msgs.flatMap (updatesOf fromStr)) (ingested fromStr symbols outbound msgs) ↔
      ∀ k row, lastRow k (msgs.flatMap (updatesOf fromStr)) = some row →
        ¬ Subscribed symbols k.symbol → isPositionClosed row.positionAmount = true := by
  have held : ∀ k, (reached symbols outbound
      (msgs.flatMap (updatesOf fromStr))).ctx.account.positions.get k =
        if Subscribed symbols k.symbol then
          (lastRow k (msgs.flatMap (updatesOf fromStr))).bind PositionChange.remains
        else none := reached_accountPosition outbound _
  have reach : ingested fromStr symbols outbound msgs =
      reached symbols outbound (msgs.flatMap (updatesOf fromStr)) :=
    ingest_eq_routeAll fromStr _ msgs
  constructor
  · intro wide k row reported unsubscribed
    have here := wide k
    rw [reach, held k, if_neg unsubscribed, reported, Option.bind_some] at here
    exact (remains_eq_none row).mp here.symm
  · intro closed k
    rw [reach, held k]
    by_cases subscribed : Subscribed symbols k.symbol
    · rw [if_pos subscribed]
    · rw [if_neg subscribed]
      cases reported : lastRow k (msgs.flatMap (updatesOf fromStr)) with
      | none => rfl
      | some row =>
        rw [Option.bind_some, (remains_eq_none row).mpr (closed k row reported subscribed)]

/-! A run in which a leg is lost. -/

def accountUpdatePayload (balances positions : List Value) : Value :=
  .object [("e", .string "ACCOUNT_UPDATE"), ("E", .number (.posInt 1)),
    ("a", .object [("m", .string "ORDER"), ("B", .array balances), ("P", .array positions)])]

def positionPayload (symbol side amount : String) : Value :=
  .object [("s", .string symbol), ("ps", .string side), ("pa", .string amount)]

def ethLongText : String :=
  "\x7b\"e\":\"ACCOUNT_UPDATE\",\"E\":1,\"a\":\x7b\"m\":\"ORDER\",\"B\":[]," ++
    "\"P\":[\x7b\"s\":\"ETHUSDT\",\"ps\":\"LONG\",\"pa\":\"5\"\x7d]\x7d\x7d"

def ethLongFromStr (text : String) : Except Unit Value :=
  if text = ethLongText then .ok (accountUpdatePayload [] [positionPayload "ETHUSDT" "LONG" "5"])
  else .error ()

/-- With only BTCUSDT subscribed, an open ETHUSDT leg never reaches the account. -/
theorem unsubscribed_leg_lost :
    ¬ AccountWide ([Message.text ethLongText].flatMap (updatesOf ethLongFromStr))
      (ingested ethLongFromStr ["BTCUSDT"] none [.text ethLongText]) := by
  intro wide
  have here := congrArg Option.isSome (wide ⟨"ETHUSDT", "LONG"⟩)
  revert here
  decide

end UsdmHub

end Trolly.Usdm
