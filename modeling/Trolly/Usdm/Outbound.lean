import Trolly.Lib.Traversal
import Trolly.Usdm.AccountWide

/-! What a live outbound channel receives: every parsed update that a handler keeps, once
and in order, whether or not it changed a ledger. A message that does not parse is as if
it had not been sent. -/
namespace Trolly.Usdm

open Keyed SerdeJson Trolly.Stream

def UsdmExecUpdate.isAccountKind : UsdmExecUpdate → Bool
  | balanceChange _ | marginCall _ | listenKeyExpired => true
  | orderTrade _ | positionChange _ => false

/-- Account-kind updates and those of a subscribed symbol. -/
def Forwarded (symbols : List String) (update : UsdmExecUpdate) : Prop :=
  update.isAccountKind = true ∨ Subscribed symbols update.routingId

instance (symbols : List String) (update : UsdmExecUpdate) : Decidable (Forwarded symbols update) :=
  inferInstanceAs (Decidable (_ ∨ _))

namespace UsdmHub

variable {symbols : List String} {hub : UsdmHub}

/-- A symbol's own updates reach a handler that keeps them exactly when it is subscribed;
under the reserved name they reach the account handler, which drops them. -/
theorem accepts_symbolKind (wired : Wired symbols hub) {update : UsdmExecUpdate}
    (kind : update.isAccountKind = false) :
    hub.accepts update = decide (Subscribed symbols update.routingId) := by
  have keeps_eq : ∀ writer : UsdmExecHandler, writer.keeps update = !writer.accountEventsOnly := by
    intro writer
    cases update <;> first | rfl | cases kind
  by_cases subscribed : Subscribed symbols update.routingId
  · obtain ⟨writer, found, all⟩ := wired.symbol _ subscribed
    rw [hub.accepts_eq update found, keeps_eq, all, decide_eq_true subscribed]
    rfl
  · rw [decide_eq_false subscribed]
    by_cases own : update.routingId = ACCOUNT_ROUTING_ID
    · obtain ⟨writer, found, only⟩ := wired.account
      rw [hub.accepts_eq update (own ▸ found), keeps_eq, only]
      rfl
    · have missing := wired.missing _ own (fun listed => subscribed ⟨listed, own⟩)
      simp [accepts, missing]

theorem accepts_accountKind (wired : Wired symbols hub) {update : UsdmExecUpdate}
    (kind : update.isAccountKind = true) : hub.accepts update = true := by
  obtain ⟨writer, found, only⟩ := wired.account
  have routed : update.routingId = ACCOUNT_ROUTING_ID := by
    cases update <;> first | rfl | cases kind
  rw [hub.accepts_eq update (routed ▸ found)]
  cases update <;> first | exact only | rfl | cases kind

theorem accepts_forwarded (wired : Wired symbols hub) (update : UsdmExecUpdate) :
    hub.accepts update = decide (Forwarded symbols update) := by
  cases kind : update.isAccountKind with
  | true =>
    have forwarded : Forwarded symbols update := Or.inl kind
    rw [accepts_accountKind wired kind, decide_eq_true forwarded]
  | false => simp [accepts_symbolKind wired kind, Forwarded, kind]

/-- One update on a live channel: sent if it is forwarded, and nothing else. -/
theorem routeUpdate_outbound (wired : Wired symbols hub) {queue : List UsdmExecUpdate}
    (live : hub.ctx.outbound = some ⟨true, queue⟩) (update : UsdmExecUpdate) :
    (hub.routeUpdate update).ctx.outbound =
      some ⟨true, queue ++ [update].filter (fun u => Forwarded symbols u)⟩ := by
  have accepts := accepts_forwarded wired update
  by_cases forwarded : Forwarded symbols update
  · rw [decide_eq_true forwarded] at accepts
    rw [hub.routeUpdate_ctx accepts, live]
    simp [UnboundedSender.send, forwarded]
  · rw [decide_eq_false forwarded] at accepts
    rw [hub.routeUpdate_ignored accepts, live]
    simp [forwarded]

theorem routeAll_outbound (wired : Wired symbols hub) {queue : List UsdmExecUpdate}
    (live : hub.ctx.outbound = some ⟨true, queue⟩) (log : List UsdmExecUpdate) :
    (hub.routeAll log).ctx.outbound =
      some ⟨true, queue ++ log.filter (fun u => Forwarded symbols u)⟩ := by
  induction log generalizing hub queue with
  | nil => simpa [routeAll] using live
  | cons update rest ih =>
    have sent := routeUpdate_outbound wired live update
    have tail := ih (routeUpdate_wired wired update) sent
    rw [show hub.routeAll (update :: rest) = (hub.routeUpdate update).routeAll rest from rfl, tail,
      List.append_assoc, ← List.filter_append, List.singleton_append]

end UsdmHub

/-! Rows that fail. -/

section Rows

variable {JsonError : Type}

/-- A balance row without an asset, or a position row without a symbol. -/
def MalformedRow (account : Value) : Prop :=
  (∃ row ∈ rowsOf account "B", (row.get "a").bind Value.asStr = none) ∨
    ∃ row ∈ rowsOf account "P", (row.get "s").bind Value.asStr = none

theorem parseAccountUpdate_malformed {payload account : Value}
    (found : payload.get "a" = some account) (malformed : MalformedRow account) :
    ∃ e, @parseAccountUpdate JsonError payload = .error e := by
  unfold parseAccountUpdate requiredValue
  rw [found]
  cases time : @requiredU64 JsonError payload "E" "ACCOUNT_UPDATE" with
  | error e => exact ⟨e, rfl⟩
  | ok eventTime =>
    simp only [bind, Except.bind, pure, Except.pure]
    rcases malformed with ⟨row, member, absent⟩ | ⟨row, member, absent⟩
    · have fails : @parseBalanceRow JsonError eventTime (optionalStr account "m") row =
          .error (.missingField "a" "balance") := by
        simp only [parseBalanceRow, requiredStr, absent]
        rfl
      obtain ⟨e, rows⟩ := Traversal.mapM_error member fails
      exact ⟨e, by rw [rows]⟩
    · have fails : @parsePositionRow JsonError eventTime (optionalStr account "m") row =
          .error (.missingField "s" "position") := by
        simp only [parsePositionRow, requiredStr, absent]
        rfl
      obtain ⟨e, rows⟩ := Traversal.mapM_error member fails
      cases (rowsOf account "B").mapM (@parseBalanceRow JsonError eventTime (optionalStr account "m"))
        with
      | error e => exact ⟨e, rfl⟩
      | ok balances => exact ⟨e, by simp only [rows]⟩

theorem parsePayload_accountUpdate {payload : Value} (noAck : isAck payload = false)
    (kind : (payload.get "e").bind Value.asStr = some "ACCOUNT_UPDATE") :
    @parsePayload JsonError payload = parseAccountUpdate payload := by
  simp [parsePayload, noAck, kind]

end Rows

namespace UsdmHub

variable {JsonError : Type} (fromStr : String → Except JsonError Value)

/-- The message is an `ACCOUNT_UPDATE` one of whose rows does not parse. -/
def FailsInRow (msg : Message) : Prop :=
  ∃ text root account, msg = .text text ∧ fromStr text = .ok root ∧
    ((unwrapCombinedEnvelope root).get "e").bind Value.asStr = some "ACCOUNT_UPDATE" ∧
    (unwrapCombinedEnvelope root).get "a" = some account ∧ MalformedRow account

def FailsToParse (msg : Message) : Prop := ∃ e, parseUserEvents fromStr msg = .error e

/-- An acknowledgement counts as parsed before its rows are looked at; it has no updates. -/
theorem updatesOf_failsInRow {msg : Message} (fails : FailsInRow fromStr msg) :
    updatesOf fromStr msg = [] := by
  obtain ⟨text, root, account, rfl, read, kind, found, malformed⟩ := fails
  simp only [updatesOf, parseUserEvents, read]
  cases ack : isAck (unwrapCombinedEnvelope root) with
  | true => simp only [parsePayload, ack, if_true]
  | false =>
    obtain ⟨e, error⟩ := @parseAccountUpdate_malformed JsonError _ _ found malformed
    rw [parsePayload_accountUpdate ack kind, error]

theorem ingestUserData_fails (hub : UsdmHub) {msg : Message}
    (fails : FailsToParse fromStr msg ∨ FailsInRow fromStr msg) :
    hub.ingestUserData fromStr msg = hub := by
  have none : updatesOf fromStr msg = [] := by
    rcases fails with ⟨e, error⟩ | row
    · simp only [updatesOf, error]
    · exact updatesOf_failsInRow fromStr row
  have same := ingest_eq_routeAll fromStr hub [msg]
  rwa [List.flatMap_singleton, none] at same

/-- For every hub with a live channel and every run, the channel receives the parsed
updates that are forwarded, each once and in order, after what it had; and a message that
fails to parse, in whatever row, leaves the hub as it was. -/
theorem outbound_conserved (symbols : List String) (account : UsdmAccountBookkeeping)
    (queue : List UsdmExecUpdate) (msgs : List Message) :
    let hub := msgs.foldl (ingestUserData fromStr)
      (buildMultiplexorWithContext symbols ⟨some ⟨true, queue⟩, account⟩)
    hub.ctx.outbound = some ⟨true, queue ++
        (msgs.flatMap (updatesOf fromStr)).filter (fun update => Forwarded symbols update)⟩ ∧
      ∀ msg, FailsToParse fromStr msg ∨ FailsInRow fromStr msg →
        hub.ingestUserData fromStr msg = hub := by
  refine ⟨?_, fun msg fails => ingestUserData_fails fromStr _ fails⟩
  rw [ingest_eq_routeAll]
  exact routeAll_outbound (build_wired symbols _) rfl _

/-! A call and then an older one. -/

def marginCallText (time : String) : String :=
  "\x7b\"e\":\"MARGIN_CALL\",\"E\":" ++ time ++ ",\"cw\":\"1\",\"p\":[]\x7d"

def marginCallPayload (time : UInt64) : Value :=
  .object [("e", .string "MARGIN_CALL"), ("E", .number (.posInt time)), ("cw", .string "1"),
    ("p", .array [])]

def callFromStr (text : String) : Except Unit Value :=
  if text = marginCallText "1" then .ok (marginCallPayload 1)
  else if text = marginCallText "2" then .ok (marginCallPayload 2)
  else .error ()

def laterThenEarlier : List Message := [.text (marginCallText "2"), .text (marginCallText "1")]

/-- The older call leaves the account alone and is sent all the same. -/
theorem stale_call_forwarded :
    let hub := laterThenEarlier.foldl (ingestUserData callFromStr)
      (buildMultiplexorWithContext ["BTCUSDT"] ⟨some ⟨true, []⟩, .default⟩)
    hub.ctx.outbound = some ⟨true, [.marginCall ⟨2, "1", []⟩, .marginCall ⟨1, "1", []⟩]⟩ ∧
      hub.ctx.account.latestMarginCall = some ⟨2, "1", []⟩ ∧
      hub.ingestUserData callFromStr (.text "\x7b") = hub := by
  intro hub
  have conserved := outbound_conserved callFromStr ["BTCUSDT"] .default [] laterThenEarlier
  refine ⟨conserved.1.trans ?_, ?_, conserved.2 _ (Or.inl ⟨.json (), ?_⟩)⟩
  · rfl
  · decide
  · rfl

end UsdmHub

end Trolly.Usdm
