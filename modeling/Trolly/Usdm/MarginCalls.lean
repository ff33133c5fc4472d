import Trolly.Usdm.Outbound

/-! The margin call that is kept: the last to arrive of those with the greatest event time.
The account and its handler decide by one flag, so their copies never differ. -/
namespace Trolly.Usdm

open Keyed SerdeJson Trolly.Stream

def UsdmExecUpdate.call : UsdmExecUpdate → Option MarginCall
  | marginCall call => some call
  | _ => none

def MarginCall.time (call : MarginCall) : Nat := call.eventTime.toNat

/-- The call kept after a list of them has arrived. -/
def keptCall (log : List UsdmExecUpdate) : Option MarginCall :=
  (log.filterMap UsdmExecUpdate.call).foldl (keepLatest MarginCall.time) none

theorem keptCall_snoc (log : List UsdmExecUpdate) (update : UsdmExecUpdate) :
    keptCall (log ++ [update]) =
      match update.call with
      | some call => keepLatest MarginCall.time (keptCall log) call
      | none => keptCall log := by
  cases carried : update.call <;> simp [keptCall, carried]

/-- The stored call moves as a running maximum, and the flag is set when it becomes the new one. -/
theorem applyMarginCall_eq (account : UsdmAccountBookkeeping) (call : MarginCall) :
    (account.applyMarginCall call).1.latestMarginCall =
        keepLatest MarginCall.time account.latestMarginCall call ∧
      (if (account.applyMarginCall call).2 then some call else account.latestMarginCall) =
        keepLatest MarginCall.time account.latestMarginCall call := by
  unfold UsdmAccountBookkeeping.applyMarginCall keepLatest
  cases stored : account.latestMarginCall with
  | none => simp
  | some existing =>
    simp only [MarginCall.time, ← UInt64.lt_iff_toNat_lt]
    split <;> simp [stored]

theorem accountStep_call (account : UsdmAccountBookkeeping) (update : UsdmExecUpdate) :
    (accountStep account update).latestMarginCall =
      match update.call with
      | some call => keepLatest MarginCall.time account.latestMarginCall call
      | none => account.latestMarginCall := by
  cases update with
  | marginCall call => exact (applyMarginCall_eq account call).1
  | _ => rfl

theorem stateStep_call (account : UsdmAccountBookkeeping) (state : SymbolBookkeeping)
    (update : UsdmExecUpdate) (same : state.latestMarginCall = account.latestMarginCall) :
    (stateStep account state update).latestMarginCall =
      (accountStep account update).latestMarginCall := by
  rw [accountStep_call]
  cases update with
  | marginCall call =>
    simp only [stateStep, UsdmExecUpdate.call]
    rw [← (applyMarginCall_eq account call).2]
    split
    · rfl
    · exact same
  | _ => exact same

theorem stateStep_symbolKind (account : UsdmAccountBookkeeping) (state : SymbolBookkeeping)
    {update : UsdmExecUpdate} (kind : update.isAccountKind = false) :
    (stateStep account state update).latestMarginCall = state.latestMarginCall := by
  cases update <;> first | rfl | cases kind

namespace UsdmHub

/-- Both copies of the kept call are what the log says, and no symbol handler has one. -/
structure CallsMatch (symbols : List String) (log : List UsdmExecUpdate) (hub : UsdmHub) : Prop where
  wired : Wired symbols hub
  account : hub.ctx.account.latestMarginCall = keptCall log
  handler : ∃ writer, hub.writers.get ACCOUNT_ROUTING_ID = some writer ∧
    writer.state.latestMarginCall = keptCall log
  symbol : ∀ id writer, id ≠ ACCOUNT_ROUTING_ID → hub.writers.get id = some writer →
    writer.state.latestMarginCall = none

variable {symbols : List String}

theorem build_callsMatch (symbols : List String)
    (outbound : Option (UnboundedSender UsdmExecUpdate)) :
    CallsMatch symbols [] (buildMultiplexor symbols outbound) where
  wired := build_wired symbols _
  account := rfl
  handler := ⟨.new ACCOUNT_ROUTING_ID, by simp [buildMultiplexor, build_writer], rfl⟩
  symbol := fun id writer _ found => by
    rw [buildMultiplexor, build_writer, Option.ite_none_right_eq_some] at found
    cases found.2
    rfl

theorem call_eq_none {update : UsdmExecUpdate} (other : update.routingId ≠ ACCOUNT_ROUTING_ID) :
    update.call = none := by
  cases update with
  | marginCall call => exact absurd rfl other
  | _ => rfl

theorem apply_symbolCall (writer : UsdmExecHandler) (ctx : UsdmExecContext)
    {update : UsdmExecUpdate} (symbolKind : update.isAccountKind = false) :
    (writer.apply ctx update).1.state.latestMarginCall = writer.state.latestMarginCall := by
  cases kept : writer.keeps update with
  | false => rw [writer.apply_ignored ctx kept]
  | true => rw [apply_kept writer ctx kept, stateStep_symbolKind _ _ symbolKind]

theorem routeUpdate_symbolCall {hub : UsdmHub} (update : UsdmExecUpdate)
    (empty : ∀ id writer, id ≠ ACCOUNT_ROUTING_ID → hub.writers.get id = some writer →
      writer.state.latestMarginCall = none) {id : String} {writer : UsdmExecHandler}
    (other : id ≠ ACCOUNT_ROUTING_ID)
    (there : (hub.routeUpdate update).writers.get id = some writer) :
    writer.state.latestMarginCall = none := by
  rw [routeUpdate_writer] at there
  split at there
  · rename_i own
    obtain ⟨before, held, rfl⟩ := Option.map_eq_some_iff.mp there
    have symbolKind : update.isAccountKind = false := by
      cases update <;> first | rfl | exact absurd own other
    rw [apply_symbolCall before hub.ctx symbolKind]
    exact empty id before other held
  · exact empty id writer other there

theorem routeUpdate_callsMatch {log : List UsdmExecUpdate} {hub : UsdmHub}
    (calls : CallsMatch symbols log hub) (update : UsdmExecUpdate) :
    CallsMatch symbols (log ++ [update]) (hub.routeUpdate update) := by
  obtain ⟨writer, found, copy⟩ := calls.handler
  have wired := routeUpdate_wired calls.wired update
  cases accepted : hub.accepts update with
  | false =>
    have plain : update.call = none := by
      cases update with
      | marginCall call => rw [accepts_accountKind calls.wired rfl] at accepted; cases accepted
      | _ => rfl
    have unchanged : keptCall (log ++ [update]) = keptCall log := by rw [keptCall_snoc, plain]
    rw [hub.routeUpdate_ignored accepted] at wired ⊢
    exact ⟨wired, unchanged ▸ calls.account, unchanged ▸ calls.handler, calls.symbol⟩
  | true =>
    have account :
        (accountStep hub.ctx.account update).latestMarginCall = keptCall (log ++ [update]) := by
      rw [accountStep_call, keptCall_snoc, calls.account]
    refine ⟨wired, ?_, ?_, fun id other => routeUpdate_symbolCall update calls.symbol⟩
    · rw [hub.routeUpdate_ctx accepted]
      exact account
    · rw [routeUpdate_writer, found]
      split
      · rename_i own
        have kept := (hub.accepts_eq update (own ▸ found)).symm.trans accepted
        refine ⟨(writer.apply hub.ctx update).1, rfl, ?_⟩
        rw [apply_kept writer hub.ctx kept,
          stateStep_call _ _ _ (copy.trans calls.account.symm), account]
      · rename_i other
        have plain := call_eq_none (Ne.symm other)
        exact ⟨writer, rfl, by rw [keptCall_snoc, plain]; exact copy⟩

theorem routeAll_callsMatch {log : List UsdmExecUpdate} {hub : UsdmHub}
    (calls : CallsMatch symbols log hub) (updates : List UsdmExecUpdate) :
    CallsMatch symbols (log ++ updates) (hub.routeAll updates) := by
  induction updates generalizing log hub with
  | nil => simpa [routeAll] using calls
  | cons update rest ih => simpa [routeAll] using ih (routeUpdate_callsMatch calls update)

variable {JsonError : Type} (fromStr : String → Except JsonError Value)

def callsOf (msgs : List Message) : List MarginCall :=
  (msgs.flatMap (updatesOf fromStr)).filterMap UsdmExecUpdate.call

/-- In every state reached from a fresh context the stored call is absent before the first
one and is then the last to arrive among the calls with the greatest event time; the account
handler holds the same call, and no symbol handler holds any. -/
theorem latest_call (symbols : List String) (outbound : Option (UnboundedSender UsdmExecUpdate))
    (msgs : List Message) :
    let hub := msgs.foldl (ingestUserData fromStr) (buildMultiplexor symbols outbound)
    (hub.ctx.account.latestMarginCall = none ↔ callsOf fromStr msgs = []) ∧
      (∀ call, hub.ctx.account.latestMarginCall = some call →
        IsLatest MarginCall.time (callsOf fromStr msgs) call) ∧
      (∃ writer, hub.writers.get ACCOUNT_ROUTING_ID = some writer ∧
        writer.state.latestMarginCall = hub.ctx.account.latestMarginCall) ∧
      ∀ id writer, id ≠ ACCOUNT_ROUTING_ID → hub.writers.get id = some writer →
        writer.state.latestMarginCall = none := by
  intro hub
  have calls : CallsMatch symbols (msgs.flatMap (updatesOf fromStr)) hub := by
    have run := routeAll_callsMatch (build_callsMatch symbols outbound)
      (msgs.flatMap (updatesOf fromStr))
    rwa [List.nil_append, ← ingest_eq_routeAll] at run
  obtain ⟨writer, found, copy⟩ := calls.handler
  refine ⟨?_, fun call stored => ?_, ⟨writer, found, copy.trans calls.account.symm⟩, calls.symbol⟩
  · rw [calls.account]
    exact foldl_keepLatest_none MarginCall.time _
  · exact foldl_keepLatest_some MarginCall.time _ (calls.account.symm.trans stored)

end UsdmHub

end Trolly.Usdm
