import Trolly.Lib.Traversal
import Trolly.Usdm.AccountWide

/-! The two ingress paths. `ingest_user_data` routes every update a message parses into;
the generic `ingest_message` goes through the trait's `parse_update` and routes the first.
They agree exactly when the updates after the first change nothing. -/
namespace Trolly.Usdm

open Keyed SerdeJson Trolly.Stream

namespace UsdmHub

/-- Something besides the ledgers sees the update: a live outbound channel or a recorder. -/
def observed (hub : UsdmHub) (update : UsdmExecUpdate) : Bool :=
  hub.ctx.outbound.any (·.receiverAlive) ||
    (hub.writers.get update.routingId).any (·.recorded.isSome)

theorem send_receiverAlive (tx : UnboundedSender UsdmExecUpdate) (update : UsdmExecUpdate) :
    (tx.send update).receiverAlive = tx.receiverAlive := by
  unfold UnboundedSender.send
  split <;> rfl

theorem apply_recorded_isSome (writer : UsdmExecHandler) (ctx : UsdmExecContext)
    (update : UsdmExecUpdate) :
    (writer.apply ctx update).1.recorded.isSome = writer.recorded.isSome := by
  cases keeps : writer.keeps update with
  | false => rw [writer.apply_ignored ctx keeps]
  | true => simp [apply_kept writer ctx keeps]

theorem observed_routeUpdate (hub : UsdmHub) (update other : UsdmExecUpdate) :
    (hub.routeUpdate update).observed other = hub.observed other := by
  have outbound : (hub.routeUpdate update).ctx.outbound.any (·.receiverAlive) =
      hub.ctx.outbound.any (·.receiverAlive) := by
    cases accepted : hub.accepts update with
    | false => rw [hub.routeUpdate_ignored accepted]
    | true =>
      rw [hub.routeUpdate_ctx accepted]
      cases hub.ctx.outbound <;> simp [send_receiverAlive]
  simp only [observed, outbound, routeUpdate_writer]
  split
  · cases hub.writers.get other.routingId <;> simp [apply_recorded_isSome]
  · rfl

/-! Observers only ever see more: no run undoes an observed update. -/

def traffic (hub : UsdmHub) (id : String) : Nat :=
  (hub.ctx.outbound.elim 0 (·.queue.length)) +
    (hub.writers.get id).elim 0 (fun writer => writer.recorded.elim 0 List.length)

theorem send_queue_length (tx : UnboundedSender UsdmExecUpdate) (update : UsdmExecUpdate) :
    (tx.send update).queue.length = tx.queue.length + (if tx.receiverAlive then 1 else 0) := by
  unfold UnboundedSender.send
  split <;> simp

theorem traffic_routeUpdate (hub : UsdmHub) {update : UsdmExecUpdate}
    (accepted : hub.accepts update = true) :
    (hub.routeUpdate update).traffic update.routingId =
      hub.traffic update.routingId + (if hub.ctx.outbound.any (·.receiverAlive) then 1 else 0) +
        (if (hub.writers.get update.routingId).any (·.recorded.isSome) then 1 else 0) := by
  cases found : hub.writers.get update.routingId with
  | none => simp [accepts, found] at accepted
  | some writer =>
    have keeps := hub.accepts_eq _ found ▸ accepted
    simp only [traffic, routeUpdate_writer, found, if_true, hub.routeUpdate_ctx accepted,
      Option.map_some, apply_kept writer hub.ctx keeps]
    cases hub.ctx.outbound <;> cases recorded : writer.recorded <;>
      simp only [Option.elim_none, Option.elim_some, Option.map_none, Option.map_some,
        Option.any_none, Option.any_some, Option.isSome_none, Option.isSome_some, send_queue_length,
        recorded, List.length_append, List.length_singleton, if_true, Bool.false_eq_true, if_false]
    all_goals omega

theorem traffic_mono (hub : UsdmHub) (update : UsdmExecUpdate) (id : String) :
    hub.traffic id ≤ (hub.routeUpdate update).traffic id := by
  cases accepted : hub.accepts update with
  | false => rw [hub.routeUpdate_ignored accepted]
  | true =>
    by_cases own : id = update.routingId
    · rw [own, hub.traffic_routeUpdate accepted]
      omega
    · simp only [traffic, routeUpdate_writer, if_neg own, hub.routeUpdate_ctx accepted]
      cases hub.ctx.outbound <;> simp [send_queue_length]

theorem traffic_routeAll (hub : UsdmHub) (log : List UsdmExecUpdate) (id : String) :
    hub.traffic id ≤ (hub.routeAll log).traffic id :=
  run_invariant routeUpdate (fun h => hub.traffic id ≤ h.traffic id)
    (fun h update le => le.trans (h.traffic_mono update id)) log hub le_rfl

theorem accepts_routeAll (hub : UsdmHub) (log : List UsdmExecUpdate) (update : UsdmExecUpdate) :
    (hub.routeAll log).accepts update = hub.accepts update :=
  run_invariant routeUpdate (fun h => h.accepts update = hub.accepts update)
    (fun h other same => (h.accepts_routeUpdate other update).trans same) log hub rfl

theorem observed_routeAll (hub : UsdmHub) (log : List UsdmExecUpdate) (update : UsdmExecUpdate) :
    (hub.routeAll log).observed update = hub.observed update :=
  run_invariant routeUpdate (fun h => h.observed update = hub.observed update)
    (fun h other same => (h.observed_routeUpdate other update).trans same) log hub rfl

theorem unobserved_of_fixed {hub : UsdmHub} {log : List UsdmExecUpdate}
    (fixed : hub.routeAll log = hub) {update : UsdmExecUpdate} (member : update ∈ log)
    (accepted : hub.accepts update = true) : hub.observed update = false := by
  by_contra seen
  obtain ⟨pre, post, rfl⟩ := List.append_of_mem member
  let mid := hub.routeAll pre
  have accepted : mid.accepts update = true := (hub.accepts_routeAll pre update).trans accepted
  have seen : mid.observed update = true := by
    rw [hub.observed_routeAll pre update]
    simpa using seen
  have before : hub.traffic update.routingId ≤ mid.traffic update.routingId :=
    hub.traffic_routeAll pre _
  have sent : mid.traffic update.routingId < (mid.routeUpdate update).traffic update.routingId := by
    rw [mid.traffic_routeUpdate accepted]
    rcases Bool.or_eq_true_iff.mp seen with alive | recorder
    · simp only [alive, if_true]; omega
    · simp only [recorder, if_true]; omega
  have after := (mid.routeUpdate update).traffic_routeAll post update.routingId
  have whole : hub.routeAll (pre ++ update :: post) = (mid.routeUpdate update).routeAll post := by
    simp [routeAll, mid]
  rw [← whole, fixed] at after
  omega

/-! Unobserved rows move nothing but positions and balances. -/

def shell (writer : UsdmExecHandler) : UsdmExecHandler :=
  { writer with state.positions := Map.empty }

structure Frozen (before after : UsdmHub) : Prop where
  outbound : after.ctx.outbound = before.ctx.outbound
  marginCall : after.ctx.account.latestMarginCall = before.ctx.account.latestMarginCall
  shells : ∀ id, (after.writers.get id).map shell = (before.writers.get id).map shell

theorem Frozen.refl (hub : UsdmHub) : Frozen hub hub := ⟨rfl, rfl, fun _ => rfl⟩

theorem Frozen.trans {a b c : UsdmHub} (ab : Frozen a b) (bc : Frozen b c) : Frozen a c :=
  ⟨bc.outbound.trans ab.outbound, bc.marginCall.trans ab.marginCall,
    fun id => (bc.shells id).trans (ab.shells id)⟩

theorem accountStep_row_marginCall (account : UsdmAccountBookkeeping) {update : UsdmExecUpdate}
    (row : update.isRow = true) :
    (accountStep account update).latestMarginCall = account.latestMarginCall := by
  cases update with
  | balanceChange balance => rfl
  | positionChange position => rfl
  | _ => cases row

theorem shell_apply_row (writer : UsdmExecHandler) (ctx : UsdmExecContext) {update : UsdmExecUpdate}
    (row : update.isRow = true) (silent : writer.keeps update = true → writer.recorded = none) :
    shell (writer.apply ctx update).1 = shell writer := by
  cases keeps : writer.keeps update with
  | false => rw [writer.apply_ignored ctx keeps]
  | true =>
    rw [apply_kept writer ctx keeps]
    cases update with
    | balanceChange balance => simp [shell, stateStep, silent keeps]
    | positionChange position =>
      simp [shell, stateStep, SymbolBookkeeping.applyPosition, silent keeps]
    | _ => cases row

theorem frozen_routeUpdate (hub : UsdmHub) {update : UsdmExecUpdate} (row : update.isRow = true)
    (unobserved : hub.accepts update = true → hub.observed update = false) :
    Frozen hub (hub.routeUpdate update) := by
  cases accepted : hub.accepts update with
  | false => rw [hub.routeUpdate_ignored accepted]; exact .refl hub
  | true =>
    obtain ⟨dead, silent⟩ := Bool.or_eq_false_iff.mp (unobserved accepted)
    refine ⟨?_, ?_, fun id => ?_⟩
    · rw [hub.routeUpdate_ctx accepted]
      cases outbound : hub.ctx.outbound with
      | none => rfl
      | some tx =>
        have closed : tx.receiverAlive = false := by simpa [outbound] using dead
        simp [UnboundedSender.send, closed]
    · rw [hub.routeUpdate_ctx accepted]
      exact accountStep_row_marginCall _ row
    · rw [routeUpdate_writer]
      split
      · rename_i own
        cases found : hub.writers.get id with
        | none => rfl
        | some writer =>
          have recorder : writer.recorded = none := by simpa [← own, found] using silent
          simp [shell_apply_row writer hub.ctx row (fun _ => recorder)]
      · rfl

theorem frozen_routeAll {hub : UsdmHub} {log : List UsdmExecUpdate}
    (rows : ∀ update ∈ log, update.isRow = true)
    (unobserved : ∀ update ∈ log, hub.accepts update = true → hub.observed update = false) :
    Frozen hub (hub.routeAll log) := by
  induction log generalizing hub with
  | nil => exact .refl hub
  | cons update rest ih =>
    have first := hub.frozen_routeUpdate (rows update (by simp)) (unobserved update (by simp))
    refine first.trans (ih (fun u member => rows u (by simp [member])) ?_)
    intro u member accepted
    rw [accepts_routeUpdate] at accepted
    rw [observed_routeUpdate]
    exact unobserved u (by simp [member]) accepted

theorem Frozen.eq {before after : UsdmHub} (frozen : Frozen before after)
    (handlers : ∀ s k, after.positionOf s k = before.positionOf s k)
    (positions : ∀ k, after.ctx.account.positions.get k = before.ctx.account.positions.get k)
    (balances : ∀ asset, after.ctx.account.balances.get asset =
      before.ctx.account.balances.get asset) : after = before := by
  have writers : after.writers = before.writers := by
    ext1
    funext id
    have same := frozen.shells id
    have legs := handlers id
    unfold positionOf at legs
    cases here : after.writers.get id with
    | none => cases there : before.writers.get id <;> simp_all
    | some w =>
      cases there : before.writers.get id with
      | none => simp_all
      | some v =>
        simp only [here, there, Option.bind_some, Option.map_some, Option.some.injEq] at same legs
        have held : w.state.positions = v.state.positions := Map.ext (funext legs)
        obtain ⟨_, _, ⟨_, _, _⟩, _⟩ := w
        obtain ⟨_, _, ⟨_, _, _⟩, _⟩ := v
        simp_all [shell]
  have account : after.ctx.account = before.ctx.account :=
    UsdmAccountBookkeeping.ext (Map.ext (funext balances)) (Map.ext (funext positions))
      frozen.marginCall
  exact MonitorMultiplexor.ext writers (UsdmExecContext.ext frozen.outbound account)

/-- Routing a list of rows is no change: nobody observes them, and for every leg and
asset the last row kept is what the ledgers already hold. -/
structure Settled (hub : UsdmHub) (log : List UsdmExecUpdate) : Prop where
  unobserved : ∀ update ∈ log, hub.accepts update = true → hub.observed update = false
  legs : ∀ k row, last? (hub.kept (rowFor k)) log = some row →
    hub.ctx.account.positions.get k = row.remains ∧ hub.positionOf k.symbol k = row.remains
  balances : ∀ asset balance, last? (hub.kept (balanceFor asset)) log = some balance →
    hub.ctx.account.balances.get asset = some balance

section Views

variable (hub : UsdmHub) (log : List UsdmExecUpdate)

/-- An entry that every step writes by what it keeps holds, after a run, the last of it. -/
theorem routeAll_entry {V : Type} (entry : UsdmHub → V) (read : UsdmExecUpdate → Option V)
    (step : ∀ (h : UsdmHub) (update : UsdmExecUpdate),
      entry (h.routeUpdate update) = (h.kept read update).getD (entry h)) :
    entry (hub.routeAll log) = (last? (hub.kept read) log).getD (entry hub) :=
  run_view routeUpdate entry (hub.kept read) (fun h => ∀ update, h.accepts update = hub.accepts update)
    (fun h update same other => (h.accepts_routeUpdate update other).trans (same other))
    (fun h update same => by rw [step, kept, kept, same]) log hub (fun _ => rfl)

theorem routeAll_accountPosition (k : PositionKey) :
    (hub.routeAll log).ctx.account.positions.get k =
      ((last? (hub.kept (rowFor k)) log).map PositionChange.remains).getD
        (hub.ctx.account.positions.get k) := by
  rw [hub.routeAll_entry log (fun h => h.ctx.account.positions.get k)
    (fun update => (rowFor k update).map PositionChange.remains)
    (fun h update => by rw [routeUpdate_accountPosition, kept_map]), ← last?_map_some]
  exact congrArg (fun read => (last? read log).getD _) (funext (fun u => hub.kept_map _ _ u))

theorem routeAll_positionOf (s : String) (k : PositionKey) :
    (hub.routeAll log).positionOf s k =
      (if k.symbol = s then (last? (hub.kept (rowFor k)) log).map PositionChange.remains
        else none).getD (hub.positionOf s k) := by
  by_cases leg : k.symbol = s
  · rw [if_pos leg, hub.routeAll_entry log (fun h => h.positionOf s k)
      (fun update => (rowFor k update).map PositionChange.remains)
      (fun h update => by rw [routeUpdate_positionOf, if_pos leg, kept_map]), ← last?_map_some]
    exact congrArg (fun read => (last? read log).getD _) (funext (fun u => hub.kept_map _ _ u))
  · rw [if_neg leg]
    exact run_invariant routeUpdate (fun h => h.positionOf s k = hub.positionOf s k)
      (fun h update same => by rw [routeUpdate_positionOf, if_neg leg]; exact same) log hub rfl

theorem routeAll_balance (asset : String) :
    (hub.routeAll log).ctx.account.balances.get asset =
      (last? (hub.kept (balanceFor asset)) log).or (hub.ctx.account.balances.get asset) := by
  rw [hub.routeAll_entry log (fun h => h.ctx.account.balances.get asset)
    (fun update => (balanceFor asset update).map some)
    (fun h update => by
      rw [routeUpdate_balance, kept_map]
      cases h.kept (balanceFor asset) update <;> rfl),
    funext (fun u => hub.kept_map (balanceFor asset) some u), last?_map_some]
  cases last? (hub.kept (balanceFor asset)) log <;> rfl

end Views

theorem routeAll_fixed_iff {hub : UsdmHub} {log : List UsdmExecUpdate}
    (rows : ∀ update ∈ log, update.isRow = true) : hub.routeAll log = hub ↔ Settled hub log := by
  constructor
  · intro fixed
    refine ⟨fun update member accepted => unobserved_of_fixed fixed member accepted, ?_, ?_⟩
    · intro k row last
      have account := hub.routeAll_accountPosition log k
      have handler := hub.routeAll_positionOf log k.symbol k
      rw [fixed, last, Option.map_some, Option.getD_some] at account
      rw [fixed, last] at handler
      exact ⟨account, by simpa using handler⟩
    · intro asset balance last
      have held := hub.routeAll_balance log asset
      rw [fixed, last] at held
      exact held
  · intro settled
    refine (frozen_routeAll rows settled.unobserved).eq (fun s k => ?_) (fun k => ?_) (fun asset => ?_)
    · rw [routeAll_positionOf]
      by_cases leg : k.symbol = s
      · subst leg
        cases last : last? (hub.kept (rowFor k)) log with
        | none => simp
        | some row => simp [(settled.legs k row last).2]
      · simp [leg]
    · rw [routeAll_accountPosition]
      cases last : last? (hub.kept (rowFor k)) log with
      | none => rfl
      | some row => rw [Option.map_some, Option.getD_some, (settled.legs k row last).1]
    · rw [routeAll_balance]
      cases last : last? (hub.kept (balanceFor asset)) log with
      | none => rfl
      | some balance => exact (settled.balances asset balance last).symm

end UsdmHub

section Parse

variable {JsonError : Type}

theorem parseAccountUpdate_isRow {payload : Value} {updates : List UsdmExecUpdate}
    (parsed : @parseAccountUpdate JsonError payload = .ok updates) :
    ∀ update ∈ updates, update.isRow = true := by
  obtain ⟨account, eventTime, balances, positions, -, balanceRows, positionRows, rfl⟩ :=
    parseAccountUpdate_ok parsed
  intro update member
  rcases List.mem_append.mp member with balance | position
  · obtain ⟨row, -, read⟩ := Traversal.mapM_mem balanceRows balance
    obtain ⟨change, rfl, -⟩ := parseBalanceRow_ok read
    rfl
  · obtain ⟨row, -, read⟩ := Traversal.mapM_mem positionRows position
    obtain ⟨change, rfl, -⟩ := parsePositionRow_ok read
    rfl

theorem parsePayload_rows {payload : Value} {first second : UsdmExecUpdate}
    {rest : List UsdmExecUpdate}
    (parsed : @parsePayload JsonError payload = .ok (first :: second :: rest)) :
    ∀ update ∈ first :: second :: rest, update.isRow = true := by
  rcases parsePayload_ok parsed with
    ⟨_, none⟩ | ⟨_, ⟨_, account⟩ | ⟨_, call, _, single⟩ | ⟨_, _, single | ⟨order, single⟩⟩⟩
  · cases none
  · exact parseAccountUpdate_isRow account
  all_goals cases single

end Parse

namespace UsdmHub

variable {JsonError : Type} (fromStr : String → Except JsonError Value)

/-- Only an `ACCOUNT_UPDATE` parses into more than one update. -/
theorem updatesOf_rows {msg : Message} {first second : UsdmExecUpdate} {rest : List UsdmExecUpdate}
    (parsed : updatesOf fromStr msg = first :: second :: rest) :
    ∀ update ∈ first :: second :: rest, update.isRow = true := by
  unfold updatesOf at parsed
  split at parsed
  · rename_i events ok
    subst parsed
    unfold parseUserEvents at ok
    split at ok
    · split at ok
      · exact parsePayload_rows ok
      · cases ok
    · cases ok
  · cases parsed

theorem ingestUserData_eq (hub : UsdmHub) (msg : Message) :
    hub.ingestUserData fromStr msg = hub.routeAll (updatesOf fromStr msg) := by
  unfold ingestUserData updatesOf
  split <;> rfl

theorem ingestMessage_eq (hub : UsdmHub) (msg : Message) :
    hub.ingestMessage (usdmExec fromStr) msg = hub.routeAll (updatesOf fromStr msg).head?.toList := by
  unfold MonitorMultiplexor.ingestMessage updatesOf
  cases msg with
  | text text =>
    simp only [Message.isText, if_true, usdmExec, bind, Except.bind, pure, Except.pure]
    cases parseUserEvents fromStr (.text text) with
    | error e => rfl
    | ok events => cases events <;> rfl
  | _ => rfl

/-- Once the first update is routed, the rest of the message is no change: nobody observes
it, and its last row of every leg and asset is what the ledgers then hold. -/
structure Redundant (hub : UsdmHub) (first : UsdmExecUpdate) (rest : List UsdmExecUpdate) :
    Prop where
  unobserved : ∀ update ∈ rest, hub.accepts update = true → hub.observed update = false
  legs : ∀ k row, last? (hub.kept (rowFor k)) rest = some row →
    ((hub.kept (rowFor k) first).map PositionChange.remains).getD
        (hub.ctx.account.positions.get k) = row.remains ∧
      ((hub.kept (rowFor k) first).map PositionChange.remains).getD (hub.positionOf k.symbol k) =
        row.remains
  balances : ∀ asset balance, last? (hub.kept (balanceFor asset)) rest = some balance →
    (hub.kept (balanceFor asset) first).or (hub.ctx.account.balances.get asset) = some balance

/-- What `parse_update` drops from a message, if anything, would have changed nothing. -/
def DropsNothing (hub : UsdmHub) : List UsdmExecUpdate → Prop
  | [] => True
  | first :: rest => hub.Redundant first rest

theorem kept_routeUpdate {V : Type} (hub : UsdmHub) (update : UsdmExecUpdate)
    (read : UsdmExecUpdate → Option V) : (hub.routeUpdate update).kept read = hub.kept read := by
  funext other
  simp only [kept, accepts_routeUpdate]

theorem settled_routeUpdate_iff (hub : UsdmHub) (first : UsdmExecUpdate)
    (rest : List UsdmExecUpdate) :
    Settled (hub.routeUpdate first) rest ↔ hub.Redundant first rest := by
  have handler : ∀ k, (hub.routeUpdate first).positionOf k.symbol k =
      ((hub.kept (rowFor k) first).map PositionChange.remains).getD (hub.positionOf k.symbol k) :=
    fun k => by rw [routeUpdate_positionOf, if_pos rfl]
  constructor
  · intro settled
    refine ⟨fun update member accepted => ?_, fun k row last => ?_, fun asset balance last => ?_⟩
    · rw [← hub.observed_routeUpdate first]
      exact settled.unobserved update member (by rwa [accepts_routeUpdate])
    · rw [← handler, ← routeUpdate_accountPosition]
      exact settled.legs k row (by rwa [kept_routeUpdate])
    · rw [← routeUpdate_balance]
      exact settled.balances asset balance (by rwa [kept_routeUpdate])
  · intro redundant
    refine ⟨fun update member accepted => ?_, fun k row last => ?_, fun asset balance last => ?_⟩
    · rw [hub.observed_routeUpdate first]
      exact redundant.unobserved update member (by rwa [accepts_routeUpdate] at accepted)
    · rw [handler, routeUpdate_accountPosition]
      exact redundant.legs k row (by rwa [kept_routeUpdate] at last)
    · rw [routeUpdate_balance]
      exact redundant.balances asset balance (by rwa [kept_routeUpdate] at last)

/-- For every hub and message the two paths end in the same state exactly when the
updates that the generic path drops are redundant. -/
theorem paths_agree_iff (hub : UsdmHub) (msg : Message) :
    hub.ingestMessage (usdmExec fromStr) msg = hub.ingestUserData fromStr msg ↔
      hub.DropsNothing (updatesOf fromStr msg) := by
  rw [ingestMessage_eq, ingestUserData_eq]
  cases parsed : updatesOf fromStr msg with
  | nil => simp [DropsNothing]
  | cons first rest =>
    rw [DropsNothing, ← settled_routeUpdate_iff]
    have rows : ∀ update ∈ rest, update.isRow = true := by
      cases rest with
      | nil => simp
      | cons second rest =>
        exact fun update member => updatesOf_rows fromStr parsed update (.tail first member)
    rw [← routeAll_fixed_iff rows]
    exact eq_comm

/-! A message whose position row the generic path drops. -/

def btcFillText : String :=
  "\x7b\"e\":\"ACCOUNT_UPDATE\",\"E\":1,\"a\":\x7b\"m\":\"ORDER\"," ++
    "\"B\":[\x7b\"a\":\"USDT\",\"wb\":\"90\"\x7d]," ++
    "\"P\":[\x7b\"s\":\"BTCUSDT\",\"ps\":\"LONG\",\"pa\":\"1\"\x7d]\x7d\x7d"

def btcFillFromStr (text : String) : Except Unit Value :=
  if text = btcFillText then
    .ok (accountUpdatePayload [.object [("a", .string "USDT"), ("wb", .string "90")]]
      [positionPayload "BTCUSDT" "LONG" "1"])
  else .error ()

/-- The generic path applies the balance row and never opens the position. -/
theorem position_row_dropped :
    (buildMultiplexor ["BTCUSDT"] none).ingestMessage (usdmExec btcFillFromStr) (.text btcFillText) ≠
      (buildMultiplexor ["BTCUSDT"] none).ingestUserData btcFillFromStr (.text btcFillText) := by
  intro agree
  have here := congrArg
    (fun hub : UsdmHub => (hub.ctx.account.positions.get ⟨"BTCUSDT", "LONG"⟩).isSome) agree
  revert here
  decide

end UsdmHub

end Trolly.Usdm
