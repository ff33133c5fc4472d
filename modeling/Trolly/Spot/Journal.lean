import Trolly.Spot.Balances
import Trolly.Spot.Hub

/-! The event channel is the journal of the account: what a consumer receives, applied to an
empty book, is the account of the hub, in every state. An event that the account cannot take
poisons its lock, and neither the account nor the channel moves again. -/
namespace Trolly.Spot

open Keyed SerdeJson Trolly.Stream

def SpotUserEvent.isAccountKind : SpotUserEvent → Bool
  | .outboundAccountPosition _ | .balanceUpdate _ | .externalLockUpdate _
  | .eventStreamTerminated _ => true
  | .executionReport _ | .listStatus _ => false

/-- Account events, and those of a routed symbol. -/
def Taken (routes : List String) (event : SpotUserEvent) : Prop :=
  event.isAccountKind = true ∨ event.routeId ∈ routes ∧ event.routeId ≠ ACCOUNT_ROUTE_ID

instance (routes : List String) (event : SpotUserEvent) : Decidable (Taken routes event) :=
  inferInstanceAs (Decidable (_ ∨ _))

/-- The whole trait implementation, for the generic ingress. -/
def spotExec [Rust.Build] {JsonError : Type} (fromStr : String → Except JsonError Value) :
    EventHandler SpotExecHandler SpotExecContext SpotUserEvent (ParseError JsonError) where
  toUpdateHandler := spotRouting
  parseUpdate := parseUserDataMessage fromStr

/-- What a taken event does to what the handlers share. -/
def SpotExecContext.record [Rust.Build] (ctx : SpotExecContext) (event : SpotUserEvent) :
    SpotExecContext :=
  match ctx.account with
  | none => ctx
  | some book =>
    match book.apply event with
    | none => { ctx with account := none }
    | some book => ⟨ctx.events.send event, some book⟩

namespace SpotHub

variable {table : Rust.CaseTable} {symbols : List String}

/-- A handler for every route, and always one for the account. -/
def Wired (routes : List String) (hub : SpotHub) : Prop :=
  ACCOUNT_ROUTE_ID ∈ routes ∧
    ∀ id, hub.writers.get id = if id ∈ routes then some (.new id) else none

theorem build_wired (table : Rust.CaseTable) (symbols : List String) (ctx : SpotExecContext) :
    Wired (execSubscriptionSymbols table symbols) (buildMultiplexor table symbols ctx) := by
  constructor
  · simp only [execSubscriptionSymbols]
    split
    · rename_i listed
      simpa using listed
    · simp
  · intro id
    rw [buildMultiplexor, MonitorMultiplexor.fromWriters, Map.get_foldl_insert, Map.get_empty]

theorem accepts_new (event : SpotUserEvent) :
    (SpotExecHandler.new event.routeId).accepts event =
      (event.isAccountKind || !decide (event.routeId = ACCOUNT_ROUTE_ID)) := by
  cases event with
  | executionReport report => rfl
  | listStatus status => rfl
  | _ => simp [SpotExecHandler.new, SpotExecHandler.accepts, SpotUserEvent.isAccountKind,
      SpotUserEvent.routeId]

section Routing

variable [Rust.Build]

theorem SpotExecHandler.handleUpdate_ctx (self : SpotExecHandler) (ctx : SpotExecContext)
    (event : SpotUserEvent) :
    (self.handleUpdate ctx event).2 = if self.takes event then ctx.record event else ctx := by
  cases taken : self.takes event with
  | false =>
    rw [self.handleUpdate_ignored ctx taken]
    rfl
  | true =>
    have own : event.routeId = self.routeId ∧ self.accepts event = true := by
      simpa [SpotExecHandler.takes] using taken
    cases held : ctx.account with
    | none => simp [SpotExecHandler.handleUpdate, SpotExecContext.record, own, held]
    | some book =>
      cases applied : book.apply event <;>
        simp [SpotExecHandler.handleUpdate, SpotExecContext.record, own, held, applied]

theorem routeEvent_ctx {routes : List String} {hub : SpotHub} (wired : Wired routes hub)
    (event : SpotUserEvent) :
    (hub.routeEvent event).ctx =
      if Taken routes event then hub.ctx.record event else hub.ctx := by
  have account : event.isAccountKind = true → event.routeId = ACCOUNT_ROUTE_ID := by
    cases event <;> simp [SpotUserEvent.isAccountKind, SpotUserEvent.routeId]
  have found := wired.2 event.routeId
  by_cases listed : event.routeId ∈ routes
  · rw [if_pos listed] at found
    rw [routeEvent, hub.deliver_found spotRouting event found]
    have takes : (SpotExecHandler.new event.routeId).takes event = true ↔ Taken routes event := by
      rw [SpotExecHandler.takes, accepts_new]
      simp [SpotExecHandler.new, Taken, listed]
    simp only [spotRouting, SpotExecHandler.handleUpdate_ctx, takes]
  · rw [if_neg listed] at found
    have ignored : ¬Taken routes event := by
      rintro (kind | ⟨member, _⟩)
      · exact listed (account kind ▸ wired.1)
      · exact listed member
    rw [routeEvent, hub.deliver_missing spotRouting event found, if_neg ignored]

theorem routeEvent_wired {routes : List String} {hub : SpotHub} (wired : Wired routes hub)
    (event : SpotUserEvent) : Wired routes (hub.routeEvent event) :=
  ⟨wired.1, fun id => by rw [hub.routeEvent_writers]; exact wired.2 id⟩

theorem routeAll_ctx {routes : List String} {hub : SpotHub} (wired : Wired routes hub)
    (events : List SpotUserEvent) :
    (events.foldl routeEvent hub).ctx =
      (events.filter (fun event => Taken routes event)).foldl SpotExecContext.record hub.ctx := by
  induction events generalizing hub with
  | nil => rfl
  | cons event rest ih =>
    rw [List.foldl_cons, ih (routeEvent_wired wired event), routeEvent_ctx wired]
    by_cases taken : Taken routes event <;> simp [taken]

end Routing

end SpotHub

section Journal

variable [Rust.Build]

/-- The channel received the events that made the account; after the first that the account cannot
take, both stand still. -/
def Journaled (alive : Bool) (taken : List SpotUserEvent) (ctx : SpotExecContext) : Prop :=
  ∃ sent lost book, taken = sent ++ lost ∧ AccountBook.run sent = some book ∧
    ctx.events = ⟨alive, if alive then sent else []⟩ ∧
    (lost = [] ∧ ctx.account = some book ∨
      ∃ bad rest, lost = bad :: rest ∧ book.apply bad = none ∧ ctx.account = none)

/-- By induction on the events: one more is journaled, is the first lost, or is lost behind it. -/
theorem record_journaled (alive : Bool) (taken : List SpotUserEvent) :
    Journaled alive taken
      (taken.foldl SpotExecContext.record ⟨⟨alive, []⟩, some .default⟩) := by
  induction taken using List.reverseRecOn with
  | nil => exact ⟨[], [], .default, rfl, rfl, by simp, .inl ⟨rfl, rfl⟩⟩
  | append_singleton taken event ih =>
    obtain ⟨sent, lost, book, split, ran, queued, state⟩ := ih
    rw [List.foldl_append, List.foldl_cons, List.foldl_nil]
    generalize taken.foldl SpotExecContext.record ⟨⟨alive, []⟩, some .default⟩ = ctx at *
    rcases state with ⟨rfl, held⟩ | ⟨bad, rest, rfl, fails, poisoned⟩
    · rw [List.append_nil] at split
      subst split
      cases applied : book.apply event with
      | none =>
        refine ⟨taken, [event], book, rfl, ran, ?_, .inr ⟨event, [], rfl, applied, ?_⟩⟩ <;>
          simp [SpotExecContext.record, held, applied, queued]
      | some next =>
        refine ⟨taken ++ [event], [], next, by simp, ?_, ?_, .inl ⟨rfl, ?_⟩⟩
        · rw [AccountBook.run_snoc, ran, Option.bind_some, applied]
        · cases alive <;>
            simp [SpotExecContext.record, held, applied, queued, UnboundedSender.send]
        · simp [SpotExecContext.record, held, applied]
    · refine ⟨sent, bad :: rest ++ [event], book, by simp [split], ran, ?_,
        .inr ⟨bad, rest ++ [event], rfl, fails, ?_⟩⟩ <;>
        simp [SpotExecContext.record, poisoned, queued]

namespace SpotHub

variable {JsonError : Type} (fromStr : String → Except JsonError Value)

def eventOf (msg : Message) : Option SpotUserEvent :=
  ((parseUserDataMessage fromStr msg).toOption).join

theorem ingestUserData_eq (hub : SpotHub) (msg : Message) :
    hub.ingestUserData fromStr msg = (eventOf fromStr msg).elim hub hub.routeEvent := by
  rw [ingestUserData, eventOf]
  rcases parseUserDataMessage fromStr msg with error | (_ | event) <;> rfl

/-- The two ingress paths do the same with every message. -/
theorem ingestMessage_eq (hub : SpotHub) (msg : Message) :
    hub.ingestMessage (spotExec fromStr) msg = hub.ingestUserData fromStr msg := by
  cases msg with
  | text payload =>
    simp only [MonitorMultiplexor.ingestMessage, Message.isText, if_true, spotExec, ingestUserData]
    rcases parseUserDataMessage fromStr (.text payload) with error | (_ | event) <;> rfl
  | _ => rfl

theorem ingestAll_eq (hub : SpotHub) (msgs : List Message) :
    msgs.foldl (ingestUserData fromStr) hub =
      (msgs.filterMap (eventOf fromStr)).foldl routeEvent hub := by
  induction msgs generalizing hub with
  | nil => rfl
  | cons msg rest ih =>
    rw [List.foldl_cons, ih, ingestUserData_eq]
    cases read : eventOf fromStr msg <;> simp [read]

/-- Whatever is received, and by whichever ingress: what the channel holds of the taken events is
what the account was made of, in order. -/
theorem channel_is_the_account (table : Rust.CaseTable) (symbols : List String) (alive : Bool)
    (msgs : List Message) :
    let start := buildMultiplexor table symbols ⟨⟨alive, []⟩, some .default⟩
    let hub := msgs.foldl (ingestUserData fromStr) start
    let taken := (msgs.filterMap (eventOf fromStr)).filter
      (fun event => Taken (execSubscriptionSymbols table symbols) event)
    msgs.foldl (fun hub msg => hub.ingestMessage (spotExec fromStr) msg) start = hub ∧
      Journaled alive taken hub.ctx := by
  intro start hub taken
  have wired : Wired _ start := build_wired table symbols _
  have routed : hub = (msgs.filterMap (eventOf fromStr)).foldl routeEvent start :=
    ingestAll_eq fromStr start msgs
  constructor
  · exact congrArg (fun ingest => msgs.foldl ingest start)
      (funext fun hub => funext fun msg => ingestMessage_eq fromStr hub msg)
  · rw [routed, routeAll_ctx wired]
    exact record_journaled alive taken

end SpotHub

end Journal

end Trolly.Spot
