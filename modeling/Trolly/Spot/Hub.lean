import Trolly.Spot.Account

/-! The spot execution handlers, the account book they share behind a mutex, and the hub
that routes events to them. -/
namespace Trolly.Spot

open Keyed SerdeJson Trolly.Stream

/-- What the shared `SpotExecContext` points to. The account is `none` once a handler has
panicked while it held the lock: every later `lock().expect(..)` panics too. -/
structure SpotExecContext where
  events : UnboundedSender SpotUserEvent
  account : Option AccountBook

structure SpotExecHandler where
  routeId : String
  accountEventsOnly : Bool

namespace SpotExecHandler

def new (routeId : String) : SpotExecHandler := ⟨routeId, routeId = ACCOUNT_ROUTE_ID⟩

def accepts (self : SpotExecHandler) : SpotUserEvent → Bool
  | .outboundAccountPosition _ | .balanceUpdate _ | .externalLockUpdate _
  | .eventStreamTerminated _ => self.accountEventsOnly
  | .executionReport _ | .listStatus _ => !self.accountEventsOnly

/-- The event carries the handler's route and is of a kind the handler keeps. -/
def takes (self : SpotExecHandler) (event : SpotUserEvent) : Bool :=
  event.routeId = self.routeId && self.accepts event

section Update

variable [Rust.Build]

def handleUpdate (self : SpotExecHandler) (ctx : SpotExecContext) (event : SpotUserEvent) :
    SpotExecHandler × SpotExecContext :=
  if event.routeId ≠ self.routeId ∨ !self.accepts event then (self, ctx)
  else match ctx.account with
    | none => (self, ctx)
    | some book =>
      match book.apply event with
      | none => (self, { ctx with account := none })
      | some book => (self, ⟨ctx.events.send event, some book⟩)

theorem handleUpdate_ignored (self : SpotExecHandler) (ctx : SpotExecContext)
    {event : SpotUserEvent} (ignored : self.takes event = false) :
    self.handleUpdate ctx event = (self, ctx) := by
  refine if_pos ?_
  by_cases own : event.routeId = self.routeId
  · exact Or.inr (by simpa [takes, own] using ignored)
  · exact Or.inl own

theorem handleUpdate_taken (self : SpotExecHandler) (ctx : SpotExecContext) {event : SpotUserEvent}
    (taken : self.takes event = true) {book next : AccountBook} (held : ctx.account = some book)
    (applied : book.apply event = some next) :
    self.handleUpdate ctx event = (self, ⟨ctx.events.send event, some next⟩) := by
  have own : event.routeId = self.routeId ∧ self.accepts event = true := by
    simpa [takes] using taken
  simp [handleUpdate, own, held, applied]

theorem handleUpdate_self (self : SpotExecHandler) (ctx : SpotExecContext) (event : SpotUserEvent) :
    (self.handleUpdate ctx event).1 = self := by
  unfold handleUpdate
  split
  · rfl
  split
  · rfl
  split <;> rfl

end Update

end SpotExecHandler

/-- `to_id` and `handle_update` of `impl EventHandler<()> for SpotExecHandler`. -/
def spotRouting [Rust.Build] : UpdateHandler SpotExecHandler SpotExecContext SpotUserEvent where
  toId := SpotUserEvent.routeId
  handleUpdate := SpotExecHandler.handleUpdate

/-- Append the account route when absent so account events route through the multiplexor. -/
def execSubscriptionSymbols (table : Rust.CaseTable) (symbols : List String) : List String :=
  let out := symbols.map table.toUppercase
  if out.any (· == ACCOUNT_ROUTE_ID) then out else out ++ [ACCOUNT_ROUTE_ID]

abbrev SpotHub := MonitorMultiplexor SpotExecHandler SpotExecContext

namespace SpotHub

variable {JsonError : Type} (fromStr : String → Except JsonError Value)

def buildMultiplexor (table : Rust.CaseTable) (symbols : List String) (ctx : SpotExecContext) :
    SpotHub :=
  let routes := execSubscriptionSymbols table symbols
  .fromWriters (routes.foldl (fun m route => m.insert route (SpotExecHandler.new route)) Map.empty) ctx

section Routing

variable [Rust.Build]

def routeEvent (hub : SpotHub) (event : SpotUserEvent) : SpotHub := hub.deliver spotRouting event

def ingestUserData (hub : SpotHub) (msg : Message) : SpotHub :=
  match parseUserDataMessage fromStr msg with
  | .ok (some event) => hub.routeEvent event
  | .ok none => hub
  | .error _ => hub

theorem routeEvent_writers (hub : SpotHub) (event : SpotUserEvent) :
    (hub.routeEvent event).writers = hub.writers := by
  cases found : hub.writers.get event.routeId with
  | none => rw [routeEvent, hub.deliver_missing spotRouting _ found]
  | some writer =>
    rw [routeEvent, hub.deliver_found spotRouting _ found]
    simp only [spotRouting, SpotExecHandler.handleUpdate_self]
    exact Map.insert_get _ found

end Routing

end SpotHub

end Trolly.Spot
