import Trolly.Lib.Transducer
import Trolly.Strategy.Envelope

/-! The strategy runtime: an event makes one transition of the strategy, whose commands go to
the egress one by one, up to the first that it refuses. Events come in parsed, as envelopes, or
through the handlers of a multiplexor, which all are clones of one shared runtime. -/
namespace Trolly.Strategy

open Keyed Trolly.Stream Transducer

variable {S E Error : Type}

/-- The trait `Strategy`, for implementors `S`. -/
structure StrategyImpl (S : Type) where
  onEvent : S → StreamEvent → S × List OutboundMessage

structure StrategyRuntime (S E : Type) where
  strategy : S
  egress : E

inductive IngestError (Error : Type) where
  | parse (error : ParseError)
  | egress (error : Error)

section Ingest

variable (json : JsonCodec) (logic : StrategyImpl S) (out : StreamEgress E Error)

/-- The `?` behind a dispatch leaves the loop over the commands. -/
def StrategyRuntime.ingest (self : StrategyRuntime S E) (event : StreamEvent) :
    StrategyRuntime S E × Except Error Unit :=
  let (strategy, commands) := logic.onEvent self.strategy event
  let (egress, outcome) := feed out.dispatch self.egress commands
  (⟨strategy, egress⟩, outcome)

/-- Several events, whatever comes of each. -/
def StrategyRuntime.ingestAll (self : StrategyRuntime S E) (events : List StreamEvent) :
    StrategyRuntime S E :=
  events.foldl (fun self event => (self.ingest logic out event).1) self

/-- The methods of a `StrategyHub`, which is a runtime and nothing else. -/
def ingestEvent (hub : StrategyRuntime S E) (event : StreamEvent) :
    StrategyRuntime S E × Except Error Unit :=
  hub.ingest logic out event

def ingestMessage (hub : StrategyRuntime S E) (msg : Message) :
    StrategyRuntime S E × Except (IngestError Error) Unit :=
  match parseEnvelope json msg with
  | .error error => (hub, .error (.parse error))
  | .ok event =>
    let (hub, outcome) := hub.ingest logic out event
    (hub, outcome.mapError .egress)

/-- `StrategyEventHandler`: a handler is a clone of one `Rc`, and the runtime it shares with
the others is their context. -/
def strategyEventHandler :
    EventHandler Unit (StrategyRuntime S E) StreamEvent (IngestError Error) where
  parseUpdate msg := ((parseEnvelope json msg).map some).mapError .parse
  toId := StreamEvent.routingId
  handleUpdate handler runtime event := (handler, (runtime.ingest logic out event).1)

end Ingest

/-- `route_message`, over the writers and what they share. -/
def routeMessage {H Ctx Update Error : Type} (handler : EventHandler H Ctx Update Error)
    (hub : MonitorMultiplexor H Ctx) (msg : Message) : MonitorMultiplexor H Ctx :=
  match msg with
  | .text payload =>
    match handler.parseUpdate (.text payload) with
    | .ok (some update) =>
      match hub.writers.get (handler.toId update) with
      | some writer =>
        let (writer, ctx) := handler.handleUpdate writer hub.ctx update
        ⟨hub.writers.insert (handler.toId update) writer, ctx⟩
      | none => hub
    | .ok none => hub
    | .error _ => hub
  | _ => hub

/-- The writers of a list of ids, each a clone of the one handler. -/
def cloneFor (ids : List String) : Map String Unit :=
  ids.foldl (fun writers id => writers.insert id ()) .empty

/-! ### The hub -/

inductive HubCall where
  | event (event : StreamEvent)
  | message (msg : Message)

section Hub

variable (json : JsonCodec) (logic : StrategyImpl S) (out : StreamEgress E Error)

def hubCall (hub : StrategyRuntime S E) :
    HubCall → StrategyRuntime S E × Except (IngestError Error) Unit
  | .event event =>
    let (hub, outcome) := ingestEvent logic out hub event
    (hub, outcome.mapError .egress)
  | .message msg => ingestMessage json logic out hub msg

/-- A run of a hub whose owner goes on after an error, with what each call returned. -/
def hubRun (hub : StrategyRuntime S E) :
    List HubCall → StrategyRuntime S E × List (Except (IngestError Error) Unit)
  | [] => (hub, [])
  | call :: rest =>
    let next := hubCall json logic out hub call
    let last := hubRun next.1 rest
    (last.1, next.2 :: last.2)

/-- The event that a call brings, if its frame is an envelope. -/
def HubCall.heard : HubCall → Option StreamEvent
  | .event own => some own
  | .message msg => (parseEnvelope json msg).toOption

/-- What the egress made of the event of a call, if there was one. -/
def egressOutcome : Except (IngestError Error) Unit → Option (Except Error Unit)
  | .ok () => some (.ok ())
  | .error (.egress error) => some (.error error)
  | .error (.parse _) => none

/-- The runtime as a machine in front of a sink. -/
theorem ingest_couple (runtime : StrategyRuntime S E) (event : StreamEvent) :
    couple logic.onEvent out.dispatch (runtime.strategy, runtime.egress) event =
      (((runtime.ingest logic out event).1.strategy, (runtime.ingest logic out event).1.egress),
        (runtime.ingest logic out event).2) := rfl

theorem egressOutcome_mapError (outcome : Except Error Unit) :
    egressOutcome (outcome.mapError IngestError.egress) = some outcome := by
  cases outcome <;> rfl

theorem hubCall_heard (hub : StrategyRuntime S E) (call : HubCall) {event : StreamEvent}
    (heard : call.heard json = some event) :
    (hubCall json logic out hub call).1 = (hub.ingest logic out event).1 ∧
      egressOutcome (hubCall json logic out hub call).2 =
        some (hub.ingest logic out event).2 := by
  cases call with
  | event own =>
    cases heard
    exact ⟨rfl, egressOutcome_mapError _⟩
  | message msg =>
    rw [HubCall.heard] at heard
    cases parsed : parseEnvelope json msg with
    | error error => simp [parsed, Except.toOption] at heard
    | ok own =>
      have same : own = event := by simpa [parsed, Except.toOption] using heard
      rw [hubCall, ingestMessage, parsed, ← same]
      exact ⟨rfl, egressOutcome_mapError _⟩

theorem hubCall_unheard (hub : StrategyRuntime S E) (call : HubCall)
    (unheard : call.heard json = none) :
    (hubCall json logic out hub call).1 = hub ∧
      egressOutcome (hubCall json logic out hub call).2 = none := by
  cases call with
  | event own => cases unheard
  | message msg =>
    rw [HubCall.heard] at unheard
    cases parsed : parseEnvelope json msg with
    | ok own => simp [parsed, Except.toOption] at unheard
    | error error =>
      rw [hubCall, ingestMessage, parsed]
      exact ⟨rfl, rfl⟩

theorem ingestAll_run (runtime : StrategyRuntime S E) (events : List StreamEvent) :
    (run logic.onEvent out.dispatch (runtime.strategy, runtime.egress) events).1 =
      ((runtime.ingestAll logic out events).strategy,
        (runtime.ingestAll logic out events).egress) := by
  induction events generalizing runtime with
  | nil => rfl
  | cons event rest ih => exact ih (runtime.ingest logic out event).1

/-- The calls that bring no event change nothing; the others are a run of the machine. -/
theorem hubRun_run (hub : StrategyRuntime S E) (calls : List HubCall) :
    run logic.onEvent out.dispatch (hub.strategy, hub.egress)
        (calls.filterMap (HubCall.heard json)) =
      (((hubRun json logic out hub calls).1.strategy, (hubRun json logic out hub calls).1.egress),
        (hubRun json logic out hub calls).2.filterMap egressOutcome) := by
  induction calls generalizing hub with
  | nil => rfl
  | cons call rest ih =>
    have later := ih (hubCall json logic out hub call).1
    cases heard : call.heard json with
    | none =>
      obtain ⟨kept, silent⟩ := hubCall_unheard json logic out hub call heard
      rw [List.filterMap_cons_none heard, hubRun, List.filterMap_cons_none silent, ← later, kept]
    | some event =>
      obtain ⟨moved, told⟩ := hubCall_heard json logic out hub call heard
      rw [List.filterMap_cons_some heard, hubRun, List.filterMap_cons_some told, run,
        ingest_couple, ← moved, later]

theorem hubRun_told (hub : StrategyRuntime S E) (calls : List HubCall) :
    List.Forall₂ (fun call result => egressOutcome result = none ↔ call.heard json = none) calls
      (hubRun json logic out hub calls).2 := by
  induction calls generalizing hub with
  | nil => exact .nil
  | cons call rest ih =>
    refine .cons ?_ (ih _)
    cases heard : call.heard json with
    | none => simp [hubCall_unheard json logic out hub call heard]
    | some event => simp [hubCall_heard json logic out hub call heard]

/-- The strategy of a hub makes its transitions on every event that is heard, in order and
whatever the egress says. The egress is handed a front of each event's commands: all of them
when the call returns `Ok`, else up to the one whose refusal it returns. -/
theorem hub_run (hub : StrategyRuntime S E) (calls : List HubCall) :
    (hubRun json logic out hub calls).1.strategy =
        after logic.onEvent hub.strategy (calls.filterMap (HubCall.heard json)) ∧
      List.Forall₂ (fun call result => egressOutcome result = none ↔ call.heard json = none)
        calls (hubRun json logic out hub calls).2 ∧
      ∃ handed, FeedsAll out.dispatch hub.egress
          (bursts logic.onEvent hub.strategy (calls.filterMap (HubCall.heard json))) handed
          ((hubRun json logic out hub calls).2.filterMap egressOutcome) ∧
        (hubRun json logic out hub calls).1.egress =
          absorbed out.dispatch hub.egress handed.flatten := by
  have fed := run_feeds logic.onEvent out.dispatch hub.strategy hub.egress
    (calls.filterMap (HubCall.heard json))
  rw [hubRun_run] at fed
  exact ⟨fed.1, hubRun_told json logic out hub calls, fed.2⟩

end Hub

/-! ### The handlers of a multiplexor -/

section Routing

variable (json : JsonCodec) (logic : StrategyImpl S) (out : StreamEgress E Error)

theorem routeMessage_eq {H Ctx Update Error : Type} (handler : EventHandler H Ctx Update Error)
    (hub : MonitorMultiplexor H Ctx) (msg : Message) :
    routeMessage handler hub msg = hub.ingestMessage handler msg := by
  cases msg with
  | text payload =>
    simp only [routeMessage, MonitorMultiplexor.ingestMessage, Message.isText, if_true]
    cases handler.parseUpdate (.text payload) with
    | error error => rfl
    | ok parsed =>
      cases parsed with
      | none => rfl
      | some update =>
        cases found : hub.writers.get (handler.toId update) with
        | none => simp only [hub.deliver_missing handler.toUpdateHandler update found, found]
        | some writer => simp only [hub.deliver_found handler.toUpdateHandler update found, found]
  | binary | ping | pong | close | frame => rfl

theorem cloneFor_get (ids : List String) (id : String) :
    (cloneFor ids).get id = if id ∈ ids then some () else none :=
  Map.get_foldl_insert (fun _ => ()) ids .empty id

/-- The events of a list of frames that have a writer. -/
def subscribedEvents (ids : List String) (frames : List Message) :
    List StreamEvent :=
  (frames.filterMap (fun msg => (parseEnvelope json msg).toOption)).filter
    (fun event => event.routingId ∈ ids)

/-- One frame at a multiplexor of clones: the runtime ingests its event if that has a writer. -/
theorem clones_ingest (ids : List String) (runtime : StrategyRuntime S E) (msg : Message) :
    (MonitorMultiplexor.fromWriters (cloneFor ids) runtime).ingestMessage
        (strategyEventHandler json logic out) msg =
      .fromWriters (cloneFor ids)
        (runtime.ingestAll logic out (subscribedEvents json ids [msg])) := by
  cases msg with
  | text payload =>
    simp only [MonitorMultiplexor.ingestMessage, Message.isText, if_true, strategyEventHandler,
      subscribedEvents]
    cases parsed : parseEnvelope json (.text payload) with
    | error error =>
      simp [parsed, Except.map, Except.mapError, Except.toOption, StrategyRuntime.ingestAll]
    | ok event =>
      by_cases listed : event.routingId ∈ ids
      · have found : (cloneFor ids).get event.routingId = some () := by
          rw [cloneFor_get, if_pos listed]
        rw [List.filterMap_cons_some (b := event) (by rw [parsed]; rfl)]
        simp [Except.map, Except.mapError, listed, MonitorMultiplexor.deliver,
          MonitorMultiplexor.fromWriters, found, Map.insert_get _ found,
          StrategyRuntime.ingestAll]
      · have missing : (cloneFor ids).get event.routingId = none := by
          rw [cloneFor_get, if_neg listed]
        rw [List.filterMap_cons_some (b := event) (by rw [parsed]; rfl)]
        simp [Except.map, Except.mapError, listed, MonitorMultiplexor.deliver,
          MonitorMultiplexor.fromWriters, missing, StrategyRuntime.ingestAll]
  | binary | ping | pong | close | frame => rfl

theorem clones_run (ids : List String) (runtime : StrategyRuntime S E) (frames : List Message) :
    frames.foldl (MonitorMultiplexor.ingestMessage (strategyEventHandler json logic out))
        (.fromWriters (cloneFor ids) runtime) =
      .fromWriters (cloneFor ids)
        (runtime.ingestAll logic out (subscribedEvents json ids frames)) := by
  induction frames generalizing runtime with
  | nil => rfl
  | cons msg rest ih =>
    have split : subscribedEvents json ids (msg :: rest) =
        subscribedEvents json ids [msg] ++ subscribedEvents json ids rest := by
      rw [subscribedEvents, ← List.singleton_append, List.filterMap_append, List.filter_append]
      rfl
    rw [List.foldl_cons, clones_ingest, ih, split, StrategyRuntime.ingestAll,
      StrategyRuntime.ingestAll, StrategyRuntime.ingestAll, List.foldl_append]

theorem clones_ran (ids : List String) (runtime : StrategyRuntime S E) (frames : List Message) :
    let shared := (frames.foldl
      (MonitorMultiplexor.ingestMessage (strategyEventHandler json logic out))
      (.fromWriters (cloneFor ids) runtime)).ctx
    (run logic.onEvent out.dispatch (runtime.strategy, runtime.egress)
      (subscribedEvents json ids frames)).1 = (shared.strategy, shared.egress) := by
  rw [clones_run]
  exact ingestAll_run logic out runtime (subscribedEvents json ids frames)

theorem hubRun_events (runtime : StrategyRuntime S E) (events : List StreamEvent) :
    (hubRun json logic out runtime (events.map .event)).1 =
      runtime.ingestAll logic out events := by
  induction events generalizing runtime with
  | nil => rfl
  | cons event rest ih => exact ih _

/-- The per-symbol handlers and `route_message` are one hub: over any frames, routed by the free
function or by the multiplexor, the shared runtime ends where a hub does that is injected the
events with a writer, in order, and every writer stays what it was. -/
theorem routed_run (ids : List String) (runtime : StrategyRuntime S E) (frames : List Message) :
    frames.foldl (routeMessage (strategyEventHandler json logic out))
        (.fromWriters (cloneFor ids) runtime) =
      .fromWriters (cloneFor ids)
        (hubRun json logic out runtime ((subscribedEvents json ids frames).map .event)).1 ∧
    frames.foldl (MonitorMultiplexor.ingestMessage (strategyEventHandler json logic out))
        (.fromWriters (cloneFor ids) runtime) =
      .fromWriters (cloneFor ids)
        (hubRun json logic out runtime ((subscribedEvents json ids frames).map .event)).1 := by
  have routed := clones_run json logic out ids runtime frames
  have same : routeMessage (strategyEventHandler json logic out) =
      MonitorMultiplexor.ingestMessage (strategyEventHandler json logic out) := by
    funext hub msg
    exact routeMessage_eq _ hub msg
  rw [hubRun_events, same]
  exact ⟨routed, routed⟩

end Routing

end Trolly.Strategy
