import Trolly.Exec.Crates
import Trolly.Strategy.Runtime

/-! From frames to orders: a strategy behind a multiplexor, its commands sent through an order
egress, and the executor that posts what is queued. The executor is another task, so it may
turn any number of times before each dispatch. -/
namespace Trolly.Exec

open Strategy Trolly.Stream Transducer Pipeline

section Trading

variable {S Request Response : Type} (json : JsonCodec) (logic : StrategyImpl S)
  (api : OrderApi Request Response) (client : OrderClient) (exchange : Exchange)
  (schedule : Nat → Nat)

/-- `SpotOrderEgress` and `UsdmOrderEgress` with the executor behind their channel, which turns
`schedule n` times before the `n`-th dispatch. -/
def orderEgress : StreamEgress (Pipeline Request × Nat) EgressError where
  dispatch state message :=
    let reached := (Pipeline.turn api client exchange)^[schedule state.2] state.1
    let (next, outcome) := reached.dispatch api message
    ((next, state.2 + 1), outcome)

/-- A strategy with a handler for each id, fed with frames. -/
def desk (ids : List String) (strategy : S) (frames : List Message) :
    MonitorMultiplexor Unit (StrategyRuntime S (Pipeline Request × Nat)) :=
  frames.foldl (MonitorMultiplexor.ingestMessage
      (strategyEventHandler json logic (orderEgress api client exchange schedule)))
    (.fromWriters (cloneFor ids) ⟨strategy, start, 0⟩)

def toRequest (message : OutboundMessage) : Option Request :=
  (api.placeOrderFromOutbound message).toOption

/-- The orders among some commands, as requests. -/
def ordered (commands : List OutboundMessage) : List Request :=
  commands.filterMap (toRequest api)

variable {api client exchange schedule}

theorem turn_result (s : Pipeline Request) (stopped : s.result ≠ none) :
    (s.turn api client exchange).result ≠ none := by
  rw [turn_idle (.inl stopped)]
  exact stopped

theorem turns_result (count : Nat) (s : Pipeline Request)
    (running : ((Pipeline.turn api client exchange)^[count] s).result = none) :
    s.result = none := by
  induction count generalizing s with
  | zero => exact running
  | succ count ih =>
    by_contra stopped
    exact turn_result s stopped (ih _ running)

theorem dispatch_result (s : Pipeline Request) (message : OutboundMessage) :
    (s.dispatch api message).1.result = s.result := by
  rw [dispatch]
  split
  · rfl
  · split <;> rfl

/-- While the executor runs, an order that can be translated is taken. -/
theorem dispatch_running (s : Pipeline Request) (message : OutboundMessage)
    (running : s.result = none) (translates : (toRequest api message).isSome) :
    (s.dispatch api message).2 = .ok () := by
  rw [dispatch]
  cases converted : api.placeOrderFromOutbound message with
  | error error => simp [toRequest, converted, Except.toOption] at translates
  | ok request => simp [running]

/-- While the executor runs, the queue takes exactly the commands that are orders. -/
theorem dispatch_ok_iff (s : Pipeline Request) (message : OutboundMessage)
    (running : s.result = none) :
    (s.dispatch api message).2 = .ok () ↔ (toRequest api message).isSome := by
  refine ⟨fun taken => ?_, dispatch_running s message running⟩
  rw [toRequest]
  cases converted : api.placeOrderFromOutbound message with
  | ok request => rfl
  | error error =>
    rw [Pipeline.dispatch, converted] at taken
    cases taken

/-- Whatever is taken is an order. -/
theorem dispatch_ok_order {s : Pipeline Request} {message : OutboundMessage}
    (taken : (s.dispatch api message).2 = .ok ()) :
    ∃ request, toRequest api message = some request ∧
      s.taken api (.dispatch message) = some request := by
  rw [Pipeline.taken, taken]
  cases converted : api.placeOrderFromOutbound message with
  | ok request => exact ⟨request, by rw [toRequest, converted]; rfl, rfl⟩
  | error error =>
    rw [Pipeline.dispatch, converted] at taken
    cases taken

theorem dispatch_refused {s : Pipeline Request} {message : OutboundMessage}
    (refused : (s.dispatch api message).2 ≠ .ok ()) :
    s.taken api (.dispatch message) = none := by
  rw [Pipeline.taken]
  cases said : (s.dispatch api message).2 with
  | ok => exact absurd said refused
  | error error => rfl

/-- An executor that runs in the end has run all along. -/
theorem absorbed_result (state : Pipeline Request × Nat) (messages : List OutboundMessage)
    (running : (absorbed (orderEgress api client exchange schedule).dispatch state
      messages).1.result = none) : state.1.result = none := by
  induction messages generalizing state with
  | nil => exact running
  | cons message rest ih =>
    have next := ih _ running
    simp only [orderEgress, dispatch_result] at next
    exact turns_result _ _ next

/-- What a list of dispatches does to the queue and to the posts: those that return `Ok` enqueue
their orders, and the others nothing. -/
theorem absorbed_progress (buildable : Buildable api) (messages : List OutboundMessage)
    {sent : List Request} (state : Pipeline Request × Nat)
    (progress : Progress api client exchange sent state.1) :
    ∃ added, (accepted (orderEgress api client exchange schedule).dispatch state messages).map
        (toRequest api) = added.map some ∧
      Progress api client exchange (sent ++ added)
        (absorbed (orderEgress api client exchange schedule).dispatch state messages).1 := by
  induction messages generalizing sent state with
  | nil => exact ⟨[], rfl, by rw [List.append_nil]; exact progress⟩
  | cons message rest ih =>
    let reached := (Pipeline.turn api client exchange)^[schedule state.2] state.1
    have here : Progress api client exchange sent reached := progress.turns _
    have stepped := here.step buildable (.dispatch message)
    obtain ⟨added, read, later⟩ := ih ((reached.dispatch api message).1, state.2 + 1) stepped
    rw [List.append_assoc] at later
    by_cases said : (reached.dispatch api message).2 = .ok ()
    · obtain ⟨request, own, enqueued⟩ := dispatch_ok_order said
      rw [enqueued, Option.toList_some, List.singleton_append] at later
      refine ⟨request :: added, ?_, later⟩
      rw [accepted_ok (orderEgress api client exchange schedule).dispatch said,
        List.map_cons, List.map_cons, own]
      exact congrArg _ read
    · rw [dispatch_refused said, Option.toList_none, List.nil_append] at later
      refine ⟨added, ?_, later⟩
      rw [accepted_error (orderEgress api client exchange schedule).dispatch said]
      exact read

/-- As long as the executor runs, all orders are taken. -/
theorem accepted_running (state : Pipeline Request × Nat) (messages : List OutboundMessage)
    (running : (absorbed (orderEgress api client exchange schedule).dispatch state
      messages).1.result = none) :
    accepted (orderEgress api client exchange schedule).dispatch state messages =
      messages.filter (fun message => (toRequest api message).isSome) := by
  induction messages generalizing state with
  | nil => rfl
  | cons message rest ih =>
    let reached := (Pipeline.turn api client exchange)^[schedule state.2] state.1
    have before : reached.result = none :=
      (dispatch_result reached message).symm.trans (absorbed_result _ rest running)
    have later := ih ((reached.dispatch api message).1, state.2 + 1) running
    by_cases translates : (toRequest api message).isSome
    · have said := (dispatch_ok_iff reached message before).mpr translates
      rw [accepted_ok (orderEgress api client exchange schedule).dispatch said,
        List.filter_cons, if_pos translates]
      exact congrArg _ later
    · have said := (dispatch_ok_iff reached message before).not.mpr translates
      rw [accepted_error (orderEgress api client exchange schedule).dispatch said,
        List.filter_cons, if_neg translates]
      exact later

/-- While the executor runs, it refuses no command that can be translated. -/
theorem absorbed_taken (state : Pipeline Request × Nat) (messages : List OutboundMessage)
    (running : (absorbed (orderEgress api client exchange schedule).dispatch state
      messages).1.result = none)
    (translates : ∀ message ∈ messages, (toRequest api message).isSome) :
    Taken (orderEgress api client exchange schedule).dispatch state messages := by
  intro pre message post split
  rw [split, absorbed_append] at running
  refine dispatch_running _ message ?_ (translates message (by simp [split]))
  have after := absorbed_result _ post running
  simp only [orderEgress, dispatch_result] at after
  exact after

/-- The strategy hears the subscribed events, whatever becomes of its orders, and the burst of
commands for each event is dispatched up to the first that is refused. The orders of the
dispatches that returned `Ok` have been posted, in order and once each, as far as the executor
got; the others of them wait in the queue. As long as the executor runs these are all orders
that were dispatched, and nothing is left of a burst in which every command is an order. -/
structure Trades (json : JsonCodec) (logic : StrategyImpl S) (api : OrderApi Request Response)
    (client : OrderClient) (exchange : Exchange) (schedule : Nat → Nat) (ids : List String)
    (strategy : S) (frames : List Message) : Prop where
  heard : (desk json logic api client exchange schedule ids strategy frames).ctx.strategy =
    after logic.onEvent strategy (subscribedEvents json ids frames)
  traded :
    let commands := bursts logic.onEvent strategy (subscribedEvents json ids frames)
    let egress := orderEgress api client exchange schedule
    let reached := (desk json logic api client exchange schedule ids strategy frames).ctx.egress.1
    ∃ dispatched outcomes, ∃ sent : List Request,
      FeedsAll egress.dispatch (start, 0) commands dispatched outcomes ∧
      (accepted egress.dispatch (start, 0) dispatched.flatten).map (toRequest api) =
        sent.map some ∧
      (∀ turns, let s := (Pipeline.turn api client exchange)^[turns] reached
        s.posts.map .ok = postsOf api client exchange (sent.take s.calls) ∧
          s.queue = sent.drop s.calls) ∧
      (reached.result = none → sent = ordered api dispatched.flatten ∧
        ((∀ message ∈ commands.flatten, (toRequest api message).isSome) → dispatched = commands))

variable (api client exchange schedule) in
theorem desk_ran (ids : List String) (strategy : S) (frames : List Message) :
    (Transducer.run logic.onEvent (orderEgress api client exchange schedule).dispatch
        (strategy, start, 0) (subscribedEvents json ids frames)).1 =
      ((desk json logic api client exchange schedule ids strategy frames).ctx.strategy,
        (desk json logic api client exchange schedule ids strategy frames).ctx.egress) :=
  clones_ran json logic (orderEgress api client exchange schedule) ids ⟨strategy, start, 0⟩ frames

theorem ordered_filter (messages : List OutboundMessage) :
    ordered api (messages.filter (fun message => (toRequest api message).isSome)) =
      ordered api messages := by
  rw [ordered, List.filterMap_filter]
  congr 1
  funext message
  cases toRequest api message <;> rfl

theorem ordered_of_map {messages : List OutboundMessage} {sent : List Request}
    (read : messages.map (toRequest api) = sent.map some) : ordered api messages = sent := by
  have spelled := congrArg (List.filterMap id) read
  rw [List.filterMap_map, List.filterMap_map] at spelled
  simpa [ordered] using spelled

variable (client exchange schedule) in
theorem desk_trades (buildable : Buildable api) (ids : List String) (strategy : S)
    (frames : List Message) :
    Trades json logic api client exchange schedule ids strategy frames := by
  obtain ⟨alone, dispatched, feeds, absorbs⟩ := run_feeds logic.onEvent
    (orderEgress api client exchange schedule).dispatch strategy (start, 0)
    (subscribedEvents json ids frames)
  rw [desk_ran] at alone absorbs
  dsimp only at alone absorbs
  obtain ⟨sent, read, progress⟩ :=
    absorbed_progress buildable dispatched.flatten (start, 0) progress_start
  rw [List.nil_append, ← absorbs] at progress
  refine ⟨alone, dispatched, _, sent, feeds, read, fun turns => ⟨(progress.turns turns).posted,
    (progress.turns turns).waiting⟩, fun running => ?_⟩
  rw [absorbs] at running
  constructor
  · rw [← ordered_of_map read, accepted_running _ _ running, ordered_filter]
  · intro translates
    have each : ∀ message ∈ dispatched.flatten, (toRequest api message).isSome :=
      fun message member => translates message (feeds.sublist.subset member)
    exact feeds.all_handed (absorbed_taken _ _ running each)

end Trading

end Trolly.Exec
