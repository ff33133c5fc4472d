import Trolly.Exec.Trading

/-! The direct order egress: the order of a command is posted inside its dispatch, and the
answer to it is the dispatch's outcome. Next to it the queue and its executor, which hear of a
refusal too late: the two agree up to the first one. -/
namespace Trolly.Exec

open Strategy Trolly.Stream Transducer Pipeline

/-- The `EgressError` of a dispatch that posts; `placeOrder` never occurs behind the queue. -/
inductive DirectError where
  | egress (error : EgressError)
  | placeOrder (error : PlaceOrderError)

/-- What a direct egress has posted, in how many placements. -/
structure Placed where
  posts : List FormPost
  calls : Nat

section Direct

variable {Request Response : Type} (api : OrderApi Request Response) (client : OrderClient)
  (exchange : Exchange)

/-- `SpotOrderEgressDirect` and `UsdmOrderEgressDirect`. -/
def directEgress : StreamEgress Placed DirectError where
  dispatch state message :=
    match api.placeOrderFromOutbound message with
    | .error error => (state, .error (.egress error))
    | .ok request =>
      let (post, outcome) := placeOrder api client exchange state.calls request
      (⟨state.posts ++ post.toList, state.calls + 1⟩,
        (outcome.map (fun _ => ())).mapError .placeOrder)

/-- The direct egress has placed the orders of a list, and nothing else. -/
structure PlacedAs (placed : List Request) (state : Placed) : Prop where
  calls : state.calls = placed.length
  posted : state.posts.map .ok = postsOf api client exchange placed

variable {api client exchange} {sent placed : List Request} {state : Placed}

theorem placedAs_start : PlacedAs api client exchange [] ⟨[], 0⟩ := ⟨rfl, rfl⟩

/-- A dispatch places the order of its command, and returns `Ok` when there is one and it is
acknowledged. -/
theorem PlacedAs.dispatch (buildable : Buildable api)
    (record : PlacedAs api client exchange placed state) (message : OutboundMessage) :
    PlacedAs api client exchange (placed ++ ordered api [message])
        ((directEgress api client exchange).dispatch state message).1 ∧
      (((directEgress api client exchange).dispatch state message).2 = .ok () ↔
        (toRequest api message).isSome ∧ Acknowledged api exchange placed.length) := by
  cases converted : api.placeOrderFromOutbound message with
  | error error =>
    have unread : toRequest api message = none := by rw [toRequest, converted]; rfl
    simp only [directEgress, converted, ordered, List.filterMap_cons, unread, List.filterMap_nil,
      List.append_nil]
    exact ⟨record, by simp⟩
  | ok request =>
    have read : toRequest api message = some request := by rw [toRequest, converted]; rfl
    obtain ⟨params, accepted⟩ := buildable message request converted
    obtain ⟨post, posting⟩ :
        ∃ post, orderPost api client exchange (exchange.clock state.calls) request = .ok post :=
      ⟨_, by rw [orderPost, buildSignedFormParams, accepted]; rfl⟩
    simp only [directEgress, converted, ordered, List.filterMap_cons, read, List.filterMap_nil,
      placeOrder, posting, Option.toList_some]
    refine ⟨⟨?_, ?_⟩, ?_⟩
    · rw [List.length_append, record.calls, List.length_singleton]
    · rw [List.map_append, record.posted, postsOf, postsOf, List.mapIdx_concat, ← record.calls,
        posting]
      rfl
    · rw [record.calls, Acknowledged]
      cases readAnswer api (exchange.answers placed.length) <;>
        simp [Except.map, Except.mapError]

theorem PlacedAs.length (record : PlacedAs api client exchange placed state) :
    state.posts.length = placed.length := by
  have lengths := congrArg List.length record.posted
  simpa only [postsOf, List.length_map, List.length_mapIdx] using lengths

theorem ordered_cons (message : OutboundMessage) (rest : List OutboundMessage) :
    ordered api (message :: rest) = ordered api [message] ++ ordered api rest := by
  rw [ordered, ← List.singleton_append, List.filterMap_append]
  rfl

theorem PlacedAs.absorbed (buildable : Buildable api)
    (record : PlacedAs api client exchange placed state) (messages : List OutboundMessage) :
    PlacedAs api client exchange (placed ++ ordered api messages)
      (absorbed (directEgress api client exchange).dispatch state messages) := by
  induction messages generalizing placed state with
  | nil =>
    rw [ordered, List.filterMap_nil, List.append_nil]
    exact record
  | cons message rest ih =>
    rw [ordered_cons, ← List.append_assoc]
    exact ih (record.dispatch buildable message).1

/-! ### Next to the queue -/

variable (api client exchange)

/-- Both have the same orders, and none has been refused. -/
def Alike (queued : Pipeline Request × Nat) (direct : Placed) : Prop :=
  ∃ orders, Progress api client exchange orders queued.1 ∧
    PlacedAs api client exchange orders direct ∧
    ∀ call < orders.length, Acknowledged api exchange call

/-- Two lists of orders with one that is refused, and the same up to it. -/
def SplitAfter (sent placed : List Request) : Prop :=
  ∃ refused, ¬Acknowledged api exchange refused ∧ refused < sent.length ∧
    refused < placed.length ∧ sent.take (refused + 1) = placed.take (refused + 1)

def Parted (queued : Pipeline Request × Nat) (direct : Placed) : Prop :=
  ∃ sent placed, Progress api client exchange sent queued.1 ∧
    PlacedAs api client exchange placed direct ∧ SplitAfter api exchange sent placed

variable {api client exchange}

theorem Progress.running_of_acknowledged {s : Pipeline Request}
    (progress : Progress api client exchange sent s)
    (answered : ∀ call < sent.length, Acknowledged api exchange call) : s.result = none := by
  by_contra stopped
  obtain ⟨some, refused⟩ := progress.stopped stopped
  have within := progress.within
  exact refused (answered (s.calls - 1) (by omega))

theorem ordered_singleton (message : OutboundMessage) :
    ordered api [message] = (toRequest api message).toList := by
  cases read : toRequest api message <;> simp [ordered, read]

theorem taken_eq_ordered (s : Pipeline Request) (message : OutboundMessage)
    (running : s.result = none) :
    (s.taken api (.dispatch message)).toList = ordered api [message] := by
  rw [ordered_singleton]
  by_cases said : (s.dispatch api message).2 = .ok ()
  · obtain ⟨request, own, enqueued⟩ := dispatch_ok_order said
    rw [own, enqueued]
  · have unread := (dispatch_ok_iff s message running).not.mp said
    rw [dispatch_refused said, Option.not_isSome_iff_eq_none.mp unread]

variable (client exchange) in
theorem egress_twins (buildable : Buildable api) (schedule : Nat → Nat) :
    Twins (orderEgress api client exchange schedule).dispatch
      (directEgress api client exchange).dispatch (Alike api client exchange)
      (Parted api client exchange) where
  together := by
    rintro queued direct message ⟨orders, progress, record, answered⟩
    let reached := (Pipeline.turn api client exchange)^[schedule queued.2] queued.1
    have here : Progress api client exchange orders reached := progress.turns _
    have running : reached.result = none := here.running_of_acknowledged answered
    have stepped := here.step buildable (.dispatch message)
    obtain ⟨recorded, accepts⟩ := record.dispatch buildable message
    rw [taken_eq_ordered reached message running] at stepped
    rw [ordered_singleton] at stepped recorded
    by_cases refused : (toRequest api message).isSome ∧ ¬Acknowledged api exchange orders.length
    · obtain ⟨request, read⟩ := Option.isSome_iff_exists.1 refused.1
      rw [read] at stepped recorded
      exact .inr ⟨_, _, stepped, recorded, orders.length, refused.2, by simp, by simp, rfl⟩
    · rw [not_and_not_right] at refused
      refine .inl ⟨⟨_, stepped, recorded, ?_⟩, ?_⟩
      · intro call earlier
        rw [List.length_append] at earlier
        rcases Nat.lt_or_ge call orders.length with old | new
        · exact answered call old
        · cases read : toRequest api message with
          | none =>
            rw [read, Option.toList_none, List.length_nil] at earlier
            omega
          | some request =>
            rw [read, Option.toList_some, List.length_singleton] at earlier
            rw [show call = orders.length by omega]
            exact refused (by rw [read]; rfl)
      · refine (dispatch_ok_iff reached message running).trans ?_
        rw [accepts]
        exact ⟨fun translates => ⟨translates, refused translates⟩, And.left⟩
  first := by
    rintro queued direct message ⟨sent, placed, progress, record, refused, unread, inside, rest⟩
    have stepped := (progress.turns (schedule queued.2)).step buildable (.dispatch message)
    refine ⟨_, placed, stepped, record, refused, unread, ?_, rest.1, ?_⟩
    · rw [List.length_append]
      omega
    · rw [List.take_append_of_le_length inside]
      exact rest.2
  second := by
    rintro queued direct message ⟨sent, placed, progress, record, refused, unread, inside, rest⟩
    refine ⟨sent, _, progress, (record.dispatch buildable message).1, refused, unread, inside, ?_,
      ?_⟩
    · rw [List.length_append]
      exact Nat.lt_add_right _ rest.1
    · rw [List.take_append_of_le_length rest.1]
      exact rest.2

theorem Progress.posts_eq {s : Pipeline Request} (progress : Progress api client exchange sent s)
    (record : PlacedAs api client exchange placed state)
    (same : sent.take s.calls = placed.take s.calls) : s.posts = state.posts.take s.calls := by
  have posted := progress.posted
  have front : postsOf api client exchange (placed.take s.calls) =
      (postsOf api client exchange placed).take s.calls := by
    apply List.ext_getElem?
    intro call
    simp only [postsOf, List.getElem?_mapIdx, List.getElem?_take]
    split <;> rfl
  rw [same, front, ← record.posted, ← List.map_take] at posted
  exact List.map_injective_iff.2 (fun _ _ same => Except.ok.inj same) posted

theorem split_of_twins {queued : Pipeline Request × Nat} {direct : Placed}
    (ended : Alike api client exchange queued direct ∨ Parted api client exchange queued direct) :
    ∃ sent placed, Progress api client exchange sent queued.1 ∧
      PlacedAs api client exchange placed direct ∧
      (sent = placed ∨ SplitAfter api exchange sent placed) := by
  rcases ended with ⟨orders, progress, record, -⟩ | ⟨sent, placed, progress, record, split⟩
  · exact ⟨orders, orders, progress, record, .inl rfl⟩
  · exact ⟨sent, placed, progress, record, .inr split⟩

theorem Progress.take_eq {s : Pipeline Request} (progress : Progress api client exchange sent s)
    (near : sent = placed ∨ SplitAfter api exchange sent placed) :
    sent.take s.calls = placed.take s.calls := by
  rcases near with rfl | ⟨refused, unread, -, -, same⟩
  · rfl
  · have upTo : s.calls ≤ refused + 1 := by
      by_contra past
      exact unread (progress.passed refused (by omega))
    have cut := congrArg (List.take s.calls) same
    rw [List.take_take, List.take_take, Nat.min_eq_left upTo] at cut
    exact cut

/-- An executor that is done has made all placements of the direct egress exactly when none of
them but the last was refused. -/
theorem Progress.caught_up_iff {s : Pipeline Request}
    (progress : Progress api client exchange sent s)
    (near : sent = placed ∨ SplitAfter api exchange sent placed)
    (done : s.result ≠ none ∨ s.queue = []) :
    placed.length ≤ s.calls ↔
      ∀ call, call + 1 < placed.length → Acknowledged api exchange call := by
  constructor
  · intro all call earlier
    exact progress.passed call (by omega)
  · intro answered
    by_contra behind
    rcases done with stopped | empty
    · obtain ⟨some, refused⟩ := progress.stopped stopped
      exact refused (answered (s.calls - 1) (by omega))
    · have waiting := progress.waiting
      rw [empty] at waiting
      have drained : sent.length ≤ s.calls := List.drop_eq_nil_iff.1 waiting.symm
      rcases near with rfl | ⟨refused, unread, inside, -, -⟩
      · exact behind drained
      · exact unread (answered refused (by omega))

end Direct

section Desks

variable {S Request Response : Type} (json : JsonCodec) (logic : StrategyImpl S)
  (api : OrderApi Request Response) (client : OrderClient) (exchange : Exchange)
  (schedule : Nat → Nat)

/-- A desk whose orders go through the direct egress. -/
def directDesk (ids : List String) (strategy : S) (frames : List Message) :
    MonitorMultiplexor Unit (StrategyRuntime S Placed) :=
  frames.foldl (MonitorMultiplexor.ingestMessage
      (strategyEventHandler json logic (directEgress api client exchange)))
    (.fromWriters (cloneFor ids) ⟨strategy, [], 0⟩)

theorem directDesk_ran (ids : List String) (strategy : S) (frames : List Message) :
    (Transducer.run logic.onEvent (directEgress api client exchange).dispatch
        (strategy, ⟨[], 0⟩) (subscribedEvents json ids frames)).1 =
      ((directDesk json logic api client exchange ids strategy frames).ctx.strategy,
        (directDesk json logic api client exchange ids strategy frames).ctx.egress) :=
  clones_ran json logic (directEgress api client exchange) ids ⟨strategy, [], 0⟩ frames

/-- The strategy hears the same events behind both egresses. The direct one posts the orders it
is handed, and the queue with its executor, at any time, a front of these. Once the executor has
had a turn for each waiting order, these are all of them exactly when no order but the last is
refused. -/
structure Leads (ids : List String) (strategy : S) (frames : List Message)
    (queued : StrategyRuntime S (Pipeline Request × Nat)) (direct : StrategyRuntime S Placed) :
    Prop where
  heard : direct.strategy = queued.strategy
  handed : ∃ handed outcomes, FeedsAll (directEgress api client exchange).dispatch ⟨[], 0⟩
      (bursts logic.onEvent strategy (subscribedEvents json ids frames)) handed outcomes ∧
    PlacedAs api client exchange (ordered api handed.flatten) direct.egress
  front : ∀ turns, let s := (Pipeline.turn api client exchange)^[turns] queued.egress.1
    s.posts = direct.egress.posts.take s.calls
  caughtUp : ∀ turns, queued.egress.1.queue.length ≤ turns →
    (((Pipeline.turn api client exchange)^[turns] queued.egress.1).posts = direct.egress.posts ↔
      ∀ call, call + 1 < direct.egress.calls → Acknowledged api exchange call)

variable {api} in
theorem desk_leads (buildable : Buildable api) (ids : List String) (strategy : S)
    (frames : List Message) :
    Leads json logic api client exchange ids strategy frames
      (desk json logic api client exchange schedule ids strategy frames).ctx
      (directDesk json logic api client exchange ids strategy frames).ctx := by
  let events := subscribedEvents json ids frames
  have directRan := directDesk_ran json logic api client exchange ids strategy frames
  have queuedRan := desk_ran json logic api client exchange schedule ids strategy frames
  obtain ⟨alone, handed, feeds, absorbs⟩ :=
    run_feeds logic.onEvent (directEgress api client exchange).dispatch strategy ⟨[], 0⟩ events
  obtain ⟨queuedAlone, -⟩ := run_feeds logic.onEvent
    (orderEgress api client exchange schedule).dispatch strategy (start, 0) events
  have ended := (egress_twins client exchange buildable schedule).ran logic.onEvent strategy
    (start, 0) ⟨[], 0⟩ events (.inl ⟨[], progress_start, placedAs_start, by simp⟩)
  rw [directRan, queuedRan] at ended
  rw [directRan] at alone absorbs
  rw [queuedRan] at queuedAlone
  dsimp only at ended alone absorbs queuedAlone
  obtain ⟨sent, placed, progress, record, near⟩ := split_of_twins ended
  refine ⟨alone.trans queuedAlone.symm, ⟨handed, _, feeds, ?_⟩, ?_, ?_⟩
  · rw [absorbs]
    exact placedAs_start.absorbed buildable handed.flatten
  · intro turns
    exact (progress.turns turns).posts_eq record ((progress.turns turns).take_eq near)
  · intro turns enough
    have later := progress.turns turns
    rw [later.posts_eq record (later.take_eq near), record.calls,
      ← later.caught_up_iff near (turns_done turns enough), List.take_eq_self_iff, record.length]

/-- The direct egress is ahead of the queued one in both crates, however the executor is
scheduled. -/
theorem desks_lead {SpotResponse UsdmResponse : Type} (spot : ResponseFormat SpotResponse)
    (usdm : ResponseFormat UsdmResponse) (ids : List String) (strategy : S)
    (frames : List Message) :
    Leads json logic (Spot.orderApi spot) client exchange ids strategy frames
        (desk json logic (Spot.orderApi spot) client exchange schedule ids strategy frames).ctx
        (directDesk json logic (Spot.orderApi spot) client exchange ids strategy frames).ctx ∧
      Leads json logic (Usdm.orderApi usdm) client exchange ids strategy frames
        (desk json logic (Usdm.orderApi usdm) client exchange schedule ids strategy frames).ctx
        (directDesk json logic (Usdm.orderApi usdm) client exchange ids strategy frames).ctx :=
  ⟨desk_leads json logic client exchange schedule (spot_buildable spot) ids strategy frames,
    desk_leads json logic client exchange schedule (usdm_buildable usdm) ids strategy frames⟩

end Desks

end Trolly.Exec
