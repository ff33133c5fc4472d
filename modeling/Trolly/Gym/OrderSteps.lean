import Trolly.Exec.Trading
import Trolly.Gym.Env

/-! The environment in front of a live order egress: which steps become orders, and what the
counter and the replay ring then say about them. `Hold` is sent as a subscription, which the
order egresses refuse, so it is never a step that succeeds. -/
namespace Trolly.Gym

open Recent Strategy Exec.Pipeline

variable {F Request Response : Type}

def Env.Call.stepped : Env.Call → Option Action
  | .step action => some action
  | .ingest _ => none

/-- The steps of some calls that ask for an order. -/
def tradeSteps (calls : List Env.Call) : List Action :=
  (calls.filterMap Env.Call.stepped).filter (· ≠ .hold)

def trades (transitions : List (Transition F)) : List Action :=
  (transitions.map Transition.action).filter (· ≠ .hold)

section Orders

variable (f32 : F32 F) (api : Exec.OrderApi Request Response) (client : Exec.OrderClient)
  (exchange : Exec.Exchange) (schedule : Nat → Nat) (config : EnvConfig)

def orderOf (action : Action) : Option Request :=
  Exec.toRequest api (action.toOutbound config.symbol config.defaultQty none)

/-- An order egress takes `Buy` and `Sell` for any symbol and quantity, and refuses `Hold`. -/
structure TakesTrades : Prop where
  trade : ∀ action ≠ .hold, (orderOf api config action).isSome
  hold : api.placeOrderFromOutbound (Action.hold.toOutbound config.symbol config.defaultQty none) =
    .error (.unsupported "subscribe")

theorem TakesTrades.refused {api : Exec.OrderApi Request Response} {config : EnvConfig}
    (takes : TakesTrades api config) (s : Exec.Pipeline Request) :
    s.dispatch api (Action.hold.toOutbound config.symbol config.defaultQty none) =
      (s, .error (.unsupported "subscribe")) := by
  rw [Exec.Pipeline.dispatch, takes.hold]

theorem TakesTrades.hold_fails {api : Exec.OrderApi Request Response} {config : EnvConfig}
    (takes : TakesTrades api config) (state : Exec.Pipeline Request × Nat) :
    ∃ next, Action.hold.dispatch (Exec.orderEgress api client exchange schedule) state
      config.symbol config.defaultQty none = (next, .error (.unsupported "subscribe")) := by
  simp only [Action.dispatch, Exec.orderEgress, takes.refused]
  exact ⟨_, rfl⟩

/-- The steps that succeeded are orders, in order: they are what the log of the run has besides
the prefilled windows, the ring holds the end of that log, the counter counts them, the executor
posts them. None is missing while the executor runs; `Hold` always fails. -/
def StepsAreOrders : Prop := ∀ calls, ∃ env sent,
  let log := Log.run f32 (Exec.orderEgress api client exchange schedule) config (start, 0) calls
  (Env.new config (start, 0)).run f32 (Exec.orderEgress api client exchange schedule) calls =
      some env ∧
    sent.Sublist (tradeSteps calls) ∧
    (env.egress.1.result = none → sent = tradeSteps calls) ∧
    env.steps = sent.length ∧
    trades log.transitions = sent ∧
    env.replay.snapshot = last config.replayCapacity log.transitions ∧
    (∃ orders : List Request, sent.map (orderOf api config) = orders.map some ∧
      ∀ turns, let s := (Exec.Pipeline.turn api client exchange)^[turns] env.egress.1
        s.posts.map .ok = Exec.postsOf api client exchange (orders.take s.calls) ∧
          s.queue = orders.drop s.calls) ∧
    ∃ state, env.step f32 (Exec.orderEgress api client exchange schedule) .hold =
      some ({ env with egress := state }, .error (.unsupported "subscribe"))

variable {f32 api client exchange schedule config}

/-- The log of a run, and the orders that its steps became. -/
structure Ordered (api : Exec.OrderApi Request Response) (client : Exec.OrderClient)
    (exchange : Exec.Exchange) (config : EnvConfig) (steps sent : List Action)
    (log : Log F (Exec.Pipeline Request × Nat)) : Prop where
  within : sent.Sublist steps
  all : log.egress.1.result = none → sent = steps
  count : log.steps = sent.length
  recorded : trades log.transitions = sent
  progress : ∃ orders : List Request, sent.map (orderOf api config) = orders.map some ∧
    Exec.Progress api client exchange orders log.egress.1

theorem trades_snoc (transitions : List (Transition F)) (transition : Transition F) :
    trades (transitions ++ [transition]) = trades transitions ++
      if transition.action = .hold then [] else [transition.action] := by
  by_cases holds : transition.action = .hold <;> simp [trades, holds]

theorem ordered_new : Ordered api client exchange config [] []
    (.new (start, 0) : Log F (Exec.Pipeline Request × Nat)) :=
  ⟨.slnil, fun _ => rfl, rfl, rfl, [], rfl, Exec.progress_start⟩

variable {steps sent : List Action} {log : Log F (Exec.Pipeline Request × Nat)}

/-- An event is recorded under `Hold`. -/
theorem Ordered.ingest (ordered : Ordered api client exchange config steps sent log)
    (event : StreamEvent) : Ordered api client exchange config steps sent
      (log.call f32 (Exec.orderEgress api client exchange schedule) config (.ingest event)) := by
  rw [Log.call]
  split_ifs
  · refine ⟨ordered.within, ordered.all, ordered.count, ?_, ordered.progress⟩
    have prefilled := trades_snoc log.transitions
    simp only [Log.accept, prefilled, prefill, if_true, List.append_nil, ordered.recorded]
  · exact ordered

theorem Ordered.hold (takes : TakesTrades api config)
    (ordered : Ordered api client exchange config steps sent log) :
    Ordered api client exchange config steps sent
      (log.call f32 (Exec.orderEgress api client exchange schedule) config (.step .hold)) := by
  obtain ⟨orders, requests, progress⟩ := ordered.progress
  simp only [Log.call, Action.dispatch, Exec.orderEgress, takes.refused]
  refine ⟨ordered.within, fun running => ordered.all (Exec.turns_result _ _ running),
    ordered.count, ordered.recorded, orders, requests, progress.turns _⟩

/-- A trade goes to the queue, or the executor has returned. -/
theorem Ordered.trade (buildable : Exec.Buildable api) (takes : TakesTrades api config)
    (ordered : Ordered api client exchange config steps sent log) {action : Action}
    (trade : action ≠ .hold) : ∃ sent, Ordered api client exchange config (steps ++ [action]) sent
      (log.call f32 (Exec.orderEgress api client exchange schedule) config (.step action)) := by
  obtain ⟨orders, requests, progress⟩ := ordered.progress
  obtain ⟨request, asked⟩ := Option.isSome_iff_exists.mp (takes.trade action trade)
  have converted : api.placeOrderFromOutbound
      (action.toOutbound config.symbol config.defaultQty none) = .ok request := by
    cases made : api.placeOrderFromOutbound
        (action.toOutbound config.symbol config.defaultQty none) with
    | error error => simp [orderOf, Exec.toRequest, made, Except.toOption] at asked
    | ok own => simpa [orderOf, Exec.toRequest, made, Except.toOption] using asked
  have reached := progress.turns (schedule log.egress.2)
  set s := (Exec.Pipeline.turn api client exchange)^[schedule log.egress.2] log.egress.1
  cases stopped : s.result with
  | some result =>
    have refused : s.dispatch api (action.toOutbound config.symbol config.defaultQty none) =
        (s, .error .channelClosed) := by
      simp [Exec.Pipeline.dispatch, converted, stopped]
    refine ⟨sent, ?_⟩
    simp only [Log.call, Action.dispatch, Exec.orderEgress, s] at refused ⊢
    simp only [refused]
    refine ⟨ordered.within.trans (List.sublist_append_left _ _), fun running => ?_, ordered.count,
      ordered.recorded, orders, requests, reached⟩
    rw [stopped] at running
    cases running
  | none =>
    have taken : s.dispatch api (action.toOutbound config.symbol config.defaultQty none) =
        ({ s with queue := s.queue ++ [request] }, .ok ()) := by
      simp [Exec.Pipeline.dispatch, converted, stopped]
    refine ⟨sent ++ [action], ?_⟩
    simp only [Log.call, Action.dispatch, Exec.orderEgress, s] at taken ⊢
    simp only [taken]
    refine ⟨ordered.within.append (List.Sublist.refl _), fun _ => ?_, ?_, ?_, orders ++ [request],
      ?_, reached.push (buildable _ _ converted)⟩
    · rw [ordered.all (Exec.turns_result _ _ stopped)]
    · simp [Log.record, ordered.count]
    · simp only [Log.record]
      rw [trades_snoc, ordered.recorded, if_neg trade]
    · rw [List.map_append, requests, List.map_append]
      simp [asked]

theorem tradeSteps_cons (call : Env.Call) (calls : List Env.Call) :
    tradeSteps (call :: calls) = tradeSteps [call] ++ tradeSteps calls := by
  rw [tradeSteps, ← List.singleton_append, List.filterMap_append, List.filter_append]
  rfl

variable (f32 schedule) in
theorem run_ordered (buildable : Exec.Buildable api) (takes : TakesTrades api config)
    (ordered : Ordered api client exchange config steps sent log) (calls : List Env.Call) :
    ∃ sent, Ordered api client exchange config (steps ++ tradeSteps calls) sent
      (calls.foldl (Log.call f32 (Exec.orderEgress api client exchange schedule) config) log) := by
  induction calls generalizing steps sent log with
  | nil => exact ⟨sent, by simpa [tradeSteps] using ordered⟩
  | cons call rest ih =>
    rw [tradeSteps_cons, ← List.append_assoc, List.foldl_cons]
    cases call with
    | ingest event =>
      rw [show tradeSteps [.ingest event] = [] from rfl, List.append_nil]
      exact ih (ordered.ingest event)
    | step action =>
      by_cases holds : action = .hold
      · cases holds
        rw [show tradeSteps [.step .hold] = [] from rfl, List.append_nil]
        exact ih (ordered.hold takes)
      · obtain ⟨sent, next⟩ := ordered.trade buildable takes holds
        rw [show tradeSteps [.step action] = [action] by simp [tradeSteps, Env.Call.stepped, holds]]
        exact ih next

theorem steps_are_orders (buildable : Exec.Buildable api) (takes : TakesTrades api config)
    (framed : 1 ≤ config.windowFrames) (ringed : 1 ≤ config.replayCapacity) :
    StepsAreOrders f32 api client exchange schedule config := by
  intro calls
  obtain ⟨env, ran, views⟩ := Env.run_views f32 (Exec.orderEgress api client exchange schedule)
    framed (Env.new_views ringed (start, 0)) calls
  obtain ⟨sent, ordered⟩ := run_ordered f32 schedule buildable takes ordered_new calls
  obtain ⟨orders, requests, progress⟩ := ordered.progress
  rw [← views.egress_eq] at progress
  refine ⟨env, sent, ran, ordered.within, fun running => ordered.all (views.egress_eq ▸ running),
    views.steps.trans ordered.count, ordered.recorded, ?_, ⟨orders, requests, fun turns =>
      ⟨(progress.turns turns).posted, (progress.turns turns).waiting⟩⟩, ?_⟩
  · rw [views.replay.snapshot, views.capacity]
    rfl
  · obtain ⟨state, refused⟩ := takes.hold_fails client exchange schedule _
    exact ⟨state, views.step_error f32 _ refused⟩

variable {SpotResponse UsdmResponse : Type} (spot : Exec.ResponseFormat SpotResponse)
  (usdm : Exec.ResponseFormat UsdmResponse)

theorem parse_buy : Exec.OrderSide.parse "BUY" = .ok .buy := by decide

theorem parse_sell : Exec.OrderSide.parse "SELL" = .ok .sell := by decide

theorem spot_takesTrades (config : EnvConfig) : TakesTrades (Spot.orderApi spot) config where
  trade := by
    intro action trade
    cases action with
    | hold => exact absurd rfl trade
    | buy | sell =>
      simp [orderOf, Action.toOutbound, Exec.toRequest, Spot.orderApi,
        Spot.placeOrderFromOutbound, parse_buy, parse_sell, Except.mapError, Except.toOption,
        bind, Except.bind, pure, Except.pure]
  hold := rfl

theorem usdm_takesTrades (config : EnvConfig) : TakesTrades (Usdm.orderApi usdm) config where
  trade := by
    intro action trade
    cases action with
    | hold => exact absurd rfl trade
    | buy | sell =>
      simp [orderOf, Action.toOutbound, Exec.toRequest, Usdm.orderApi,
        Usdm.placeOrderFromOutbound, parse_buy, parse_sell, Except.mapError, Except.toOption,
        bind, Except.bind, pure, Except.pure]
  hold := rfl

variable (f32 client exchange schedule config) in
/-- Over any run of the environment, in front of either crate and however its executor is
scheduled. -/
theorem env_steps_are_orders (framed : 1 ≤ config.windowFrames)
    (ringed : 1 ≤ config.replayCapacity) :
    StepsAreOrders f32 (Spot.orderApi spot) client exchange schedule config ∧
      StepsAreOrders f32 (Usdm.orderApi usdm) client exchange schedule config :=
  ⟨steps_are_orders (Exec.spot_buildable spot) (spot_takesTrades spot config) framed ringed,
    steps_are_orders (Exec.usdm_buildable usdm) (usdm_takesTrades usdm config) framed ringed⟩

def tradingConfig : EnvConfig := ⟨"BTCUSDT", 1, 2, "0.01"⟩

def tradingEgress :
    StreamEgress (Exec.Pipeline Usdm.PlaceOrderRequest × Nat) Exec.EgressError :=
  Exec.orderEgress (Usdm.orderApi Exec.apiErrors)
    ⟨⟨"key", "secret"⟩, "https://fapi.binance.com"⟩ Exec.rejecting (fun _ => 0)

def tradingCalls : List Env.Call := [.step .buy, .step .hold, .step .sell, .step .buy]

/-- The ring holds the last two of the three orders. -/
theorem env_steps_are_orders_two : ∃ env,
    (Env.new tradingConfig (start, 0)).run Env.thousandths tradingEgress tradingCalls = some env ∧
      env.steps = 3 ∧ trades env.replay.snapshot = [.sell, .buy] := by
  obtain ⟨env, sent, ran, _, _, count, recorded, ring, _⟩ :=
    (env_steps_are_orders Env.thousandths
      ⟨⟨"key", "secret"⟩, "https://fapi.binance.com"⟩ Exec.rejecting (fun _ => 0) tradingConfig
      Exec.apiErrors Exec.apiErrors (by decide) (by decide)).2 tradingCalls
  let transitions :=
    (Log.run Env.thousandths tradingEgress tradingConfig (start, 0) tradingCalls).transitions
  have taken : transitions.map Transition.action = [.buy, .sell, .buy] := by decide +kernel
  have length : transitions.length = 3 := by simpa using congrArg List.length taken
  have three : sent = [.buy, .sell, .buy] := by
    rw [← recorded]
    exact congrArg (List.filter (· ≠ Action.hold)) taken
  have held : (last 2 transitions).map Transition.action = [.sell, .buy] := by
    rw [last, List.map_drop, taken, length]
    rfl
  refine ⟨env, ran, count.trans (by rw [three]; rfl), ?_⟩
  rw [ring]
  exact congrArg (List.filter (· ≠ Action.hold)) held

end Orders

end Trolly.Gym
