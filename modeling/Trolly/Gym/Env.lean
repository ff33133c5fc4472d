import Trolly.Gym.Observation
import Trolly.Std.Text

/-! The training environment: events grow the observation window, steps dispatch an action
and record a transition. In every reachable state the window, the cached observation, the
replay ring and the step counter are views of one append-only log. -/
namespace Trolly.Gym

open Recent Strategy

variable {F E Error : Type}

inductive Action where
  | hold
  | buy
  | sell
  deriving DecidableEq

namespace Action

def toOutbound (self : Action) (symbol qty : String) (price : Option String) : OutboundMessage :=
  match self with
  | hold => .subscribe symbol "depth"
  | buy => .orderRequest ⟨symbol, "BUY", qty, price, none, none⟩
  | sell => .orderRequest ⟨symbol, "SELL", qty, price, none, none⟩

def dispatch (self : Action) (egress : StreamEgress E Error) (state : E) (symbol qty : String)
    (price : Option String) : E × Except Error Unit :=
  egress.dispatch state (self.toOutbound symbol qty price)

end Action

structure Transition (F : Type) where
  observation : List F
  action : Action
  reward : F
  done : Bool

abbrev ReplayBuffer (F : Type) := RingBuffer (Transition F)

section Pushes

variable (f32 : F32 F)

/-- The prefill of an ingested event: the current window under the action `Hold`. -/
def prefill (window : List F) : Transition F := ⟨window, .hold, f32.zero, false⟩

def pushObservationWindow (replay : ReplayBuffer F) (window : List F) : Option (ReplayBuffer F) :=
  replay.push (prefill f32 window)

def pushStep (replay : ReplayBuffer F) (observation : List F) (action : Action) (reward : F)
    (done : Bool) : Option (ReplayBuffer F) :=
  replay.push ⟨observation, action, reward, done⟩

def rewardStub (observation : List F) (action : Action) : F :=
  let mid := observation[5]?.getD f32.zero
  match action with
  | .hold => f32.zero
  | .buy => f32.mul mid f32.milli
  | .sell => f32.mul (f32.neg mid) f32.milli

end Pushes

structure StepResult (F : Type) where
  observation : List F
  reward : F
  done : Bool

structure EnvConfig where
  symbol : String
  windowFrames : Nat
  replayCapacity : Nat
  defaultQty : String

structure Env (F E : Type) where
  config : EnvConfig
  window : ObservationWindow F
  replay : ReplayBuffer F
  egress : E
  lastObservation : List F
  steps : Nat

namespace Env

def new (config : EnvConfig) (egress : E) : Env F E :=
  ⟨config, .new config.windowFrames, .new config.replayCapacity, egress, [], 0⟩

variable (f32 : F32 F) (egress : StreamEgress E Error)

/-- `ingest_event`, with what it returns; `none` is a panic of the replay ring. -/
def ingestEvent (self : Env F E) (event : StreamEvent) : Option (Env F E × Bool) :=
  if event.routingId ≠ self.config.symbol then some (self, false)
  else match featuresFromEvent f32 event with
    | some frame => do
      let window := self.window.push frame
      let lastObservation := window.flattened
      let replay ← pushObservationWindow f32 self.replay lastObservation
      pure ({ self with window, lastObservation, replay }, true)
    | none => some (self, false)

def step (self : Env F E) (action : Action) : Option (Env F E × Except Error (StepResult F)) :=
  let observation :=
    if self.lastObservation.isEmpty then self.window.flattened else self.lastObservation
  let reward := rewardStub f32 observation action
  let done := false
  match action.dispatch egress self.egress self.config.symbol self.config.defaultQty none with
  | (state, .error e) => some ({ self with egress := state }, .error e)
  | (state, .ok ()) => do
    let replay ← pushStep self.replay observation action reward done
    pure ({ self with egress := state, replay, steps := self.steps + 1 },
      .ok ⟨observation, reward, done⟩)

inductive Call where
  | ingest (event : StreamEvent)
  | step (action : Action)

def call (self : Env F E) : Call → Option (Env F E)
  | .ingest event => (self.ingestEvent f32 event).map Prod.fst
  | .step action => (self.step f32 egress action).map Prod.fst

def run (self : Env F E) (calls : List Call) : Option (Env F E) :=
  calls.foldlM (call f32 egress) self

end Env

/-! What the environment is for: a log of everything accepted, which forgets nothing. -/

structure Log (F E : Type) where
  frames : List (FeatureVector F)
  transitions : List (Transition F)
  steps : Nat
  egress : E

namespace Log

variable (f32 : F32 F) (egress : StreamEgress E Error) (config : EnvConfig)

def new (egress : E) : Log F E := ⟨[], [], 0, egress⟩

def window (log : Log F E) : List (FeatureVector F) := last config.windowFrames log.frames

def accept (log : Log F E) (frame : FeatureVector F) : Log F E :=
  let log := { log with frames := log.frames ++ [frame] }
  { log with transitions := log.transitions ++ [prefill f32 (log.window config).flatten] }

def record (log : Log F E) (action : Action) : Log F E :=
  let observation := (log.window config).flatten
  { log with
    transitions := log.transitions ++
      [⟨observation, action, rewardStub f32 observation action, false⟩]
    steps := log.steps + 1 }

def call (log : Log F E) : Env.Call → Log F E
  | .ingest event =>
    if event.routingId = config.symbol then
      log.accept f32 config ((featuresFromEvent f32 event).getD [])
    else log
  | .step action =>
    match action.dispatch egress log.egress config.symbol config.defaultQty none with
    | (state, .error _) => { log with egress := state }
    | (state, .ok ()) => { log.record f32 config action with egress := state }

def run (start : E) (calls : List Env.Call) : Log F E :=
  calls.foldl (call f32 egress config) (new start)

end Log

namespace Env

variable (f32 : F32 F) (egress : StreamEgress E Error) {config : EnvConfig}

/-- The environment is a view of the log. -/
structure Views (config : EnvConfig) (env : Env F E) (log : Log F E) : Prop where
  config_eq : env.config = config
  window : env.window = ⟨config.windowFrames, log.window config⟩
  capacity : env.replay.capacity = config.replayCapacity
  replay : env.replay.Holds log.transitions
  egress_eq : env.egress = log.egress
  observation : env.lastObservation = env.window.flattened
  steps : env.steps = log.steps

theorem new_views (ringed : 0 < config.replayCapacity) (start : E) :
    Views config (new config start : Env F E) (.new start) where
  config_eq := rfl
  window := by rw [Log.window, Log.new, last_nil]; rfl
  capacity := rfl
  replay := RingBuffer.new_holds ringed
  egress_eq := rfl
  observation := rfl
  steps := rfl

variable {env : Env F E} {log : Log F E}

theorem Views.observed (views : Views config env log) :
    (if env.lastObservation.isEmpty then env.window.flattened else env.lastObservation) =
      (log.window config).flatten := by
  rw [views.observation, ite_self, views.window]
  rfl

theorem Views.ingest_other (views : Views config env log) {event : StreamEvent}
    (other : event.routingId ≠ config.symbol) : env.ingestEvent f32 event = some (env, false) := by
  rw [ingestEvent, if_pos (by rwa [views.config_eq])]

theorem Views.ingest (views : Views config env log) (framed : 0 < config.windowFrames)
    {event : StreamEvent} (own : event.routingId = config.symbol) :
    ∃ next, env.ingestEvent f32 event = some (next, true) ∧
      Views config next (log.accept f32 config ((featuresFromEvent f32 event).getD [])) := by
  obtain ⟨frame, features⟩ := Option.isSome_iff_exists.mp (featuresFromEvent_isSome f32 event)
  have pushed : env.window.push frame =
      ⟨config.windowFrames, last config.windowFrames (log.frames ++ [frame])⟩ := by
    rw [views.window]
    exact ObservationWindow.push_last log.frames framed rfl frame
  obtain ⟨replay, stored, capacity, holds⟩ := views.replay.push
    (prefill f32 (last config.windowFrames (log.frames ++ [frame])).flatten)
  refine ⟨{ env with
      window := env.window.push frame
      lastObservation := (env.window.push frame).flattened
      replay }, ?_, ?_⟩
  · have asked : ¬ event.routingId ≠ env.config.symbol := by
      rw [views.config_eq]
      exact not_not.mpr own
    simp only [ingestEvent, if_neg asked, features, pushed, ObservationWindow.flattened,
      pushObservationWindow, stored, Option.bind_eq_bind, Option.bind_some, Option.pure_def]
  · rw [features]
    exact ⟨views.config_eq, pushed, capacity.trans views.capacity, holds, views.egress_eq, rfl,
      views.steps⟩

theorem Views.step_error (views : Views config env log) {action : Action} {state : E} {e : Error}
    (failed : action.dispatch egress log.egress config.symbol config.defaultQty none =
      (state, .error e)) :
    env.step f32 egress action = some ({ env with egress := state }, .error e) := by
  simp only [step, views.config_eq, views.egress_eq, failed]

theorem Views.step_ok (views : Views config env log) {action : Action} {state : E}
    (sent : action.dispatch egress log.egress config.symbol config.defaultQty none =
      (state, .ok ())) :
    ∃ next, env.step f32 egress action = some (next, .ok ⟨(log.window config).flatten,
        rewardStub f32 (log.window config).flatten action, false⟩) ∧
      Views config next { log.record f32 config action with egress := state } := by
  obtain ⟨replay, stored, capacity, holds⟩ := views.replay.push
    ⟨(log.window config).flatten, action, rewardStub f32 (log.window config).flatten action, false⟩
  refine ⟨{ env with egress := state, replay, steps := env.steps + 1 }, ?_, ?_⟩
  · simp only [step, views.config_eq, views.egress_eq, sent, views.observed, pushStep, stored,
      Option.bind_eq_bind, Option.bind_some, Option.pure_def]
  · exact ⟨views.config_eq, views.window, capacity.trans views.capacity, holds, rfl,
      views.observation, congrArg (· + 1) views.steps⟩

/-- The step: whatever the call, it succeeds and the environment follows the log. -/
theorem Views.call (views : Views config env log) (framed : 0 < config.windowFrames)
    (request : Call) : ∃ next, env.call f32 egress request = some next ∧
      Views config next (log.call f32 egress config request) := by
  cases request with
  | ingest event =>
    by_cases own : event.routingId = config.symbol
    · obtain ⟨next, ingested, kept⟩ := views.ingest f32 framed own
      exact ⟨next, by simp [Env.call, ingested], by simpa [Log.call, own] using kept⟩
    · refine ⟨env, by simp [Env.call, views.ingest_other f32 own], ?_⟩
      simpa [Log.call, own] using views
  | step action =>
    cases sent : action.dispatch egress log.egress config.symbol config.defaultQty none with
    | mk state outcome =>
      cases outcome with
      | error e =>
        refine ⟨{ env with egress := state }, ?_, ?_⟩
        · simp [Env.call, views.step_error f32 egress sent]
        · simp only [Log.call, sent]
          exact ⟨views.config_eq, views.window, views.capacity, views.replay, rfl,
            views.observation, views.steps⟩
      | ok done =>
        obtain ⟨next, stepped, kept⟩ := views.step_ok f32 egress sent
        exact ⟨next, by simp [Env.call, stepped], by simpa only [Log.call, sent] using kept⟩

theorem run_views (framed : 0 < config.windowFrames) (views : Views config env log)
    (calls : List Call) : ∃ reached, env.run f32 egress calls = some reached ∧
      Views config reached (calls.foldl (Log.call f32 egress config) log) := by
  induction calls generalizing env log with
  | nil => exact ⟨env, rfl, views⟩
  | cons request rest ih =>
    obtain ⟨next, called, kept⟩ := views.call f32 egress framed request
    obtain ⟨reached, ran, last⟩ := ih kept
    exact ⟨reached, by rw [run, List.foldlM_cons, called]; exact ran, last⟩

/-- For every interleaving of events and steps, whatever the egress answers: nothing panics;
the window and the replay ring are the ends of the log; the cached observation is the
flattened window; and the counter counts the steps that were Ok. From such a state, an event
for another routing id changes nothing, and a failed dispatch only the egress. -/
theorem env_views_log (config : EnvConfig) (framed : 1 ≤ config.windowFrames)
    (ringed : 1 ≤ config.replayCapacity) (start : E) (calls : List Call) :
    ∃ env, (new config start : Env F E).run f32 egress calls = some env ∧
      (env.window.frames =
        last config.windowFrames (Log.run f32 egress config start calls).frames) ∧
      env.lastObservation = env.window.flattened ∧
      env.steps = (Log.run f32 egress config start calls).steps ∧
      (env.replay.snapshot =
        last config.replayCapacity (Log.run f32 egress config start calls).transitions) ∧
      (∀ event : StreamEvent, event.routingId ≠ config.symbol →
        env.ingestEvent f32 event = some (env, false)) ∧
      ∀ action state e, action.dispatch egress env.egress config.symbol config.defaultQty none =
          (state, .error e) →
        env.step f32 egress action = some ({ env with egress := state }, .error e) := by
  obtain ⟨env, ran, views⟩ := run_views f32 egress framed (new_views ringed start) calls
  refine ⟨env, ran, congrArg ObservationWindow.frames views.window, views.observation, views.steps,
    ?_, fun event other => views.ingest_other f32 other, fun action state e failed => ?_⟩
  · rw [views.replay.snapshot, views.capacity]
    rfl
  · rw [views.egress_eq] at failed
    exact views.step_error f32 egress failed

/-! A run over thousandths, with an egress that refuses to sell. -/

def thousandths : F32 Int where
  zero := 0
  one := 1000
  two := 2000
  three := 3000
  milli := 1
  parse := fun s => some (1000 * Rust.natOfDigits s.toList)
  ofU64 := fun n => 1000 * n.toNat
  isPositive := fun a => 0 < a
  add := fun a b => a + b
  sub := fun a b => a - b
  mul := fun a b => a * b / 1000
  div := fun a b => a * 1000 / b
  neg := fun a => -a

def buyOnly : StreamEgress Nat String where
  dispatch := fun sent message =>
    match message with
    | .orderRequest order =>
      if order.side = "SELL" then (sent, .error "refused") else (sent + 1, .ok ())
    | _ => (sent + 1, .ok ())

def quote (symbol : String) : StreamEvent := .depth ⟨symbol, [⟨"99", "2"⟩], [⟨"101", "1"⟩], some 1⟩

def mixedCalls : List Call :=
  [.ingest (quote "BTCUSDT"), .step .buy, .ingest (quote "ETHUSDT"), .step .sell,
    .ingest (.execution ⟨"BTCUSDT", "1", "BUY", "1", "99"⟩)]

theorem env_views_mixedCalls :
    ∃ env, (new ⟨"BTCUSDT", 1, 2, "0.01"⟩ 0 : Env Int Nat).run thousandths buyOnly mixedCalls =
        some env ∧
      env.window.frames = [[2000]] ∧ env.steps = 1 ∧
      env.replay.snapshot =
        [⟨[99000, 2000, 101000, 1000, 2000, 100000, 1000], .buy, 100, false⟩,
          ⟨[2000], .hold, 0, false⟩] ∧
      env.ingestEvent thousandths (quote "ETHUSDT") = some (env, false) := by
  obtain ⟨env, ran, frames, _, steps, snapshot, other, _⟩ := env_views_log thousandths buyOnly
    ⟨"BTCUSDT", 1, 2, "0.01"⟩ (by decide) (by decide) 0 mixedCalls
  exact ⟨env, ran, frames.trans rfl, steps.trans rfl, snapshot.trans rfl, other _ (by decide)⟩

end Env

end Trolly.Gym
