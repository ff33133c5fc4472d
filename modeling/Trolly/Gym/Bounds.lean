import Trolly.Gym.Env
import Trolly.Lib.PartialRun

/-! The bounds of the environment, for every configuration. A ring of no slots panics at the
first push, and a window of no frames is never found full. -/
namespace Trolly.Gym.Env

open Recent Strategy PartialRun

variable {F E Error : Type} (f32 : F32 F) (egress : StreamEgress E Error) (config : EnvConfig)
  (start : E)

/-! What a call does, in any state of a run. -/

/-- The egress after the dispatches of a run; events do not reach it. -/
def egressAfter (calls : List Call) : E :=
  calls.foldl (fun state call =>
    match call with
    | .ingest _ => state
    | .step action => (action.dispatch egress state config.symbol config.defaultQty none).1) start

/-- An event of the environment's symbol. -/
def Accepted : Call → Prop
  | .ingest event => event.routingId = config.symbol
  | .step _ => False

instance : DecidablePred (Accepted config)
  | .ingest event => inferInstanceAs (Decidable (event.routingId = config.symbol))
  | .step _ => inferInstanceAs (Decidable False)

/-- The call stores a transition: an accepted event, or a step whose dispatch succeeds. -/
def Stores (pre : List Call) : Call → Prop
  | .ingest event => event.routingId = config.symbol
  | .step action => ∃ state, action.dispatch egress (egressAfter egress config start pre)
      config.symbol config.defaultQty none = (state, .ok ())

theorem stores_of_accepted (pre : List Call) {call : Call} (accepted : Accepted config call) :
    Stores egress config start pre call := by
  cases call with
  | ingest event => exact accepted
  | step action => exact accepted.elim

def frameOf : Call → FeatureVector F
  | .ingest event => (featuresFromEvent f32 event).getD []
  | .step _ => []

def windowAfter (window : ObservationWindow F) (call : Call) : ObservationWindow F :=
  if Accepted config call then window.push (frameOf f32 call) else window

structure Sound (pre : List Call) (env : Env F E) : Prop where
  config_eq : env.config = config
  egress_eq : env.egress = egressAfter egress config start pre
  window_capacity : env.window.capacity = config.windowFrames
  replay_capacity : env.replay.capacity = config.replayCapacity
  shaped : env.replay.Shaped

/-- All but the replay ring. -/
structure Moves (pre : List Call) (env : Env F E) (call : Call) (next : Env F E) : Prop where
  config_eq : next.config = env.config
  egress_eq : next.egress = egressAfter egress config start (pre ++ [call])
  window : next.window = windowAfter f32 config env.window call
  observed : next.lastObservation =
    if Accepted config call then next.window.flattened else env.lastObservation

theorem new_sound : Sound egress config start [] (new config start : Env F E) where
  config_eq := rfl
  egress_eq := rfl
  window_capacity := rfl
  replay_capacity := rfl
  shaped := RingBuffer.new_shaped _

theorem egressAfter_snoc (pre : List Call) (call : Call) :
    egressAfter egress config start (pre ++ [call]) =
      match call with
      | .ingest _ => egressAfter egress config start pre
      | .step action => (action.dispatch egress (egressAfter egress config start pre)
          config.symbol config.defaultQty none).1 := by
  rw [egressAfter, List.foldl_append]
  cases call <;> rfl

variable {egress config start} {pre : List Call} {env : Env F E}

theorem Moves.of_rejected {call : Call} {next : Env F E} (rejected : ¬Accepted config call)
    (config_eq : next.config = env.config)
    (egress_eq : next.egress = egressAfter egress config start (pre ++ [call]))
    (window : next.window = env.window) (observed : next.lastObservation = env.lastObservation) :
    Moves f32 egress config start pre env call next := by
  refine ⟨config_eq, egress_eq, ?_, ?_⟩
  · rw [windowAfter, if_neg rejected, window]
  · rw [if_neg rejected, observed]

variable (egress config start pre env) in
/-- The call succeeds and leaves the ring alone. -/
def Idles (call : Call) : Prop :=
  ∃ next, env.call f32 egress call = some next ∧
    Moves f32 egress config start pre env call next ∧ next.replay = env.replay

variable (egress config start pre env) in
/-- The call is one push on the ring, and fails only with it. -/
def Pushes (call : Call) : Prop :=
  ∃ (transition : Transition F) (next : Env F E),
    env.call f32 egress call =
      (env.replay.push transition).map (fun replay => { next with replay }) ∧
    ∀ replay, Moves f32 egress config start pre env call { next with replay }

theorem Sound.ingest_other (sound : Sound egress config start pre env) {event : StreamEvent}
    (other : event.routingId ≠ config.symbol) :
    Idles f32 egress config start pre env (.ingest event) := by
  have ignored : event.routingId ≠ env.config.symbol := by rwa [sound.config_eq]
  refine ⟨env, ?_, .of_rejected f32 other rfl ?_ rfl rfl, rfl⟩
  · simp only [Env.call, ingestEvent, if_pos ignored, Option.map_some]
  · rw [egressAfter_snoc]
    exact sound.egress_eq

theorem Sound.ingest_own (sound : Sound egress config start pre env) {event : StreamEvent}
    (own : event.routingId = config.symbol) :
    Pushes f32 egress config start pre env (.ingest event) := by
  obtain ⟨frame, features⟩ := Option.isSome_iff_exists.mp (featuresFromEvent_isSome f32 event)
  refine ⟨prefill f32 (env.window.push frame).flattened,
    { env with
      window := env.window.push frame
      lastObservation := (env.window.push frame).flattened }, ?_, fun replay => ?_⟩
  · have asked : ¬ event.routingId ≠ env.config.symbol := by
      rw [sound.config_eq]
      exact not_not.mpr own
    simp only [Env.call, ingestEvent, if_neg asked, features, pushObservationWindow]
    cases env.replay.push (prefill f32 (env.window.push frame).flattened) <;> rfl
  · have accepted : Accepted config (.ingest event) := own
    refine ⟨rfl, ?_, ?_, ?_⟩
    · rw [egressAfter_snoc]
      exact sound.egress_eq
    · rw [windowAfter, if_pos accepted, frameOf, features]
      rfl
    · rw [if_pos accepted]

section Steps

variable {action : Action} {state : E}

theorem egressAfter_step {outcome : Except Error Unit}
    (sent : action.dispatch egress (egressAfter egress config start pre) config.symbol
      config.defaultQty none = (state, outcome)) :
    state = egressAfter egress config start (pre ++ [.step action]) := by
  rw [egressAfter_snoc]
  simp only [sent]

theorem Sound.step_failed (sound : Sound egress config start pre env) {error : Error}
    (sent : action.dispatch egress (egressAfter egress config start pre) config.symbol
      config.defaultQty none = (state, .error error)) :
    Idles f32 egress config start pre env (.step action) := by
  refine ⟨{ env with egress := state }, ?_,
    .of_rejected f32 (fun accepted => accepted) rfl (egressAfter_step sent) rfl rfl, rfl⟩
  simp only [Env.call, step, sound.config_eq, sound.egress_eq, sent, Option.map_some]

theorem Sound.step_sent (sound : Sound egress config start pre env)
    (sent : action.dispatch egress (egressAfter egress config start pre) config.symbol
      config.defaultQty none = (state, .ok ())) :
    Pushes f32 egress config start pre env (.step action) := by
  let observation :=
    if env.lastObservation.isEmpty then env.window.flattened else env.lastObservation
  refine ⟨⟨observation, action, rewardStub f32 observation action, false⟩,
    { env with egress := state, steps := env.steps + 1 }, ?_,
    fun replay => .of_rejected f32 (fun accepted => accepted) rfl (egressAfter_step sent) rfl rfl⟩
  simp only [Env.call, step, sound.config_eq, sound.egress_eq, sent, pushStep]
  cases env.replay.push _ <;> rfl

end Steps

/-- Either the call stores nothing and succeeds, or it is one push on the ring. -/
theorem Sound.call_cases (sound : Sound egress config start pre env) (call : Call) :
    (¬Stores egress config start pre call ∧ Idles f32 egress config start pre env call) ∨
      (Stores egress config start pre call ∧ Pushes f32 egress config start pre env call) := by
  cases call with
  | ingest event =>
    by_cases own : event.routingId = config.symbol
    · exact Or.inr ⟨own, sound.ingest_own f32 own⟩
    · exact Or.inl ⟨own, sound.ingest_other f32 own⟩
  | step action =>
    cases sent : action.dispatch egress (egressAfter egress config start pre) config.symbol
      config.defaultQty none with
    | mk state outcome =>
      cases outcome with
      | ok done => exact Or.inr ⟨⟨state, sent⟩, sound.step_sent f32 sent⟩
      | error e =>
        refine Or.inl ⟨?_, sound.step_failed f32 sent⟩
        rintro ⟨other, same⟩
        rw [sent] at same
        cases same

theorem Sound.call_isSome_iff (sound : Sound egress config start pre env) (call : Call) :
    (env.call f32 egress call).isSome ↔
      (Stores egress config start pre call → 0 < config.replayCapacity) := by
  rcases sound.call_cases f32 call with
    ⟨idle, next, called, _⟩ | ⟨stores, transition, next, called, _⟩
  · simp [called, idle]
  · rw [called, Option.isSome_map]
    have capacity := sound.replay_capacity
    rcases Nat.eq_zero_or_pos config.replayCapacity with empty | positive
    · simp [sound.shaped.push_empty (capacity.trans empty), stores, empty]
    · obtain ⟨replay, pushed, _⟩ := sound.shaped.push (capacity ▸ positive) transition
      simp [pushed, positive]

theorem Sound.call_sound (sound : Sound egress config start pre env) {call : Call} {next : Env F E}
    (called : env.call f32 egress call = some next) :
    Sound egress config start (pre ++ [call]) next ∧
      Moves f32 egress config start pre env call next := by
  have windowCapacity : ∀ {after : Env F E}, Moves f32 egress config start pre env call after →
      after.window.capacity = config.windowFrames := by
    intro after moves
    rw [moves.window, windowAfter, ← sound.window_capacity]
    split <;> rfl
  rcases sound.call_cases f32 call with
    ⟨_, after, same, moves, replay⟩ | ⟨_, transition, after, pushes, moves⟩
  · rw [same] at called
    cases called
    exact ⟨⟨moves.config_eq.trans sound.config_eq, moves.egress_eq, windowCapacity moves,
      replay ▸ sound.replay_capacity, replay ▸ sound.shaped⟩, moves⟩
  · rw [pushes] at called
    obtain ⟨replay, pushed, rfl⟩ := Option.map_eq_some_iff.mp called
    have positive : 0 < env.replay.capacity := by
      by_contra empty
      rw [sound.shaped.push_empty (Nat.eq_zero_of_not_pos empty)] at pushed
      cases pushed
    obtain ⟨ring, stored, capacity, shaped⟩ := sound.shaped.push positive transition
    rw [stored] at pushed
    cases pushed
    have moved := moves replay
    exact ⟨⟨moved.config_eq.trans sound.config_eq, moved.egress_eq, windowCapacity moved,
      capacity.trans sound.replay_capacity, shaped⟩, moved⟩

/-! Whole runs. -/

theorem run_sound {calls : List Call} {reached : Env F E}
    (ran : (new config start : Env F E).run f32 egress calls = some reached) :
    Sound egress config start calls reached :=
  run_invariant (Sound egress config start) (new_sound egress config start)
    (fun _ _ _ _ sound called => (sound.call_sound f32 called).1) ran

/-- A run panics exactly when it stores a transition in a ring of no slots. -/
theorem run_isSome_iff (calls : List Call) :
    ((new config start : Env F E).run f32 egress calls).isSome ↔
      (config.replayCapacity = 0 →
        EachCall (fun pre call => ¬Stores egress config start pre call) calls) := by
  have decided := PartialRun.run_isSome_iff (Sound egress config start)
    (new_sound egress config start : Sound egress config start [] (new config start : Env F E))
    (fun _ _ _ _ sound called => (sound.call_sound f32 called).1)
    (fun _ _ call sound => sound.call_isSome_iff f32 call) calls
  refine decided.trans ?_
  constructor
  · intro each empty pre call post split stores
    exact absurd (each pre call post split stores) (empty ▸ Nat.lt_irrefl 0)
  · intro each pre call post split stores
    by_contra empty
    exact each (Nat.eq_zero_of_not_pos empty) pre call post split stores

theorem windowAfter_frames (window : ObservationWindow F) {call : Call}
    (accepted : Accepted config call) :
    (windowAfter f32 config window call).frames =
      (if window.frames.length = window.capacity then window.frames.drop 1 else window.frames) ++
        [frameOf f32 call] := by
  rw [windowAfter, if_pos accepted]
  rfl

/-- The window stays within its frames, as long as it has any or nothing is accepted. -/
theorem run_window_le {calls : List Call} {reached : Env F E}
    (ran : (new config start : Env F E).run f32 egress calls = some reached)
    (framed : 0 < config.windowFrames ∨ ∀ call ∈ calls, ¬Accepted config call) :
    reached.window.frames.length ≤ config.windowFrames := by
  have kept := run_invariant
    (fun pre env => Sound egress config start pre env ∧
      ((0 < config.windowFrames ∨ ∀ call ∈ pre, ¬Accepted config call) →
        env.window.frames.length ≤ config.windowFrames))
    ⟨new_sound egress config start, fun _ => Nat.zero_le _⟩ ?_ ran
  · exact kept.2 framed
  · rintro pre env call next ⟨sound, bounded⟩ called
    obtain ⟨nextSound, moves⟩ := sound.call_sound f32 called
    refine ⟨nextSound, fun framed => ?_⟩
    have before := bounded (framed.imp_right (fun none c member => none c (by simp [member])))
    rw [moves.window]
    by_cases accepted : Accepted config call
    · have positive : 0 < config.windowFrames :=
        framed.resolve_right (fun none => none call (by simp) accepted)
      rw [windowAfter_frames f32 _ accepted, List.length_append, List.length_singleton,
        sound.window_capacity]
      split
      · rw [List.length_drop]
        omega
      · omega
    · rwa [windowAfter, if_neg accepted]

variable (egress config start)

/-- After every call there is a next state, and window and ring are within their bounds. -/
def Bounded (calls : List Call) : Prop :=
  ∀ pre, pre <+: calls → ∃ env, (new config start : Env F E).run f32 egress pre = some env ∧
    env.window.frames.length ≤ config.windowFrames ∧ env.replay.len ≤ config.replayCapacity

/-- A run is bounded exactly when it accepts no event into a window of no frames and stores
nothing in a ring of no slots. -/
theorem bounded_iff (calls : List Call) :
    Bounded f32 egress config start calls ↔
      (config.windowFrames = 0 → ∀ call ∈ calls, ¬Accepted config call) ∧
      (config.replayCapacity = 0 →
        EachCall (fun pre call => ¬Stores egress config start pre call) calls) := by
  constructor
  · intro bounded
    constructor
    · intro frameless call member accepted
      obtain ⟨pre, post, split⟩ := List.append_of_mem member
      have front : pre ++ [call] <+: calls := ⟨post, by simp [split]⟩
      obtain ⟨reached, ran, window, _⟩ := bounded _ front
      rw [Env.run, ← PartialRun.run, run_snoc] at ran
      obtain ⟨before, ranBefore, called⟩ := Option.bind_eq_some_iff.mp ran
      have moves := ((run_sound f32 ranBefore).call_sound f32 called).2
      rw [moves.window, windowAfter_frames f32 _ accepted, frameless] at window
      simp at window
    · obtain ⟨reached, ran, _⟩ := bounded calls List.prefix_rfl
      exact (run_isSome_iff f32 calls).mp (by rw [ran]; rfl)
  · rintro ⟨framed, ringed⟩ pre ⟨post, rfl⟩
    obtain ⟨reached, ran⟩ := Option.isSome_iff_exists.mp
      ((run_isSome_iff f32 pre).mpr (fun empty => eachCall_of_append (ringed empty)))
    have sound := run_sound f32 ran
    refine ⟨reached, ran, run_window_le f32 ran ?_, sound.replay_capacity ▸ sound.shaped.len⟩
    rcases Nat.eq_zero_or_pos config.windowFrames with frameless | positive
    · exact Or.inr (fun call member =>
        framed frameless call (List.mem_append_left post member))
    · exact Or.inl positive

/-- A ring of no slots panics at the first accepted event, and a window of no frames holds one
after it. -/
theorem zero_capacities_unbounded :
    (new ⟨"BTCUSDT", 1, 0, "0.01"⟩ 0 : Env Int Nat).run thousandths buyOnly
        [.ingest (quote "BTCUSDT")] = none ∧
      ∃ env, (new ⟨"BTCUSDT", 0, 1, "0.01"⟩ 0 : Env Int Nat).run thousandths buyOnly
          [.ingest (quote "BTCUSDT")] = some env ∧ env.window.frames.length = 1 :=
  ⟨rfl, _, rfl, rfl⟩

end Trolly.Gym.Env
