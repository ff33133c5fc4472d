import Trolly.Gym.Bounds

/-! The layout of the model input. A depth event gives a frame of seven features, any other
event a frame of one, so the length of the observation and what stands at index 5 depend on
which kinds the window holds. -/
namespace Trolly.Gym

open Recent Strategy PartialRun

variable {F E Error : Type}

section Frames

variable (f32 : F32 F)

/-- The mid price of a depth update, zero unless both sides are quoted. -/
def midOf (depth : DepthUpdate) : F :=
  let (bestBid, _) := (depth.bids.head?.map (parseLevel f32)).getD (f32.zero, f32.zero)
  let (bestAsk, _) := (depth.asks.head?.map (parseLevel f32)).getD (f32.zero, f32.zero)
  if f32.isPositive bestBid && f32.isPositive bestAsk then
    f32.div (f32.add bestBid bestAsk) f32.two
  else f32.zero

theorem depthFeatures_length (depth : DepthUpdate) : (depthFeatures f32 depth).length = 7 := rfl

theorem kindTagFeatures_length (kind : EventKind) : (kindTagFeatures f32 kind).length = 1 := by
  cases kind <;> rfl

theorem depthFeatures_mid (depth : DepthUpdate) :
    (depthFeatures f32 depth)[5]? = some (midOf f32 depth) := rfl

/-- A frame has seven features if its event is a depth update, and fewer otherwise. -/
theorem features_length {event : StreamEvent} {frame : FeatureVector F}
    (features : featuresFromEvent f32 event = some frame) :
    frame.length ≤ 7 ∧
      (7 ≤ frame.length → ∃ depth, event = .depth depth ∧ frame = depthFeatures f32 depth) := by
  cases event with
  | depth depth =>
    cases features
    exact ⟨Nat.le_refl _, fun _ => ⟨depth, rfl, rfl⟩⟩
  | execution update =>
    cases features
    rw [kindTagFeatures_length]
    exact ⟨by decide, fun long => absurd long (by decide)⟩
  | account update =>
    cases features
    rw [kindTagFeatures_length]
    exact ⟨by decide, fun long => absurd long (by decide)⟩

theorem flatten_length_le {frames : List (FeatureVector F)} (short : ∀ f ∈ frames, f.length ≤ 7) :
    frames.flatten.length ≤ 7 * frames.length := by
  induction frames with
  | nil => exact Nat.le_refl _
  | cons f rest ih =>
    obtain ⟨here, later⟩ := List.forall_mem_cons.mp short
    have tail := ih later
    rw [List.flatten_cons, List.length_append, List.length_cons]
    omega

theorem flatten_length {frames : List (FeatureVector F)} (seven : ∀ f ∈ frames, f.length = 7) :
    frames.flatten.length = 7 * frames.length := by
  induction frames with
  | nil => rfl
  | cons f rest ih =>
    obtain ⟨here, later⟩ := List.forall_mem_cons.mp seven
    rw [List.flatten_cons, List.length_append, List.length_cons, here, ih later]
    omega

end Frames

namespace Env

variable (f32 : F32 F) (egress : StreamEgress E Error) (config : EnvConfig) (start : E)

/-- Seven numbers for each frame, the sixth of all being the mid of the oldest. -/
structure LaidOut (env : Env F E) : Prop where
  length : env.lastObservation.length = 7 * env.window.frames.length
  mid : ∀ frame rest, env.window.frames = frame :: rest →
    ∃ depth, frame = depthFeatures f32 depth ∧ env.lastObservation[5]? = some (midOf f32 depth)

/-- The observation is laid out after every call of the run that returns, and once the window
is full its length never changes. -/
structure FixedLayout (calls : List Call) : Prop where
  laidOut : ∀ pre env, pre <+: calls →
    (new config start : Env F E).run f32 egress pre = some env → LaidOut f32 env
  constant : ∀ pre pre' env env', pre <+: pre' → pre' <+: calls →
    (new config start : Env F E).run f32 egress pre = some env →
    (new config start : Env F E).run f32 egress pre' = some env' →
    env.window.frames.length = config.windowFrames →
    env'.lastObservation.length = env.lastObservation.length

/-- Every event of the environment's symbol is a depth update. -/
def DepthOnly (calls : List Call) : Prop :=
  ∀ event, .ingest event ∈ calls → Accepted config (.ingest event) →
    ∃ depth, event = .depth depth

/-- The observation is the flattened window, whose frames are those of accepted events. -/
structure Framed (pre : List Call) (env : Env F E) : Prop where
  sound : Sound egress config start pre env
  observed : env.lastObservation = env.window.flattened
  frames : ∀ frame ∈ env.window.frames, ∃ event, .ingest event ∈ pre ∧
    Accepted config (.ingest event) ∧ featuresFromEvent f32 event = some frame

theorem new_framed : Framed f32 egress config start [] (new config start : Env F E) where
  sound := new_sound egress config start
  observed := rfl
  frames := fun _ member => nomatch member

variable {egress config start} {pre : List Call} {env : Env F E}

theorem Framed.call (framed : Framed f32 egress config start pre env) {call : Call}
    {next : Env F E} (called : env.call f32 egress call = some next) :
    Framed f32 egress config start (pre ++ [call]) next := by
  obtain ⟨sound, moves⟩ := framed.sound.call_sound f32 called
  have earlier : ∀ frame ∈ env.window.frames, ∃ event, .ingest event ∈ pre ++ [call] ∧
      Accepted config (.ingest event) ∧ featuresFromEvent f32 event = some frame := by
    intro frame member
    obtain ⟨event, listed, accepted, features⟩ := framed.frames frame member
    exact ⟨event, List.mem_append_left _ listed, accepted, features⟩
  by_cases accepted : Accepted config call
  · refine ⟨sound, moves.observed.trans (if_pos accepted), fun frame member => ?_⟩
    rw [moves.window, windowAfter_frames f32 _ accepted] at member
    rcases List.mem_append.mp member with old | newest
    · refine earlier frame ?_
      split at old
      · exact List.mem_of_mem_drop old
      · exact old
    · cases call with
      | ingest event =>
        obtain ⟨features, found⟩ := Option.isSome_iff_exists.mp (featuresFromEvent_isSome f32 event)
        rw [List.mem_singleton, frameOf, found] at newest
        exact ⟨event, by simp, accepted, newest ▸ found⟩
      | step action => exact accepted.elim
  · have same : next.window = env.window := by rw [moves.window, windowAfter, if_neg accepted]
    refine ⟨sound, ?_, fun frame member => earlier frame (same ▸ member)⟩
    rw [moves.observed, if_neg accepted, same, framed.observed]

theorem run_framed {calls : List Call} {reached : Env F E}
    (ran : (new config start : Env F E).run f32 egress calls = some reached) :
    Framed f32 egress config start calls reached :=
  run_invariant (Framed f32 egress config start) (new_framed f32 egress config start)
    (fun _ _ _ _ framed called => framed.call f32 called) ran

/-- Only depth frames: the observation is laid out. -/
theorem Framed.laidOut (framed : Framed f32 egress config start pre env)
    (depthOnly : DepthOnly config pre) : LaidOut f32 env := by
  have depths : ∀ frame ∈ env.window.frames, ∃ depth, frame = depthFeatures f32 depth := by
    intro frame member
    obtain ⟨event, listed, accepted, features⟩ := framed.frames frame member
    obtain ⟨depth, rfl⟩ := depthOnly event listed accepted
    exact ⟨depth, (Option.some.inj features).symm⟩
  constructor
  · rw [framed.observed, ObservationWindow.flattened]
    refine flatten_length (fun frame member => ?_)
    obtain ⟨depth, rfl⟩ := depths frame member
    exact depthFeatures_length f32 depth
  · intro frame rest oldest
    obtain ⟨depth, rfl⟩ := depths frame (by rw [oldest]; exact .head _)
    refine ⟨depth, rfl, ?_⟩
    rw [framed.observed, ObservationWindow.flattened, oldest, List.flatten_cons,
      List.getElem?_append_left (by rw [depthFeatures_length]; decide)]
    exact depthFeatures_mid f32 depth

/-- A laid-out observation right after an accepted event: the event was a depth update. -/
theorem Framed.newest_depth (framed : Framed f32 egress config start pre env) {event : StreamEvent}
    {next : Env F E} (called : env.call f32 egress (.ingest event) = some next)
    (accepted : Accepted config (.ingest event)) (laidOut : LaidOut f32 next) :
    ∃ depth, event = .depth depth := by
  obtain ⟨sound, moves⟩ := framed.sound.call_sound f32 called
  have after := framed.call f32 called
  obtain ⟨features, found⟩ := Option.isSome_iff_exists.mp (featuresFromEvent_isSome f32 event)
  obtain ⟨older, window⟩ : ∃ older, next.window.frames = older ++ [features] := by
    rw [moves.window, windowAfter_frames f32 _ accepted, frameOf, found]
    exact ⟨_, rfl⟩
  have short : ∀ frame ∈ older, frame.length ≤ 7 := by
    intro frame member
    obtain ⟨_, _, _, read⟩ := after.frames frame (window ▸ List.mem_append_left _ member)
    exact (features_length f32 read).1
  have total := laidOut.length
  have bound := flatten_length_le short
  rw [after.observed, ObservationWindow.flattened, window, List.flatten_append,
    List.length_append, List.length_append, List.flatten_singleton, List.length_singleton] at total
  obtain ⟨depth, same, _⟩ := (features_length f32 found).2 (by omega)
  exact ⟨depth, same⟩

/-! Whole runs. -/

theorem run_frames_mono {more : List Call} {reached : Env F E}
    (ran : (new config start : Env F E).run f32 egress pre = some env)
    (ranMore : (new config start : Env F E).run f32 egress (pre ++ more) = some reached) :
    env.window.frames.length ≤ reached.window.frames.length := by
  induction more using List.reverseRecOn generalizing reached with
  | nil =>
    rw [List.append_nil, ran] at ranMore
    cases ranMore
    exact Nat.le_refl _
  | append_singleton more call ih =>
    rw [← List.append_assoc, Env.run, ← PartialRun.run, run_snoc] at ranMore
    obtain ⟨before, ranBefore, called⟩ := Option.bind_eq_some_iff.mp ranMore
    refine (ih ranBefore).trans ?_
    rw [((run_sound f32 ranBefore).call_sound f32 called).2.window]
    by_cases accepted : Accepted config call
    · rw [windowAfter_frames f32 _ accepted, List.length_append, List.length_singleton]
      split
      · rw [List.length_drop]
        omega
      · omega
    · rw [windowAfter, if_neg accepted]

theorem run_unaccepted {calls : List Call} {reached : Env F E}
    (ran : (new config start : Env F E).run f32 egress calls = some reached)
    (none : ∀ call ∈ calls, ¬Accepted config call) :
    reached.window.frames = [] ∧ reached.lastObservation = [] := by
  have framed := run_framed f32 ran
  have empty : reached.window.frames = [] := by
    refine List.eq_nil_iff_forall_not_mem.mpr (fun frame member => ?_)
    obtain ⟨event, listed, accepted, _⟩ := framed.frames frame member
    exact none _ listed accepted
  exact ⟨empty, by rw [framed.observed, ObservationWindow.flattened, empty, List.flatten_nil]⟩

theorem fixedLayout_of_unaccepted {calls : List Call}
    (none : ∀ pre env, pre <+: calls → (new config start : Env F E).run f32 egress pre = some env →
      ∀ call ∈ pre, ¬Accepted config call) : FixedLayout f32 egress config start calls := by
  constructor
  · intro pre env front ran
    obtain ⟨frames, observation⟩ := run_unaccepted f32 ran (none pre env front ran)
    refine ⟨by rw [frames, observation]; rfl, fun frame rest oldest => ?_⟩
    rw [frames] at oldest
    cases oldest
  · intro pre pre' env env' front front' ran ran' _
    rw [(run_unaccepted f32 ran (none pre env (front.trans front') ran)).2,
      (run_unaccepted f32 ran' (none pre' env' front' ran')).2]

/-- With a slot in the ring, an accepted event leads to a state of the run. -/
theorem run_to_accepted (egress : StreamEgress E Error) (start : E)
    (ringed : config.replayCapacity ≠ 0) (pre : List Call) (call : Call) :
    ∃ before next, (new config start : Env F E).run f32 egress pre = some before ∧
      before.call f32 egress call = some next ∧
      (new config start : Env F E).run f32 egress (pre ++ [call]) = some next := by
  obtain ⟨next, ran⟩ := Option.isSome_iff_exists.mp
    ((run_isSome_iff f32 (pre ++ [call])).mpr (fun empty => absurd empty ringed))
  have split := ran
  rw [Env.run, ← PartialRun.run, run_snoc] at split
  obtain ⟨before, ranBefore, called⟩ := Option.bind_eq_some_iff.mp split
  exact ⟨before, next, ranBefore, called, ran⟩

theorem FixedLayout.depthOnly {calls : List Call}
    (layout : FixedLayout f32 egress config start calls) (ringed : config.replayCapacity ≠ 0) :
    DepthOnly config calls := by
  intro event listed accepted
  obtain ⟨pre, post, split⟩ := List.append_of_mem listed
  obtain ⟨before, next, ranBefore, called, ran⟩ :=
    run_to_accepted f32 egress start ringed pre (.ingest event)
  have front : pre ++ [.ingest event] <+: calls := ⟨post, by simp [split]⟩
  exact (run_framed f32 ranBefore).newest_depth f32 called accepted (layout.laidOut _ _ front ran)

theorem FixedLayout.frameless {calls : List Call}
    (layout : FixedLayout f32 egress config start calls) (ringed : config.replayCapacity ≠ 0)
    (frameless : config.windowFrames = 0) : ∀ call ∈ calls, ¬Accepted config call := by
  intro call listed accepted
  obtain ⟨pre, post, split⟩ := List.append_of_mem listed
  obtain ⟨before, next, ranBefore, called, ran⟩ :=
    run_to_accepted f32 egress start ringed pre call
  have front : pre ++ [call] <+: calls := ⟨post, by simp [split]⟩
  have constant := layout.constant [] (pre ++ [call]) _ next List.nil_prefix front rfl ran
    frameless.symm
  have laidOut := (layout.laidOut _ _ front ran).length
  rw [((run_sound f32 ranBefore).call_sound f32 called).2.window, windowAfter_frames f32 _ accepted,
    List.length_append, List.length_singleton] at laidOut
  have none : (new config start : Env F E).lastObservation.length = 0 := rfl
  omega

theorem fixedLayout_of_depthOnly {calls : List Call} (depthOnly : DepthOnly config calls)
    (framed : config.windowFrames = 0 → ∀ call ∈ calls, ¬Accepted config call) :
    FixedLayout f32 egress config start calls := by
  have laidOut : ∀ pre env, pre <+: calls →
      (new config start : Env F E).run f32 egress pre = some env → LaidOut f32 env :=
    fun pre env front ran => (run_framed f32 ran).laidOut f32
      (fun event listed => depthOnly event (front.subset listed))
  refine ⟨laidOut, ?_⟩
  rintro pre _ env env' ⟨more, rfl⟩ front ran ran' full
  have bound : env'.window.frames.length ≤ config.windowFrames := by
    refine run_window_le f32 ran' ?_
    rcases Nat.eq_zero_or_pos config.windowFrames with frameless | positive
    · exact Or.inr (fun call member => framed frameless call (front.subset member))
    · exact Or.inl positive
  have grown := run_frames_mono f32 ran ran'
  have before : pre <+: calls := (List.prefix_append pre more).trans front
  rw [(laidOut _ _ front ran').length, (laidOut _ _ before ran).length]
  omega

variable (egress config start)

/-- The layout is fixed exactly when only depth updates of the environment's symbol come, and
none at all into a window of no frames; a ring of no slots never lets one through. -/
theorem fixedLayout_iff (calls : List Call) :
    FixedLayout f32 egress config start calls ↔
      config.replayCapacity = 0 ∨ DepthOnly config calls ∧
        (config.windowFrames = 0 → ∀ call ∈ calls, ¬Accepted config call) := by
  constructor
  · intro layout
    by_cases ringed : config.replayCapacity = 0
    · exact Or.inl ringed
    · exact Or.inr ⟨layout.depthOnly f32 ringed, layout.frameless f32 ringed⟩
  · rintro (empty | ⟨depthOnly, framed⟩)
    · refine fixedLayout_of_unaccepted f32 (fun pre env _ ran call listed accepted => ?_)
      obtain ⟨front, post, split⟩ := List.append_of_mem listed
      have stores := (run_isSome_iff f32 pre).mp (by rw [ran]; rfl) empty front call post split
      exact stores (stores_of_accepted egress config start front accepted)
    · exact fixedLayout_of_depthOnly f32 depthOnly framed

/-- An execution update in the window: eight numbers for two frames, and no mid where the
reward looks for it. -/
theorem execution_misplaces_mid :
    ∃ env, (new ⟨"BTCUSDT", 2, 4, "0.01"⟩ 0 : Env Int Nat).run thousandths buyOnly
        [.ingest (.execution ⟨"BTCUSDT", "1", "BUY", "1", "99"⟩), .ingest (quote "BTCUSDT")] =
          some env ∧
      env.window.frames.length = 2 ∧ env.lastObservation.length = 8 ∧
      env.lastObservation[5]? = some 2000 ∧ midOf thousandths ⟨"BTCUSDT", [⟨"99", "2"⟩],
        [⟨"101", "1"⟩], some 1⟩ = 100000 :=
  ⟨_, rfl, rfl, rfl, rfl, rfl⟩

end Env

end Trolly.Gym
