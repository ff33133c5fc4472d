import Trolly.Gym.WolfPpo
import Trolly.Lib.Traversal
import Trolly.Std.F64

/-!
Self-play on a matrix game, in exact arithmetic with NaN and the infinities. The networks and
`sqrt` are parameters, and the actions that both players sample are inputs of a run. What may go
wrong is an action outside of the payoff table, and a distance that is no number.
-/

namespace Trolly.Gym

open Recent Rust Traversal

universe u

variable {K W : Type u} [Field K] [LinearOrder K]

/-! ### The game -/

/-- The panics of a self-play run. -/
inductive Panic where
  /-- `payoff_for`: an action that the payoff table does not have. -/
  | payoffIndex
  /-- `euclidean_distance_to_nes`: a policy and an equilibrium of different lengths. -/
  | dimension
  /-- `policy_probs`: the policy of a single action is squeezed to a scalar. -/
  | scalarPolicy
  deriving DecidableEq, Repr

structure MatrixGame (K : Type u) where
  payoff : List (List K)
  numRowActions : Nat
  numColActions : Nat

namespace MatrixGame

/-- `none` is the panic of an assertion. -/
def new (payoff : List (List K)) : Option (MatrixGame K) :=
  match payoff with
  | [] => none
  | first :: _ =>
    let numColActions := first.length
    if 0 < numColActions ∧ ∀ row ∈ payoff, row.length = numColActions then
      some { payoff, numRowActions := payoff.length, numColActions }
    else none

def payoffFor (self : MatrixGame K) (rowAction colAction : Nat) : Except Panic K :=
  match self.payoff[rowAction]? with
  | none => .error .payoffIndex
  | some row =>
    match row[colAction]? with
    | none => .error .payoffIndex
    | some payoff => .ok payoff

/-- A table with an entry for every pair of actions, and at least one of each. -/
structure Rectangular (game : MatrixGame K) : Prop where
  rows : game.payoff.length = game.numRowActions
  row : ∀ row ∈ game.payoff, row.length = game.numColActions
  someRow : 0 < game.numRowActions
  someCol : 0 < game.numColActions

omit [Field K] [LinearOrder K] in
theorem new_rectangular {payoff : List (List K)} {game : MatrixGame K}
    (accepted : new payoff = some game) : game.Rectangular := by
  cases payoff with
  | nil => cases accepted
  | cons first rest =>
    obtain ⟨⟨positive, each⟩, made⟩ := Option.ite_none_right_eq_some.mp accepted
    cases made
    exact ⟨rfl, each, Nat.zero_lt_succ _, positive⟩

omit [Field K] [LinearOrder K] in
theorem payoffFor_inside {game : MatrixGame K} (rectangular : game.Rectangular) {r c : Nat}
    (inRows : r < game.numRowActions) (inCols : c < game.numColActions) :
    ∃ payoff, game.payoffFor r c = .ok payoff := by
  have bound : r < game.payoff.length := by rwa [rectangular.rows]
  have width := rectangular.row _ (List.getElem_mem bound)
  have inside : c < game.payoff[r].length := by rwa [width]
  refine ⟨game.payoff[r][c], ?_⟩
  simp [payoffFor, List.getElem?_eq_getElem bound, List.getElem?_eq_getElem inside]

omit [Field K] [LinearOrder K] in
theorem payoffFor_beyond {game : MatrixGame K} (rectangular : game.Rectangular) {r c : Nat}
    (beyond : game.numColActions ≤ c) : game.payoffFor r c = .error .payoffIndex := by
  rw [payoffFor]
  cases found : game.payoff[r]? with
  | none => rfl
  | some row =>
    have width := rectangular.row row (List.mem_of_getElem? found)
    have outside : row[c]? = none := List.getElem?_eq_none (by omega)
    simp [outside]

end MatrixGame

/-! ### The run -/

/-- What a distance computed by `euclidean_distance_to_nes` can be. -/
def IsDistance : F64 K → Prop
  | .nan | .posInf => True
  | .finite x => 0 ≤ x
  | .negInf => False

abbrev Distance (K : Type u) [Field K] [LinearOrder K] := {d : F64 K // IsDistance d}

/-- What is computed with tensors: fresh networks for a number of observations and actions, the
log-probability of an action, and the probabilities of all of them, which are softmax values and
may be NaN; and `sqrt`. -/
structure SelfPlayTensors (K W : Type u) [Field K] [LinearOrder K] extends Tensors K W where
  fresh : Int → Nat → W
  logProb : W → Nat → K
  softmaxProbs : W → Int → List (F64 K)
  sqrt64 : F64.Root K

def OBS_DIM : Int := 1

structure SelfPlayConfig (K : Type u) where
  numUpdates : Nat
  batchSize : Nat
  ppoConfig : PpoConfig K

def SelfPlayConfig.default : SelfPlayConfig K where
  numUpdates := 200
  batchSize := 64
  ppoConfig := .default

structure SelfPlayResult (K : Type u) [Field K] [LinearOrder K] where
  maxDistanceLast10 : F64 K
  finalPolicyProbs : List (F64 K)
  distancesPerUpdate : List (Distance K)

variable (tensors : SelfPlayTensors K W)

def PpoTrainer.new (obsDim : Int) (numActions : Nat) (config : PpoConfig K) : PpoTrainer K W where
  weights := tensors.fresh obsDim numActions
  config := config
  optimizerLr := config.lr

def centredAdvantage (returns : List K) : List K := returns.map (· - mean returns)

/-- One batch of sampled action pairs, with the payoffs of both players. -/
def collectRollout (game : MatrixGame K) (p1 p2 : W) (drawn : List (Nat × Nat)) :
    Except Panic (RolloutBatch K × RolloutBatch K) := do
  let obs := List.replicate drawn.length 0
  let p1Pay ← drawn.mapM (fun pair => game.payoffFor pair.1 pair.2)
  let p2Pay := p1Pay.map (-·)
  return (
    { observations := obs
      actions := drawn.map (fun pair => (pair.1 : Int))
      oldLogProbs := drawn.map (fun pair => tensors.logProb p1 pair.1)
      returns := p1Pay
      advantages := centredAdvantage p1Pay },
    { observations := obs
      actions := drawn.map (fun pair => (pair.2 : Int))
      oldLogProbs := drawn.map (fun pair => tensors.logProb p2 pair.2)
      returns := p2Pay
      advantages := centredAdvantage p2Pay })

def policyProbs (ac : W) : Except Panic (List (F64 K)) :=
  match tensors.softmaxProbs ac OBS_DIM with
  | [_] => .error .scalarPolicy
  | probs => .ok probs

theorem sqrt_isDistance (r : F64.Root K) (x : F64 K) : IsDistance (x.sqrt r) := by
  cases x with
  | finite x =>
    rw [F64.sqrt]
    split_ifs
    · exact r.root_nonneg x
    · trivial
  | nan => trivial
  | negInf => trivial
  | posInf => trivial

def euclideanDistanceToNes (probs nes : List (F64 K)) : Except Panic (Distance K) :=
  if probs.length = nes.length then
    let squares := List.zipWith (fun p q => (p.sub q).square) probs nes
    .ok ⟨(F64.sum squares).sqrt tensors.sqrt64, sqrt_isDistance tensors.sqrt64 _⟩
  else .error .dimension

def toResult (ac : W) (distances : List (Distance K)) : Except Panic (SelfPlayResult K) := do
  let last10Start := distances.length - 10
  let maxDistanceLast10 := (distances.drop last10Start).foldl (fun acc d => acc.max d.val) .negInf
  -- Meant for a run without updates.
  let maxDistanceLast10 := if maxDistanceLast10.isInfinite then .finite 0 else maxDistanceLast10
  let finalPolicyProbs ← policyProbs tensors ac
  return { maxDistanceLast10, finalPolicyProbs, distancesPerUpdate := distances }

/-- The number of actions of the row player's network and of the column player's. -/
def networkActions (game : MatrixGame K) : Nat × Nat :=
  let numActions := game.numRowActions
  (numActions, numActions)

/-- Who trains: how the networks of a trainer are read and how it updates on a batch. -/
structure Trainer (K W T : Type u) where
  actorCritic : T → W
  policyUpdate : T → RolloutBatch K → T

/-- One update of both players and the distance of the row player after it; `drawn` are the
actions that the networks sample for this update. -/
def selfPlayUpdate {T : Type u} (trainer : Trainer K W T) (game : MatrixGame K) (nes : List (F64 K))
    (drawn : List (Nat × Nat)) (state : T × T × List (Distance K)) :
    Except Panic (T × T × List (Distance K)) := do
  let (p1, p2, distances) := state
  let (batch1, batch2) ←
    collectRollout tensors game (trainer.actorCritic p1) (trainer.actorCritic p2) drawn
  let p1 := trainer.policyUpdate p1 batch1
  let p2 := trainer.policyUpdate p2 batch2
  let probs ← policyProbs tensors (trainer.actorCritic p1)
  let distance ← euclideanDistanceToNes tensors probs nes
  return (p1, p2, distances ++ [distance])

/-- The `i`-th pair of actions of update `u` is `draws u i`. -/
def runSelfPlay {T : Type u} (trainer : Trainer K W T) (game : MatrixGame K) (nes : List (F64 K))
    (config : SelfPlayConfig K) (draws : Nat → Nat → Nat × Nat) (p1 p2 : T) :
    Except Panic (SelfPlayResult K) := do
  let (p1, _, distances) ← (List.range config.numUpdates).foldlM
    (fun state u => selfPlayUpdate tensors trainer game nes
      ((List.range config.batchSize).map (draws u)) state)
    (p1, p2, [])
  toResult tensors (trainer.actorCritic p1) distances

def runPpoSelfPlay (game : MatrixGame K) (nes : List (F64 K)) (config : SelfPlayConfig K)
    (draws : Nat → Nat → Nat × Nat) : Except Panic (SelfPlayResult K) :=
  let (rowActions, colActions) := networkActions game
  runSelfPlay tensors
    { actorCritic := fun p => p.weights
      policyUpdate := fun p batch => (p.policyUpdate tensors.toTensors batch).1 }
    game nes config draws
    (PpoTrainer.new tensors OBS_DIM rowActions config.ppoConfig)
    (PpoTrainer.new tensors OBS_DIM colActions config.ppoConfig)

def runWolfPpoSelfPlay (game : MatrixGame K) (nes : List (F64 K)) (config : SelfPlayConfig K)
    (wolfConfig : WolfPpoConfig K) (draws : Nat → Nat → Nat × Nat) :
    Except Panic (SelfPlayResult K) :=
  let (rowActions, colActions) := networkActions game
  runSelfPlay tensors
    { actorCritic := fun p => p.inner.weights
      policyUpdate := fun p batch =>
        (p.policyUpdate tensors.toTensors batch (mean batch.returns)).1 }
    game nes config draws
    (WolfPpoTrainer.new (tensors.fresh OBS_DIM rowActions) wolfConfig)
    (WolfPpoTrainer.new (tensors.fresh OBS_DIM colActions) wolfConfig)

/-! ### Actions outside of the table -/

variable {tensors}

/-- The networks sample only actions that they have. -/
def Emitted (game : MatrixGame K) (draws : Nat → Nat → Nat × Nat) : Prop :=
  ∀ u i, (draws u i).1 < (networkActions game).1 ∧ (draws u i).2 < (networkActions game).2

/-- No run indexes the payoff table out of bounds, and no column is out of reach. -/
structure PlaysTheTable (tensors : SelfPlayTensors K W) (game : MatrixGame K) : Prop where
  ppo : ∀ nes config draws, Emitted game draws →
    runPpoSelfPlay tensors game nes config draws ≠ .error .payoffIndex
  wolf : ∀ nes config wolfConfig draws, Emitted game draws →
    runWolfPpoSelfPlay tensors game nes config wolfConfig draws ≠ .error .payoffIndex
  columns : ∀ col < game.numColActions, ∃ draws, Emitted game draws ∧ ∃ u i, (draws u i).2 = col

theorem policyProbs_ne (ac : W) : policyProbs tensors ac ≠ .error .payoffIndex := by
  unfold policyProbs
  split <;> simp

theorem euclideanDistanceToNes_ne (probs nes : List (F64 K)) :
    euclideanDistanceToNes tensors probs nes ≠ .error .payoffIndex := by
  unfold euclideanDistanceToNes
  split <;> simp

theorem toResult_ne (ac : W) (distances : List (Distance K)) :
    toResult tensors ac distances ≠ .error .payoffIndex := by
  refine bind_ne_error (policyProbs_ne ac) (fun probs same => ?_)
  cases same

theorem collectRollout_ne {game : MatrixGame K} (p1 p2 : W) {drawn : List (Nat × Nat)}
    (inside : ∀ pair ∈ drawn, game.payoffFor pair.1 pair.2 ≠ .error .payoffIndex) :
    collectRollout tensors game p1 p2 drawn ≠ .error .payoffIndex := by
  refine bind_ne_error (mapM_ne_error inside) (fun pay same => ?_)
  cases same

theorem selfPlayUpdate_ne {T : Type u} (trainer : Trainer K W T) {game : MatrixGame K}
    (nes : List (F64 K)) {drawn : List (Nat × Nat)}
    (inside : ∀ pair ∈ drawn, game.payoffFor pair.1 pair.2 ≠ .error .payoffIndex)
    (state : T × T × List (Distance K)) :
    selfPlayUpdate tensors trainer game nes drawn state ≠ .error .payoffIndex := by
  refine bind_ne_error (collectRollout_ne _ _ inside) (fun batches => ?_)
  refine bind_ne_error (policyProbs_ne _) (fun probs => ?_)
  refine bind_ne_error (euclideanDistanceToNes_ne probs nes) (fun distance same => ?_)
  cases same

/-- A run over pairs that the table has does not leave it, whatever the trainer. -/
theorem runSelfPlay_ne {T : Type u} (trainer : Trainer K W T) {game : MatrixGame K}
    (nes : List (F64 K)) (config : SelfPlayConfig K) {draws : Nat → Nat → Nat × Nat}
    (inside : ∀ u i, game.payoffFor (draws u i).1 (draws u i).2 ≠ .error .payoffIndex)
    (p1 p2 : T) :
    runSelfPlay tensors trainer game nes config draws p1 p2 ≠ .error .payoffIndex := by
  refine bind_ne_error (foldlM_ne_error (fun state u => ?_) _ _) (fun last => toResult_ne _ _)
  refine selfPlayUpdate_ne trainer nes (fun pair member => ?_) state
  obtain ⟨i, _, rfl⟩ := List.mem_map.mp member
  exact inside u i

/-- The first pair of the first update is enough to leave the table. -/
theorem runSelfPlay_payoffIndex {T : Type u} (trainer : Trainer K W T) {game : MatrixGame K}
    (nes : List (F64 K)) {config : SelfPlayConfig K} {draws : Nat → Nat → Nat × Nat}
    (updates : config.numUpdates = 1) (batch : config.batchSize = 1)
    (outside : game.payoffFor (draws 0 0).1 (draws 0 0).2 = .error .payoffIndex) (p1 p2 : T) :
    runSelfPlay tensors trainer game nes config draws p1 p2 = .error .payoffIndex := by
  have rollout : ∀ w1 w2 : W, collectRollout tensors game w1 w2 [draws 0 0] =
      .error .payoffIndex := by
    intro w1 w2
    rw [collectRollout, List.mapM_cons, outside]
    rfl
  have update : ∀ state, selfPlayUpdate tensors trainer game nes [draws 0 0] state =
      .error .payoffIndex := by
    rintro ⟨q1, q2, distances⟩
    simp only [selfPlayUpdate, rollout]
    rfl
  simp only [runSelfPlay, updates, batch, List.range_one, List.map_singleton, List.foldlM_cons,
    update]
  rfl

theorem plays_square {game : MatrixGame K} (rectangular : game.Rectangular)
    (square : game.numRowActions = game.numColActions) : PlaysTheTable tensors game := by
  have inside : ∀ draws, Emitted game draws →
      ∀ u i, game.payoffFor (draws u i).1 (draws u i).2 ≠ .error .payoffIndex := by
    intro draws emitted u i
    have inRows : (draws u i).1 < game.numRowActions := (emitted u i).1
    have inCols : (draws u i).2 < game.numRowActions := (emitted u i).2
    rw [square] at inCols
    obtain ⟨payoff, found⟩ := MatrixGame.payoffFor_inside rectangular inRows inCols
    rw [found]
    exact fun same => nomatch same
  refine ⟨?_, ?_, ?_⟩
  · intro nes config draws emitted
    exact runSelfPlay_ne _ nes config (inside draws emitted) _ _
  · intro nes config wolfConfig draws emitted
    exact runSelfPlay_ne _ nes config (inside draws emitted) _ _
  · intro col bound
    rw [← square] at bound
    exact ⟨fun _ _ => (0, col), fun _ _ => ⟨rectangular.someRow, bound⟩, 0, 0, rfl⟩

variable (tensors) in
/-- A table with more rows than columns is left by the column player's first action. -/
theorem leaves_tall_table {game : MatrixGame K} (rectangular : game.Rectangular)
    (tall : game.numColActions < game.numRowActions) (nes : List (F64 K)) :
    ∃ config draws, Emitted game draws ∧
      runPpoSelfPlay tensors game nes config draws = .error .payoffIndex ∧
      ∀ wolfConfig,
        runWolfPpoSelfPlay tensors game nes config wolfConfig draws = .error .payoffIndex := by
  have outside := MatrixGame.payoffFor_beyond rectangular (r := 0) (le_refl game.numColActions)
  refine ⟨⟨1, 1, .default⟩, fun _ _ => (0, game.numColActions), ?_, ?_, ?_⟩
  · exact fun _ _ => ⟨rectangular.someRow, tall⟩
  · exact runSelfPlay_payoffIndex _ nes rfl rfl outside _ _
  · exact fun wolfConfig => runSelfPlay_payoffIndex _ nes rfl rfl outside _ _

/-- Both networks are sized by the rows, so the table is played right when it is square. -/
theorem plays_the_table_iff {payoff : List (List K)} {game : MatrixGame K}
    (accepted : MatrixGame.new payoff = some game) :
    PlaysTheTable tensors game ↔ game.numRowActions = game.numColActions := by
  have rectangular := MatrixGame.new_rectangular accepted
  refine ⟨fun plays => ?_, plays_square rectangular⟩
  refine Nat.le_antisymm ?_ ?_
  · by_contra tall
    obtain ⟨config, draws, emitted, left, _⟩ :=
      leaves_tall_table tensors rectangular (Nat.lt_of_not_le tall) []
    exact plays.ppo [] config draws emitted left
  · by_contra wide
    obtain ⟨draws, emitted, u, i, drawn⟩ :=
      plays.columns game.numRowActions (Nat.lt_of_not_le wide)
    have bound : (draws u i).2 < game.numRowActions := (emitted u i).2
    omega

/-- Networks that never learn, all of whose policies are uniform. -/
def uniformTensors : SelfPlayTensors ℚ Nat where
  epoch := fun numActions _ _ => (numActions, 0)
  diagnostics := fun _ _ => (0, 0)
  policyProbs := fun numActions _ => List.replicate numActions (1 / numActions)
  sqrt := id
  fresh := fun _ numActions => numActions
  logProb := fun _ _ => 0
  softmaxProbs := fun numActions _ => List.replicate numActions (.finite (1 / numActions))
  sqrt64 := .rational

theorem plays_matching_pennies :
    ∃ game : MatrixGame ℚ, MatrixGame.new [[1, -1], [-1, 1]] = some game ∧
      (PlaysTheTable uniformTensors game ↔ game.numRowActions = game.numColActions) :=
  have accepted : MatrixGame.new [[(1 : ℚ), -1], [-1, 1]] =
    some ⟨[[1, -1], [-1, 1]], 2, 2⟩ := rfl
  ⟨_, accepted, plays_the_table_iff accepted⟩

/-- Two rows and one column: the column player's second action has no payoff. One row and two
columns: the column player never plays the second. -/
theorem rectangular_tables_not_played :
    ∃ tall wide : MatrixGame ℚ, MatrixGame.new [[1], [-1]] = some tall ∧
      MatrixGame.new [[1, -1]] = some wide ∧
      runPpoSelfPlay uniformTensors tall [.finite 1, .finite 0] ⟨1, 1, .default⟩
        (fun _ _ => (0, 1)) = .error .payoffIndex ∧
      ¬PlaysTheTable uniformTensors tall ∧ ¬PlaysTheTable uniformTensors wide := by
  have left : runPpoSelfPlay uniformTensors ⟨[[1], [-1]], 2, 1⟩ [.finite 1, .finite 0]
      ⟨1, 1, .default⟩ (fun _ _ => (0, 1)) = .error .payoffIndex :=
    runSelfPlay_payoffIndex _ _ rfl rfl rfl _ _
  refine ⟨⟨[[1], [-1]], 2, 1⟩, ⟨[[1, -1]], 1, 2⟩, rfl, rfl, left, ?_, ?_⟩
  · intro plays
    exact plays.ppo [.finite 1, .finite 0] _ _ (fun _ _ => by decide) left
  · intro plays
    obtain ⟨draws, emitted, u, i, drawn⟩ := plays.columns 1 (by decide)
    have bound : (draws u i).2 < 1 := (emitted u i).2
    omega

/-! ### The reported distance -/

/-- What a report of the largest of the last ten distances should be. -/
structure Reports (distances : List (Distance K)) (score : F64 K) : Prop where
  bound : ∀ d ∈ last 10 distances, d.val.le score = true
  attained : ∃ d ∈ last 10 distances, d.val = score
  zero : score = .finite 0 → ∀ d ∈ last 10 distances, d.val = .finite 0
  diverged : (∀ d ∈ last 10 distances, d.val.isFinite = false) → score.isFinite = false

/-- The fold of `to_result` before its guard. -/
def windowMax (distances : List (Distance K)) : F64 K :=
  ((last 10 distances).map (·.val)).foldl F64.max .negInf

theorem toResult_ok {ac : W} {distances : List (Distance K)} {result : SelfPlayResult K}
    (made : toResult tensors ac distances = .ok result) :
    result.distancesPerUpdate = distances ∧
      result.maxDistanceLast10 =
        if (windowMax distances).isInfinite then .finite 0 else windowMax distances := by
  rw [windowMax, List.foldl_map]
  unfold toResult at made
  cases read : policyProbs tensors ac with
  | error panic =>
    rw [read] at made
    cases made
  | ok probs =>
    rw [read] at made
    cases made
    exact ⟨rfl, rfl⟩

theorem windowMax_spec (distances : List (Distance K)) :
    windowMax distances ≠ .nan ∧
      (∀ d ∈ last 10 distances, d.val ≠ .nan → d.val.le (windowMax distances) = true) ∧
      (windowMax distances = .negInf ∨ ∃ d ∈ last 10 distances, d.val = windowMax distances) := by
  have low : (F64.negInf : F64 K) ≠ .nan := nofun
  obtain ⟨number, _, each, among⟩ := F64.foldl_max_spec ((last 10 distances).map (·.val)) low
  refine ⟨number, fun d member => each _ (List.mem_map_of_mem member), ?_⟩
  exact among.imp_right List.mem_map.mp

theorem distance_ne_negInf (d : Distance K) : d.val ≠ .negInf := by
  intro same
  have kind := d.property
  rw [same] at kind
  exact kind

/-- A distance is not below zero, so below zero at most it is zero. -/
theorem distance_eq_zero {d : Distance K} (below : d.val.le (.finite 0) = true) :
    d.val = .finite 0 := by
  have kind := d.property
  cases value : d.val with
  | finite x =>
    rw [value] at below kind
    have least : x ≤ 0 := of_decide_eq_true below
    rw [le_antisymm least kind]
  | nan => simp [value, F64.le] at below
  | negInf => exact absurd value (distance_ne_negInf d)
  | posInf => simp [value, F64.le] at below

/-- The guard hides every infinity, so what is reported is finite whatever happened. -/
theorem reported_finite {ac : W} {distances : List (Distance K)} {result : SelfPlayResult K}
    (made : toResult tensors ac distances = .ok result) :
    result.maxDistanceLast10.isFinite = true := by
  obtain ⟨_, score⟩ := toResult_ok made
  obtain ⟨number, _, _⟩ := windowMax_spec distances
  rw [score]
  cases max : windowMax distances with
  | nan => exact absurd max number
  | negInf => rfl
  | finite x => rfl
  | posInf => rfl

/-- Where the last distances are finite the guard does nothing. -/
theorem windowMax_of_finite {distances : List (Distance K)} (nonempty : distances ≠ [])
    (finite : ∀ d ∈ last 10 distances, d.val.isFinite = true) :
    (windowMax distances).isInfinite = false ∧
      (∀ d ∈ last 10 distances, d.val.le (windowMax distances) = true) ∧
      ∃ d ∈ last 10 distances, d.val = windowMax distances := by
  obtain ⟨_, above, among⟩ := windowMax_spec distances
  have bound : ∀ d ∈ last 10 distances, d.val.le (windowMax distances) = true := by
    intro d member
    refine above d member (fun same => ?_)
    have shown := finite d member
    rw [same] at shown
    cases shown
  have some : last 10 distances ≠ [] := by
    have positive := List.length_pos_iff.mpr nonempty
    have length := length_last 10 distances
    exact List.length_pos_iff.mp (by omega)
  obtain ⟨first, member⟩ := List.exists_mem_of_ne_nil _ some
  have attained : ∃ d ∈ last 10 distances, d.val = windowMax distances := by
    refine among.resolve_left (fun low => ?_)
    have below := bound first member
    have shown := finite first member
    rw [low] at below
    cases value : first.val <;> simp_all [F64.le, F64.isFinite]
  obtain ⟨d, inside, same⟩ := attained
  have shown := finite d inside
  rw [same] at shown
  refine ⟨?_, bound, d, inside, same⟩
  cases value : windowMax distances <;> simp_all [F64.isFinite, F64.isInfinite]

theorem reports_iff_finite {ac : W} {distances : List (Distance K)} {result : SelfPlayResult K}
    (nonempty : distances ≠ []) (made : toResult tensors ac distances = .ok result) :
    Reports result.distancesPerUpdate result.maxDistanceLast10 ↔
      ∀ d ∈ last 10 distances, d.val.isFinite = true := by
  have shown := reported_finite made
  obtain ⟨same, score⟩ := toResult_ok made
  rw [same]
  constructor
  · intro reports d member
    have below := reports.bound d member
    cases value : result.maxDistanceLast10 with
    | finite y =>
      rw [value] at below
      exact F64.finite_of_le_finite below (distance_ne_negInf d)
    | _ => simp [value, F64.isFinite] at shown
  · intro finite
    obtain ⟨unguarded, bound, attained⟩ := windowMax_of_finite nonempty finite
    rw [unguarded, if_neg Bool.false_ne_true] at score
    rw [← score] at bound attained
    refine ⟨bound, attained, ?_, ?_⟩
    · intro zero d member
      exact distance_eq_zero (zero ▸ bound d member)
    · intro none
      obtain ⟨d, member, _⟩ := attained
      exact absurd (finite d member) (by rw [none d member]; exact Bool.false_ne_true)

theorem one_isDistance : IsDistance (.finite (1 : ℚ)) := zero_le_one

theorem half_isDistance : IsDistance (.finite (1 / 2 : ℚ)) := div_nonneg zero_le_one zero_le_two

/-- Eleven updates, the first of which is the worst and is not reported any more. -/
def shrinkingDistances : List (Distance ℚ) :=
  ⟨.finite 1, one_isDistance⟩ :: ⟨.finite 0, le_refl 0⟩ :: ⟨.finite (1 / 2), half_isDistance⟩ ::
    List.replicate 8 ⟨.finite 0, le_refl 0⟩

theorem reports_shrinking_distances :
    ∃ result, toResult uniformTensors 2 shrinkingDistances = .ok result ∧
      result.maxDistanceLast10 = .finite (1 / 2) ∧
      Reports result.distancesPerUpdate result.maxDistanceLast10 := by
  obtain ⟨result, made, most⟩ : ∃ result, toResult uniformTensors 2 shrinkingDistances =
      .ok result ∧ result.maxDistanceLast10 = .finite (1 / 2) :=
    ⟨_, rfl, by decide +kernel⟩
  have finite : ∀ d ∈ last 10 shrinkingDistances, d.val.isFinite = true := by decide
  exact ⟨result, made, most, (reports_iff_finite (List.cons_ne_nil _ _) made).mpr finite⟩

/-- A last distance of NaN, or an infinite one, is reported as the best possible score. -/
theorem divergence_reported_as_zero :
    ∃ nans infinities : List (Distance ℚ), nans.map (·.val) = [.nan] ∧
      infinities.map (·.val) = [.finite 1, .posInf] ∧
      ∃ result result', toResult uniformTensors 2 nans = .ok result ∧
        toResult uniformTensors 2 infinities = .ok result' ∧
        result.maxDistanceLast10 = .finite 0 ∧ result'.maxDistanceLast10 = .finite 0 ∧
        ¬Reports nans result.maxDistanceLast10 ∧ ¬Reports infinities result'.maxDistanceLast10 := by
  refine ⟨[⟨.nan, trivial⟩], [⟨.finite 1, zero_le_one⟩, ⟨.posInf, trivial⟩], rfl, rfl, _, _, rfl,
    rfl, rfl, rfl, ?_, ?_⟩
  · intro reports
    exact absurd (reports.bound _ (.head [])) (by decide)
  · intro reports
    exact absurd (reports.bound _ (.tail _ (.head []))) (by decide)

end Trolly.Gym
