import Trolly.Gym.Advantages
import Trolly.Lib.PartialRun
import Trolly.Lib.Recent
import Mathlib.Algebra.Field.Basic
import Mathlib.Algebra.Field.Rat
import Mathlib.Order.Lattice

/-!
The training driver and its dual learning rate. The networks and their gradients are a
parameter; what the policy and the environment produce in a step is its input. The window of
returns follows the run, and with it the rate a step applies and the rate it reports.
-/

namespace Trolly.Gym

open Recent PartialRun

universe u

variable {K W : Type u} [Field K] [LinearOrder K]

structure PpoConfig (K : Type u) where
  ppoEpochs : Nat
  lr : K

structure WolfPpoConfig (K : Type u) where
  ppo : PpoConfig K
  alphaLose : K
  alphaWin : K
  payoffWindow : Nat

def PpoConfig.default : PpoConfig K where
  ppoEpochs := 4
  lr := 1 / 100

def WolfPpoConfig.default : WolfPpoConfig K where
  ppo := .default
  alphaLose := 1 / 100
  alphaWin := 1 / 100 / 4
  payoffWindow := 100

/- What is computed with tensors: one gradient step on a batch at a learning rate, with its
loss, and the readings of the networks. -/
structure Tensors (K W : Type u) where
  epoch : W → K → RolloutBatch K → W × K
  diagnostics : W → RolloutBatch K → K × K
  policyProbs : W → Int → List K
  sqrt : K → K

structure PpoTrainer (K W : Type u) where
  weights : W
  config : PpoConfig K
  optimizerLr : K

structure WolfPpoTrainer (K W : Type u) where
  inner : PpoTrainer K W
  config : WolfPpoConfig K
  payoffHistory : List K
  rollingAvgPayoff : K
  currentPayoff : K

structure TrainMetrics (K : Type u) where
  policyLoss : K
  valueLoss : K
  entropy : K
  nesDistance : Option K
  activeLr : K
  stepsCollected : Nat

structure TrainDriverConfig (K : Type u) where
  obsDim : Int
  gamma : K
  gaeLambda : K

def TrainDriverConfig.default : TrainDriverConfig K where
  obsDim := 4
  gamma := 99 / 100
  gaeLambda := 95 / 100

structure WolfPpoTrainDriver (K W : Type u) where
  trainer : WolfPpoTrainer K W
  config : TrainDriverConfig K
  totalSteps : Nat

def mean (xs : List K) : K := xs.sum / xs.length

namespace PpoTrainer

def setLr (self : PpoTrainer K W) (lr : K) : PpoTrainer K W := { self with optimizerLr := lr }

def policyUpdate (tensors : Tensors K W) (self : PpoTrainer K W) (batch : RolloutBatch K) :
    PpoTrainer K W × K :=
  let (weights, totalLoss) := (List.range self.config.ppoEpochs).foldl
    (fun (weights, totalLoss) _ =>
      let (weights, loss) := tensors.epoch weights self.optimizerLr batch
      (weights, totalLoss + loss))
    (self.weights, 0)
  ({ self with weights }, totalLoss / self.config.ppoEpochs)

end PpoTrainer

namespace WolfPpoTrainer

def new (weights : W) (config : WolfPpoConfig K) : WolfPpoTrainer K W where
  inner := { weights, config := config.ppo, optimizerLr := config.ppo.lr }
  config := config
  payoffHistory := []
  rollingAvgPayoff := 0
  currentPayoff := 0

def isWinning (self : WolfPpoTrainer K W) : Bool := self.rollingAvgPayoff < self.currentPayoff

def activeLr (self : WolfPpoTrainer K W) : K :=
  if self.isWinning then self.config.alphaWin else self.config.alphaLose

def updatePayoffEstimate (self : WolfPpoTrainer K W) (episodeReturn : K) : WolfPpoTrainer K W :=
  let pushed := self.payoffHistory ++ [episodeReturn]
  let history := if self.config.payoffWindow < pushed.length then pushed.drop 1 else pushed
  { self with
    currentPayoff := episodeReturn
    payoffHistory := history
    rollingAvgPayoff := mean history }

def policyUpdate (tensors : Tensors K W) (self : WolfPpoTrainer K W) (batch : RolloutBatch K)
    (episodeReturn : K) : WolfPpoTrainer K W × K :=
  let updated := self.updatePayoffEstimate episodeReturn
  let lr := updated.activeLr
  let (inner, loss) := (updated.inner.setLr lr).policyUpdate tensors batch
  ({ updated with inner }, loss)

end WolfPpoTrainer

/- What a call of `train_step` works on: the transitions its collector gathered from the
policy and the environment, and the arguments it passes on. -/
structure TrainCall (K : Type u) where
  transitions : List (OnPolicyTransition K)
  bootstrapValue : K
  nesTarget : Option (List K)

def euclideanDistance (tensors : Tensors K W) (a b : List K) : K :=
  tensors.sqrt (List.zipWith (fun x y => (x - y) ^ 2) a b).sum

namespace WolfPpoTrainDriver

def new (weights : W) (driverConfig : TrainDriverConfig K) (wolfConfig : WolfPpoConfig K) :
    WolfPpoTrainDriver K W where
  trainer := .new weights wolfConfig
  config := driverConfig
  totalSteps := 0

def trainStep (tensors : Tensors K W) (self : WolfPpoTrainDriver K W) (call : TrainCall K) :
    Option (TrainMetrics K × WolfPpoTrainDriver K W) := do
  let steps := call.transitions.length
  let batch ← intoBatch call.transitions self.config.gamma self.config.gaeLambda
    call.bootstrapValue
  let (valueLoss, entropy) := tensors.diagnostics self.trainer.inner.weights batch
  let episodeReturn := mean batch.returns
  let activeLr := self.trainer.activeLr
  let (trainer, policyLoss) := self.trainer.policyUpdate tensors batch episodeReturn
  let nesDistance := call.nesTarget.map fun nes =>
    euclideanDistance tensors (tensors.policyProbs trainer.inner.weights self.config.obsDim) nes
  return (
    { policyLoss, valueLoss, entropy, nesDistance, activeLr, stepsCollected := steps },
    { self with trainer, totalSteps := self.totalSteps + steps })

end WolfPpoTrainDriver

/-! ### The window of returns -/

/- Whether the latest of the returns exceeds the mean of those in its window, itself included. -/
def exceedsMean (window : Nat) (returns : List K) : Bool :=
  match returns.getLast? with
  | none => false
  | some latest => mean (last window returns) < latest

def wolfRate (config : WolfPpoConfig K) (returns : List K) : K :=
  if exceedsMean config.payoffWindow returns then config.alphaWin else config.alphaLose

/- The trainer's estimates after the given returns. -/
structure Tracks (config : WolfPpoConfig K) (returns : List K) (trainer : WolfPpoTrainer K W) :
    Prop where
  configured : trainer.config = config
  history : trainer.payoffHistory = last config.payoffWindow returns
  average : trainer.rollingAvgPayoff = mean (last config.payoffWindow returns)
  current : trainer.currentPayoff = returns.getLast?.getD 0

variable {config : WolfPpoConfig K} {returns : List K} {trainer : WolfPpoTrainer K W}

omit [LinearOrder K] in
@[simp] theorem mean_nil : mean ([] : List K) = 0 := by
  simp [mean]

omit [LinearOrder K] in
theorem new_tracks (weights : W) (config : WolfPpoConfig K) :
    Tracks config [] (WolfPpoTrainer.new weights config) := by
  constructor <;> simp [WolfPpoTrainer.new, last_nil]

theorem Tracks.activeLr (tracks : Tracks config returns trainer) :
    trainer.activeLr = wolfRate config returns := by
  unfold WolfPpoTrainer.activeLr WolfPpoTrainer.isWinning wolfRate exceedsMean
  rw [tracks.configured, tracks.average, tracks.current]
  cases latest : returns.getLast? with
  | none =>
    obtain rfl := List.getLast?_eq_none_iff.mp latest
    simp [last_nil]
  | some x => rfl

omit [LinearOrder K] in
theorem Tracks.updated (positive : 0 < config.payoffWindow)
    (tracks : Tracks config returns trainer) (x : K) :
    Tracks config (returns ++ [x]) (trainer.updatePayoffEstimate x) := by
  have window : (trainer.updatePayoffEstimate x).payoffHistory =
      last config.payoffWindow (returns ++ [x]) := by
    rw [← last_push positive, ← tracks.history, ← tracks.configured]
    rfl
  constructor
  case configured => exact tracks.configured
  case history => exact window
  case average => exact congrArg mean window
  case current => simp [WolfPpoTrainer.updatePayoffEstimate]

theorem Tracks.policyUpdate (positive : 0 < config.payoffWindow)
    (tracks : Tracks config returns trainer) (tensors : Tensors K W) (batch : RolloutBatch K)
    (x : K) :
    Tracks config (returns ++ [x]) (trainer.policyUpdate tensors batch x).1 ∧
      (trainer.policyUpdate tensors batch x).1.inner.optimizerLr =
        wolfRate config (returns ++ [x]) := by
  have updated := tracks.updated positive x
  refine ⟨⟨updated.configured, updated.history, updated.average, updated.current⟩, ?_⟩
  rw [← updated.activeLr]
  rfl

/-! ### Runs of the driver -/

def episodeReturn (config : TrainDriverConfig K) (call : TrainCall K) : K :=
  mean (computeGae call.transitions call.bootstrapValue config.gamma config.gaeLambda).1

omit [LinearOrder K] in
theorem intoBatch_returns {transitions : List (OnPolicyTransition K)}
    {gamma gaeLambda bootstrapValue : K} {batch : RolloutBatch K}
    (converted : intoBatch transitions gamma gaeLambda bootstrapValue = some batch) :
    batch.returns = (computeGae transitions bootstrapValue gamma gaeLambda).1 := by
  cases transitions with
  | nil => cases converted
  | cons first rest =>
    simp only [intoBatch, Option.ite_none_right_eq_some, Option.some.injEq] at converted
    rw [← converted.2]

theorem trainStep_some {tensors : Tensors K W} {driver next : WolfPpoTrainDriver K W}
    {call : TrainCall K} {metrics : TrainMetrics K}
    (stepped : driver.trainStep tensors call = some (metrics, next)) :
    metrics.activeLr = driver.trainer.activeLr ∧ next.config = driver.config ∧
      ∃ batch, next.trainer =
        (driver.trainer.policyUpdate tensors batch (episodeReturn driver.config call)).1 := by
  unfold WolfPpoTrainDriver.trainStep at stepped
  obtain ⟨batch, converted, done⟩ := Option.bind_eq_some_iff.mp stepped
  have returns := intoBatch_returns converted
  cases done
  exact ⟨rfl, rfl, batch, by rw [episodeReturn, ← returns]; rfl⟩

/- One turn of the training loop; it keeps the metrics it is given, each with the rate that is
on the optimizer once the step is done. -/
def recordStep (tensors : Tensors K W)
    (state : WolfPpoTrainDriver K W × List (TrainMetrics K × K)) (call : TrainCall K) :
    Option (WolfPpoTrainDriver K W × List (TrainMetrics K × K)) :=
  (state.1.trainStep tensors call).map fun (metrics, driver) =>
    (driver, state.2 ++ [(metrics, driver.trainer.inner.optimizerLr)])

def train (tensors : Tensors K W) (weights : W) (driverConfig : TrainDriverConfig K)
    (wolfConfig : WolfPpoConfig K) (calls : List (TrainCall K)) :
    Option (WolfPpoTrainDriver K W × List (TrainMetrics K × K)) :=
  run (recordStep tensors) (.new weights driverConfig wolfConfig, []) calls

section Runs

variable (tensors : Tensors K W) (weights : W) (driverConfig : TrainDriverConfig K)

/- After the calls of a run each report holds the rate of the returns before its step, and the
optimizer was left with the rate of the returns up to it. -/
structure Reported (config : WolfPpoConfig K) (calls : List (TrainCall K))
    (state : WolfPpoTrainDriver K W × List (TrainMetrics K × K)) : Prop where
  tracks : Tracks config (calls.map (episodeReturn driverConfig)) state.1.trainer
  configured : state.1.config = driverConfig
  count : state.2.length = calls.length
  rates : ∀ k metrics lr, state.2[k]? = some (metrics, lr) →
    metrics.activeLr = wolfRate config ((calls.map (episodeReturn driverConfig)).take k) ∧
      lr = wolfRate config ((calls.map (episodeReturn driverConfig)).take (k + 1))

variable {driverConfig}

theorem Reported.step (positive : 0 < config.payoffWindow) {calls : List (TrainCall K)}
    {state next : WolfPpoTrainDriver K W × List (TrainMetrics K × K)} {call : TrainCall K}
    (reported : Reported driverConfig config calls state)
    (stepped : recordStep tensors state call = some next) :
    Reported driverConfig config (calls ++ [call]) next := by
  obtain ⟨⟨metrics, driver⟩, taken, rfl⟩ := Option.map_eq_some_iff.mp stepped
  obtain ⟨active, configured, batch, trained⟩ := trainStep_some taken
  obtain ⟨tracks, applied⟩ := reported.tracks.policyUpdate positive tensors batch
    (episodeReturn state.1.config call)
  rw [← trained] at tracks applied
  rw [reported.configured] at tracks applied configured
  have returns : (calls ++ [call]).map (episodeReturn driverConfig) =
      calls.map (episodeReturn driverConfig) ++ [episodeReturn driverConfig call] := by
    rw [List.map_append, List.map_singleton]
  constructor
  case tracks => exact returns ▸ tracks
  case configured => exact configured
  case count => simp [reported.count]
  case rates =>
    intro k m lr found
    have length := reported.count
    rcases Nat.lt_trichotomy k state.2.length with before | rfl | after
    · rw [List.getElem?_append_left before] at found
      rw [returns, List.take_append_of_le_length (by simp; omega),
        List.take_append_of_le_length (by simp; omega)]
      exact reported.rates k m lr found
    · rw [List.getElem?_concat_length] at found
      cases found
      rw [returns, List.take_append_of_le_length (by simp [length]),
        List.take_of_length_le (by simp [length]), List.take_of_length_le (by simp [length])]
      exact ⟨active.trans reported.tracks.activeLr, applied⟩
    · rw [List.getElem?_eq_none (by simp; omega)] at found
      cases found

theorem train_reported (positive : 0 < config.payoffWindow) {calls : List (TrainCall K)}
    {state : WolfPpoTrainDriver K W × List (TrainMetrics K × K)}
    (trained : train tensors weights driverConfig config calls = some state) :
    Reported driverConfig config calls state := by
  refine run_invariant (Reported driverConfig config) ?_ ?_ trained
  · refine ⟨new_tracks weights config, rfl, rfl, fun k metrics lr found => ?_⟩
    cases found
  · intro pre before call next reported stepped
    exact reported.step tensors positive stepped

end Runs

theorem wolfRate_losing {returns : List K}
    (losing : exceedsMean config.payoffWindow returns = false) :
    wolfRate config returns = config.alphaLose := by
  rw [wolfRate, losing]
  rfl

/- Along a run the rate of each step is that of the one before only if it never changes; and
every run starts from the losing rate. -/
theorem rates_constant_iff (config : WolfPpoConfig K) (returns : List K) :
    (∀ k, k < returns.length →
      wolfRate config (returns.take k) = wolfRate config (returns.take (k + 1))) ↔
      config.alphaWin = config.alphaLose ∨ ∀ k, k < returns.length →
        exceedsMean config.payoffWindow (returns.take (k + 1)) = false := by
  constructor
  · intro constant
    by_cases same : config.alphaWin = config.alphaLose
    · exact Or.inl same
    · have losing (k : Nat) (inside : k ≤ returns.length) :
          exceedsMean config.payoffWindow (returns.take k) = false := by
        induction k with
        | zero => rfl
        | succ k ih =>
          have unchanged := constant k inside
          rw [wolfRate_losing (ih (Nat.le_of_succ_le inside))] at unchanged
          by_contra winning
          rw [wolfRate, if_pos (by simpa using winning)] at unchanged
          exact same unchanged.symm
      exact Or.inr fun k inside => losing (k + 1) inside
  · rintro (same | losing) k inside
    · simp only [wolfRate, same, ite_self]
    · rw [wolfRate_losing (losing k inside)]
      cases k with
      | zero => exact wolfRate_losing rfl
      | succ k => exact wolfRate_losing (losing k (Nat.lt_of_succ_lt inside))

/- A single rewarded step that ends its episode; its return is the reward. -/
def rewardedCall (reward : K) : TrainCall K where
  transitions := [⟨[], 0, 0, 0, reward, true⟩]
  bootstrapValue := 0
  nesTarget := none

/- The rate is read before the update that selects it, so a step reports the rate of the step
before it. -/
theorem reported_lr_iff {tensors : Tensors K W} {weights : W}
    {driverConfig : TrainDriverConfig K} {config : WolfPpoConfig K} {calls : List (TrainCall K)}
    {driver : WolfPpoTrainDriver K W} {reports : List (TrainMetrics K × K)}
    (positive : 0 < config.payoffWindow)
    (trained : train tensors weights driverConfig config calls = some (driver, reports)) :
    (∀ k, k < calls.length → ∃ metrics lr, reports[k]? = some (metrics, lr) ∧
      metrics.activeLr = lr ∧
        lr = wolfRate config ((calls.map (episodeReturn driverConfig)).take (k + 1))) ↔
      config.alphaWin = config.alphaLose ∨ ∀ k, k < calls.length →
        exceedsMean config.payoffWindow
          ((calls.map (episodeReturn driverConfig)).take (k + 1)) = false := by
  have reported := train_reported tensors weights positive trained
  have length : (calls.map (episodeReturn driverConfig)).length = calls.length :=
    List.length_map _
  rw [← length, ← rates_constant_iff]
  refine forall_congr' fun k => forall_congr' fun inside => ?_
  cases found : reports[k]? with
  | none =>
    have count : reports.length = calls.length := reported.count
    have past := List.getElem?_eq_none_iff.mp found
    omega
  | some report =>
    obtain ⟨metrics, lr⟩ := report
    obtain ⟨active, applied⟩ := reported.rates k metrics lr found
    constructor
    · rintro ⟨m, l, rfl_report, same, right⟩
      cases rfl_report
      rw [← active, ← applied, same]
    · intro same
      exact ⟨metrics, lr, rfl, by rw [active, applied, same], applied⟩

/- Tensors that learn nothing. -/
def inert : Tensors Rat Unit where
  epoch := fun weights _ _ => (weights, 0)
  diagnostics := fun _ _ => (0, 0)
  policyProbs := fun _ _ => []
  sqrt := fun x => x

theorem reported_lr_steady : ∃ driver reports,
    train inert () .default .default ([1, 1].map rewardedCall) = some (driver, reports) ∧
      ∀ k, k < 2 → ∃ metrics lr, reports[k]? = some (metrics, lr) ∧ metrics.activeLr = lr ∧
        lr = wolfRate .default
          ((([1, 1].map rewardedCall).map (episodeReturn .default)).take (k + 1)) := by
  have runs : ∃ driver reports, train inert () .default .default ([1, 1].map rewardedCall) =
      some (driver, reports) := ⟨_, _, rfl⟩
  obtain ⟨driver, reports, trained⟩ := runs
  exact ⟨driver, reports, trained,
    (reported_lr_iff (by decide) trained).mpr (Or.inr (by decide +kernel))⟩

/- The second return exceeds the mean of both: its step applies the winning rate and reports
the losing one. -/
theorem winning_step_reports_losing : ∃ driver reports,
    train inert () .default .default ([1, 10].map rewardedCall) = some (driver, reports) ∧
      ¬ ∀ k, k < 2 → ∃ metrics lr, reports[k]? = some (metrics, lr) ∧ metrics.activeLr = lr ∧
        lr = wolfRate .default
          ((([1, 10].map rewardedCall).map (episodeReturn .default)).take (k + 1)) := by
  refine ⟨_, _, rfl, fun holds => ?_⟩
  obtain ⟨metrics, lr, found, same, -⟩ := holds 1 (by decide)
  cases found
  exact absurd same (by decide +kernel)

end Trolly.Gym
