import Trolly.Gym.WolfPpo
import Trolly.Lib.Categorical
import Trolly.Lib.Traversal
import Mathlib.Analysis.Complex.Trigonometric

/-!
The loss of a gradient step, in exact arithmetic: the networks, what they make of the rows of
a batch, and the clipped objective. Whatever the networks become, the loss counts no more gain
than the clip lets through, and no less loss than there is.
-/

namespace Trolly.Gym

open Categorical Traversal

universe u

variable {K : Type u} [Field K]

/- What is computed by the tensor library, for one row of a batch or one element of a row:
linear layers from `m` inputs to `n` outputs, and the functions that are applied to what comes
out of them. `gather` takes the element at an index, and fails at one that is not there. -/
structure Tch (K : Type u) where
  Linear : Nat → Nat → Type u
  forward : {m n : Nat} → Linear m n → (Fin m → K) → Fin n → K
  tanh : K → K
  exp : K → K
  softmax : {n : Nat} → (Fin n → K) → Fin n → K
  logSoftmax : {n : Nat} → (Fin n → K) → Fin n → K
  gather : {n : Nat} → (Fin n → K) → Int → Option K
  clamp : K → K → K → K
  minOther : K → K → K

/- The shared layers, each as wide as the next one expects. -/
inductive Shared (tch : Tch K) : Nat → Nat → Type u
  | done (n : Nat) : Shared tch n n
  | layer {m k n : Nat} (linear : tch.Linear m k) (rest : Shared tch k n) : Shared tch m n

def Shared.forward {tch : Tch K} {m n : Nat} : Shared tch m n → (Fin m → K) → Fin n → K
  | .done _, x => x
  | .layer linear rest, x => rest.forward (fun i => tch.tanh (tch.forward linear x i))

structure ActorCritic (tch : Tch K) (obsDim numActions : Nat) where
  hidden : Nat
  shared : Shared tch obsDim hidden
  policyHead : tch.Linear hidden numActions
  valueHead : tch.Linear hidden 1

/- What the networks make of one row of a batch, and of the action that was taken there. -/
structure Evaluated (K : Type u) (numActions : Nat) where
  logits : Fin numActions → K
  value : K
  actionLogProb : K

def Evaluated.entropy (tch : Tch K) {numActions : Nat} (self : Evaluated K numActions) : K :=
  -∑ i, tch.softmax self.logits i * tch.logSoftmax self.logits i

/- The rows of a tensor of `t` rows. -/
def tensorRows (dim : Nat) : Nat → List K → List (List K)
  | 0, _ => []
  | t + 1, flat => flat.take dim :: tensorRows dim t (flat.drop dim)

def asRow (dim : Nat) (row : List K) : Option (Fin dim → K) :=
  if fits : row.length = dim then some fun i => row.get (i.cast fits.symm) else none

namespace ActorCritic

variable {tch : Tch K} {obsDim numActions : Nat} (self : ActorCritic tch obsDim numActions)

def forward (obs : Fin obsDim → K) : (Fin numActions → K) × K :=
  let x := self.shared.forward obs
  (tch.forward self.policyHead x, tch.forward self.valueHead x 0)

/- A row of `evaluate_actions`, with the value that `forward` gives it. -/
def evaluateRow (row : List K × Int) : Option (Evaluated K numActions) :=
  (asRow obsDim row.1).bind fun obs =>
    let (logits, value) := self.forward obs
    (tch.gather (tch.logSoftmax logits) row.2).map fun actionLogProb =>
      { logits, value, actionLogProb }

/- A batch whose observations are not of the width of the input layer fails in it. -/
def evaluateActions (observations : List K) (actions : List Int) :
    Option (List (Evaluated K numActions)) :=
  if observations.length = actions.length * obsDim then
    ((tensorRows obsDim actions.length observations).zip actions).mapM self.evaluateRow
  else none

end ActorCritic

/- The coefficients that the loss is made with. -/
structure LossConfig (K : Type u) where
  clipEpsilon : K
  entropyCoef : K
  valueCoef : K

def LossConfig.default : LossConfig K where
  clipEpsilon := 1 / (5 : Nat)
  entropyCoef := 1 / (100 : Nat)
  valueCoef := 1 / (2 : Nat)

section Loss

variable {numActions : Nat} (tch : Tch K) (config : LossConfig K)

/- The importance ratio of each row, against the policy that collected the batch. -/
def ratios (evaluated : List (Evaluated K numActions)) (batch : RolloutBatch K) : List K :=
  List.zipWith (fun row old => tch.exp (row.actionLogProb - old)) evaluated batch.oldLogProbs

def clippedLoss (ratio advantages : List K) : K :=
  let surr1 := List.zipWith (· * ·) ratio advantages
  let surr2 := List.zipWith
    (fun r a => tch.clamp r (1 - config.clipEpsilon) (1 + config.clipEpsilon) * a) ratio advantages
  let policyLoss := -mean (List.zipWith tch.minOther surr1 surr2)
  policyLoss

def valueLoss (evaluated : List (Evaluated K numActions)) (batch : RolloutBatch K) : K :=
  mean (List.zipWith (fun row ret => (row.value - ret) ^ 2) evaluated batch.returns)

def entropyBonus (evaluated : List (Evaluated K numActions)) : K :=
  mean (evaluated.map (Evaluated.entropy tch))

/- The loss of one epoch of `policy_update`. -/
def epochLoss {obsDim : Nat} (actorCritic : ActorCritic tch obsDim numActions)
    (batch : RolloutBatch K) : Option K := do
  let evaluated ← actorCritic.evaluateActions batch.observations batch.actions
  let policyLoss := clippedLoss tch config (ratios tch evaluated batch) batch.advantages
  return policyLoss + config.valueCoef * valueLoss evaluated batch -
    config.entropyCoef * entropyBonus tch evaluated

end Loss

/-! ### The clipped objective -/

section Clip

variable [LinearOrder K] [IsStrictOrderedRing K] {ε : K}

/- The clip has taken effect: more of the row would not be counted. -/
def Clipped (ε r a : K) : Prop := (0 < a → 1 + ε ≤ r) ∧ (a < 0 → r ≤ 1 - ε)

/- The clip takes nothing away. -/
def Counted (ε r a : K) : Prop := (0 < a → r ≤ 1 + ε) ∧ (a < 0 → 1 - ε ≤ r)

def clampTo (x lo hi : K) : K := min (max x lo) hi

def surrogate (ε r a : K) : K := min (r * a) (clampTo r (1 - ε) (1 + ε) * a)

theorem surrogate_nonneg {a : K} (nonneg : 0 ≤ a) (r : K) :
    surrogate ε r a = min r (1 + ε) * a := by
  rw [surrogate, clampTo, ← min_mul_of_nonneg _ _ nonneg, ← min_assoc,
    min_eq_left (le_max_left _ _)]

theorem surrogate_nonpos (clip : 0 ≤ ε) {a : K} (nonpos : a ≤ 0) (r : K) :
    surrogate ε r a = max r (1 - ε) * a := by
  have width : 1 - ε ≤ 1 + ε := by linarith
  have wider : max r (clampTo r (1 - ε) (1 + ε)) = max r (1 - ε) := by
    rw [clampTo]
    rcases le_total (max r (1 - ε)) (1 + ε) with low | high
    · rw [min_eq_left low, ← max_assoc, max_self]
    · rcases le_max_iff.mp high with above | above
      · rw [min_eq_right high, max_eq_left above, max_eq_left (width.trans above)]
      · rw [min_eq_right high, le_antisymm width above]
  rw [surrogate, ← wider]
  rcases le_total r (clampTo r (1 - ε) (1 + ε)) with below | above
  · rw [max_eq_right below, min_eq_right (mul_le_mul_of_nonpos_right below nonpos)]
  · rw [max_eq_left above, min_eq_left (mul_le_mul_of_nonpos_right above nonpos)]

/- A row counts at most what the clip lets through of its advantage. -/
theorem surrogate_le (clip : 0 ≤ ε) (r a : K) : surrogate ε r a ≤ a + ε * |a| ∧
    (surrogate ε r a = a + ε * |a| ↔ Clipped ε r a) := by
  rcases lt_trichotomy a 0 with loss | rfl | gain
  · have bound : a + ε * |a| = (1 - ε) * a := by rw [abs_of_neg loss]; ring
    rw [surrogate_nonpos clip loss.le, bound]
    refine ⟨mul_le_mul_of_nonpos_right (le_max_right _ _) loss.le, ?_⟩
    rw [mul_left_inj' loss.ne, max_eq_right_iff]
    simp [Clipped, loss, loss.le]
  · simp [surrogate, Clipped]
  · have bound : a + ε * |a| = (1 + ε) * a := by rw [abs_of_pos gain]; ring
    rw [surrogate_nonneg gain.le, bound]
    refine ⟨mul_le_mul_of_nonneg_right (min_le_right _ _) gain.le, ?_⟩
    rw [mul_left_inj' gain.ne', min_eq_right_iff]
    simp [Clipped, gain, gain.le]

/- And never more than it would without the clip. -/
theorem surrogate_le_plain (clip : 0 ≤ ε) (r a : K) : surrogate ε r a ≤ r * a ∧
    (surrogate ε r a = r * a ↔ Counted ε r a) := by
  refine ⟨min_le_left _ _, ?_⟩
  rcases lt_trichotomy a 0 with loss | rfl | gain
  · rw [surrogate_nonpos clip loss.le, mul_left_inj' loss.ne, max_eq_left_iff]
    simp [Counted, loss, loss.le]
  · simp [surrogate, Counted]
  · rw [surrogate_nonneg gain.le, mul_left_inj' gain.ne', min_eq_left_iff]
    simp [Counted, gain, gain.le]

theorem mean_le {xs ys : List K} (lengths : xs.length = ys.length) (sums : xs.sum ≤ ys.sum) :
    mean xs ≤ mean ys ∧ (mean xs = mean ys ↔ xs.sum = ys.sum) := by
  rcases ys.eq_nil_or_concat with rfl | ⟨front, last, rfl⟩
  · obtain rfl := List.length_eq_zero_iff.mp lengths
    simp
  · have rows : (0 : K) < (front.concat last).length := Nat.cast_pos.mpr (by simp)
    rw [mean, mean, lengths]
    exact ⟨div_le_div_of_nonneg_right sums rows.le, div_left_inj' rows.ne'⟩

theorem mean_zipWith_le {α β : Type*} {f g : α → β → K} (bounded : ∀ x y, f x y ≤ g x y)
    (xs : List α) (ys : List β) : mean (List.zipWith f xs ys) ≤ mean (List.zipWith g xs ys) ∧
      (mean (List.zipWith f xs ys) = mean (List.zipWith g xs ys) ↔
        ∀ p ∈ xs.zip ys, f p.1 p.2 = g p.1 p.2) := by
  obtain ⟨sums, reached⟩ := sum_zipWith_le bounded xs ys
  obtain ⟨below, same⟩ := mean_le (by simp) sums
  exact ⟨below, same.trans reached⟩

omit [Field K] [LinearOrder K] [IsStrictOrderedRing K] in
theorem zipWith_zipWith {α β γ : Type*} (f : γ → γ → γ) (g h : α → β → γ) (xs : List α)
    (ys : List β) : List.zipWith f (List.zipWith g xs ys) (List.zipWith h xs ys) =
      List.zipWith (fun x y => f (g x y) (h x y)) xs ys := by
  induction xs generalizing ys with
  | nil => rfl
  | cons x xs ih =>
    cases ys with
    | nil => rfl
    | cons y ys => simp [ih]

omit [Field K] [LinearOrder K] [IsStrictOrderedRing K] in
theorem zipWith_right {α β γ : Type*} (g : β → γ) {xs : List α} {ys : List β}
    (lengths : xs.length = ys.length) : List.zipWith (fun _ y => g y) xs ys = ys.map g := by
  rw [← List.map_uncurry_zip_eq_zipWith]
  conv_rhs => rw [← List.map_snd_zip lengths.ge, List.map_map]
  rfl

/- The most an update can gain on its batch, as the loss counts it. -/
def clippedFloor (ε : K) (advantages : List K) : K := -mean (advantages.map fun a => a + ε * |a|)

/- What the tensor library says of the functions that the clip is made with. -/
structure Tch.Clips (tch : Tch K) : Prop where
  clamp : ∀ x lo hi, tch.clamp x lo hi = min (max x lo) hi
  minOther : ∀ x y, tch.minOther x y = min x y

variable {tch : Tch K}

omit [IsStrictOrderedRing K] in
theorem clippedLoss_eq (clips : tch.Clips) (config : LossConfig K) (ratio advantages : List K) :
    clippedLoss tch config ratio advantages =
      -mean (List.zipWith (surrogate config.clipEpsilon) ratio advantages) := by
  have least : tch.minOther = min := funext fun x => funext fun y => clips.minOther x y
  simp only [clippedLoss, clips.clamp, least, zipWith_zipWith]
  rfl

theorem clippedLoss_floor (clips : tch.Clips) (config : LossConfig K)
    (clip : 0 ≤ config.clipEpsilon) {ratio advantages : List K}
    (lengths : ratio.length = advantages.length) :
    clippedFloor config.clipEpsilon advantages ≤ clippedLoss tch config ratio advantages ∧
      (clippedLoss tch config ratio advantages = clippedFloor config.clipEpsilon advantages ↔
        ∀ p ∈ ratio.zip advantages, Clipped config.clipEpsilon p.1 p.2) := by
  have each := surrogate_le clip
  obtain ⟨below, reached⟩ := mean_zipWith_le (fun r a => (each r a).1) ratio advantages
  rw [zipWith_right _ lengths] at below reached
  rw [clippedLoss_eq clips, clippedFloor, neg_le_neg_iff, neg_inj]
  exact ⟨below, reached.trans (by simp only [fun r a => (each r a).2])⟩

theorem clippedLoss_plain (clips : tch.Clips) (config : LossConfig K)
    (clip : 0 ≤ config.clipEpsilon) (ratio advantages : List K) :
    -mean (List.zipWith (· * ·) ratio advantages) ≤ clippedLoss tch config ratio advantages ∧
      (clippedLoss tch config ratio advantages =
          -mean (List.zipWith (· * ·) ratio advantages) ↔
        ∀ p ∈ ratio.zip advantages, Counted config.clipEpsilon p.1 p.2) := by
  have each := surrogate_le_plain clip
  obtain ⟨below, reached⟩ := mean_zipWith_le (fun r a => (each r a).1) ratio advantages
  rw [clippedLoss_eq clips, neg_le_neg_iff, neg_inj]
  exact ⟨below, reached.trans (by simp only [fun r a => (each r a).2])⟩

end Clip

/-! ### The batch of a rollout -/

section Batch

variable {obsDim numActions : Nat} {transitions : List (OnPolicyTransition K)}
  {gamma gaeLambda bootstrapValue : K} {batch : RolloutBatch K}

/- `gather` finds every element. -/
def Tch.Gathers (tch : Tch K) : Prop :=
  ∀ {n : Nat} (row : Fin n → K) (i : Fin n), tch.gather row (i : Nat) = some (row i)

/- An observation of the width of the input layer, and an action that the policy has. -/
structure Fits (obsDim numActions : Nat) (tr : OnPolicyTransition K) : Prop where
  observation : tr.observation.length = obsDim
  action : 0 ≤ tr.action ∧ tr.action.toNat < numActions

theorem intoBatch_some
    (converted : intoBatch transitions gamma gaeLambda bootstrapValue = some batch) :
    transitions ≠ [] ∧ batch =
      { observations := transitions.flatMap OnPolicyTransition.observation
        actions := transitions.map OnPolicyTransition.action
        oldLogProbs := transitions.map OnPolicyTransition.logProb
        returns := (computeGae transitions bootstrapValue gamma gaeLambda).1
        advantages := (computeGae transitions bootstrapValue gamma gaeLambda).2 } := by
  cases transitions with
  | nil => cases converted
  | cons first rest =>
    simp only [intoBatch, Option.ite_none_right_eq_some, Option.some.injEq] at converted
    exact ⟨List.cons_ne_nil _ _, converted.2.symm⟩

omit [Field K] in
theorem tensorRows_flatMap (widths : ∀ tr ∈ transitions, tr.observation.length = obsDim) :
    tensorRows obsDim transitions.length (transitions.flatMap OnPolicyTransition.observation) =
      transitions.map OnPolicyTransition.observation := by
  induction transitions with
  | nil => rfl
  | cons tr rest ih =>
    obtain ⟨width, others⟩ := List.forall_mem_cons.mp widths
    rw [List.flatMap_cons, List.length_cons, tensorRows, ← width, List.take_left, List.drop_left,
      width, ih others, List.map_cons]

omit [Field K] in
theorem flatMap_length (widths : ∀ tr ∈ transitions, tr.observation.length = obsDim) :
    (transitions.flatMap OnPolicyTransition.observation).length = transitions.length * obsDim := by
  rw [List.length_flatMap, List.map_congr_left widths, List.map_const', List.sum_replicate,
    smul_eq_mul]

/- The rows of a batch are evaluated one by one, as many as there are transitions. -/
theorem evaluateActions_fits {tch : Tch K} (gathers : tch.Gathers)
    (actorCritic : ActorCritic tch obsDim numActions)
    (fits : ∀ tr ∈ transitions, Fits obsDim numActions tr)
    (converted : intoBatch transitions gamma gaeLambda bootstrapValue = some batch) :
    ∃ evaluated, actorCritic.evaluateActions batch.observations batch.actions =
      some evaluated ∧ evaluated.length = transitions.length := by
  have widths : ∀ tr ∈ transitions, tr.observation.length = obsDim :=
    fun tr listed => (fits tr listed).observation
  have each : ∀ tr ∈ transitions, ∃ row,
      actorCritic.evaluateRow (tr.observation, tr.action) = some row := by
    intro tr listed
    obtain ⟨width, known, inside⟩ := fits tr listed
    have index : tr.action = ((⟨tr.action.toNat, inside⟩ : Fin numActions) : Nat) :=
      (Int.toNat_of_nonneg known).symm
    simp only [ActorCritic.evaluateRow, asRow, dif_pos width, Option.bind_some]
    rw [index, gathers]
    exact ⟨_, rfl⟩
  obtain ⟨rfl⟩ := (intoBatch_some converted).2
  unfold ActorCritic.evaluateActions
  rw [if_pos (by rw [List.length_map]; exact flatMap_length widths), List.length_map,
    tensorRows_flatMap widths, List.zip_map']
  clear converted widths fits
  induction transitions with
  | nil => exact ⟨[], rfl, rfl⟩
  | cons tr rest ih =>
    obtain ⟨first, others⟩ := List.forall_mem_cons.mp each
    obtain ⟨row, made⟩ := first
    obtain ⟨rows, read, count⟩ := ih others
    refine ⟨row :: rows, ?_, congrArg (· + 1) count⟩
    rw [List.map_cons, List.mapM_cons, made, read]
    rfl

end Batch

/-! ### What the loss can be -/

/- What the tensor library says of the functions that the loss is made with. -/
structure Tch.Documented (tch : Tch ℝ) : Prop extends tch.Clips where
  softmax : ∀ {n : Nat} (logits : Fin n → ℝ) (i : Fin n),
    tch.softmax logits i = Real.exp (logits i) / ∑ j, Real.exp (logits j)
  logSoftmax : ∀ {n : Nat} (logits : Fin n → ℝ) (i : Fin n),
    tch.logSoftmax logits i = Real.log (tch.softmax logits i)
  gathers : tch.Gathers

section Exact

variable {tch : Tch ℝ} {obsDim numActions : Nat} {transitions : List (OnPolicyTransition ℝ)}
  {gamma gaeLambda bootstrapValue : ℝ} {batch : RolloutBatch ℝ} {config : LossConfig ℝ}

theorem Evaluated.positive (documented : tch.Documented) (actions : 0 < numActions)
    (row : Evaluated ℝ numActions) : Positive (tch.softmax row.logits) ∧
      row.entropy tch = Categorical.entropy (tch.softmax row.logits) := by
  have : Nonempty (Fin numActions) := ⟨⟨0, actions⟩⟩
  have normalized : tch.softmax row.logits = fun i => Real.exp (row.logits i) /
      ∑ j, Real.exp (row.logits j) := funext (documented.softmax row.logits)
  refine ⟨normalized ▸ positive_normalized row.logits, ?_⟩
  simp only [Evaluated.entropy, Categorical.entropy, documented.logSoftmax]

theorem Evaluated.entropy_le (documented : tch.Documented) (actions : 0 < numActions)
    (row : Evaluated ℝ numActions) : row.entropy tch ≤ Real.log numActions ∧
      (row.entropy tch = Real.log numActions ↔
        ∀ i, tch.softmax row.logits i = (numActions : ℝ)⁻¹) := by
  have : Nonempty (Fin numActions) := ⟨⟨0, actions⟩⟩
  obtain ⟨positive, entropy⟩ := row.positive documented actions
  rw [entropy]
  simpa only [Fintype.card_fin] using positive.entropy_le

theorem entropyBonus_bounds (documented : tch.Documented) (actions : 0 < numActions)
    {evaluated : List (Evaluated ℝ numActions)} (some : evaluated ≠ []) :
    0 ≤ entropyBonus tch evaluated ∧ entropyBonus tch evaluated ≤ Real.log numActions ∧
      (entropyBonus tch evaluated = Real.log numActions ↔
        ∀ row ∈ evaluated, ∀ i, tch.softmax row.logits i = (numActions : ℝ)⁻¹) := by
  have rows : (evaluated.length : ℝ) ≠ 0 := Nat.cast_ne_zero.mpr (List.length_pos_iff.mpr some).ne'
  have const : mean (evaluated.map fun _ => Real.log numActions) = Real.log numActions := by
    rw [mean, List.map_const', List.sum_replicate, List.length_replicate, nsmul_eq_mul,
      mul_div_cancel_left₀ _ rows]
  obtain ⟨sums, reached⟩ := sum_map_le fun (row : Evaluated ℝ numActions) (_ : row ∈ evaluated) =>
    (row.entropy_le documented actions).1
  obtain ⟨below, same⟩ := mean_le (by simp) sums
  rw [const] at below same
  refine ⟨?_, below, same.trans (reached.trans ?_)⟩
  · refine div_nonneg (List.sum_nonneg ?_) (Nat.cast_nonneg _)
    rintro _ listed
    obtain ⟨row, _, rfl⟩ := List.mem_map.mp listed
    obtain ⟨positive, entropy⟩ := row.positive documented actions
    rw [entropy]
    exact positive.entropy_nonneg
  · exact forall₂_congr fun row _ => (row.entropy_le documented actions).2

theorem valueLoss_bounds {evaluated : List (Evaluated ℝ numActions)}
    (lengths : evaluated.length = batch.returns.length) :
    0 ≤ valueLoss evaluated batch ∧ (valueLoss evaluated batch = 0 ↔
      ∀ p ∈ evaluated.zip batch.returns, p.1.value = p.2) := by
  obtain ⟨below, reached⟩ := mean_zipWith_le
    (fun (row : Evaluated ℝ numActions) ret => sq_nonneg (row.value - ret)) evaluated batch.returns
  have zero : mean (List.zipWith (fun (_ : Evaluated ℝ numActions) (_ : ℝ) => (0 : ℝ)) evaluated
      batch.returns) = 0 := by
    rw [zipWith_right (fun _ => (0 : ℝ)) lengths, mean, List.map_const', List.sum_replicate,
      smul_zero, zero_div]
  rw [zero] at below reached
  refine ⟨below, eq_comm.trans (reached.trans (forall₂_congr fun p _ => ?_))⟩
  rw [eq_comm, pow_eq_zero_iff two_ne_zero, sub_eq_zero]

/- The loss without the clip. -/
noncomputable def plainLoss (tch : Tch ℝ) (config : LossConfig ℝ)
    (evaluated : List (Evaluated ℝ numActions)) (batch : RolloutBatch ℝ) : ℝ :=
  -mean (List.zipWith (· * ·) (ratios tch evaluated batch) batch.advantages) +
    config.valueCoef * valueLoss evaluated batch -
    config.entropyCoef * entropyBonus tch evaluated

/- The loss of networks that gain all that the clip lets through, whose values are the returns
and whose policy is uniform. -/
noncomputable def lossFloor (config : LossConfig ℝ) (numActions : Nat) (batch : RolloutBatch ℝ) :
    ℝ :=
  clippedFloor config.clipEpsilon batch.advantages - config.entropyCoef * Real.log numActions

structure Floored (tch : Tch ℝ) (config : LossConfig ℝ)
    (evaluated : List (Evaluated ℝ numActions)) (batch : RolloutBatch ℝ) : Prop where
  clipped : ∀ p ∈ (ratios tch evaluated batch).zip batch.advantages,
    Clipped config.clipEpsilon p.1 p.2
  valued : config.valueCoef = 0 ∨ ∀ p ∈ evaluated.zip batch.returns, p.1.value = p.2
  uniform : config.entropyCoef = 0 ∨
    ∀ row ∈ evaluated, ∀ i, tch.softmax row.logits i = (numActions : ℝ)⁻¹

structure LossConfig.Nonneg (config : LossConfig ℝ) : Prop where
  clip : 0 ≤ config.clipEpsilon
  value : 0 ≤ config.valueCoef
  entropy : 0 ≤ config.entropyCoef

/- A batch whose rows were evaluated has as many of everything, and some of it. -/
structure Lengths (evaluated : List (Evaluated ℝ numActions)) (batch : RolloutBatch ℝ) : Prop where
  some : evaluated ≠ []
  actions : 0 < numActions
  oldLogProbs : evaluated.length = batch.oldLogProbs.length
  returns : evaluated.length = batch.returns.length
  advantages : evaluated.length = batch.advantages.length

variable (config) in
theorem epochLoss_fits (documented : tch.Documented)
    (actorCritic : ActorCritic tch obsDim numActions)
    (fits : ∀ tr ∈ transitions, Fits obsDim numActions tr)
    (converted : intoBatch transitions gamma gaeLambda bootstrapValue = some batch) :
    ∃ evaluated, actorCritic.evaluateActions batch.observations batch.actions =
        some evaluated ∧ Lengths evaluated batch ∧
      epochLoss tch config actorCritic batch = some
        (clippedLoss tch config (ratios tch evaluated batch) batch.advantages +
          config.valueCoef * valueLoss evaluated batch -
          config.entropyCoef * entropyBonus tch evaluated) := by
  obtain ⟨evaluated, read, count⟩ :=
    evaluateActions_fits documented.gathers actorCritic fits converted
  obtain ⟨nonempty, rfl⟩ := intoBatch_some converted
  obtain ⟨first, listed⟩ := List.exists_mem_of_ne_nil transitions nonempty
  refine ⟨evaluated, read, ⟨?_, ?_, ?_, ?_, ?_⟩, by rw [epochLoss, read]; rfl⟩
  · rintro rfl
    exact nonempty (List.length_eq_zero_iff.mp count.symm)
  · exact Nat.zero_lt_of_lt (fits first listed).action.2
  · rw [count, List.length_map]
  · rw [count, (computeGae_lengths _ _ _ _).1]
  · rw [count, (computeGae_lengths _ _ _ _).2]

theorem ratios_length {evaluated : List (Evaluated ℝ numActions)}
    (lengths : Lengths evaluated batch) :
    (ratios tch evaluated batch).length = batch.advantages.length := by
  rw [ratios, List.length_zipWith, ← lengths.oldLogProbs, ← lengths.advantages, min_self]

theorem loss_floor (documented : tch.Documented) (nonneg : config.Nonneg)
    {evaluated : List (Evaluated ℝ numActions)} (lengths : Lengths evaluated batch) :
    let loss := clippedLoss tch config (ratios tch evaluated batch) batch.advantages +
      config.valueCoef * valueLoss evaluated batch -
      config.entropyCoef * entropyBonus tch evaluated
    lossFloor config numActions batch ≤ loss ∧
      (loss = lossFloor config numActions batch ↔ Floored tch config evaluated batch) := by
  intro loss
  obtain ⟨clipped, atClip⟩ :=
    clippedLoss_floor documented.toClips config nonneg.clip (ratios_length lengths)
  obtain ⟨valued, atValues⟩ := valueLoss_bounds lengths.returns
  obtain ⟨-, spread, atUniform⟩ := entropyBonus_bounds documented lengths.actions lengths.some
  have paid : 0 ≤ config.valueCoef * valueLoss evaluated batch := mul_nonneg nonneg.value valued
  have earned : config.entropyCoef * entropyBonus tch evaluated ≤
      config.entropyCoef * Real.log numActions := mul_le_mul_of_nonneg_left spread nonneg.entropy
  have parts : loss = lossFloor config numActions batch ↔
      clippedLoss tch config (ratios tch evaluated batch) batch.advantages =
          clippedFloor config.clipEpsilon batch.advantages ∧
        config.valueCoef * valueLoss evaluated batch = 0 ∧
        config.entropyCoef * entropyBonus tch evaluated =
          config.entropyCoef * Real.log numActions := by
    constructor
    · intro same
      simp only [loss, lossFloor] at same
      exact ⟨by linarith, by linarith, by linarith⟩
    · rintro ⟨first, second, third⟩
      rw [lossFloor, ← third, ← first]
      simp only [loss, second, add_zero]
  refine ⟨by simp only [loss, lossFloor]; linarith, parts.trans ?_⟩
  rw [atClip, mul_eq_zero, atValues, mul_eq_mul_left_iff, atUniform,
    or_comm (b := config.entropyCoef = 0)]
  exact ⟨fun ⟨first, second, third⟩ => ⟨first, second, third⟩,
    fun floored => ⟨floored.clipped, floored.valued, floored.uniform⟩⟩

/- Whatever the networks have become: the loss is not below its floor, is there only where all
the clip lets through is gained, and counts less gain than the plain loss exactly where a row
is past the clip. -/
theorem clipped_loss_bounds (documented : tch.Documented) (nonneg : config.Nonneg)
    (actorCritic : ActorCritic tch obsDim numActions)
    (fits : ∀ tr ∈ transitions, Fits obsDim numActions tr)
    (converted : intoBatch transitions gamma gaeLambda bootstrapValue = some batch) :
    ∃ evaluated loss,
      actorCritic.evaluateActions batch.observations batch.actions = some evaluated ∧
      epochLoss tch config actorCritic batch = some loss ∧
      lossFloor config numActions batch ≤ loss ∧
      (loss = lossFloor config numActions batch ↔ Floored tch config evaluated batch) ∧
      plainLoss tch config evaluated batch ≤ loss ∧
      (loss = plainLoss tch config evaluated batch ↔
        ∀ p ∈ (ratios tch evaluated batch).zip batch.advantages,
          Counted config.clipEpsilon p.1 p.2) := by
  obtain ⟨evaluated, read, lengths, made⟩ :=
    epochLoss_fits config documented actorCritic fits converted
  obtain ⟨above, floored⟩ := loss_floor documented nonneg lengths
  obtain ⟨below, counted⟩ := clippedLoss_plain documented.toClips config nonneg.clip
    (ratios tch evaluated batch) batch.advantages
  refine ⟨evaluated, _, read, made, above, floored, ?_, ?_⟩
  · exact sub_le_sub_right (add_le_add_left below _) _
  · rw [← counted, plainLoss, sub_left_inj, add_left_inj]

theorem default_nonneg : (LossConfig.default : LossConfig ℝ).Nonneg := by
  constructor <;> norm_num [LossConfig.default]

/-! Affine layers over the reals -/

noncomputable def Tch.affine : Tch ℝ where
  Linear := fun m n => (Fin n → Fin m → ℝ) × (Fin n → ℝ)
  forward := fun linear x i => ∑ j, x j * linear.1 i j + linear.2 i
  tanh := Real.tanh
  exp := Real.exp
  softmax := fun logits i => Real.exp (logits i) / ∑ j, Real.exp (logits j)
  logSoftmax := fun logits i => logits i - Real.log (∑ j, Real.exp (logits j))
  gather := fun {n} row index =>
    if inside : 0 ≤ index ∧ index.toNat < n then some (row ⟨index.toNat, inside.2⟩) else none
  clamp := clampTo
  minOther := min

theorem affine_documented : Tch.affine.Documented where
  clamp := fun _ _ _ => rfl
  minOther := fun _ _ => rfl
  softmax := fun _ _ => rfl
  logSoftmax := fun logits i => by
    have : Nonempty (Fin _) := ⟨i⟩
    exact (log_normalized logits i).symm
  gathers := fun row i => by simp [Tch.affine]

/- A network without hidden layers that prefers its second action where it observes more. -/
def leaning : ActorCritic .affine 1 2 where
  hidden := 1
  shared := .done 1
  policyHead := (![![0], ![1]], ![0, 0])
  valueHead := (![![1]], ![0])

/- Both actions, over two episodes. -/
def threeSteps : List (OnPolicyTransition ℝ) :=
  [⟨[1], 1, -1, 0, 1, false⟩, ⟨[0], 0, -1, 1, 0, true⟩, ⟨[-1], 1, 0, 0, -1, false⟩]

theorem threeSteps_fits : ∀ tr ∈ threeSteps, Fits 1 2 tr := by
  simp only [threeSteps, List.forall_mem_cons]
  exact ⟨⟨rfl, by decide⟩, ⟨rfl, by decide⟩, ⟨rfl, by decide⟩, by simp⟩

/- The policy leans towards one action in every row, so the loss stays above its floor. -/
theorem clipped_loss_bounds_leaning : ∃ batch loss, intoBatch threeSteps 1 1 0 = some batch ∧
    epochLoss .affine .default leaning batch = some loss ∧ lossFloor .default 2 batch < loss := by
  obtain ⟨batch, converted⟩ : ∃ batch, intoBatch threeSteps 1 1 0 = some batch := ⟨_, rfl⟩
  obtain ⟨evaluated, loss, read, made, above, floored, -⟩ :=
    clipped_loss_bounds affine_documented default_nonneg leaning threeSteps_fits converted
  obtain ⟨row, rest, computed, first, second⟩ : ∃ row rest,
      leaning.evaluateActions batch.observations batch.actions = some (row :: rest) ∧
        row.logits 0 = 0 ∧ row.logits 1 = 1 := by
    rw [(intoBatch_some converted).2]
    refine ⟨_, _, rfl, ?_, ?_⟩
    · simp [leaning, Tch.affine, Shared.forward]
    · simp [leaning, Tch.affine, Shared.forward, threeSteps]
  cases read.symm.trans computed
  refine ⟨batch, loss, converted, made, lt_of_le_of_ne above fun same => ?_⟩
  rcases (floored.mp same.symm).uniform with free | uniform
  · norm_num [LossConfig.default] at free
  · have half : Tch.affine.softmax row.logits 0 = ((2 : Nat) : ℝ)⁻¹ := uniform row (.head rest) 0
    rw [affine_documented.softmax, Fin.sum_univ_two, first, second, Real.exp_zero] at half
    have grown : (1 : ℝ) < Real.exp 1 := Real.one_lt_exp_iff.mpr one_pos
    field_simp at half
    push_cast at half
    linarith

end Exact

/-! ### What training reports -/

section Training

variable {W : Type} {tensors : Tensors ℝ W} {tch : Tch ℝ} {obsDim numActions : Nat}

/- The tensors compute the loss and the readings of these networks, and may then move the
weights in any way. -/
structure Computes (tensors : Tensors ℝ W) (networks : W → ActorCritic tch obsDim numActions)
    (losses : LossConfig ℝ) : Prop where
  epoch : ∀ weights lr batch loss, epochLoss tch losses (networks weights) batch = some loss →
    (tensors.epoch weights lr batch).2 = loss
  diagnostics : ∀ weights batch evaluated,
    (networks weights).evaluateActions batch.observations batch.actions = some evaluated →
    tensors.diagnostics weights batch = (valueLoss evaluated batch, entropyBonus tch evaluated)

/- What a step reports, against the batch that its transitions make. -/
def ReportBounds (losses : LossConfig ℝ) (numActions : Nat) (config : TrainDriverConfig ℝ)
    (call : TrainCall ℝ) (metrics : TrainMetrics ℝ) : Prop :=
  ∃ batch, intoBatch call.transitions config.gamma config.gaeLambda call.bootstrapValue =
      some batch ∧ lossFloor losses numActions batch ≤ metrics.policyLoss ∧
    0 ≤ metrics.valueLoss ∧ 0 ≤ metrics.entropy ∧ metrics.entropy ≤ Real.log numActions

/- The mean over the epochs is at least what each of them is. -/
theorem PpoTrainer.policyUpdate_ge (self : PpoTrainer ℝ W) {batch : RolloutBatch ℝ} {floor : ℝ}
    (each : ∀ weights lr, floor ≤ (tensors.epoch weights lr batch).2)
    (epochs : 0 < self.config.ppoEpochs) : floor ≤ (self.policyUpdate tensors batch).2 := by
  have sums : ∀ (turns : List Nat) (state : W × ℝ), state.2 + turns.length * floor ≤
      (turns.foldl (fun state _ =>
        ((tensors.epoch state.1 self.optimizerLr batch).1,
          state.2 + (tensors.epoch state.1 self.optimizerLr batch).2)) state).2 := by
    intro turns
    induction turns with
    | nil => simp
    | cons turn rest ih =>
      intro state
      have first := each state.1 self.optimizerLr
      refine le_trans ?_ (ih _)
      simp only [List.length_cons, Nat.cast_add, Nat.cast_one]
      linarith
  have total := sums (List.range self.config.ppoEpochs) (self.weights, 0)
  rw [List.length_range, zero_add] at total
  exact (le_div_iff₀' (Nat.cast_pos.mpr epochs)).mpr total

theorem trainStep_reports {driver next : WolfPpoTrainDriver ℝ W} {call : TrainCall ℝ}
    {metrics : TrainMetrics ℝ} (stepped : driver.trainStep tensors call = some (metrics, next)) :
    ∃ batch trainer, intoBatch call.transitions driver.config.gamma driver.config.gaeLambda
        call.bootstrapValue = some batch ∧
      (metrics.valueLoss, metrics.entropy) =
        tensors.diagnostics driver.trainer.inner.weights batch ∧
      metrics.policyLoss = (PpoTrainer.policyUpdate tensors trainer batch).2 ∧
      trainer.config = driver.trainer.inner.config ∧
      next.trainer.inner.config = driver.trainer.inner.config ∧ next.config = driver.config := by
  unfold WolfPpoTrainDriver.trainStep at stepped
  obtain ⟨batch, converted, done⟩ := Option.bind_eq_some_iff.mp stepped
  cases done
  exact ⟨batch, _, converted, rfl, rfl, rfl, rfl, rfl⟩

/- One step, from whatever weights. -/
theorem trainStep_bounds (documented : tch.Documented)
    {networks : W → ActorCritic tch obsDim numActions} {losses : LossConfig ℝ}
    (computes : Computes tensors networks losses) (nonneg : losses.Nonneg)
    {driver next : WolfPpoTrainDriver ℝ W} {call : TrainCall ℝ} {metrics : TrainMetrics ℝ}
    (epochs : 0 < driver.trainer.inner.config.ppoEpochs)
    (fits : ∀ tr ∈ call.transitions, Fits obsDim numActions tr)
    (stepped : driver.trainStep tensors call = some (metrics, next)) :
    ReportBounds losses numActions driver.config call metrics := by
  obtain ⟨batch, trainer, converted, readings, update, configured, -⟩ := trainStep_reports stepped
  obtain ⟨evaluated, read, lengths, -⟩ :=
    epochLoss_fits losses documented (networks driver.trainer.inner.weights) fits converted
  rw [computes.diagnostics _ _ _ read, Prod.mk.injEq] at readings
  obtain ⟨valued, entropy⟩ := readings
  have spread := entropyBonus_bounds documented lengths.actions lengths.some
  refine ⟨batch, converted, ?_, ?_, ?_, ?_⟩
  · rw [update]
    refine trainer.policyUpdate_ge (fun weights lr => ?_) (configured ▸ epochs)
    obtain ⟨evaluated, -, lengths, made⟩ :=
      epochLoss_fits losses documented (networks weights) fits converted
    rw [computes.epoch _ _ _ _ made]
    exact (loss_floor documented nonneg lengths).1
  · exact valued ▸ (valueLoss_bounds lengths.returns).1
  · exact entropy ▸ spread.1
  · exact entropy ▸ spread.2.1

/- Every run of the training loop, whatever its optimizer makes of the weights: no step reports
a loss below the floor of its batch, nor an entropy that is not one of the actions. -/
theorem training_reports_bounded (documented : tch.Documented)
    {networks : W → ActorCritic tch obsDim numActions}
    {losses : LossConfig ℝ} (computes : Computes tensors networks losses) (nonneg : losses.Nonneg)
    {weights : W} {driverConfig : TrainDriverConfig ℝ} {config : WolfPpoConfig ℝ}
    (epochs : 0 < config.ppo.ppoEpochs) {calls : List (TrainCall ℝ)}
    (fits : ∀ call ∈ calls, ∀ tr ∈ call.transitions, Fits obsDim numActions tr)
    {driver : WolfPpoTrainDriver ℝ W} {reports : List (TrainMetrics ℝ × ℝ)}
    (trained : train tensors weights driverConfig config calls = some (driver, reports)) :
    List.Forall₂ (fun call report => ReportBounds losses numActions driverConfig call report.1)
      calls reports := by
  let Inv (calls : List (TrainCall ℝ))
      (state : WolfPpoTrainDriver ℝ W × List (TrainMetrics ℝ × ℝ)) :=
    (∀ call ∈ calls, ∀ tr ∈ call.transitions, Fits obsDim numActions tr) →
      state.1.config = driverConfig ∧ state.1.trainer.inner.config = config.ppo ∧
        List.Forall₂ (fun call report => ReportBounds losses numActions driverConfig call report.1)
          calls state.2
  have kept : Inv calls (driver, reports) := by
    refine PartialRun.run_invariant Inv (fun _ => ⟨rfl, rfl, .nil⟩) ?_ trained
    intro pre state call next inv stepped fits
    obtain ⟨⟨metrics, driver⟩, taken, rfl⟩ := Option.map_eq_some_iff.mp stepped
    obtain ⟨configured, ppo, reported⟩ := inv fun c listed => fits c (List.mem_append_left _ listed)
    obtain ⟨_, _, -, -, -, -, keepsPpo, keeps⟩ := trainStep_reports taken
    have bounds := trainStep_bounds documented computes nonneg (ppo ▸ epochs)
      (fits call (List.mem_append_right _ (.head _))) taken
    rw [configured] at bounds
    exact ⟨keeps.trans configured, keepsPpo.trans ppo,
      List.rel_append reported (.cons bounds .nil)⟩
  exact (kept fits).2.2

/- Tensors of these networks, which stay as they are. -/
noncomputable def leaningTensors : Tensors ℝ Unit where
  epoch := fun _ _ batch => ((), (epochLoss .affine .default leaning batch).getD 0)
  diagnostics := fun _ batch =>
    ((leaning.evaluateActions batch.observations batch.actions).map fun evaluated =>
      (valueLoss evaluated batch, entropyBonus .affine evaluated)).getD (0, 0)
  policyProbs := fun _ _ => []
  sqrt := id

theorem leaningTensors_computes :
    Computes leaningTensors (fun _ => leaning) LossConfig.default where
  epoch := by
    intro _ _ batch loss made
    simp only [leaningTensors, made, Option.getD_some]
  diagnostics := by
    intro _ batch evaluated read
    simp only [leaningTensors, read, Option.map_some, Option.getD_some]

theorem training_reports_bounded_leaning : ∃ driver metrics lr,
    train leaningTensors () .default .default [⟨threeSteps, 0, none⟩] =
        some (driver, [(metrics, lr)]) ∧
      ReportBounds .default 2 .default ⟨threeSteps, 0, none⟩ metrics := by
  obtain ⟨driver, metrics, lr, trained⟩ : ∃ driver metrics lr,
      train leaningTensors () .default .default [⟨threeSteps, 0, none⟩] =
        some (driver, [(metrics, lr)]) := ⟨_, _, _, rfl⟩
  have bounded := training_reports_bounded affine_documented leaningTensors_computes
    default_nonneg (by decide) (by simpa using threeSteps_fits) trained
  exact ⟨driver, metrics, lr, trained, List.forall₂_cons.mp bounded |>.1⟩

end Training

end Trolly.Gym
