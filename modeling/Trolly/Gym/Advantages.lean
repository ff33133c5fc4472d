import Trolly.Lib.Discounted

/-!
The returns and advantages of a rollout, over any commutative ring. The loop runs backwards
with two accumulators; each is read as a function of the transitions already visited, and
the advantage unrolls into a sum that stops where the episode does.
-/

namespace Trolly.Gym

open Discounted

variable {R : Type*}

structure OnPolicyTransition (R : Type*) where
  observation : List R
  action : Int
  logProb : R
  value : R
  reward : R
  done : Bool
deriving DecidableEq, Repr

/-! ### Episodes -/

section Episodes

variable (transitions : List (OnPolicyTransition R))

def doneAt (k : Nat) : Bool := (transitions[k]?.map OnPolicyTransition.done).getD false

/- The first index at or after `i` that ends an episode, or else the last index. -/
structure EpisodeEnd (i e : Nat) : Prop where
  after : i ≤ e
  within : e < transitions.length
  running : ∀ k, i ≤ k → k < e → doneAt transitions k = false
  stops : doneAt transitions e = true ∨ e + 1 = transitions.length

variable {transitions}

theorem episodeEnd_exists {i : Nat} (inside : i < transitions.length) :
    ∃ e, EpisodeEnd transitions i e := by
  let Stops := fun e => i ≤ e ∧ (doneAt transitions e = true ∨ e + 1 = transitions.length)
  have last : Stops (transitions.length - 1) := ⟨by omega, Or.inr (by omega)⟩
  have some_stop : ∃ e, Stops e := ⟨_, last⟩
  obtain ⟨after, stops⟩ := Nat.find_spec some_stop
  have within : Nat.find some_stop ≤ transitions.length - 1 := Nat.find_min' some_stop last
  refine ⟨Nat.find some_stop, after, by omega, fun k from_i before => ?_, stops⟩
  by_contra ended
  exact Nat.find_min some_stop before ⟨from_i, Or.inl (by simpa using ended)⟩

theorem EpisodeEnd.inside {i e : Nat} (ends : EpisodeEnd transitions i e) :
    i < transitions.length :=
  Nat.lt_of_le_of_lt ends.after ends.within

theorem EpisodeEnd.not_before {i e e' : Nat} (here : EpisodeEnd transitions i e)
    (there : EpisodeEnd transitions i e') : ¬ e < e' := by
  intro before
  have goes_on := there.running e here.after before
  have within := there.within
  have stops := here.stops
  simp only [goes_on, Bool.false_eq_true, false_or] at stops
  omega

theorem EpisodeEnd.unique {i e e' : Nat} (here : EpisodeEnd transitions i e)
    (there : EpisodeEnd transitions i e') : e = e' :=
  Nat.le_antisymm (Nat.not_lt.mp (there.not_before here)) (Nat.not_lt.mp (here.not_before there))

theorem take_through_end {d : Nat} (ended : doneAt transitions d = true) :
    ∃ front last, front.length = d ∧ last.done = true ∧
      transitions.take (d + 1) = front ++ [last] := by
  unfold doneAt at ended
  cases found : transitions[d]? with
  | none => simp [found] at ended
  | some last =>
    obtain ⟨within, here⟩ := List.getElem?_eq_some_iff.mp found
    refine ⟨transitions.take d, last, by simp; omega, by simpa [found] using ended, ?_⟩
    rw [List.take_add_one, found]
    rfl

/- Entries marked as the transitions are, read from `i` on, end where the episode does. -/
theorem EpisodeEnd.endsAt {i e : Nat} (ends : EpisodeEnd transitions i e)
    {entries : List (R × Bool)}
    (marked : entries.map Prod.snd = transitions.map OnPolicyTransition.done) :
    EndsAt (entries.drop i) (e - i) := by
  have length : entries.length = transitions.length := by
    simpa using congrArg List.length marked
  have marks (k : Nat) : markedAt entries k = doneAt transitions k := by
    simp only [markedAt, doneAt, ← List.getElem?_map, marked]
  have after := ends.after
  have within := ends.within
  apply endsAt_of_first
  · rw [List.length_drop, length]
    omega
  · intro k below
    rw [markedAt_drop, marks]
    exact ends.running (i + k) (by omega) (by omega)
  · rw [markedAt_drop, marks, List.length_drop, length, Nat.add_sub_cancel' after]
    exact ends.stops.imp_right fun last => by omega

end Episodes

/-! ### The loop -/

section Loop

variable [CommRing R]

structure GaeState (R : Type*) where
  returns : List R
  advantages : List R
  gae : R
  nextValue : R

def gaeStep (transitions : List (OnPolicyTransition R)) (gamma lambda : R) (state : GaeState R)
    (i : Nat) : GaeState R :=
  match transitions[i]? with
  | none => state
  | some tr =>
    let mask := if tr.done then 0 else 1
    let delta := tr.reward + gamma * state.nextValue * mask - tr.value
    let gae := delta + gamma * lambda * mask * state.gae
    { advantages := state.advantages.set i gae
      returns := state.returns.set i (gae + tr.value)
      gae := gae
      nextValue := tr.value }

def computeGae (transitions : List (OnPolicyTransition R)) (bootstrapValue gamma lambda : R) :
    List R × List R :=
  let t := transitions.length
  let start : GaeState R :=
    { returns := List.replicate t 0
      advantages := List.replicate t 0
      gae := 0
      nextValue := bootstrapValue }
  let final := (List.range t).reverse.foldl (gaeStep transitions gamma lambda) start
  (final.returns, final.advantages)

structure RolloutBatch (R : Type*) where
  observations : List R
  actions : List Int
  oldLogProbs : List R
  returns : List R
  advantages : List R

/- A rollout without transitions fails the assertion; one whose observations do not fill
`t` rows of the first one's width fails the reshape. -/
def intoBatch (transitions : List (OnPolicyTransition R)) (gamma gaeLambda bootstrapValue : R) :
    Option (RolloutBatch R) :=
  match transitions with
  | [] => none
  | first :: _ =>
    let (returns, advantages) := computeGae transitions bootstrapValue gamma gaeLambda
    let obsDim := first.observation.length
    let obsFlat := transitions.flatMap OnPolicyTransition.observation
    if obsFlat.length = transitions.length * obsDim then
      some
        { observations := obsFlat
          actions := transitions.map OnPolicyTransition.action
          oldLogProbs := transitions.map OnPolicyTransition.logProb
          returns := returns
          advantages := advantages }
    else none

/- The value estimate at the head of the transitions, or the bootstrap value past the end. -/
def valueAhead (bootstrapValue : R) : List (OnPolicyTransition R) → R
  | [] => bootstrapValue
  | tr :: _ => tr.value

def residuals (bootstrapValue gamma : R) : List (OnPolicyTransition R) → List (R × Bool)
  | [] => []
  | tr :: rest =>
    (tr.reward + gamma * valueAhead bootstrapValue rest * (if tr.done then 0 else 1) - tr.value,
      tr.done) :: residuals bootstrapValue gamma rest

def advantage (bootstrapValue gamma lambda : R) (transitions : List (OnPolicyTransition R)) : R :=
  total (gamma * lambda) 0 (residuals bootstrapValue gamma transitions)

theorem advantage_cons (bootstrapValue gamma lambda : R) (tr : OnPolicyTransition R)
    (rest : List (OnPolicyTransition R)) :
    advantage bootstrapValue gamma lambda (tr :: rest) =
      tr.reward + gamma * valueAhead bootstrapValue rest * (if tr.done then 0 else 1) - tr.value +
        gamma * lambda * (if tr.done then 0 else 1) *
          advantage bootstrapValue gamma lambda rest := by
  unfold advantage
  rw [residuals, total_cons]
  cases tr.done with
  | true => simp
  | false => simp

variable {transitions : List (OnPolicyTransition R)} {bootstrapValue gamma lambda : R}

/- The state of the loop once the indices from `n` on are done. -/
structure Filled (transitions : List (OnPolicyTransition R)) (bootstrapValue gamma lambda : R)
    (n : Nat) (state : GaeState R) : Prop where
  returns_length : state.returns.length = transitions.length
  advantages_length : state.advantages.length = transitions.length
  gae : state.gae = advantage bootstrapValue gamma lambda (transitions.drop n)
  next_value : state.nextValue = valueAhead bootstrapValue (transitions.drop n)
  advantages_from : ∀ j, n ≤ j → j < transitions.length → state.advantages[j]? =
    some (advantage bootstrapValue gamma lambda (transitions.drop j))
  returns_from : ∀ j tr, n ≤ j → transitions[j]? = some tr → state.returns[j]? =
    some (advantage bootstrapValue gamma lambda (transitions.drop j) + tr.value)

/- One turn of the loop extends what is filled by one index. -/
theorem Filled.step {n : Nat} {state : GaeState R} {tr : OnPolicyTransition R}
    (filled : Filled transitions bootstrapValue gamma lambda (n + 1) state)
    (visited : transitions[n]? = some tr) :
    Filled transitions bootstrapValue gamma lambda n
      (gaeStep transitions gamma lambda state n) := by
  obtain ⟨within, here⟩ := List.getElem?_eq_some_iff.mp visited
  have dropped : transitions.drop n = tr :: transitions.drop (n + 1) := by
    rw [← here, List.drop_eq_getElem_cons within]
  have reached : advantage bootstrapValue gamma lambda (transitions.drop n) =
      tr.reward + gamma * state.nextValue * (if tr.done then 0 else 1) - tr.value +
        gamma * lambda * (if tr.done then 0 else 1) * state.gae := by
    rw [dropped, advantage_cons, ← filled.gae, ← filled.next_value]
  unfold gaeStep
  rw [visited]
  constructor
  case returns_length => simp [filled.returns_length]
  case advantages_length => simp [filled.advantages_length]
  case gae => exact reached.symm
  case next_value => simp [dropped, valueAhead]
  case advantages_from =>
    intro j from_n inside
    rcases Nat.eq_or_lt_of_le from_n with rfl | later
    · simp [filled.advantages_length, inside, reached]
    · rw [List.getElem?_set_ne (Nat.ne_of_lt later)]
      exact filled.advantages_from j later inside
  case returns_from =>
    intro j other from_n found
    rcases Nat.eq_or_lt_of_le from_n with rfl | later
    · obtain rfl : tr = other := by simpa [visited] using found
      simp [filled.returns_length, within, reached]
    · rw [List.getElem?_set_ne (Nat.ne_of_lt later)]
      exact filled.returns_from j other later found

theorem Filled.run {n : Nat} {state : GaeState R} (inside : n ≤ transitions.length)
    (filled : Filled transitions bootstrapValue gamma lambda n state) :
    Filled transitions bootstrapValue gamma lambda 0
      ((List.range n).reverse.foldl (gaeStep transitions gamma lambda) state) := by
  induction n generalizing state with
  | zero => exact filled
  | succ n ih =>
    have visited : transitions[n]? = some transitions[n] := List.getElem?_eq_getElem inside
    rw [List.range_succ, List.reverse_append, List.reverse_singleton, List.singleton_append,
      List.foldl_cons]
    exact ih (Nat.le_of_succ_le inside) (filled.step visited)

theorem start_filled : Filled transitions bootstrapValue gamma lambda transitions.length
    { returns := List.replicate transitions.length 0
      advantages := List.replicate transitions.length 0
      gae := 0
      nextValue := bootstrapValue } := by
  constructor
  case returns_length => exact List.length_replicate
  case advantages_length => exact List.length_replicate
  case gae => simp [advantage, residuals]
  case next_value => simp [valueAhead]
  case advantages_from => exact fun j past inside => absurd inside (Nat.not_lt.mpr past)
  case returns_from =>
    intro j tr past found
    obtain ⟨inside, -⟩ := List.getElem?_eq_some_iff.mp found
    exact absurd inside (Nat.not_lt.mpr past)

theorem computeGae_filled (transitions : List (OnPolicyTransition R))
    (bootstrapValue gamma lambda : R) : ∃ state : GaeState R,
      Filled transitions bootstrapValue gamma lambda 0 state ∧
        computeGae transitions bootstrapValue gamma lambda = (state.returns, state.advantages) :=
  ⟨_, Filled.run le_rfl start_filled, rfl⟩

end Loop

/-! ### The closed form -/

section ClosedForm

variable [CommRing R]
variable (transitions : List (OnPolicyTransition R)) (bootstrapValue gamma lambda : R)

def rewardAt (k : Nat) : R := (transitions[k]?.map OnPolicyTransition.reward).getD 0

/- The value estimate of index `k`; past the last it is the bootstrap value. -/
def valueAt (k : Nat) : R := (transitions[k]?.map OnPolicyTransition.value).getD bootstrapValue

def residualAt (k : Nat) : R :=
  let done := if doneAt transitions k then 1 else 0
  rewardAt transitions k + gamma * valueAt transitions bootstrapValue (k + 1) * (1 - done) -
    valueAt transitions bootstrapValue k

def discountedResiduals (i e : Nat) : R :=
  ∑ k ∈ Finset.Ico i (e + 1),
    (gamma * lambda) ^ (k - i) * residualAt transitions bootstrapValue gamma k

/- The discounted rewards of the rest of the episode, with the bootstrap value where the
rollout stops before the episode does. -/
def monteCarloReturn (i e : Nat) : R :=
  ∑ k ∈ Finset.Ico i (e + 1), gamma ^ (k - i) * rewardAt transitions k +
    if doneAt transitions e then 0 else gamma ^ (e + 1 - i) * bootstrapValue

omit [CommRing R] in
theorem valueAhead_drop (k : Nat) : valueAhead bootstrapValue (transitions.drop k) =
    valueAt transitions bootstrapValue k := by
  unfold valueAt
  rw [← List.head?_drop]
  cases transitions.drop k <;> rfl

theorem residuals_drop (n : Nat) : (residuals bootstrapValue gamma transitions).drop n =
    residuals bootstrapValue gamma (transitions.drop n) := by
  induction n generalizing transitions with
  | zero => rfl
  | succ n ih =>
    cases transitions with
    | nil => rfl
    | cons tr rest => exact ih rest

theorem residuals_marked : (residuals bootstrapValue gamma transitions).map Prod.snd =
    transitions.map OnPolicyTransition.done := by
  induction transitions with
  | nil => rfl
  | cons tr rest ih => simp [residuals, ih]

theorem amount_residuals {k : Nat} (within : k < transitions.length) :
    amount (residuals bootstrapValue gamma transitions) k =
      residualAt transitions bootstrapValue gamma k := by
  have dropped : transitions.drop k = transitions[k] :: transitions.drop (k + 1) :=
    List.drop_eq_getElem_cons within
  have head := amount_drop (residuals bootstrapValue gamma transitions) k 0
  have mask : (if transitions[k].done then (0 : R) else 1) =
      1 - if transitions[k].done then 1 else 0 := by
    cases transitions[k].done <;> simp
  rw [residuals_drop, dropped, residuals, amount_cons_zero, valueAhead_drop, mask] at head
  rw [← Nat.add_zero k, ← head]
  simp [residualAt, rewardAt, valueAt, doneAt, List.getElem?_eq_getElem within]

theorem advantage_eq_sum {i e : Nat} (ends : EpisodeEnd transitions i e) :
    advantage bootstrapValue gamma lambda (transitions.drop i) =
      discountedResiduals transitions bootstrapValue gamma lambda i e := by
  have cut := ends.endsAt (residuals_marked transitions bootstrapValue gamma)
  rw [advantage, ← residuals_drop, total_drop_eq_sum _ _ ends.after cut, discountedResiduals]
  simp only [mul_zero, ite_self, add_zero]
  refine Finset.sum_congr rfl fun k inside => ?_
  have below := (Finset.mem_Ico.mp inside).2
  have within := ends.within
  rw [amount_residuals transitions bootstrapValue gamma (by omega)]

theorem advantage_one_step {i : Nat} (within : i < transitions.length) :
    advantage bootstrapValue gamma 0 (transitions.drop i) =
      residualAt transitions bootstrapValue gamma i := by
  have dropped : transitions.drop i = transitions[i] :: transitions.drop (i + 1) :=
    List.drop_eq_getElem_cons within
  have head := amount_drop (residuals bootstrapValue gamma transitions) i 0
  rw [Nat.add_zero, amount_residuals transitions bootstrapValue gamma within, residuals_drop,
    dropped, residuals, amount_cons_zero] at head
  rw [dropped, advantage, residuals, mul_zero, total_undiscounted]
  exact head

def rewards (transitions : List (OnPolicyTransition R)) : List (R × Bool) :=
  transitions.map fun tr => (tr.reward, tr.done)

/- Undamped, the residuals telescope: the value estimates between the ends cancel. -/
theorem advantage_undamped : advantage bootstrapValue gamma 1 transitions =
    total gamma bootstrapValue (rewards transitions) - valueAhead bootstrapValue transitions := by
  induction transitions with
  | nil => simp [advantage, residuals, rewards, valueAhead]
  | cons tr rest ih =>
    have unrolled : rewards (tr :: rest) = (tr.reward, tr.done) :: rewards rest := rfl
    rw [advantage_cons, ih, unrolled, total_cons]
    simp only [valueAhead]
    cases tr.done with
    | true => simp
    | false =>
      simp only [Bool.false_eq_true, if_false]
      ring

theorem rewards_eq_monteCarlo {i e : Nat} (ends : EpisodeEnd transitions i e) :
    total gamma bootstrapValue (rewards (transitions.drop i)) =
      monteCarloReturn transitions bootstrapValue gamma i e := by
  have cut : EndsAt ((rewards transitions).drop i) (e - i) := ends.endsAt (by simp [rewards])
  have marks : markedAt (rewards transitions) e = doneAt transitions e := by
    simp [markedAt, doneAt, rewards, Function.comp_def]
  have amounts (k : Nat) : amount (rewards transitions) k = rewardAt transitions k := by
    simp [amount, rewardAt, rewards, Function.comp_def]
  rw [rewards, List.map_drop, ← rewards, total_drop_eq_sum _ _ ends.after cut, monteCarloReturn]
  simp only [marks, amounts]

/- What follows the end of an episode, the bootstrap value included, is masked. -/
theorem advantage_ended {last : OnPolicyTransition R} (ended : last.done = true)
    (front after after' : List (OnPolicyTransition R)) (bootstrapValue' : R) :
    advantage bootstrapValue gamma lambda (front ++ last :: after) =
      advantage bootstrapValue' gamma lambda (front ++ last :: after') := by
  induction front with
  | nil => simp [advantage_cons, ended]
  | cons tr front ih =>
    have ahead : valueAhead bootstrapValue (front ++ last :: after) =
        valueAhead bootstrapValue' (front ++ last :: after') := by
      cases front <;> rfl
    rw [List.cons_append, List.cons_append, advantage_cons, advantage_cons, ahead, ih]

theorem computeGae_lengths :
    (computeGae transitions bootstrapValue gamma lambda).1.length = transitions.length ∧
      (computeGae transitions bootstrapValue gamma lambda).2.length = transitions.length := by
  obtain ⟨state, filled, ran⟩ := computeGae_filled transitions bootstrapValue gamma lambda
  rw [ran]
  exact ⟨filled.returns_length, filled.advantages_length⟩

theorem computeGae_advantages {i : Nat} (within : i < transitions.length) :
    (computeGae transitions bootstrapValue gamma lambda).2[i]? =
      some (advantage bootstrapValue gamma lambda (transitions.drop i)) := by
  obtain ⟨state, filled, ran⟩ := computeGae_filled transitions bootstrapValue gamma lambda
  rw [ran]
  exact filled.advantages_from i (Nat.zero_le i) within

theorem computeGae_returns {i : Nat} {tr : OnPolicyTransition R}
    (visited : transitions[i]? = some tr) :
    (computeGae transitions bootstrapValue gamma lambda).1[i]? =
      some (advantage bootstrapValue gamma lambda (transitions.drop i) + tr.value) := by
  obtain ⟨state, filled, ran⟩ := computeGae_filled transitions bootstrapValue gamma lambda
  rw [ran]
  exact filled.returns_from i tr (Nat.zero_le i) visited

theorem computeGae_masked {last : OnPolicyTransition R} (ended : last.done = true)
    (front after after' : List (OnPolicyTransition R)) (bootstrapValue' : R) {i : Nat}
    (early : i ≤ front.length) :
    (computeGae (front ++ last :: after) bootstrapValue gamma lambda).1[i]? =
        (computeGae (front ++ last :: after') bootstrapValue' gamma lambda).1[i]? ∧
      (computeGae (front ++ last :: after) bootstrapValue gamma lambda).2[i]? =
        (computeGae (front ++ last :: after') bootstrapValue' gamma lambda).2[i]? := by
  have dropped (rest : List (OnPolicyTransition R)) :
      (front ++ last :: rest).drop i = front.drop i ++ last :: rest :=
    List.drop_append_of_le_length early
  have within (rest : List (OnPolicyTransition R)) : i < (front ++ last :: rest).length := by
    rw [List.length_append, List.length_cons]
    omega
  have same : (front ++ last :: after')[i]? = (front ++ last :: after)[i]? := by
    rw [← List.head?_drop, ← List.head?_drop, dropped, dropped]
    cases front.drop i <;> rfl
  obtain ⟨tr, here⟩ : ∃ tr, (front ++ last :: after)[i]? = some tr :=
    ⟨_, List.getElem?_eq_getElem (within after)⟩
  have there := same.trans here
  constructor
  · rw [computeGae_returns _ _ _ _ here, computeGae_returns _ _ _ _ there, dropped, dropped,
      advantage_ended bootstrapValue gamma lambda ended]
  · rw [computeGae_advantages _ _ _ _ (within after), computeGae_advantages _ _ _ _ (within after'),
      dropped, dropped, advantage_ended bootstrapValue gamma lambda ended]

/- The loop computes the forward sums of the residuals, cut at the end of each episode. -/
theorem computeGae_exact :
    (computeGae transitions bootstrapValue gamma lambda).1.length = transitions.length ∧
    (computeGae transitions bootstrapValue gamma lambda).2.length = transitions.length ∧
    (∀ i, i < transitions.length → ∃! e, EpisodeEnd transitions i e) ∧
    (∀ i e, EpisodeEnd transitions i e →
      (computeGae transitions bootstrapValue gamma lambda).2[i]? =
        some (discountedResiduals transitions bootstrapValue gamma lambda i e) ∧
      (computeGae transitions bootstrapValue gamma lambda).1[i]? =
        some (discountedResiduals transitions bootstrapValue gamma lambda i e +
          valueAt transitions bootstrapValue i) ∧
      (computeGae transitions bootstrapValue gamma 1).2[i]? =
        some (monteCarloReturn transitions bootstrapValue gamma i e -
          valueAt transitions bootstrapValue i) ∧
      (computeGae transitions bootstrapValue gamma 0).2[i]? =
        some (residualAt transitions bootstrapValue gamma i)) ∧
    ∀ d other bootstrapValue', doneAt transitions d = true →
      other.take (d + 1) = transitions.take (d + 1) → ∀ i, i ≤ d →
        (computeGae other bootstrapValue' gamma lambda).1[i]? =
          (computeGae transitions bootstrapValue gamma lambda).1[i]? ∧
        (computeGae other bootstrapValue' gamma lambda).2[i]? =
          (computeGae transitions bootstrapValue gamma lambda).2[i]? := by
  obtain ⟨returns, advantages⟩ := computeGae_lengths transitions bootstrapValue gamma lambda
  refine ⟨returns, advantages, fun i inside => ?_, fun i e ends => ⟨?_, ?_, ?_, ?_⟩, ?_⟩
  · obtain ⟨e, ends⟩ := episodeEnd_exists inside
    exact ⟨e, ends, fun e' ends' => ends'.unique ends⟩
  · rw [computeGae_advantages _ _ _ _ ends.inside, advantage_eq_sum _ _ _ _ ends]
  · have inside := ends.inside
    have here : transitions[i]? = some transitions[i] := List.getElem?_eq_getElem inside
    rw [computeGae_returns _ _ _ _ here, advantage_eq_sum _ _ _ _ ends, valueAt, here]
    rfl
  · rw [computeGae_advantages _ _ _ _ ends.inside, advantage_undamped, valueAhead_drop,
      rewards_eq_monteCarlo _ _ _ ends]
  · rw [computeGae_advantages _ _ _ _ ends.inside, advantage_one_step _ _ _ ends.inside]
  · intro d other bootstrapValue' ended agree i early
    obtain ⟨front, last, rfl, closed, taken⟩ := take_through_end ended
    have mine := List.take_append_drop (front.length + 1) transitions
    have others := List.take_append_drop (front.length + 1) other
    rw [taken, List.append_assoc, List.singleton_append] at mine
    rw [agree, taken, List.append_assoc, List.singleton_append] at others
    rw [← mine, ← others]
    exact computeGae_masked bootstrapValue' gamma lambda closed front _ _ bootstrapValue early

example :
    computeGae [⟨[], 0, -1, 1, 1, true⟩, ⟨[], 0, -1, 5, 7, false⟩] (4 : Int) 2 3 =
      ([1, 15], [0, 10]) := by decide

end ClosedForm

end Trolly.Gym
