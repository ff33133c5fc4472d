import Trolly.Gym.Advantages
import Trolly.Lib.Traversal

/-!
Rollouts. The collector steps a policy and an environment for a number of turns and makes a
batch of what it recorded: a rollout is its episodes, one after another, and so is its batch.
-/

namespace Trolly.Gym

variable {R S : Type*}

structure StepOutput (R : Type*) where
  nextObservation : List R
  reward : R
  done : Bool

/- What the loop calls. The policy samples an action, with its log-probability and a value
estimate, and the environment steps; `S` is what both keep. -/
structure Players (R S : Type*) where
  actorCritic : S → List R → (Int × R × R) × S
  envStep : S → List R → Int → StepOutput R × S

structure RolloutCollector (R : Type*) where
  transitions : List (OnPolicyTransition R)
  horizon : Nat
  gamma : R
  gaeLambda : R

/- The variables of the loop in `collect`. -/
structure Collecting (R S : Type*) where
  transitions : List (OnPolicyTransition R)
  currentObs : List R
  state : S

def collectStep [Zero R] (players : Players R S) (obsDim : Nat) (loop : Collecting R S) :
    Collecting R S :=
  let ((action, logProb, value), state) := players.actorCritic loop.state loop.currentObs
  let (out, state) := players.envStep state loop.currentObs action
  let transition :=
    { observation := loop.currentObs, action, logProb, value
      reward := out.reward, done := out.done }
  { transitions := loop.transitions ++ [transition]
    currentObs := if out.done then List.replicate obsDim 0 else out.nextObservation
    state }

namespace RolloutCollector

def new (horizon : Nat) (gamma gaeLambda : R) : RolloutCollector R where
  transitions := []
  horizon := horizon
  gamma := gamma
  gaeLambda := gaeLambda

def collect [Zero R] (self : RolloutCollector R) (players : Players R S) (initialObs : List R)
    (state : S) : RolloutCollector R × S :=
  let obsDim := initialObs.length
  let final := (collectStep players obsDim)^[self.horizon] ⟨[], initialObs, state⟩
  ({ self with transitions := final.transitions }, final.state)

def intoBatch [CommRing R] (self : RolloutCollector R) (bootstrapValue : R) :
    Option (RolloutBatch R) :=
  Gym.intoBatch self.transitions self.gamma self.gaeLambda bootstrapValue

end RolloutCollector

/-! ### Episodes as they are played -/

section Played

variable (players : Players R S)

/- One turn: what is recorded, what the environment shows next, and what is kept. -/
def turn (s : S) (obs : List R) : OnPolicyTransition R × List R × S :=
  let ((action, logProb, value), s) := players.actorCritic s obs
  let (out, s) := players.envStep s obs action
  ({ observation := obs, action, logProb, value, reward := out.reward, done := out.done },
    out.nextObservation, s)

/- Turns without a break: each meets what the environment showed after the one before. -/
inductive Plays : S → List R → List (OnPolicyTransition R) → S → List R → Prop
  | stop (s : S) (obs : List R) : Plays s obs [] s obs
  | turn {s s' : S} {obs obs' : List R} {rest : List (OnPolicyTransition R)}
      (plays : Plays (turn players s obs).2.2 (turn players s obs).2.1 rest s' obs') :
      Plays s obs ((turn players s obs).1 :: rest) s' obs'

def Running (part : List (OnPolicyTransition R)) : Prop := ∀ tr ∈ part, tr.done = false

/- Episodes one after another, each but the first from a blank observation; only the last may
be cut short. -/
inductive Episodes (blank : List R) : S → List R → List (List (OnPolicyTransition R)) → S → Prop
  | stop (s : S) (obs : List R) : Episodes blank s obs [] s
  | cut {s s' : S} {obs obs' : List R} {part : List (OnPolicyTransition R)} (some : part ≠ [])
      (plays : Plays players s obs part s' obs') (running : Running part) :
      Episodes blank s obs [part] s'
  | ended {s s' s'' : S} {obs obs' : List R} {part : List (OnPolicyTransition R)}
      {last : OnPolicyTransition R} {parts : List (List (OnPolicyTransition R))}
      (plays : Plays players s obs (part ++ [last]) s' obs') (running : Running part)
      (done : last.done = true) (rest : Episodes blank s' blank parts s'') :
      Episodes blank s obs ((part ++ [last]) :: parts) s''

variable {players} {blank obs : List R} {s s' : S}

/- A turn that does not end its episode is the first of the episode that goes on. -/
theorem Episodes.preceded {parts : List (List (OnPolicyTransition R))}
    (running : (turn players s obs).1.done = false)
    (rest : Episodes players blank (turn players s obs).2.2 (turn players s obs).2.1 parts s') :
    ∃ parts', Episodes players blank s obs parts' s' ∧
      parts'.flatten = (turn players s obs).1 :: parts.flatten := by
  have longer : ∀ part, Running part → Running ((turn players s obs).1 :: part) :=
    fun part rest => List.forall_mem_cons.mpr ⟨running, rest⟩
  cases rest with
  | stop =>
    exact ⟨_, .cut (List.cons_ne_nil _ _) (.turn (.stop _ _)) (longer [] (by simp [Running])), rfl⟩
  | cut some plays own => exact ⟨_, .cut (List.cons_ne_nil _ _) (.turn plays) (longer _ own), rfl⟩
  | @ended _ _ _ _ _ part last parts plays own done rest =>
    have longest : Plays players s obs (((turn players s obs).1 :: part) ++ [last]) _ _ :=
      .turn plays
    exact ⟨_, .ended longest (longer _ own) done rest, rfl⟩

theorem Episodes.parts_ne_nil (played : Episodes players blank s obs parts s') :
    ∀ part ∈ parts, part ≠ [] := by
  induction played with
  | stop => simp
  | cut some => simpa using some
  | ended plays running done rest ih => simpa using ih

/- As long as an episode runs, the environment shows observations of one width. -/
def KeepsWidth (players : Players R S) (width : Nat) : Prop :=
  ∀ s obs action, obs.length = width → (players.envStep s obs action).1.done = false →
    (players.envStep s obs action).1.nextObservation.length = width

theorem Plays.uniform {width : Nat} (keeps : KeepsWidth players width)
    {part : List (OnPolicyTransition R)} {obs' : List R} (plays : Plays players s obs part s' obs')
    (running : Running part.dropLast) (start : obs.length = width) :
    ∀ tr ∈ part, tr.observation.length = width := by
  induction plays with
  | stop => simp
  | @turn s s' obs obs' rest plays ih =>
    refine List.forall_mem_cons.mpr ⟨start, ?_⟩
    cases rest with
    | nil => simp
    | cons next rest =>
      rw [List.dropLast_cons_cons] at running
      obtain ⟨goes_on, running⟩ := List.forall_mem_cons.mp running
      exact ih running (keeps _ _ _ start goes_on)

theorem Episodes.uniform (keeps : KeepsWidth players blank.length)
    (played : Episodes players blank s obs parts s') (start : obs.length = blank.length) :
    ∀ part ∈ parts, ∀ tr ∈ part, tr.observation.length = blank.length := by
  induction played with
  | stop => simp
  | cut some plays running =>
    have within := fun tr inside => running tr (List.mem_of_mem_dropLast inside)
    simpa using plays.uniform keeps within start
  | ended plays running done rest ih =>
    have within := plays.uniform keeps (by rwa [List.dropLast_concat]) start
    exact List.forall_mem_cons.mpr ⟨within, ih rfl⟩

theorem collectStep_turn [Zero R] (players : Players R S) (obsDim : Nat) (loop : Collecting R S) :
    let played := turn players loop.state loop.currentObs
    collectStep players obsDim loop =
      ⟨loop.transitions ++ [played.1],
        if played.1.done then List.replicate obsDim 0 else played.2.1, played.2.2⟩ := rfl

/- By induction on the turns that are left: the loop plays them as episodes. -/
theorem collect_episodes [Zero R] (players : Players R S) (obsDim horizon : Nat)
    (loop : Collecting R S) :
    let final := (collectStep players obsDim)^[horizon] loop
    ∃ parts,
      Episodes players (List.replicate obsDim 0) loop.state loop.currentObs parts final.state ∧
        final.transitions = loop.transitions ++ parts.flatten ∧ parts.flatten.length = horizon := by
  induction horizon generalizing loop with
  | zero => exact ⟨[], .stop _ _, by simp, rfl⟩
  | succ horizon ih =>
    have stepped := collectStep_turn players obsDim loop
    obtain ⟨parts, rest, recorded, counted⟩ := ih (collectStep players obsDim loop)
    rw [Function.iterate_succ_apply]
    simp only [stepped, List.append_assoc, List.singleton_append] at rest recorded ⊢
    cases ends : (turn players loop.state loop.currentObs).1.done with
    | true =>
      simp only [ends, if_true] at rest recorded ⊢
      have plays := Plays.turn (.stop (turn players loop.state loop.currentObs).2.2 _)
      have alone : Plays players loop.state loop.currentObs ([] ++ [_]) _ _ := plays
      exact ⟨_, .ended alone (by simp [Running]) ends rest, by simpa using recorded,
        by simp [counted]⟩
    | false =>
      simp only [ends, Bool.false_eq_true, if_false] at rest recorded ⊢
      obtain ⟨parts', played, joined⟩ := rest.preceded ends
      refine ⟨parts', played, ?_, by simp [joined, counted]⟩
      rw [recorded, joined]

end Played

/-! ### Batches of episodes -/

section Batches

variable [CommRing R] (bootstrapValue gamma lambda : R)

/- The return and the advantage of each transition. -/
def gaeRows : List (OnPolicyTransition R) → List (R × R)
  | [] => []
  | tr :: rest =>
    let gae := advantage bootstrapValue gamma lambda (tr :: rest)
    (gae + tr.value, gae) :: gaeRows rest

theorem gaeRows_getElem? (transitions : List (OnPolicyTransition R)) (i : Nat) :
    (gaeRows bootstrapValue gamma lambda transitions)[i]? = transitions[i]?.map fun tr =>
      let gae := advantage bootstrapValue gamma lambda (transitions.drop i)
      (gae + tr.value, gae) := by
  induction transitions generalizing i with
  | nil => rfl
  | cons tr rest ih =>
    cases i with
    | zero => rfl
    | succ i => exact ih i

theorem computeGae_rows (transitions : List (OnPolicyTransition R)) :
    computeGae transitions bootstrapValue gamma lambda =
      ((gaeRows bootstrapValue gamma lambda transitions).map Prod.fst,
        (gaeRows bootstrapValue gamma lambda transitions).map Prod.snd) := by
  obtain ⟨returns, advantages⟩ := computeGae_lengths transitions bootstrapValue gamma lambda
  have entries : ∀ i : Nat,
      (computeGae transitions bootstrapValue gamma lambda).1[i]? =
          ((gaeRows bootstrapValue gamma lambda transitions).map Prod.fst)[i]? ∧
        (computeGae transitions bootstrapValue gamma lambda).2[i]? =
          ((gaeRows bootstrapValue gamma lambda transitions).map Prod.snd)[i]? := by
    intro i
    rw [List.getElem?_map, List.getElem?_map, gaeRows_getElem?]
    by_cases inside : i < transitions.length
    · have here := List.getElem?_eq_getElem inside
      rw [computeGae_returns _ _ _ _ here, computeGae_advantages _ _ _ _ inside, here]
      exact ⟨rfl, rfl⟩
    · have past := Nat.not_lt.mp inside
      rw [List.getElem?_eq_none past, List.getElem?_eq_none (returns ▸ past),
        List.getElem?_eq_none (advantages ▸ past)]
      exact ⟨rfl, rfl⟩
  apply Prod.ext
  · exact List.ext_getElem? fun i => (entries i).1
  · exact List.ext_getElem? fun i => (entries i).2

/- An episode that has ended keeps its rows, whatever follows and whatever the bootstrap value. -/
theorem gaeRows_ended {last : OnPolicyTransition R} (ended : last.done = true)
    (front rest : List (OnPolicyTransition R)) (bootstrapValue' : R) :
    gaeRows bootstrapValue gamma lambda (front ++ [last] ++ rest) =
      gaeRows bootstrapValue' gamma lambda (front ++ [last]) ++
        gaeRows bootstrapValue gamma lambda rest := by
  rw [List.append_assoc, List.singleton_append]
  induction front with
  | nil =>
    have alone := advantage_ended bootstrapValue gamma lambda ended [] rest [] bootstrapValue'
    simp only [List.nil_append] at alone
    simp [gaeRows, alone]
  | cons tr front ih =>
    have same :=
      advantage_ended bootstrapValue gamma lambda ended (tr :: front) rest [] bootstrapValue'
    simp only [List.cons_append] at same
    simp only [List.cons_append, gaeRows, ih, same]

/- What `into_batch` makes of transitions that it does not reject. -/
def batchOf (transitions : List (OnPolicyTransition R)) : RolloutBatch R :=
  let rows := gaeRows bootstrapValue gamma lambda transitions
  { observations := transitions.flatMap OnPolicyTransition.observation
    actions := transitions.map OnPolicyTransition.action
    oldLogProbs := transitions.map OnPolicyTransition.logProb
    returns := rows.map Prod.fst
    advantages := rows.map Prod.snd }

theorem intoBatch_uniform {transitions : List (OnPolicyTransition R)} (some : transitions ≠ [])
    {width : Nat} (uniform : ∀ tr ∈ transitions, tr.observation.length = width) :
    intoBatch transitions gamma lambda bootstrapValue =
      .some (batchOf bootstrapValue gamma lambda transitions) := by
  cases transitions with
  | nil => exact absurd rfl some
  | cons first rest =>
    have filled : ((first :: rest).flatMap OnPolicyTransition.observation).length =
        (first :: rest).length * first.observation.length := by
      rw [uniform first List.mem_cons_self, List.length_flatMap,
        List.map_congr_left uniform, List.map_const', List.sum_replicate_nat]
    simp only [intoBatch, computeGae_rows, if_pos filled, batchOf]

end Batches

/- Batches one after another. -/
def RolloutBatch.join (batches : List (RolloutBatch R)) : RolloutBatch R where
  observations := batches.flatMap RolloutBatch.observations
  actions := batches.flatMap RolloutBatch.actions
  oldLogProbs := batches.flatMap RolloutBatch.oldLogProbs
  returns := batches.flatMap RolloutBatch.returns
  advantages := batches.flatMap RolloutBatch.advantages

section Joined

variable [CommRing R] {players : Players R S} {blank obs : List R} {s s' : S}
  {parts : List (List (OnPolicyTransition R))}

theorem Episodes.rows (bootstrapValue gamma lambda : R)
    (played : Episodes players blank s obs parts s') :
    gaeRows bootstrapValue gamma lambda parts.flatten =
      parts.flatMap (gaeRows bootstrapValue gamma lambda) := by
  induction played with
  | stop => rfl
  | cut => simp
  | ended plays running done rest ih =>
    rw [List.flatten_cons, gaeRows_ended _ _ _ done _ _ bootstrapValue, ih, List.flatMap_cons]

theorem Episodes.batch_join (bootstrapValue gamma lambda : R)
    (played : Episodes players blank s obs parts s') :
    batchOf bootstrapValue gamma lambda parts.flatten =
      .join (parts.map (batchOf bootstrapValue gamma lambda)) := by
  simp only [batchOf, RolloutBatch.join, played.rows, List.map_flatten, List.flatMap_def,
    List.flatten_flatten, List.map_map, Function.comp_def]

/- An episode that has ended makes the same batch under every bootstrap value. -/
theorem Episodes.batch_ended (bootstrapValue gamma lambda : R)
    (played : Episodes players blank s obs parts s') {part : List (OnPolicyTransition R)}
    (member : part ∈ parts) (done : ∃ tr ∈ part, tr.done = true) (bootstrapValue' : R) :
    batchOf bootstrapValue' gamma lambda part = batchOf bootstrapValue gamma lambda part := by
  induction played with
  | stop => cases member
  | cut some plays running =>
    obtain rfl := List.mem_singleton.mp member
    obtain ⟨tr, inside, ends⟩ := done
    rw [running tr inside] at ends
    cases ends
  | @ended _ _ _ _ _ front _ _ plays running ends rest ih =>
    rcases List.mem_cons.mp member with rfl | later
    · have same := gaeRows_ended bootstrapValue' gamma lambda ends front [] bootstrapValue
      rw [List.append_nil, gaeRows, List.append_nil] at same
      rw [batchOf, same, batchOf]
    · exact ih later

end Joined

/- An environment that pays `1` a turn and ends every second turn. -/
def pairsOfTurns : Players ℤ Nat where
  actorCritic s obs := ((s % 3, -1, obs.sum), s)
  envStep s obs _ := (⟨obs.map (· + 1), 1, s % 2 = 1⟩, s + 1)

end Trolly.Gym
