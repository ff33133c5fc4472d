import Trolly.Gym.SelfPlay
import Trolly.Lib.ZeroSum
import Mathlib.LinearAlgebra.Matrix.Notation
import Mathlib.Tactic.FieldSimp
import Mathlib.Tactic.LinearCombination
import Mathlib.Tactic.NormNum
import Mathlib.Tactic.Positivity

/-!
What self-play is measured against, in exact arithmetic: the constants of the tables are the
fractions that they stand for. Each game comes with a table of its equilibrium; the measure is
zero exactly where the learned policy is one of an equilibrium, and there is no other equilibrium
than the tabled one.
-/

namespace Trolly.Gym

open Matrix Rust Traversal ZeroSum

universe u

variable {K W : Type u} [Field K] [LinearOrder K]

/-! ### The games -/

namespace MatchingPennies

def STANDARD_NES : List K := [1 / 2, 1 / 2]

/-- `[0.4, 0.6]`, as fractions; the `f64` constants are next to these. -/
def WEIGHTED_NES : List K := [2 / 5, 3 / 5]

def matchingPenniesStandard : Option (MatrixGame K) :=
  MatrixGame.new [[1, -1], [-1, 1]]

def matchingPenniesWeighted : Option (MatrixGame K) :=
  MatrixGame.new [[2, -1], [-1, 1]]

end MatchingPennies

namespace RockPaperScissors

/-- Thirds, where the `f64` constants are next to them. -/
def STANDARD_NES : List K := [1 / 3, 1 / 3, 1 / 3]

/-- `[0.2, 0.4, 0.4]`, as fractions. -/
def WEIGHTED_NES : List K := [1 / 5, 2 / 5, 2 / 5]

def rpsStandard : Option (MatrixGame K) :=
  MatrixGame.new [[0, -1, 1], [1, 0, -1], [-1, 1, 0]]

def rpsWeighted : Option (MatrixGame K) :=
  MatrixGame.new [[0, -2, 2], [2, 0, -1], [-2, 1, 0]]

end RockPaperScissors

def tabledGames : List (Option (MatrixGame K) × List K) :=
  [(MatchingPennies.matchingPenniesStandard, MatchingPennies.STANDARD_NES),
    (MatchingPennies.matchingPenniesWeighted, MatchingPennies.WEIGHTED_NES),
    (RockPaperScissors.rpsStandard, RockPaperScissors.STANDARD_NES),
    (RockPaperScissors.rpsWeighted, RockPaperScissors.WEIGHTED_NES)]

/-- What the row player earns, on `n` actions of each player. -/
def MatrixGame.payoffs (game : MatrixGame K) (n : Nat) : Matrix (Fin n) (Fin n) K :=
  fun i j => ((game.payoffFor i j).toOption).getD 0

def strategy (n : Nat) (probs : List K) : Fin n → K := fun i => probs.getD i 0

omit [LinearOrder K] in
theorem strategy_injective {n : Nat} {p q : List K} (left : p.length = n) (right : q.length = n)
    (same : strategy n p = strategy n q) : p = q := by
  apply List.ext_getElem (left.trans right.symm)
  intro i inside inside'
  have entry := congrFun same ⟨i, left ▸ inside⟩
  simpa [strategy, inside, inside'] using entry

/-! ### Their equilibria -/

section Equilibria

variable [IsStrictOrderedRing K]

/-- Matching pennies where two heads weigh `w`. -/
theorem pennies_nash_iff {w : K} (heavy : -1 < w) (p q : Fin 2 → K) :
    IsNash !![w, -1; -1, 1] p q ↔
      p = ![2 / (w + 3), (w + 1) / (w + 3)] ∧ q = ![2 / (w + 3), (w + 1) / (w + 3)] := by
  have total : 0 < w + 3 := by linarith
  have heads : 0 < 2 / (w + 3) := by positivity
  have tails : 0 < (w + 1) / (w + 3) := div_pos (by linarith) total
  have solves : 2 / (w + 3) * (w + 3) = 2 := div_mul_cancel₀ _ total.ne'
  have sum : 2 / (w + 3) + (w + 1) / (w + 3) = 1 := by
    rw [← add_div, div_eq_one_iff_eq total.ne']
    ring
  generalize 2 / (w + 3) = x at *
  generalize (w + 1) / (w + 3) = y at *
  have uses : ∀ i, 0 < ![x, y] i := by
    intro i
    fin_cases i
    · exact heads
    · exact tails
  have mixed : ![x, y] ∈ stdSimplex K (Fin 2) :=
    ⟨fun i => (uses i).le, by simpa [Fin.sum_univ_two] using sum⟩
  have indifferent : w * x - y = y - x := by linear_combination solves - 2 * sum
  have equal : Equalizing !![w, -1; -1, 1] (y - x) ![x, y] ![x, y] := by
    refine ⟨mixed, mixed, funext fun j => ?_, funext fun i => ?_⟩
    · fin_cases j
      · simpa [vecMul, dotProduct, Fin.sum_univ_two, mul_comm, sub_eq_add_neg] using indifferent
      · simp [vecMul, dotProduct, Fin.sum_univ_two, sub_eq_neg_add]
    · fin_cases i
      · simpa [mulVec, dotProduct, Fin.sum_univ_two, sub_eq_add_neg] using indifferent
      · simp [mulVec, dotProduct, Fin.sum_univ_two, sub_eq_neg_add]
  have only : ∀ r ∈ stdSimplex K (Fin 2), -r 0 + r 1 = y - x → r = ![x, y] := by
    rintro r ⟨-, whole⟩ tilt
    rw [Fin.sum_univ_two] at whole
    have first : r 0 = x := by linarith
    have second : r 1 = y := by linarith
    funext i
    fin_cases i
    · exact first
    · exact second
  refine equal.isNash_iff uses uses (fun r own same => only r own ?_)
    (fun r own same => only r own ?_) p q
  · simpa [vecMul, dotProduct, Fin.sum_univ_two] using congrFun same 1
  · simpa [mulVec, dotProduct, Fin.sum_univ_two] using congrFun same 1

/-- Rock, paper and scissors: paper beats rock by `a`, rock beats scissors by `b` and scissors
beat paper by `c`. -/
theorem rps_nash_iff {a b c : K} (paper : 0 < a) (rock : 0 < b) (scissors : 0 < c)
    (p q : Fin 3 → K) :
    IsNash !![0, -a, b; a, 0, -c; -b, c, 0] p q ↔
      p = ![c / (a + b + c), b / (a + b + c), a / (a + b + c)] ∧
        q = ![c / (a + b + c), b / (a + b + c), a / (a + b + c)] := by
  have total : 0 < a + b + c := by positivity
  simp only [div_eq_mul_inv]
  have part : 0 < (a + b + c)⁻¹ := inv_pos.mpr total
  have whole : (a + b + c) * (a + b + c)⁻¹ = 1 := mul_inv_cancel₀ total.ne'
  generalize (a + b + c)⁻¹ = t at *
  have uses : ∀ i, 0 < ![c * t, b * t, a * t] i := by
    intro i
    fin_cases i
    · exact mul_pos scissors part
    · exact mul_pos rock part
    · exact mul_pos paper part
  have mixed : ![c * t, b * t, a * t] ∈ stdSimplex K (Fin 3) := by
    refine ⟨fun i => (uses i).le, ?_⟩
    have sum : c * t + b * t + a * t = 1 := by linear_combination whole
    simpa [Fin.sum_univ_three] using sum
  have equal : Equalizing !![0, -a, b; a, 0, -c; -b, c, 0] 0 ![c * t, b * t, a * t]
      ![c * t, b * t, a * t] := by
    refine ⟨mixed, mixed, funext fun j => ?_, funext fun i => ?_⟩
    · fin_cases j <;> simp [vecMul, dotProduct, Fin.sum_univ_three] <;> ring
    · fin_cases i <;> simp [mulVec, dotProduct, Fin.sum_univ_three] <;> ring
  have only : ∀ r ∈ stdSimplex K (Fin 3), r 1 * a = r 2 * b → r 0 * a = r 2 * c →
      r 0 * b = r 1 * c → r = ![c * t, b * t, a * t] := by
    rintro r ⟨-, sum⟩ paperRock scissorsRock scissorsPaper
    rw [Fin.sum_univ_three] at sum
    have first : r 0 = c * t := by
      linear_combination (-r 0) * whole + t * scissorsRock + t * scissorsPaper + c * t * sum
    have second : r 1 = b * t := by
      linear_combination (-r 1) * whole + t * paperRock - t * scissorsPaper + b * t * sum
    have third : r 2 = a * t := by
      linear_combination (-r 2) * whole - t * paperRock - t * scissorsRock + a * t * sum
    funext i
    fin_cases i
    · exact first
    · exact second
    · exact third
  refine equal.isNash_iff uses uses (fun r own same => ?_) (fun r own same => ?_) p q
  · have wins : ∀ j, (r ᵥ* !![0, -a, b; a, 0, -c; -b, c, 0]) j = 0 := congrFun same
    have first := wins 0
    have second := wins 1
    have third := wins 2
    simp [vecMul, dotProduct, Fin.sum_univ_three] at first second third
    apply only r own <;> linarith
  · have wins : ∀ i, (!![0, -a, b; a, 0, -c; -b, c, 0] *ᵥ r) i = 0 := congrFun same
    have first := wins 0
    have second := wins 1
    have third := wins 2
    simp [mulVec, dotProduct, Fin.sum_univ_three] at first second third
    apply only r own <;> linarith

omit [LinearOrder K] [IsStrictOrderedRing K] in
theorem payoffs_pennies (w : K) :
    MatrixGame.payoffs ⟨[[w, -1], [-1, 1]], 2, 2⟩ 2 = !![w, -1; -1, 1] := by
  ext i j
  fin_cases i <;> fin_cases j <;> rfl

omit [LinearOrder K] [IsStrictOrderedRing K] in
theorem payoffs_rps (a b c : K) :
    MatrixGame.payoffs ⟨[[0, -a, b], [a, 0, -c], [-b, c, 0]], 3, 3⟩ 3 =
      !![0, -a, b; a, 0, -c; -b, c, 0] := by
  ext i j
  fin_cases i <;> fin_cases j <;> rfl

/-- Each table names the one equilibrium of its game. -/
theorem tabled_nash_iff {entry : Option (MatrixGame K) × List K} (listed : entry ∈ tabledGames)
    {game : MatrixGame K} (built : entry.1 = some game) (p q : Fin entry.2.length → K) :
    IsNash (game.payoffs entry.2.length) p q ↔
      p = strategy entry.2.length entry.2 ∧ q = strategy entry.2.length entry.2 := by
  simp only [tabledGames, List.mem_cons, List.not_mem_nil, or_false] at listed
  rcases listed with rfl | rfl | rfl | rfl
  · cases built
    have named : strategy 2 MatchingPennies.STANDARD_NES =
        ![2 / ((1 : K) + 3), (1 + 1) / (1 + 3)] := by
      ext i
      fin_cases i <;> norm_num [strategy, MatchingPennies.STANDARD_NES]
    have nash := pennies_nash_iff (show -1 < (1 : K) by norm_num) p q
    rwa [← named, ← payoffs_pennies] at nash
  · cases built
    have named : strategy 2 MatchingPennies.WEIGHTED_NES =
        ![2 / ((2 : K) + 3), (2 + 1) / (2 + 3)] := by
      ext i
      fin_cases i <;> norm_num [strategy, MatchingPennies.WEIGHTED_NES]
    have nash := pennies_nash_iff (show -1 < (2 : K) by norm_num) p q
    rwa [← named, ← payoffs_pennies] at nash
  · cases built
    have named : strategy 3 RockPaperScissors.STANDARD_NES =
        ![(1 : K) / (1 + 1 + 1), 1 / (1 + 1 + 1), 1 / (1 + 1 + 1)] := by
      ext i
      fin_cases i <;> norm_num [strategy, RockPaperScissors.STANDARD_NES]
    have nash := rps_nash_iff (show 0 < (1 : K) by norm_num) one_pos one_pos p q
    rwa [← named, ← payoffs_rps] at nash
  · cases built
    have named : strategy 3 RockPaperScissors.WEIGHTED_NES =
        ![(1 : K) / (2 + 2 + 1), 2 / (2 + 2 + 1), 2 / (2 + 2 + 1)] := by
      ext i
      fin_cases i <;> norm_num [strategy, RockPaperScissors.WEIGHTED_NES]
    have nash := rps_nash_iff (show 0 < (2 : K) by norm_num) two_pos one_pos p q
    rwa [← named, ← payoffs_rps] at nash

end Equilibria

/-! ### The measure -/

section Measure

variable {tensors : SelfPlayTensors K W}

/-- A distance of zero is one between equal lists. -/
theorem euclideanDistanceToNes_zero [IsStrictOrderedRing K] {probs : List (F64 K)} {nes : List K}
    {distance : Distance K}
    (measured : euclideanDistanceToNes tensors probs (nes.map .finite) = .ok distance) :
    distance.val = .finite 0 ↔ probs = nes.map .finite := by
  rw [euclideanDistanceToNes] at measured
  split_ifs at measured with sameLength
  cases measured
  have squares : List.zipWith (fun p q => (F64.sub p q).square) probs (nes.map .finite) =
      (List.zipWith F64.sub probs (nes.map .finite)).map F64.square := by
    rw [List.map_zipWith]
  refine (F64.sqrt_eq_zero_iff tensors.sqrt64).trans ?_
  rw [squares, F64.sum_squares_eq_zero]
  clear squares
  induction nes generalizing probs with
  | nil =>
    obtain rfl := List.length_eq_zero_iff.mp sameLength
    simp
  | cons q nes ih =>
    obtain ⟨p, probs, rfl⟩ := List.exists_cons_of_length_eq_add_one sameLength
    have entry : F64.sub p (.finite q) = .finite 0 ↔ p = .finite q := by
      rw [F64.sub_finite_iff]
      constructor
      · rintro ⟨x, y, rfl, same, zero⟩
        cases same
        rw [sub_eq_zero.mp zero]
      · rintro rfl
        exact ⟨q, q, rfl, rfl, sub_self q⟩
    rw [List.map_cons, List.zipWith_cons_cons, List.forall_mem_cons, entry,
      ih (Nat.succ.inj sameLength), List.cons.injEq]

theorem euclideanDistanceToNes_length {probs nes : List (F64 K)} {distance : Distance K}
    (measured : euclideanDistanceToNes tensors probs nes = .ok distance) :
    probs.length = nes.length := by
  rw [euclideanDistanceToNes] at measured
  split_ifs at measured with sameLength
  exact sameLength

theorem selfPlayUpdate_last {T : Type u} {trainer : Trainer K W T} {game : MatrixGame K}
    {nes : List (F64 K)} {drawn : List (Nat × Nat)} {state next : T × T × List (Distance K)}
    (updated : selfPlayUpdate tensors trainer game nes drawn state = .ok next) :
    ∃ probs distance, policyProbs tensors (trainer.actorCritic next.1) = .ok probs ∧
      euclideanDistanceToNes tensors probs nes = .ok distance ∧
        next.2.2.getLast? = some distance := by
  obtain ⟨batches, _, updated⟩ := bind_ok updated
  obtain ⟨probs, read, updated⟩ := bind_ok updated
  obtain ⟨distance, measured, updated⟩ := bind_ok updated
  cases updated
  exact ⟨probs, distance, read, measured, List.getLast?_concat⟩

/-- The last distance of a run is that of the policy it ends with. -/
theorem runSelfPlay_last {T : Type u} {trainer : Trainer K W T} {game : MatrixGame K}
    {nes : List (F64 K)} {config : SelfPlayConfig K} (updates : 0 < config.numUpdates)
    {draws : Nat → Nat → Nat × Nat} {p1 p2 : T} {result : SelfPlayResult K}
    (ran : runSelfPlay tensors trainer game nes config draws p1 p2 = .ok result) :
    ∃ distance, euclideanDistanceToNes tensors result.finalPolicyProbs nes = .ok distance ∧
      result.distancesPerUpdate.getLast? = some distance := by
  obtain ⟨⟨q1, q2, distances⟩, looped, reported⟩ := bind_ok ran
  obtain ⟨n, counted⟩ := Nat.exists_eq_succ_of_ne_zero updates.ne'
  rw [counted, List.range_succ, List.foldlM_append] at looped
  obtain ⟨before, _, updated⟩ := bind_ok looped
  rw [List.foldlM_cons] at updated
  obtain ⟨after, updated, done⟩ := bind_ok updated
  cases done
  obtain ⟨probs, distance, read, measured, last⟩ := selfPlayUpdate_last updated
  obtain ⟨final, reread, made⟩ := bind_ok reported
  cases read.symm.trans reread
  cases made
  exact ⟨distance, measured, last⟩

/-- The tabled strategy is the only one of an equilibrium, for both players, and a run of either
trainer measures zero at its end exactly where the row player's policy is it. -/
theorem measured_at_equilibrium [IsStrictOrderedRing K]
    {entry : Option (MatrixGame K) × List K} (listed : entry ∈ tabledGames)
    {game : MatrixGame K} (built : entry.1 = some game) {config : SelfPlayConfig K}
    (updates : 0 < config.numUpdates) (wolfConfig : WolfPpoConfig K)
    {draws : Nat → Nat → Nat × Nat} {result : SelfPlayResult K}
    (ran : runPpoSelfPlay tensors game (entry.2.map .finite) config draws = .ok result ∨
      runWolfPpoSelfPlay tensors game (entry.2.map .finite) config wolfConfig draws =
        .ok result) :
    let actions := entry.2.length
    let nes := strategy actions entry.2
    (∀ p q, IsNash (game.payoffs actions) p q ↔ p = nes ∧ q = nes) ∧
      ∃ distance, result.distancesPerUpdate.getLast? = some distance ∧
        (distance.val = .finite 0 ↔ ∃ probs q, result.finalPolicyProbs = probs.map .finite ∧
          IsNash (game.payoffs actions) (strategy actions probs) q) := by
  intro actions nes
  have nash := tabled_nash_iff listed built
  refine ⟨nash, ?_⟩
  obtain ⟨distance, measured, last⟩ : ∃ distance,
      euclideanDistanceToNes tensors result.finalPolicyProbs (entry.2.map .finite) =
          .ok distance ∧
        result.distancesPerUpdate.getLast? = some distance := by
    rcases ran with ran | ran
    · exact runSelfPlay_last updates ran
    · exact runSelfPlay_last updates ran
  refine ⟨distance, last, (euclideanDistanceToNes_zero measured).trans ?_⟩
  constructor
  · intro same
    exact ⟨entry.2, nes, same, (nash _ _).mpr ⟨rfl, rfl⟩⟩
  · rintro ⟨probs, q, same, both⟩
    have sameLength : probs.length = entry.2.length := by
      have lengths := euclideanDistanceToNes_length measured
      simpa [same] using lengths
    rw [same, strategy_injective sameLength rfl ((nash _ _).mp both).1]

theorem measured_at_equilibrium_uniform :
    ∃ result distance,
      runPpoSelfPlay uniformTensors ⟨[[1, -1], [-1, 1]], 2, 2⟩
        (MatchingPennies.STANDARD_NES.map .finite) ⟨1, 1, .default⟩ (fun _ _ => (0, 1)) =
          .ok result ∧
      result.distancesPerUpdate.getLast? = some distance ∧ distance.val = .finite 0 ∧
      ∃ probs q, result.finalPolicyProbs = probs.map .finite ∧
        IsNash (MatrixGame.payoffs ⟨[[1, -1], [-1, 1]], 2, 2⟩ 2) (strategy 2 probs) q := by
  obtain ⟨result, ran, final⟩ : ∃ result,
      runPpoSelfPlay uniformTensors ⟨[[1, -1], [-1, 1]], 2, 2⟩
        (MatchingPennies.STANDARD_NES.map .finite) ⟨1, 1, .default⟩ (fun _ _ => (0, 1)) =
          .ok result ∧
        result.finalPolicyProbs = [.finite (1 / 2), .finite (1 / 2)] := ⟨_, rfl, rfl⟩
  obtain ⟨nash, distance, last, zero⟩ := measured_at_equilibrium (.head _) rfl
    (show 0 < (⟨1, 1, .default⟩ : SelfPlayConfig ℚ).numUpdates by decide) .default (.inl ran)
  have equilibrium := (nash _ _).mpr ⟨rfl, rfl⟩
  have played : ∃ probs q, result.finalPolicyProbs = probs.map .finite ∧
      IsNash (MatrixGame.payoffs ⟨[[1, -1], [-1, 1]], 2, 2⟩ 2) (strategy 2 probs) q :=
    ⟨MatchingPennies.STANDARD_NES, _, final, equilibrium⟩
  exact ⟨result, distance, ran, last, zero.mpr played, played⟩

end Measure

end Trolly.Gym
