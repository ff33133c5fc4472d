import Mathlib.Data.List.Induction
import Mathlib.Data.List.Basic

/-! Runs of a machine whose steps may fail. An invariant relates a state to the calls that
led to it; when it decides which calls succeed, it decides which runs do. -/
namespace PartialRun

universe u v

variable {S : Type u} {C : Type v}

/-- Something holds of every call of a list, given the calls before it. -/
def EachCall (p : List C → C → Prop) (calls : List C) : Prop :=
  ∀ pre call post, calls = pre ++ call :: post → p pre call

theorem eachCall_nil (p : List C → C → Prop) : EachCall p [] := by
  intro pre call post split
  cases pre <;> cases split

theorem eachCall_of_append {p : List C → C → Prop} {calls later : List C}
    (each : EachCall p (calls ++ later)) : EachCall p calls := by
  intro pre call post split
  exact each pre call (post ++ later) (by rw [split, List.append_assoc, List.cons_append])

theorem eachCall_snoc {p : List C → C → Prop} {calls : List C} {call : C} :
    EachCall p (calls ++ [call]) ↔ EachCall p calls ∧ p calls call := by
  constructor
  · intro each
    refine ⟨fun pre c post split => each pre c (post ++ [call]) ?_, each calls call [] rfl⟩
    rw [split, List.append_assoc, List.cons_append]
  · rintro ⟨each, last⟩ pre c post split
    rcases List.eq_nil_or_concat post with rfl | ⟨rest, tail, rfl⟩
    · obtain ⟨rfl, rfl⟩ := List.append_inj' split rfl |>.imp_right List.singleton_inj.mp
      exact last
    · rw [List.concat_eq_append, ← List.cons_append, ← List.append_assoc] at split
      exact each pre c rest (List.append_inj' split rfl).1

variable (step : S → C → Option S)

def run (start : S) (calls : List C) : Option S := calls.foldlM step start

theorem run_snoc (start : S) (calls : List C) (call : C) :
    run step start (calls ++ [call]) = (run step start calls).bind (step · call) := by
  cases ran : calls.foldlM step start <;> simp [run, List.foldlM_append, ran]

variable {step} {start : S} (Inv : List C → S → Prop)

/-- What every successful step keeps holds after every successful run. -/
theorem run_invariant (initial : Inv [] start)
    (keeps : ∀ pre s call t, Inv pre s → step s call = some t → Inv (pre ++ [call]) t)
    {calls : List C} {reached : S} (ran : run step start calls = some reached) :
    Inv calls reached := by
  induction calls using List.reverseRecOn generalizing reached with
  | nil =>
    cases ran
    exact initial
  | append_singleton calls call ih =>
    rw [run_snoc] at ran
    obtain ⟨before, ranBefore, stepped⟩ := Option.bind_eq_some_iff.mp ran
    exact keeps calls before call reached (ih ranBefore) stepped

/-- A run succeeds exactly when each of its calls does where it is made. -/
theorem run_isSome_iff (initial : Inv [] start)
    (keeps : ∀ pre s call t, Inv pre s → step s call = some t → Inv (pre ++ [call]) t)
    {succeeds : List C → C → Prop}
    (decided : ∀ pre s call, Inv pre s → ((step s call).isSome ↔ succeeds pre call))
    (calls : List C) : (run step start calls).isSome ↔ EachCall succeeds calls := by
  induction calls using List.reverseRecOn with
  | nil => exact iff_of_true rfl (eachCall_nil succeeds)
  | append_singleton calls call ih =>
    rw [eachCall_snoc, ← ih, run_snoc]
    cases ran : run step start calls with
    | none => simp
    | some before =>
      rw [Option.bind_some, decided calls before call (run_invariant Inv initial keeps ran)]
      simp

end PartialRun
