import Mathlib.Data.List.Basic

/-! Interleavings of independent event streams.
Every event belongs to one route. When steps of different routes commute, a run depends
only on the subsequence of each route, not on how the subsequences were interleaved. -/
namespace Interleaving

universe u v w

variable {S : Type u} {E : Type v} {K : Type w}

/-- Steps of different routes may be exchanged. -/
def Commuting (step : S → E → S) (route : E → K) : Prop :=
  ∀ s e f, route e ≠ route f → step (step s e) f = step (step s f) e

theorem foldl_step_comm {step : S → E → S} {route : E → K} (commuting : Commuting step route)
    (e : E) (log : List E) (apart : ∀ f ∈ log, route f ≠ route e) (s : S) :
    log.foldl step (step s e) = step (log.foldl step s) e := by
  induction log generalizing s with
  | nil => rfl
  | cons f rest ih =>
    have swap : step (step s e) f = step (step s f) e :=
      commuting s e f (fun same => apart f (by simp) same.symm)
    rw [List.foldl_cons, swap, ih (fun g hg => apart g (by simp [hg])), List.foldl_cons]

/-- The first event of a route can be moved to the front of the log. -/
theorem foldl_move_front {step : S → E → S} {route : E → K} (commuting : Commuting step route)
    (e : E) (pre post : List E) (apart : ∀ f ∈ pre, route f ≠ route e) (s : S) :
    (pre ++ e :: post).foldl step s = (pre ++ post).foldl step (step s e) := by
  rw [List.foldl_append, List.foldl_cons, List.foldl_append, foldl_step_comm commuting e pre apart]

variable [DecidableEq K]

def along (route : E → K) (k : K) (log : List E) : List E := log.filter (fun e => route e = k)

def SameRoutes (route : E → K) (xs ys : List E) : Prop := ∀ k, along route k xs = along route k ys

/-- A log that agrees with `e :: xs` route by route is `xs` with `e` inserted somewhere
after events of other routes only. -/
theorem sameRoutes_cons {route : E → K} {e : E} {xs ys : List E}
    (same : SameRoutes route (e :: xs) ys) :
    ∃ pre post, ys = pre ++ e :: post ∧ (∀ f ∈ pre, route f ≠ route e) ∧
      SameRoutes route xs (pre ++ post) := by
  have first : ys.filter (fun f => route f = route e) = e :: along route (route e) xs := by
    simpa [along] using (same (route e)).symm
  obtain ⟨pre, post, split, apart, _, tail⟩ := List.filter_eq_cons_iff.mp first
  have apart : ∀ f ∈ pre, route f ≠ route e := by simpa using apart
  have unseen : along route (route e) pre = [] := by simpa [along, List.filter_eq_nil_iff] using apart
  refine ⟨pre, post, split, apart, fun k => ?_⟩
  by_cases own : k = route e
  · subst own
    simpa [along] using (show along route (route e) xs = along route (route e) pre ++
      along route (route e) post by rw [unseen]; exact tail.symm)
  · have here := same k
    have skip : ¬ route e = k := fun h => own h.symm
    simpa [along, split, skip] using here

theorem run_eq_of_sameRoutes {step : S → E → S} {route : E → K} (commuting : Commuting step route)
    {xs ys : List E} (same : SameRoutes route xs ys) (s : S) : xs.foldl step s = ys.foldl step s := by
  induction xs generalizing ys s with
  | nil =>
    cases ys with
    | nil => rfl
    | cons f rest => simpa [along] using same (route f)
  | cons e rest ih =>
    obtain ⟨pre, post, rfl, apart, tail⟩ := sameRoutes_cons same
    rw [List.foldl_cons, foldl_move_front commuting e pre post apart, ih tail]

end Interleaving
