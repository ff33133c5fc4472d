import Mathlib.Data.List.Forall2
import Mathlib.Data.List.Basic

/-! Reading a list element by element with a function that may fail: strictly, so that one
failure fails the whole list, or leniently, so that a failing element is skipped. -/
namespace Traversal

universe u

variable {ε α β : Type u}

theorem mapM_ok {f : α → Except ε β} {xs : List α} {ys : List β} (read : xs.mapM f = .ok ys) :
    List.Forall₂ (fun x y => f x = .ok y) xs ys := by
  induction xs generalizing ys with
  | nil =>
    cases read
    exact .nil
  | cons x xs ih =>
    rw [List.mapM_cons] at read
    cases first : f x with
    | error e => simp [first, bind, Except.bind] at read
    | ok y =>
      cases tail : xs.mapM f with
      | error e => simp [first, tail, bind, Except.bind] at read
      | ok rest =>
        simp only [first, tail, bind, Except.bind, pure, Except.pure, Except.ok.injEq] at read
        subst read
        exact .cons first (ih tail)

theorem mapM_of_forall₂ {f : α → Except ε β} {xs : List α} {ys : List β}
    (each : List.Forall₂ (fun x y => f x = .ok y) xs ys) : xs.mapM f = .ok ys := by
  induction each with
  | nil => rfl
  | cons first _ ih =>
    rw [List.mapM_cons, first, ih]
    rfl

theorem mapM_mem {f : α → Except ε β} {xs : List α} {ys : List β} (read : xs.mapM f = .ok ys)
    {y : β} (member : y ∈ ys) : ∃ x ∈ xs, f x = .ok y := by
  have each := mapM_ok read
  clear read
  induction each with
  | nil => cases member
  | cons first _ ih =>
    rcases List.mem_cons.mp member with rfl | later
    · exact ⟨_, .head _, first⟩
    · obtain ⟨x, inside, reads⟩ := ih later
      exact ⟨x, .tail _ inside, reads⟩

/-- One failure fails the whole list, with the error of the first. -/
theorem mapM_error {f : α → Except ε β} {xs : List α} {x : α} (member : x ∈ xs) {error : ε}
    (fails : f x = .error error) : ∃ e, xs.mapM f = .error e := by
  cases read : xs.mapM f with
  | error e => exact ⟨e, rfl⟩
  | ok ys =>
    have each := mapM_ok read
    exfalso
    clear read
    induction each with
    | nil => cases member
    | cons first _ ih =>
      rcases List.mem_cons.mp member with rfl | later
      · rw [fails] at first
        cases first
      · exact ih later

theorem mapM_some_mem {f : α → Option β} {xs : List α} {ys : List β} (read : xs.mapM f = some ys)
    {y : β} (member : y ∈ ys) : ∃ x ∈ xs, f x = some y := by
  induction xs generalizing ys with
  | nil =>
    cases read
    cases member
  | cons x xs ih =>
    simp only [List.mapM_cons, Option.bind_eq_bind, Option.bind_eq_some_iff] at read
    obtain ⟨first, own, rest, others, made⟩ := read
    cases made
    rcases List.mem_cons.mp member with rfl | later
    · exact ⟨x, .head _, own⟩
    · obtain ⟨x', inside, reads⟩ := ih others later
      exact ⟨x', .tail _ inside, reads⟩

theorem mapM_some {f : α → Option β} {g : α → β} {xs : List α}
    (each : ∀ x ∈ xs, f x = some (g x)) : xs.mapM f = some (xs.map g) := by
  induction xs with
  | nil => rfl
  | cons x xs ih =>
    obtain ⟨own, others⟩ := List.forall_mem_cons.mp each
    rw [List.mapM_cons, own, ih others]
    rfl

theorem mapM_map_some {f : α → Option β} {g : β → α} {ys : List β}
    (each : ∀ y ∈ ys, f (g y) = some y) : (ys.map g).mapM f = some ys := by
  rw [List.mapM_map]
  exact (mapM_some each).trans (congrArg some (List.map_id' ys))

/-! ### What a computation with errors passed through -/

section Never

universe v w

variable {ε : Type w} {α β : Type v} {γ : Type u}

theorem bind_ne_error {x : Except ε α} {f : α → Except ε β} {e : ε} (first : x ≠ .error e)
    (next : ∀ a, f a ≠ .error e) : x >>= f ≠ .error e := by
  cases x with
  | error other => exact fun same => first (congrArg Except.error (Except.error.inj same))
  | ok a => exact next a

theorem bind_ok {x : Except ε α} {f : α → Except ε β} {b : β} (ran : x >>= f = .ok b) :
    ∃ a, x = .ok a ∧ f a = .ok b := by
  cases x with
  | error e => exact nomatch ran
  | ok a => exact ⟨a, rfl, ran⟩

theorem mapM_ne_error {f : γ → Except ε β} {e : ε} {xs : List γ}
    (each : ∀ x ∈ xs, f x ≠ .error e) : xs.mapM f ≠ .error e := by
  induction xs with
  | nil => exact fun same => nomatch same
  | cons x xs ih =>
    rw [List.mapM_cons]
    refine bind_ne_error (each x (.head xs)) (fun y => ?_)
    exact bind_ne_error (ih (fun z later => each z (.tail x later))) (fun _ same => nomatch same)

theorem foldlM_ne_error {f : β → γ → Except ε β} {e : ε} (step : ∀ s x, f s x ≠ .error e)
    (xs : List γ) (s : β) : xs.foldlM f s ≠ .error e := by
  induction xs generalizing s with
  | nil => exact fun same => nomatch same
  | cons x xs ih =>
    rw [List.foldlM_cons]
    exact bind_ne_error (step s x) ih

end Never

/-- Reading leniently keeps as many elements as there are exactly when none fails. -/
theorem filterMap_length_iff {f : α → Option β} {xs : List α} :
    (xs.filterMap f).length = xs.length ↔ ∀ x ∈ xs, (f x).isSome := by
  induction xs with
  | nil => simp
  | cons x xs ih =>
    have shorter : (xs.filterMap f).length ≤ xs.length := List.length_filterMap_le f xs
    cases first : f x with
    | none =>
      rw [List.filterMap_cons_none first]
      simp only [List.length_cons, List.mem_cons, forall_eq_or_imp, first, Option.isSome_none]
      simp only [Bool.false_eq_true, false_and, iff_false]
      omega
    | some y =>
      rw [List.filterMap_cons_some first]
      simp [first, ih]

/-- Reading leniently stands for every element exactly when none fails. -/
theorem filterMap_forall₂_iff {f : α → Option β} {R : α → β → Prop}
    (sound : ∀ x y, f x = some y → R x y) {xs : List α} :
    List.Forall₂ R xs (xs.filterMap f) ↔ ∀ x ∈ xs, (f x).isSome := by
  constructor
  · intro each
    exact filterMap_length_iff.mp each.length_eq.symm
  · intro all
    induction xs with
    | nil => exact .nil
    | cons x xs ih =>
      obtain ⟨here, later⟩ := List.forall_mem_cons.mp all
      obtain ⟨y, reads⟩ := Option.isSome_iff_exists.mp here
      rw [List.filterMap_cons_some reads]
      exact .cons (sound x y reads) (ih later)

end Traversal
