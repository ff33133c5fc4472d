import Mathlib.Data.List.Induction
import Mathlib.Data.List.Nodup
import Mathlib.Order.Lattice

/-! Keyed stores and the logs that drive them.
A map is known only through its lookups, so two maps that answer alike are equal.
A log of events writes to a key or leaves it alone; the value found after a run is
the last write to the key, whatever happened to every other key. An entry of a log that is
kept until one at least as new comes is the last of the newest. -/
namespace Keyed

universe u v w

/-- A hash map, as the lookup function it implements. -/
@[ext] structure Map (K : Type u) (V : Type v) where
  get : K → Option V

namespace Map

variable {K : Type u} {V : Type v}

def empty : Map K V := ⟨fun _ => none⟩

instance : Inhabited (Map K V) := ⟨empty⟩

@[simp] theorem get_empty (k : K) : (empty : Map K V).get k = none := rfl

/-- The orders in which iterating over the map may visit its keys. -/
def IterationOrder (m : Map K V) (order : List K) : Prop :=
  order.Nodup ∧ ∀ k, k ∈ order ↔ (m.get k).isSome

variable [DecidableEq K]

def insert (m : Map K V) (k : K) (v : V) : Map K V :=
  ⟨fun k' => if k' = k then some v else m.get k'⟩

def remove (m : Map K V) (k : K) : Map K V :=
  ⟨fun k' => if k' = k then none else m.get k'⟩

theorem get_insert (m : Map K V) (k k' : K) (v : V) :
    (m.insert k v).get k' = if k' = k then some v else m.get k' := rfl

theorem get_remove (m : Map K V) (k k' : K) :
    (m.remove k).get k' = if k' = k then none else m.get k' := rfl

@[simp] theorem get_insert_self (m : Map K V) (k : K) (v : V) : (m.insert k v).get k = some v := by
  simp [get_insert]

theorem get_insert_of_ne (m : Map K V) {k k' : K} (ne : k' ≠ k) (v : V) :
    (m.insert k v).get k' = m.get k' := by
  simp [get_insert, ne]

theorem insert_get (m : Map K V) {k : K} {v : V} (holds : m.get k = some v) : m.insert k v = m := by
  ext1
  funext k'
  by_cases same : k' = k
  · subst same
    simp [holds]
  · exact m.get_insert_of_ne same v

/-- Keys inserted one by one, each with a value of its own. -/
theorem get_foldl_insert (value : K → V) (keys : List K) (m : Map K V) (k : K) :
    (keys.foldl (fun m key => m.insert key (value key)) m).get k =
      if k ∈ keys then some (value k) else m.get k := by
  induction keys generalizing m with
  | nil => simp
  | cons key rest ih =>
    rw [List.foldl_cons, ih, get_insert]
    by_cases later : k ∈ rest
    · simp [later]
    · by_cases own : k = key <;> simp [later, own]

end Map

section Logs

variable {α : Type u} {β : Type v}

def last? (f : α → Option β) (log : List α) : Option β := log.reverse.findSome? f

theorem last?_append (f : α → Option β) (xs ys : List α) :
    last? f (xs ++ ys) = (last? f ys).or (last? f xs) := by
  simp [last?]

@[simp] theorem last?_singleton (f : α → Option β) (x : α) : last? f [x] = f x := by
  cases read : f x <;> simp [last?, read]

theorem last?_cons (f : α → Option β) (x : α) (xs : List α) :
    last? f (x :: xs) = (last? f xs).or (f x) := by
  simpa using last?_append f [x] xs

theorem last?_filter (f : α → Option β) (p : α → Bool) (reads : ∀ x, (f x).isSome → p x)
    (log : List α) : last? f (log.filter p) = last? f log := by
  induction log with
  | nil => rfl
  | cons x xs ih =>
    by_cases keep : p x
    · simp [keep, last?_cons, ih]
    · have unread : f x = none := by
        cases read : f x with
        | none => rfl
        | some v => exact absurd (reads x (by simp [read])) keep
      simp [keep, last?_cons, ih, unread]

theorem last?_map_some {γ : Type w} (f : α → Option β) (g : β → γ) (log : List α) :
    last? (fun x => (f x).map g) log = (last? f log).map g := by
  induction log with
  | nil => rfl
  | cons x xs ih => cases h : last? f xs <;> simp [last?_cons, ih, h]

theorem last?_guard (c : Prop) [Decidable c] (f : α → Option β) (log : List α) :
    last? (fun x => if c then f x else none) log = if c then last? f log else none := by
  by_cases holds : c
  · simp only [if_pos holds]
  · simp only [if_neg holds]
    exact List.findSome?_eq_none_iff.mpr (fun _ _ => rfl)

theorem last?_filter_none {f : α → Option β} {p : β → Bool} {log : List α}
    (unread : last? f log = none) : last? (fun x => (f x).filter p) log = none := by
  simp only [last?, List.findSome?_eq_none_iff] at unread ⊢
  exact fun x member => by rw [unread x member, Option.filter_none]

/-- Reading under a condition on the value: the last value read, if it passes. -/
theorem last?_filter_some {f : α → Option β} {p : β → Bool} {log : List α} {v : β}
    (found : last? f log = some v) (passes : p v = true) :
    last? (fun x => (f x).filter p) log = some v := by
  induction log with
  | nil => cases found
  | cons x xs ih =>
    rw [last?_cons] at found ⊢
    cases later : last? f xs with
    | some w =>
      rw [later, Option.some_or] at found
      cases found
      rw [ih later, Option.some_or]
    | none =>
      rw [later, Option.none_or] at found
      rw [last?_filter_none later, Option.none_or, found, Option.filter_some, if_pos passes]

theorem last?_mem {f : α → Option β} {log : List α} {v : β} (found : last? f log = some v) :
    ∃ x ∈ log, f x = some v := by
  obtain ⟨x, member, read⟩ := List.exists_of_findSome?_eq_some found
  exact ⟨x, List.mem_reverse.mp member, read⟩

theorem last?_getLast? (f : α → Option β) (log : List α) :
    (log.filterMap f).getLast? = last? f log := List.getLast?_filterMap

theorem last?_filterMap {γ : Type w} (f : β → Option γ) (g : α → Option β) (log : List α) :
    last? f (log.filterMap g) = last? (fun x => (g x).bind f) log := by
  rw [← last?_getLast?, List.filterMap_filterMap, last?_getLast?]

theorem last?_none_iff {f : α → Option β} {log : List α} :
    last? f log = none ↔ ∀ x ∈ log, f x = none := by
  simp [last?]

/-- The last number below a bound that reads as itself. -/
theorem last?_range_iff {f : Nat → Option Nat} (own : ∀ i j, f i = some j → j = i) {count last : Nat} :
    last? f (List.range count) = some last ↔
      last < count ∧ f last = some last ∧ ∀ i < count, (f i).isSome → i ≤ last := by
  induction count with
  | zero => simp [last?]
  | succ count ih =>
    rw [List.range_succ, last?_append, last?_singleton]
    cases read : f count with
    | some j =>
      cases own count j read
      rw [Option.some_or]
      constructor
      · intro same
        cases same
        exact ⟨by omega, read, fun i below _ => by omega⟩
      · rintro ⟨below, _, most⟩
        have least := most count (by omega) (by simp [read])
        rw [show count = last by omega]
    | none =>
      rw [Option.none_or, ih]
      constructor
      · rintro ⟨below, found, most⟩
        refine ⟨by omega, found, fun i within some => ?_⟩
        refine most i (Nat.lt_of_le_of_ne (by omega) ?_) some
        rintro rfl
        simp [read] at some
      · rintro ⟨below, found, most⟩
        refine ⟨Nat.lt_of_le_of_ne (by omega) ?_, found, fun i within => most i (by omega)⟩
        rintro rfl
        simp [read] at found

theorem last?_congr {f g : α → Option β} {log : List α} (same : ∀ x ∈ log, f x = g x) :
    last? f log = last? g log := by
  induction log with
  | nil => rfl
  | cons x xs ih =>
    rw [last?_cons, last?_cons, same x (by simp), ih (fun y hy => same y (by simp [hy]))]

/-- What was last written stays so when the end of the log comes once more. -/
theorem last?_redelivered (f : α → Option β) (before after : List α) :
    last? f (before ++ after ++ after) = last? f (before ++ after) := by
  rw [last?_append, last?_append]
  cases last? f after <;> rfl

end Logs

section Latest

variable {α : Type u} {κ : Type v} [LinearOrder κ] (key : α → κ)

/-- Keep the newcomer, unless what is kept so far has the greater key. -/
def keepLatest (kept : Option α) (x : α) : Option α :=
  match kept with
  | some best => if key x < key best then some best else some x
  | none => some x

/-- `x` is the last of the entries with the greatest key. -/
def IsLatest (log : List α) (x : α) : Prop :=
  ∃ pre post, log = pre ++ x :: post ∧ (∀ y ∈ pre, key y ≤ key x) ∧ ∀ y ∈ post, key y < key x

theorem IsLatest.snoc_newer {log : List α} {best x : α} (latest : IsLatest key log best)
    (newer : key best ≤ key x) : IsLatest key (log ++ [x]) x := by
  obtain ⟨pre, post, rfl, before, after⟩ := latest
  refine ⟨pre ++ best :: post, [], rfl, fun y member => ?_, by simp⟩
  rcases List.mem_append.mp member with early | late
  · exact (before y early).trans newer
  · rcases List.mem_cons.mp late with rfl | late
    · exact newer
    · exact (after y late).le.trans newer

theorem IsLatest.snoc_older {log : List α} {best x : α} (latest : IsLatest key log best)
    (older : key x < key best) : IsLatest key (log ++ [x]) best := by
  obtain ⟨pre, post, rfl, before, after⟩ := latest
  refine ⟨pre, post ++ [x], by simp, before, fun y member => ?_⟩
  rcases List.mem_append.mp member with early | last
  · exact after y early
  · rwa [List.mem_singleton.mp last]

theorem foldl_keepLatest_snoc (log : List α) (x : α) :
    (log ++ [x]).foldl (keepLatest key) none = keepLatest key (log.foldl (keepLatest key) none) x := by
  rw [List.foldl_append, List.foldl_cons, List.foldl_nil]

theorem foldl_keepLatest_none (log : List α) :
    log.foldl (keepLatest key) none = none ↔ log = [] := by
  induction log using List.reverseRecOn with
  | nil => simp
  | append_singleton log x _ =>
    rw [foldl_keepLatest_snoc]
    cases log.foldl (keepLatest key) none with
    | none => simp [keepLatest]
    | some best =>
      simp only [keepLatest]
      split <;> simp

theorem foldl_keepLatest_some (log : List α) {x : α}
    (kept : log.foldl (keepLatest key) none = some x) : IsLatest key log x := by
  induction log using List.reverseRecOn generalizing x with
  | nil => cases kept
  | append_singleton log y ih =>
    rw [foldl_keepLatest_snoc] at kept
    cases before : log.foldl (keepLatest key) none with
    | none =>
      rw [before] at kept
      cases kept
      rw [(foldl_keepLatest_none key log).mp before]
      exact ⟨[], [], rfl, by simp, by simp⟩
    | some best =>
      have latest := ih before
      rw [before] at kept
      simp only [keepLatest] at kept
      split at kept
      · rename_i older
        cases kept
        exact latest.snoc_older key older
      · rename_i newer
        cases kept
        exact latest.snoc_newer key (not_lt.mp newer)

theorem keepLatest_assoc (kept : Option α) (x y : α) :
    keepLatest key (keepLatest key kept x) y = (keepLatest key (some x) y).elim kept
      (keepLatest key kept) := by
  cases kept with
  | none =>
    simp only [keepLatest]
    split <;> rfl
  | some best =>
    rcases lt_or_ge (key x) (key best) with older | newer <;>
      rcases lt_or_ge (key y) (key x) with second | first
    · simp [keepLatest, older, second, second.trans older]
    · simp [keepLatest, older, first.not_gt]
    · simp [keepLatest, newer.not_gt, second]
    · simp [keepLatest, newer.not_gt, first.not_gt, (newer.trans first).not_gt]

/-- A kept entry meets a log as it meets the entry that the log alone would keep. -/
theorem foldl_keepLatest_from (kept : Option α) (log : List α) :
    log.foldl (keepLatest key) kept =
      (log.foldl (keepLatest key) none).elim kept (keepLatest key kept) := by
  induction log using List.reverseRecOn with
  | nil => rfl
  | append_singleton log x ih =>
    rw [foldl_keepLatest_snoc, List.foldl_append, List.foldl_cons, List.foldl_nil, ih]
    cases log.foldl (keepLatest key) none with
    | none => rfl
    | some best => exact keepLatest_assoc key kept best x

theorem foldl_keepLatest_redelivered (before after : List α) :
    (before ++ after ++ after).foldl (keepLatest key) none =
      (before ++ after).foldl (keepLatest key) none := by
  rw [List.foldl_append, List.foldl_append, foldl_keepLatest_from,
    foldl_keepLatest_from key (before.foldl (keepLatest key) none)]
  cases after.foldl (keepLatest key) none with
  | none => rfl
  | some latest =>
    cases before.foldl (keepLatest key) none with
    | none => simp [keepLatest]
    | some best =>
      rcases lt_or_ge (key latest) (key best) with older | newer
      · simp [keepLatest, older]
      · simp [keepLatest, newer.not_gt]

end Latest

section Runs

variable {S : Type u} {E : Type v} {V : Type w}

/-- A view that each event overwrites or keeps is, after a run, its last write. -/
theorem run_view (step : S → E → S) (view : S → V) (write : E → Option V) (inv : S → Prop)
    (kept : ∀ s e, inv s → inv (step s e))
    (spec : ∀ s e, inv s → view (step s e) = (write e).getD (view s))
    (log : List E) (s : S) (start : inv s) :
    view (log.foldl step s) = (last? write log).getD (view s) := by
  induction log generalizing s with
  | nil => rfl
  | cons e rest ih =>
    rw [List.foldl_cons, ih (step s e) (kept s e start), spec s e start, last?_cons]
    cases last? write rest <;> simp

/-- An invariant of every step is an invariant of every run. -/
theorem run_invariant (step : S → E → S) (inv : S → Prop) (kept : ∀ s e, inv s → inv (step s e))
    (log : List E) (s : S) (start : inv s) : inv (log.foldl step s) :=
  List.foldlRecOn log step start (fun t holds e _ => kept t e holds)

end Runs

end Keyed
