import Mathlib.Algebra.BigOperators.Intervals
import Mathlib.Algebra.BigOperators.Ring.Finset
import Mathlib.Tactic.Ring

/-!
Discounted sums over a list whose entries may be marked as the end of a segment. A total
stops at the first marked entry; where none is, the tail stands for what follows the list.
-/

namespace Discounted

variable {R : Type*}

/- The entry at which the segment that starts the list ends: the first marked one, or the
last of the list. -/
inductive EndsAt : List (R × Bool) → Nat → Prop
  | marked (x : R) (rest : List (R × Bool)) : EndsAt ((x, true) :: rest) 0
  | last (x : R) : EndsAt [(x, false)] 0
  | later {rest : List (R × Bool)} {e : Nat} (x : R) (ends : EndsAt rest e) :
      EndsAt ((x, false) :: rest) (e + 1)

def amount [Zero R] (entries : List (R × Bool)) (k : Nat) : R := (entries[k]?.map Prod.fst).getD 0

def markedAt (entries : List (R × Bool)) (k : Nat) : Bool :=
  (entries[k]?.map Prod.snd).getD false

@[simp] theorem amount_cons_zero [Zero R] (entry : R × Bool) (rest : List (R × Bool)) :
    amount (entry :: rest) 0 = entry.1 := rfl

@[simp] theorem amount_cons_succ [Zero R] (entry : R × Bool) (rest : List (R × Bool)) (k : Nat) :
    amount (entry :: rest) (k + 1) = amount rest k := rfl

@[simp] theorem markedAt_cons_zero (entry : R × Bool) (rest : List (R × Bool)) :
    markedAt (entry :: rest) 0 = entry.2 := rfl

@[simp] theorem markedAt_cons_succ (entry : R × Bool) (rest : List (R × Bool)) (k : Nat) :
    markedAt (entry :: rest) (k + 1) = markedAt rest k := rfl

theorem amount_drop [Zero R] (entries : List (R × Bool)) (i k : Nat) :
    amount (entries.drop i) k = amount entries (i + k) := by
  simp [amount]

theorem markedAt_drop (entries : List (R × Bool)) (i k : Nat) :
    markedAt (entries.drop i) k = markedAt entries (i + k) := by
  simp [markedAt]

theorem endsAt_of_first {entries : List (R × Bool)} {e : Nat} (within : e < entries.length)
    (unmarked : ∀ k < e, markedAt entries k = false)
    (stops : markedAt entries e = true ∨ e + 1 = entries.length) : EndsAt entries e := by
  induction entries generalizing e with
  | nil => simp at within
  | cons entry rest ih =>
    obtain ⟨x, ended⟩ := entry
    cases e with
    | zero =>
      cases ended with
      | true => exact .marked x rest
      | false =>
        have alone : rest = [] := by simpa using stops
        exact alone ▸ .last x
    | succ e =>
      have kept : ended = false := unmarked 0 (Nat.succ_pos e)
      subst kept
      refine .later x (ih (by simpa using within) (fun k below => ?_) (by simpa using stops))
      exact unmarked (k + 1) (Nat.succ_lt_succ below)

variable [CommSemiring R]

def total (c tail : R) : List (R × Bool) → R
  | [] => tail
  | (x, ended) :: rest => x + if ended then 0 else c * total c tail rest

@[simp] theorem total_nil (c tail : R) : total c tail [] = tail := rfl

theorem total_cons (c tail : R) (entry : R × Bool) (rest : List (R × Bool)) :
    total c tail (entry :: rest) =
      entry.1 + if entry.2 then 0 else c * total c tail rest := rfl

/- Unrolled, a total is the sum of the entries up to the end of the segment, each discounted
by its distance; the tail comes in only when that end is not marked. -/
theorem total_eq_sum (c tail : R) {entries : List (R × Bool)} {e : Nat}
    (ends : EndsAt entries e) :
    total c tail entries = ∑ k ∈ Finset.range (e + 1), c ^ k * amount entries k +
      if markedAt entries e then 0 else c ^ (e + 1) * tail := by
  induction ends with
  | marked x rest => simp [total_cons]
  | last x => simp [total_cons]
  | @later rest e x ends ih =>
    have shifted : ∑ k ∈ Finset.range (e + 1), c ^ (k + 1) * amount rest k =
        c * ∑ k ∈ Finset.range (e + 1), c ^ k * amount rest k := by
      rw [Finset.mul_sum]
      exact Finset.sum_congr rfl fun k _ => by ring
    rw [total_cons, Finset.sum_range_succ']
    simp only [amount_cons_succ, amount_cons_zero, markedAt_cons_succ, shifted, ih]
    by_cases closed : markedAt rest e = true
    · simp [closed, add_comm]
    · simp only [closed, Bool.false_eq_true, if_false]
      ring

/- The same from an index on, over the indices of the whole list. -/
theorem total_drop_eq_sum (c tail : R) {entries : List (R × Bool)} {i e : Nat} (start : i ≤ e)
    (ends : EndsAt (entries.drop i) (e - i)) :
    total c tail (entries.drop i) =
      ∑ k ∈ Finset.Ico i (e + 1), c ^ (k - i) * amount entries k +
        if markedAt entries e then 0 else c ^ (e + 1 - i) * tail := by
  rw [total_eq_sum c tail ends, Finset.sum_Ico_eq_sum_range]
  have width : e + 1 - i = e - i + 1 := by omega
  simp only [amount_drop, markedAt_drop, Nat.add_sub_cancel' start, width,
    Nat.add_sub_cancel_left]

@[simp] theorem total_undiscounted (tail : R) (entry : R × Bool) (rest : List (R × Bool)) :
    total 0 tail (entry :: rest) = entry.1 := by
  simp [total_cons]

end Discounted
