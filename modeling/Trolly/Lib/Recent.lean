import Mathlib.Data.List.Basic
import Mathlib.Data.List.Induction

/-! The most recent entries of an append-only log, and two bounded stores that hold them:
a queue that drops its front when it is full, and a ring of slots that wraps around. -/
namespace Recent

universe u

variable {α : Type u}

def last (n : Nat) (log : List α) : List α := log.drop (log.length - n)

theorem length_last (n : Nat) (log : List α) : (last n log).length = min n log.length := by
  rw [last, List.length_drop]
  omega

theorem last_nil (n : Nat) : last n ([] : List α) = [] := List.drop_nil

/-- Appending to a full queue pushes its oldest entry out. -/
theorem last_snoc {n : Nat} (positive : 0 < n) (log : List α) (x : α) :
    last n (log ++ [x]) =
      (if (last n log).length = n then (last n log).drop 1 else last n log) ++ [x] := by
  have length := length_last n log
  unfold last at length ⊢
  rw [List.length_append, List.length_singleton]
  by_cases full : (log.drop (log.length - n)).length = n
  · have cut : log.length + 1 - n = log.length - n + 1 := by omega
    rw [if_pos full, List.drop_drop, cut, List.drop_append_of_le_length (by omega)]
  · have short : log.length + 1 - n = 0 ∧ log.length - n = 0 := by omega
    rw [if_neg full, short.1, short.2, List.drop_zero, List.drop_zero]

/-- Pushing first and then dropping the front of what has become too long does the same. -/
theorem last_push {n : Nat} (positive : 0 < n) (log : List α) (x : α) :
    (if n < (last n log ++ [x]).length then (last n log ++ [x]).drop 1 else last n log ++ [x]) =
      last n (log ++ [x]) := by
  have short := length_last n log
  rw [last_snoc positive, List.length_append, List.length_singleton]
  by_cases full : (last n log).length = n
  · rw [if_pos full, if_pos (by omega), List.drop_append_of_le_length (by omega)]
  · rw [if_neg full, if_neg (by omega)]

theorem filterMap_getElem? (xs : List α) : (List.range xs.length).filterMap (xs[·]?) = xs := by
  induction xs using List.reverseRecOn with
  | nil => rfl
  | append_singleton xs x ih =>
    have same : (List.range xs.length).filterMap ((xs ++ [x])[·]?) =
        (List.range xs.length).filterMap (xs[·]?) :=
      List.filterMap_congr (fun i member => List.getElem?_append_left (List.mem_range.mp member))
    rw [List.length_append, List.length_singleton, List.range_succ, List.filterMap_append, same, ih]
    simp

/-- A fixed number of slots; `head` is the next one to be written. -/
structure RingBuffer (α : Type u) where
  capacity : Nat
  slots : List (Option α)
  head : Nat
  len : Nat

namespace RingBuffer

def new (capacity : Nat) : RingBuffer α := ⟨capacity, List.replicate capacity none, 0, 0⟩

/-- Overwrite the oldest entry when full; `none` is the panic of an index out of bounds. -/
def push (self : RingBuffer α) (x : α) : Option (RingBuffer α) :=
  if self.head < self.slots.length then
    some { self with
      slots := self.slots.set self.head (some x)
      head := (self.head + 1) % self.capacity
      len := if self.len < self.capacity then self.len + 1 else self.len }
  else none

def snapshot (self : RingBuffer α) : List α :=
  if self.len = 0 then []
  else
    let start := if self.len = self.capacity then self.head else 0
    (List.range self.len).filterMap (fun i => (self.slots[(start + i) % self.capacity]?).join)

/-- The shape of a ring of any capacity, whatever it holds. -/
structure Shaped (ring : RingBuffer α) : Prop where
  slots : ring.slots.length = ring.capacity
  head : 0 < ring.capacity → ring.head < ring.capacity
  len : ring.len ≤ ring.capacity

theorem new_shaped (capacity : Nat) : (new capacity : RingBuffer α).Shaped where
  slots := List.length_replicate
  head := fun positive => positive
  len := Nat.zero_le _

theorem Shaped.push {ring : RingBuffer α} (shaped : ring.Shaped) (positive : 0 < ring.capacity)
    (x : α) :
    ∃ next, ring.push x = some next ∧ next.capacity = ring.capacity ∧ next.Shaped := by
  have inside : ring.head < ring.slots.length := by
    rw [shaped.slots]
    exact shaped.head positive
  refine ⟨_, if_pos inside, rfl, ?_, ?_, ?_⟩
  · simpa using shaped.slots
  · exact fun _ => Nat.mod_lt _ positive
  · have len := shaped.len
    dsimp only
    split <;> omega

theorem Shaped.push_empty {ring : RingBuffer α} (shaped : ring.Shaped) (empty : ring.capacity = 0)
    (x : α) : ring.push x = none := by
  refine if_neg ?_
  rw [shaped.slots, empty]
  exact Nat.not_lt_zero _

/-- The ring holds the end of the log: entry `i` sits in slot `i % capacity`. -/
structure Holds (ring : RingBuffer α) (log : List α) : Prop where
  positive : 0 < ring.capacity
  slots : ring.slots.length = ring.capacity
  head : ring.head = log.length % ring.capacity
  len : ring.len = min ring.capacity log.length
  entry : ∀ i x, log[i]? = some x → log.length ≤ i + ring.capacity →
    ring.slots[i % ring.capacity]? = some (some x)

theorem new_holds {capacity : Nat} (positive : 0 < capacity) :
    (new capacity : RingBuffer α).Holds [] where
  positive := positive
  slots := List.length_replicate
  head := (Nat.zero_mod _).symm
  len := (Nat.min_zero _).symm
  entry := fun i x found => by simp at found

theorem mod_ne_of_near {c i n : Nat} (before : i < n) (near : n < i + c) : i % c ≠ n % c := by
  intro same
  have divides : c ∣ n - i := Nat.dvd_of_mod_eq_zero (Nat.sub_mod_eq_zero_of_mod_eq same.symm)
  have := Nat.le_of_dvd (by omega) divides
  omega

theorem Holds.push {ring : RingBuffer α} {log : List α} (holds : ring.Holds log) (x : α) :
    ∃ next, ring.push x = some next ∧ next.capacity = ring.capacity ∧ next.Holds (log ++ [x]) := by
  have inside : ring.head < ring.slots.length := by
    rw [holds.head, holds.slots]
    exact Nat.mod_lt _ holds.positive
  refine ⟨_, if_pos inside, rfl, ?_⟩
  refine ⟨holds.positive, by simpa using holds.slots, ?_, ?_, ?_⟩
  · simp only [holds.head, List.length_append, List.length_singleton, Nat.mod_add_mod]
  · have len := holds.len
    simp only [List.length_append, List.length_singleton]
    split <;> omega
  · intro i y found near
    simp only [List.length_append, List.length_singleton] at near
    simp only [List.getElem?_set]
    by_cases newest : i = log.length
    · subst newest
      rw [List.getElem?_concat_length] at found
      rw [if_pos holds.head, if_pos inside, found]
    · have older : i < log.length := by
        have bound := (List.getElem?_eq_some_iff.mp found).1
        simp only [List.length_append, List.length_singleton] at bound
        omega
      rw [List.getElem?_append_left older] at found
      have apart : ring.head ≠ i % ring.capacity := by
        rw [holds.head]
        exact (mod_ne_of_near older (by omega)).symm
      rw [if_neg apart]
      exact holds.entry i y found (by omega)

/-- Reading from the oldest slot on gives the end of the log. -/
theorem Holds.snapshot {ring : RingBuffer α} {log : List α} (holds : ring.Holds log) :
    ring.snapshot = last ring.capacity log := by
  have len := holds.len
  have positive := holds.positive
  by_cases empty : ring.len = 0
  · have nil : log = [] := List.length_eq_zero_iff.mp (by omega)
    rw [RingBuffer.snapshot, if_pos empty, nil, last_nil]
  · let start := if ring.len = ring.capacity then ring.head else 0
    have slot : ∀ i, i < ring.len →
        (start + i) % ring.capacity = (log.length - ring.capacity + i) % ring.capacity := by
      intro i _
      by_cases full : ring.len = ring.capacity
      · have whole : log.length = log.length - ring.capacity + ring.capacity := by omega
        simp only [start, if_pos full, holds.head, Nat.mod_add_mod]
        rw [whole, Nat.add_right_comm, Nat.add_mod_right, Nat.add_sub_cancel]
      · have short : log.length - ring.capacity = 0 := by omega
        simp only [start, if_neg full, short]
    have read : ∀ i, i < ring.len →
        (ring.slots[(start + i) % ring.capacity]?).join = (last ring.capacity log)[i]? := by
      intro i inside
      have bound : log.length - ring.capacity + i < log.length := by omega
      have found := List.getElem?_eq_getElem bound
      rw [slot i inside, holds.entry _ _ found (by omega), last, List.getElem?_drop, found]
      rfl
    have length : (last ring.capacity log).length = ring.len := by rw [length_last, holds.len]
    rw [RingBuffer.snapshot, if_neg empty]
    calc (List.range ring.len).filterMap
          (fun i => (ring.slots[(start + i) % ring.capacity]?).join)
        = (List.range ring.len).filterMap (fun i => (last ring.capacity log)[i]?) :=
          List.filterMap_congr (fun i member => read i (List.mem_range.mp member))
      _ = last ring.capacity log := by
          rw [← length]
          exact filterMap_getElem? _

theorem Holds.length_snapshot {ring : RingBuffer α} {log : List α} (holds : ring.Holds log) :
    ring.snapshot.length = ring.len := by
  rw [holds.snapshot, length_last, holds.len]

/-- The slots below `len` are filled and the later ones are not. -/
def Filled (ring : RingBuffer α) : Prop :=
  ∀ j slot, ring.slots[j]? = some slot → (slot.isSome ↔ j < ring.len)

theorem new_filled (capacity : Nat) : (new capacity : RingBuffer α).Filled := by
  intro j slot found
  obtain ⟨_, rfl⟩ := List.mem_replicate.mp (List.mem_of_getElem? found)
  exact iff_of_false Bool.false_ne_true (Nat.not_lt_zero j)

/-- Until the ring is full its head is the first empty slot. -/
theorem Filled.push {ring next : RingBuffer α} {log : List α} (filled : ring.Filled)
    (holds : ring.Holds log) {x : α} (pushed : ring.push x = some next) : next.Filled := by
  obtain ⟨inside, made⟩ := Option.ite_none_right_eq_some.mp pushed
  cases made
  intro j slot found
  have headAt := holds.head
  have lenAt := holds.len
  have bound := (List.getElem?_eq_some_iff.mp found).1
  simp only [List.length_set, holds.slots] at bound
  simp only [List.getElem?_set] at found
  dsimp only
  by_cases written : ring.head = j
  · rw [if_pos written, if_pos inside] at found
    cases found
    refine iff_of_true rfl ?_
    by_cases short : log.length < ring.capacity
    · rw [Nat.mod_eq_of_lt short] at headAt
      rw [if_pos (by omega)]
      omega
    · rw [if_neg (by omega)]
      omega
  · rw [if_neg written] at found
    have before := filled j slot found
    by_cases short : log.length < ring.capacity
    · rw [Nat.mod_eq_of_lt short] at headAt
      rw [if_pos (by omega), before]
      omega
    · rw [if_neg (by omega)]
      exact before

end RingBuffer

end Recent
