import Trolly.Gym.Env
import Trolly.Lib.PartialRun

/-! The replay buffer and the buffer of raw frames over any number of pushes: where the head
stands, which slots are filled, and what a snapshot returns. -/
namespace Trolly.Gym

open Recent

/-- `FeatureRingBuffer`: the ring of `ReplayBuffer` over frames of the stream. -/
abbrev FeatureRingBuffer (F : Type) := RingBuffer (FeatureVector F)

variable {α : Type} {F : Type}

/-- A ring after some pushes, by its fields and by what it returns. -/
structure Pushed (capacity : Nat) (pushes : List α) (ring : RingBuffer α) : Prop where
  sized : ring.capacity = capacity
  slots : ring.slots.length = capacity
  head : ring.head = pushes.length % capacity
  len : ring.len = min pushes.length capacity
  filled : ring.Filled
  complete : ring.snapshot.length = ring.len
  snapshot : ring.snapshot = last ring.len pushes

theorem last_min (n : Nat) (log : List α) : last (min log.length n) log = last n log := by
  rw [last, last]
  congr 1
  omega

theorem pushed_of_holds {ring : RingBuffer α} {pushes : List α} (holds : ring.Holds pushes)
    (filled : ring.Filled) : Pushed ring.capacity pushes ring where
  sized := rfl
  slots := holds.slots
  head := holds.head
  len := by rw [holds.len, Nat.min_comm]
  filled := filled
  complete := holds.length_snapshot
  snapshot := by rw [holds.snapshot, holds.len, Nat.min_comm, last_min]

theorem run_push {capacity : Nat} (positive : 0 < capacity) (pushes : List α) :
    ∃ ring, PartialRun.run RingBuffer.push (.new capacity) pushes = some ring ∧
      ring.capacity = capacity ∧ ring.Holds pushes ∧ ring.Filled := by
  induction pushes using List.reverseRecOn with
  | nil =>
    exact ⟨_, rfl, rfl, RingBuffer.new_holds positive, RingBuffer.new_filled capacity⟩
  | append_singleton pushes x ih =>
    obtain ⟨ring, ran, sized, holds, filled⟩ := ih
    obtain ⟨next, stepped, same, kept⟩ := holds.push x
    refine ⟨next, ?_, same.trans sized, kept, filled.push holds stepped⟩
    rw [PartialRun.run_snoc, ran]
    exact stepped

theorem pushed_ring {capacity : Nat} (positive : 0 < capacity) (pushes : List α) :
    ∃ ring, PartialRun.run RingBuffer.push (.new capacity) pushes = some ring ∧
      Pushed capacity pushes ring := by
  obtain ⟨ring, ran, rfl, holds, filled⟩ := run_push positive pushes
  exact ⟨ring, ran, pushed_of_holds holds filled⟩

/-- Both buffers, for every sequence of pushes. -/
theorem ring_buffers_hold_the_latest {capacity : Nat} (positive : 1 ≤ capacity) :
    (∀ transitions : List (Transition F), ∃ replay : ReplayBuffer F,
      PartialRun.run RingBuffer.push (.new capacity) transitions = some replay ∧
      Pushed capacity transitions replay) ∧
    (∀ frames : List (FeatureVector F), ∃ ring : FeatureRingBuffer F,
      PartialRun.run RingBuffer.push (.new capacity) frames = some ring ∧
      Pushed capacity frames ring) :=
  ⟨pushed_ring positive, pushed_ring positive⟩

theorem ring_buffers_of_two_slots :
    (∀ transitions : List (Transition Int), ∃ replay : ReplayBuffer Int,
      PartialRun.run RingBuffer.push (.new 2) transitions = some replay ∧
      Pushed 2 transitions replay) ∧
    (∀ frames : List (FeatureVector Int), ∃ ring : FeatureRingBuffer Int,
      PartialRun.run RingBuffer.push (.new 2) frames = some ring ∧ Pushed 2 frames ring) :=
  ring_buffers_hold_the_latest (by decide)

end Trolly.Gym
