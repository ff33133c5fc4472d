import Mathlib.Data.List.Basic

/-! Left-right: two copies of a value, one that readers see and one that is written, and a
publish that swaps them. Operations are logged, and each is absorbed once by either copy,
by the second of them a publish later. -/
namespace LeftRight

universe u

/-- How a copy absorbs operations, given the other copy; `none` is a panic. Absorbing for the
second time is by default what it is for the first. -/
structure Absorb (T O : Type u) where
  absorbFirst : T → O → T → Option T
  syncWith : T → T → T

def Absorb.absorbSecond {T O : Type u} (a : Absorb T O) : T → O → T → Option T := a.absorbFirst

/-- The writer's side of a pair. `swapIndex` counts the logged operations that the readers'
copy has absorbed already. -/
@[ext] structure WriteHandle (T O : Type u) where
  reading : T
  writing : T
  oplog : List O
  swapIndex : Nat
  first : Bool
  second : Bool

namespace WriteHandle

variable {T O : Type u}

def new (default : T) : WriteHandle T O := ⟨default, default, [], 0, true, true⟩

/-- Before the first publish nobody reads the other copy, so nothing needs to be logged. -/
def append (a : Absorb T O) (w : WriteHandle T O) (op : O) : Option (WriteHandle T O) :=
  if w.first then (a.absorbFirst w.writing op w.reading).map (fun writing => { w with writing })
  else some { w with oplog := w.oplog ++ [op] }

/-- The stale copy as absorbing finds it: synced once, at the second publish. -/
def stale (a : Absorb T O) (w : WriteHandle T O) : T :=
  if w.second then a.syncWith w.writing w.reading else w.writing

def publish (a : Absorb T O) (w : WriteHandle T O) : Option (WriteHandle T O) :=
  if w.first then some { w with reading := w.writing, writing := w.reading, first := false }
  else do
    let caught ← (w.oplog.take w.swapIndex).foldlM
      (fun self op => a.absorbSecond self op w.reading) (w.stale a)
    let written ← (w.oplog.drop w.swapIndex).foldlM
      (fun self op => a.absorbFirst self op w.reading) caught
    pure {
      reading := written
      writing := w.reading
      oplog := w.oplog.drop w.swapIndex
      swapIndex := (w.oplog.drop w.swapIndex).length
      first := false
      second := false }

/-! Operations that always succeed and do not look at the other copy. -/

section Lag

variable {a : Absorb T O} {apply : T → O → T}

/-- The copies differ by exactly the logged operations that only the readers' copy has. -/
structure Lags (a : Absorb T O) (apply : T → O → T) (w : WriteHandle T O) : Prop where
  published : w.first = false
  within : w.swapIndex ≤ w.oplog.length
  lag : (w.oplog.take w.swapIndex).foldl apply (w.stale a) = w.reading

variable (plain : O → Prop)
  (absorbs : ∀ op, plain op → ∀ self other, a.absorbFirst self op other = some (apply self op))
include absorbs

theorem foldlM_absorb (ops : List O) (all : ∀ op ∈ ops, plain op) (self other : T) :
    ops.foldlM (fun self op => a.absorbFirst self op other) self = some (ops.foldl apply self) := by
  induction ops generalizing self with
  | nil => rfl
  | cons op rest ih =>
    rw [List.foldlM_cons, absorbs op (all op (by simp)), List.foldl_cons]
    exact ih (fun later member => all later (by simp [member])) (apply self op)

/-- A publish runs the unpublished operations on what readers saw, and swaps. -/
theorem Lags.publish {w : WriteHandle T O} (lags : Lags a apply w) (all : ∀ op ∈ w.oplog, plain op) :
    w.publish a = some {
      reading := (w.oplog.drop w.swapIndex).foldl apply w.reading
      writing := w.reading
      oplog := w.oplog.drop w.swapIndex
      swapIndex := (w.oplog.drop w.swapIndex).length
      first := false
      second := false } := by
  have caught := foldlM_absorb plain absorbs (w.oplog.take w.swapIndex)
    (fun op member => all op (List.mem_of_mem_take member)) (w.stale a) w.reading
  have written := foldlM_absorb plain absorbs (w.oplog.drop w.swapIndex)
    (fun op member => all op (List.mem_of_mem_drop member)) w.reading w.reading
  rw [lags.lag] at caught
  simp only [WriteHandle.publish, lags.published, Bool.false_eq_true, if_false, Absorb.absorbSecond,
    caught, written, Option.bind_eq_bind, Option.bind_some]
  rfl

omit absorbs in
theorem lags_published (reading : T) (ops : List O) :
    Lags a apply ⟨ops.foldl apply reading, reading, ops, ops.length, false, false⟩ where
  published := rfl
  within := Nat.le_refl _
  lag := by simp [stale]

omit absorbs in
theorem Lags.append {w : WriteHandle T O} (lags : Lags a apply w) (op : O) :
    w.append a op = some { w with oplog := w.oplog ++ [op] } ∧
      Lags a apply { w with oplog := w.oplog ++ [op] } := by
  refine ⟨by simp [WriteHandle.append, lags.published], lags.published, ?_, ?_⟩
  · have within := lags.within
    simp only [List.length_append, List.length_singleton]
    omega
  · rw [List.take_append_of_le_length lags.within]
    exact lags.lag

end Lag

/-! A journal kept beside each copy, of what `note` says of every operation it absorbs. -/

section Noting

variable {D : Type u}

def noting (a : Absorb T O) (note : T → O → Option D) : Absorb (T × List D) O where
  absorbFirst self op other :=
    (a.absorbFirst self.1 op other.1).map (fun next => (next, self.2 ++ (note self.1 op).toList))
  syncWith self first := (a.syncWith self.1 first.1, self.2)

def forget (w : WriteHandle (T × List D) O) : WriteHandle T O :=
  ⟨w.reading.1, w.writing.1, w.oplog, w.swapIndex, w.first, w.second⟩

variable (a : Absorb T O) (note : T → O → Option D)

theorem forget_foldlM (ops : List O) (self other : T × List D) :
    (ops.foldlM (fun self op => (noting a note).absorbFirst self op other) self).map Prod.fst =
      ops.foldlM (fun self op => a.absorbFirst self op other.1) self.1 := by
  induction ops generalizing self with
  | nil => rfl
  | cons op rest ih =>
    rw [List.foldlM_cons, List.foldlM_cons]
    simp only [noting]
    cases a.absorbFirst self.1 op other.1 with
    | none => rfl
    | some next => exact ih (next, self.2 ++ (note self.1 op).toList)

theorem forget_append (w : WriteHandle (T × List D) O) (op : O) :
    (w.append (noting a note) op).map forget = w.forget.append a op := by
  obtain ⟨reading, writing, oplog, swapIndex, first, second⟩ := w
  cases first with
  | false => rfl
  | true =>
    simp only [append, forget, noting, if_true]
    cases a.absorbFirst writing.1 op reading.1 <;> rfl

theorem forget_publish (w : WriteHandle (T × List D) O) :
    (w.publish (noting a note)).map forget = w.forget.publish a := by
  obtain ⟨reading, writing, oplog, swapIndex, first, second⟩ := w
  cases first with
  | true => rfl
  | false =>
    have synced :
        ((WriteHandle.mk reading writing oplog swapIndex false second).stale (noting a note)).1 =
        (WriteHandle.mk reading.1 writing.1 oplog swapIndex false second).stale a := by
      cases second <;> rfl
    have caught := forget_foldlM a note (oplog.take swapIndex)
      ((WriteHandle.mk reading writing oplog swapIndex false second).stale (noting a note)) reading
    simp only [publish, forget, Absorb.absorbSecond, Bool.false_eq_true, if_false]
    rw [← synced, ← caught]
    cases (oplog.take swapIndex).foldlM (fun self op => (noting a note).absorbFirst self op reading)
      ((WriteHandle.mk reading writing oplog swapIndex false second).stale (noting a note)) with
    | none => rfl
    | some next =>
      have written := forget_foldlM a note (oplog.drop swapIndex) next reading
      simp only [Option.map_some, Option.bind_eq_bind, Option.bind_some]
      rw [← written]
      cases (oplog.drop swapIndex).foldlM
        (fun self op => (noting a note).absorbFirst self op reading) next <;> rfl

end Noting

end WriteHandle

end LeftRight
