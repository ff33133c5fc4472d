import Mathlib.Data.List.Basic

/-! Entries with a mark between them and another behind the last, and the reader that takes
them apart again by means of a reader of one entry. -/
namespace Separated

variable {α C : Type}

def join (sep : C) : List (List C) → List C
  | [] => []
  | part :: parts => part ++ parts.flatMap (sep :: ·)

theorem length_le_marks (sep : C) (parts : List (List C)) :
    parts.length ≤ (parts.flatMap (sep :: ·)).length := by
  induction parts with
  | nil => exact Nat.le_refl _
  | cons part parts ih =>
    rw [List.flatMap_cons, List.length_append, List.length_cons, List.length_cons]
    omega

section Read

variable [DecidableEq C] (sep close : C) (entry : List C → Option (α × List C))

/-- What follows the first entry; the fuel bounds the number of marks. -/
def more : Nat → List C → Option (List α × List C)
  | fuel + 1, mark :: text =>
    if mark = close then some ([], text)
    else if mark = sep then do
      let (x, text) ← entry text
      let (xs, text) ← more fuel text
      some (x :: xs, text)
    else none
  | _, _ => none

def read (text : List C) : Option (List α × List C) :=
  if text.head? = some close then some ([], text.tail)
  else do
    let (x, rest) ← entry text
    let (xs, rest) ← more sep close entry rest.length rest
    some (x :: xs, rest)

variable {sep close entry} {write : α → List C}

omit [DecidableEq C] in
/-- The reader of entries stops at either mark, so at whatever follows an entry. -/
theorem entry_join {x : α}
    (stops : ∀ mark ∈ [sep, close], ∀ text,
      entry (write x ++ mark :: text) = some (x, mark :: text))
    (parts : List (List C)) (rest : List C) :
    entry (write x ++ (parts.flatMap (sep :: ·) ++ close :: rest)) =
      some (x, parts.flatMap (sep :: ·) ++ close :: rest) := by
  cases parts with
  | nil => exact stops close (by simp) rest
  | cons part parts => simpa using stops sep (by simp) (part ++ (parts.flatMap _ ++ close :: rest))

variable {xs : List α} (different : sep ≠ close)
  (reads : ∀ x ∈ xs, ∀ mark ∈ [sep, close], ∀ text,
    entry (write x ++ mark :: text) = some (x, mark :: text))

include different reads

theorem more_join {fuel : Nat} (enough : xs.length < fuel) (rest : List C) :
    more sep close entry fuel ((xs.map write).flatMap (sep :: ·) ++ close :: rest) =
      some (xs, rest) := by
  induction xs generalizing fuel with
  | nil =>
    obtain ⟨fuel, rfl⟩ := Nat.exists_eq_add_one.mpr enough
    simp [more]
  | cons x xs ih =>
    obtain ⟨fuel, rfl⟩ := Nat.exists_eq_add_one.mpr (Nat.zero_lt_of_lt enough)
    have here := entry_join (reads x List.mem_cons_self) (xs.map write) rest
    have later := ih (fun y member => reads y (List.mem_cons_of_mem x member))
      (Nat.lt_of_succ_lt_succ enough)
    simp [more, different, here, later]

/-- A list reads back if its entries do and none of them begins with the closing mark. -/
theorem read_join (starts : ∀ x ∈ xs, ∀ text, (write x ++ text).head? ≠ some close)
    (rest : List C) :
    read sep close entry (join sep (xs.map write) ++ close :: rest) = some (xs, rest) := by
  cases xs with
  | nil => simp [read, join]
  | cons x xs =>
    have here := entry_join (reads x List.mem_cons_self) (xs.map write) rest
    have marks : (xs.map write).length ≤ ((xs.map write).flatMap (sep :: ·)).length :=
      length_le_marks sep _
    have enough : xs.length < ((xs.map write).flatMap (sep :: ·) ++ close :: rest).length := by
      rw [List.length_map] at marks
      rw [List.length_append, List.length_cons]
      omega
    have later := more_join different (fun y member => reads y (List.mem_cons_of_mem x member))
      enough rest
    rw [List.map_cons, join, List.append_assoc, read, if_neg (starts x List.mem_cons_self _), here]
    simp only [Option.bind_eq_bind, Option.bind_some, later]

end Read

end Separated
