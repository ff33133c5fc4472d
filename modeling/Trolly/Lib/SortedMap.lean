import Mathlib.Order.Lattice

/-! Maps kept as their entries in ascending order of the keys, so that equal maps have
equal entries and iteration needs no sorting. -/

structure SortedMap (κ ν : Type) [LinearOrder κ] where
  entries : List (κ × ν)
  ascending : entries.Pairwise (fun a b => a.1 < b.1)

namespace SortedMap

variable {κ ν : Type} [LinearOrder κ]

def insertEntry (key : κ) (value : ν) : List (κ × ν) → List (κ × ν)
  | [] => [(key, value)]
  | head :: rest =>
    if key < head.1 then (key, value) :: head :: rest
    else if key = head.1 then (key, value) :: rest
    else head :: insertEntry key value rest

theorem mem_insertEntry {key : κ} {value : ν} {rest : List (κ × ν)} {entry : κ × ν}
    (member : entry ∈ insertEntry key value rest) : entry = (key, value) ∨ entry ∈ rest := by
  induction rest with
  | nil => exact .inl (List.mem_singleton.1 member)
  | cons head rest ih =>
    rw [insertEntry] at member
    split_ifs at member
    · exact List.mem_cons.1 member
    · exact (List.mem_cons.1 member).imp_right (List.mem_cons_of_mem _)
    · rcases List.mem_cons.1 member with rfl | later
      · exact .inr List.mem_cons_self
      · exact (ih later).imp_right (List.mem_cons_of_mem _)

theorem mem_insertEntry_of_ne {key : κ} {value : ν} {rest : List (κ × ν)} {entry : κ × ν}
    (other : entry.1 ≠ key) (member : entry ∈ rest) : entry ∈ insertEntry key value rest := by
  induction rest with
  | nil => cases member
  | cons head rest ih =>
    rw [insertEntry]
    split_ifs with before same
    · exact .tail _ member
    · rcases List.mem_cons.1 member with rfl | later
      · exact absurd same.symm other
      · exact .tail _ later
    · rcases List.mem_cons.1 member with rfl | later
      · exact .head _
      · exact .tail _ (ih later)

theorem insertEntry_ascending (key : κ) (value : ν) {entries : List (κ × ν)}
    (ascending : entries.Pairwise (fun a b => a.1 < b.1)) :
    (insertEntry key value entries).Pairwise (fun a b => a.1 < b.1) := by
  induction entries with
  | nil => exact List.pairwise_singleton ..
  | cons head rest ih =>
    obtain ⟨above, tail⟩ := List.pairwise_cons.1 ascending
    rw [insertEntry]
    split_ifs with before same
    · refine List.pairwise_cons.2 ⟨fun entry member => ?_, ascending⟩
      rcases List.mem_cons.1 member with rfl | later
      · exact before
      · exact before.trans (above entry later)
    · exact List.pairwise_cons.2 ⟨fun entry later => same ▸ above entry later, tail⟩
    · refine List.pairwise_cons.2 ⟨fun entry member => ?_, ih tail⟩
      rcases mem_insertEntry member with rfl | old
      · exact lt_of_le_of_ne (not_lt.1 before) (Ne.symm same)
      · exact above entry old

/-- A key that is filtered out again leaves the entries as they were before it was inserted. -/
theorem filter_insertEntry {key : κ} {value : ν} {entries : List (κ × ν)} (keep : κ → Bool)
    (dropped : keep key = false) (kept : ∀ entry ∈ entries, keep entry.1 = true) :
    (insertEntry key value entries).filter (fun entry => keep entry.1) = entries := by
  induction entries with
  | nil => simp [insertEntry, dropped]
  | cons head rest ih =>
    obtain ⟨first, later⟩ := List.forall_mem_cons.1 kept
    have fresh : key ≠ head.1 := by
      rintro rfl
      rw [dropped] at first
      cases first
    rw [insertEntry, if_neg fresh]
    split_ifs with before
    · simp only [List.filter_cons, dropped, first, List.filter_eq_self.2 later]
      rfl
    · simp only [List.filter_cons, first, ih later]
      rfl

theorem insertEntry_keys {key : κ} {value value' : ν} {entries others : List (κ × ν)}
    (same : entries.map Prod.fst = others.map Prod.fst) :
    (insertEntry key value entries).map Prod.fst =
      (insertEntry key value' others).map Prod.fst := by
  induction entries generalizing others with
  | nil =>
    rw [List.map_eq_nil_iff.1 same.symm]
    rfl
  | cons head rest ih =>
    cases others with
    | nil => cases same
    | cons head' rest' =>
      rw [List.map_cons, List.map_cons, List.cons.injEq] at same
      rw [insertEntry, insertEntry, same.1]
      split_ifs
      · simp [same.1, same.2]
      · simp [same.2]
      · simp [same.1, ih same.2]

theorem insertEntry_append {key : κ} (value : ν) (front back : List (κ × ν)) {last : κ × ν}
    (before : key < last.1) :
    insertEntry key value (front ++ last :: back) = insertEntry key value front ++ last :: back := by
  induction front with
  | nil => simp only [List.nil_append, insertEntry, if_pos before, List.singleton_append]
  | cons head rest ih =>
    rw [List.cons_append, insertEntry, insertEntry, ih]
    split_ifs <;> rfl

instance : EmptyCollection (SortedMap κ ν) := ⟨⟨[], List.Pairwise.nil⟩⟩

def insert (m : SortedMap κ ν) (key : κ) (value : ν) : SortedMap κ ν :=
  ⟨insertEntry key value m.entries, insertEntry_ascending key value m.ascending⟩

theorem insertEntry_nil (key : κ) (value : ν) : insertEntry key value [] = [(key, value)] := rfl

theorem insertEntry_before {key next : κ} (before : key < next) (value other : ν)
    (rest : List (κ × ν)) :
    insertEntry key value ((next, other) :: rest) = (key, value) :: (next, other) :: rest := by
  rw [insertEntry, if_pos before]

theorem insertEntry_after {key next : κ} (after : next < key) (value other : ν)
    (rest : List (κ × ν)) :
    insertEntry key value ((next, other) :: rest) = (next, other) :: insertEntry key value rest := by
  rw [insertEntry, if_neg after.not_gt, if_neg after.ne']

theorem insertEntry_same (key : κ) (value other : ν) (rest : List (κ × ν)) :
    insertEntry key value ((key, other) :: rest) = (key, value) :: rest := by
  rw [insertEntry, if_neg (lt_irrefl key), if_pos rfl]

@[simp] theorem entries_empty : (∅ : SortedMap κ ν).entries = [] := rfl

@[simp] theorem entries_insert (m : SortedMap κ ν) (key : κ) (value : ν) :
    (m.insert key value).entries = insertEntry key value m.entries := rfl

theorem keys_nodup (m : SortedMap κ ν) : (m.entries.map Prod.fst).Nodup :=
  List.pairwise_map.2 (m.ascending.imp ne_of_lt)

theorem ext_entries {m n : SortedMap κ ν} (same : m.entries = n.entries) : m = n := by
  cases m
  cases n
  congr

end SortedMap
