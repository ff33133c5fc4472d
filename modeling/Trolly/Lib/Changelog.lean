import Mathlib.Data.List.Induction
import Mathlib.Logic.Function.Basic
import Mathlib.Order.MinMax

/-! Replicas of a changing map that are fed with batches of absolute writes.
The map changes in numbered steps; a batch covers a range of steps and carries, for every
key changed in the range, its value at the end of the range. A replica that starts from a
copy of some state follows the map under overlap, stale batches and redelivery. -/
namespace Changelog

universe u v w

variable {K : Type u} {V : Type v}

/-- A map and the numbered absolute changes made to it, from change 1 on. -/
structure History (K : Type u) (V : Type v) where
  initial : K → V
  change : Nat → K × V

/-- A batch of absolute writes covering the changes `first` to `last`. -/
structure Batch (K : Type u) (V : Type v) where
  first : Nat
  last : Nat
  writes : List (K × V)

/-- Deliveries to a replica that starts at `s`: a contiguous chain that begins at or
before `s + 1`, mixed with stale batches and with batches delivered before. The second
index is the end of the chain so far. -/
inductive Delivery (s : Nat) : List (Batch K V) → Option Nat → Prop where
  | nothing : Delivery s [] none
  | first {batches batch} : Delivery s batches none → batch.first ≤ s + 1 →
      Delivery s (batches ++ [batch]) (some batch.last)
  | next {batches batch reached} : Delivery s batches (some reached) → batch.first = reached + 1 →
      Delivery s (batches ++ [batch]) (some batch.last)
  | stale {batches batch reached} : Delivery s batches reached → batch.last ≤ s →
      Delivery s (batches ++ [batch]) reached
  | again {batches batch reached} : Delivery s batches reached → batch ∈ batches →
      Delivery s (batches ++ [batch]) reached

def latest (s : Nat) (batches : List (Batch K V)) : Nat :=
  batches.foldl (fun id batch => max id batch.last) s

theorem latest_snoc (s : Nat) (batches : List (Batch K V)) (batch : Batch K V) :
    latest s (batches ++ [batch]) = max (latest s batches) batch.last := by
  simp [latest]

theorem le_latest (s : Nat) (batches : List (Batch K V)) :
    s ≤ latest s batches ∧ ∀ batch ∈ batches, batch.last ≤ latest s batches := by
  induction batches using List.reverseRecOn with
  | nil => simp [latest]
  | append_singleton batches batch ih =>
    rw [latest_snoc]
    refine ⟨le_max_of_le_left ih.1, fun other member => ?_⟩
    rcases List.mem_append.mp member with before | last
    · exact le_max_of_le_left (ih.2 other before)
    · rw [List.mem_singleton.mp last]
      exact le_max_right _ _

theorem Delivery.reached_le {s : Nat} {batches : List (Batch K V)} {reached : Option Nat}
    (delivery : Delivery s batches reached) : ∀ u, reached = some u → u ≤ latest s batches := by
  induction delivery with
  | nothing => intro u same; cases same
  | first _ _ | next _ _ _ =>
    rintro u ⟨⟩
    rw [latest_snoc]
    exact le_max_right _ _
  | stale _ _ ih | again _ _ ih =>
    intro u same
    rw [latest_snoc]
    exact le_max_of_le_left (ih u same)

/-- Every delivered batch joins a replica that stands at the latest number. -/
theorem Delivery.joins {s : Nat} {batches : List (Batch K V)} {batch : Batch K V}
    {reached : Option Nat} (delivery : Delivery s (batches ++ [batch]) reached) :
    (∃ before, Delivery s batches before) ∧
      (batch.first ≤ latest s batches + 1 ∨ batch.last ≤ latest s batches) := by
  generalize whole : batches ++ [batch] = all at delivery
  cases delivery with
  | nothing => cases batches <;> cases whole
  | first before start =>
    obtain ⟨rfl, same⟩ := List.append_inj' whole rfl
    cases same
    exact ⟨⟨_, before⟩, Or.inl (start.trans (Nat.succ_le_succ (le_latest s batches).1))⟩
  | next before start =>
    obtain ⟨rfl, same⟩ := List.append_inj' whole rfl
    cases same
    have reached := before.reached_le _ rfl
    exact ⟨⟨_, before⟩, Or.inl (by omega)⟩
  | stale before old =>
    obtain ⟨rfl, same⟩ := List.append_inj' whole rfl
    cases same
    exact ⟨⟨_, before⟩, Or.inr (old.trans (le_latest s batches).1)⟩
  | again before member =>
    obtain ⟨rfl, same⟩ := List.append_inj' whole rfl
    cases same
    exact ⟨⟨_, before⟩, Or.inr ((le_latest s batches).2 _ member)⟩

section Replicas

variable [DecidableEq K]

namespace History

def after (h : History K V) : Nat → K → V
  | 0 => h.initial
  | n + 1 => Function.update (h.after n) (h.change (n + 1)).1 (h.change (n + 1)).2

theorem after_untouched (h : History K V) {k : K} {a b : Nat} (le : a ≤ b)
    (untouched : ∀ n, a < n → n ≤ b → (h.change n).1 ≠ k) : h.after b k = h.after a k := by
  induction b, le using Nat.le_induction with
  | base => rfl
  | succ b le ih =>
    have other : k ≠ (h.change (b + 1)).1 :=
      fun same => untouched (b + 1) (Nat.lt_succ_of_le le) le_rfl same.symm
    rw [after, Function.update_of_ne other]
    exact ih (fun n above below => untouched n above (Nat.le_succ_of_le below))

end History

/-- The batch has an entry for every key changed in its range, and only values of its end. -/
structure Carries (h : History K V) (batch : Batch K V) : Prop where
  complete : ∀ n, batch.first ≤ n → n ≤ batch.last → ∃ v, ((h.change n).1, v) ∈ batch.writes
  exact : ∀ k v, (k, v) ∈ batch.writes → v = h.after batch.last k

def overwrite (m : K → V) (writes : List (K × V)) : K → V :=
  writes.foldl (fun m write => Function.update m write.1 write.2) m

theorem overwrite_append (m : K → V) (xs ys : List (K × V)) :
    overwrite m (xs ++ ys) = overwrite (overwrite m xs) ys := List.foldl_append

theorem overwrite_absent (m : K → V) {writes : List (K × V)} {k : K}
    (absent : ∀ v, (k, v) ∉ writes) : overwrite m writes k = m k := by
  induction writes generalizing m with
  | nil => rfl
  | cons write rest ih =>
    have other : k ≠ write.1 := by
      rintro rfl
      exact absent write.2 (by simp)
    rw [overwrite, List.foldl_cons, ← overwrite, ih _ (fun v member => absent v (by simp [member])),
      Function.update_of_ne other]

theorem overwrite_agreeing (m : K → V) {writes : List (K × V)} {k : K} {v : V}
    (present : ∃ w, (k, w) ∈ writes) (agree : ∀ w, (k, w) ∈ writes → w = v) :
    overwrite m writes k = v := by
  induction writes generalizing m with
  | nil => obtain ⟨w, member⟩ := present; cases member
  | cons write rest ih =>
    rw [overwrite, List.foldl_cons, ← overwrite]
    by_cases later : ∃ w, (k, w) ∈ rest
    · exact ih _ later (fun w member => agree w (by simp [member]))
    · obtain ⟨w, member⟩ := present
      rcases List.mem_cons.mp member with rfl | member
      · rw [overwrite_absent _ (fun w member => later ⟨w, member⟩), Function.update_self]
        exact agree w (by simp)
      · exact absurd ⟨w, member⟩ later

structure Replica (K : Type u) (V : Type v) where
  id : Nat
  values : K → V

def Replica.Copies (replica : Replica K V) (h : History K V) : Prop :=
  replica.values = h.after replica.id

def Replica.absorb (skip : Bool) (replica : Replica K V) (batch : Batch K V) : Replica K V :=
  if skip then replica else ⟨batch.last, overwrite replica.values batch.writes⟩

/-- What is known of a skip test: it skips batches from before, and no batch that is ahead. -/
structure SkipTest (skip : Bool) (batch : Batch K V) (id : Nat) : Prop where
  stale : batch.last < id → skip = true
  ahead : id < batch.last → skip = false

/-- One batch that leaves no gap, or brings nothing new, moves a copy to a copy. -/
theorem absorb_copies {h : History K V} {replica : Replica K V} {batch : Batch K V} {skip : Bool}
    (copies : replica.Copies h) (carries : Carries h batch) (test : SkipTest skip batch replica.id)
    (joins : batch.first ≤ replica.id + 1 ∨ batch.last ≤ replica.id) :
    (replica.absorb skip batch).Copies h ∧
      (replica.absorb skip batch).id = max replica.id batch.last := by
  cases skipped : skip with
  | true =>
    have behind : batch.last ≤ replica.id := by
      by_contra ahead
      have := test.ahead (Nat.lt_of_not_le ahead)
      simp [skipped] at this
    exact ⟨copies, (max_eq_left behind).symm⟩
  | false =>
    have fresh : replica.id ≤ batch.last := by
      by_contra stale
      have := test.stale (Nat.lt_of_not_le stale)
      simp [skipped] at this
    refine ⟨?_, (max_eq_right fresh).symm⟩
    funext k
    simp only [Replica.absorb, Bool.false_eq_true, if_false]
    by_cases present : ∃ v, (k, v) ∈ batch.writes
    · exact overwrite_agreeing _ present (fun v member => carries.exact k v member)
    · rw [overwrite_absent _ (fun v member => present ⟨v, member⟩), copies]
      refine (h.after_untouched fresh (fun n above below same => ?_)).symm
      have first : batch.first ≤ n := by omega
      obtain ⟨v, member⟩ := carries.complete n first below
      exact present ⟨v, same ▸ member⟩

def run {U : Type w} (batch : U → Batch K V) (skip : U → Nat → Bool) (replica : Replica K V)
    (updates : List U) : Replica K V :=
  updates.foldl (fun replica u => replica.absorb (skip u replica.id) (batch u)) replica

/-- Whatever the delivery, a replica that starts as a copy of state `s` ends as a copy of
the latest state delivered. -/
theorem run_copies {U : Type w} {batch : U → Batch K V} {skip : U → Nat → Bool} {h : History K V}
    {replica : Replica K V} (copies : replica.Copies h) {updates : List U} {reached : Option Nat}
    (delivery : Delivery replica.id (updates.map batch) reached)
    (carries : ∀ u ∈ updates, Carries h (batch u))
    (tests : ∀ u ∈ updates, ∀ id, SkipTest (skip u id) (batch u) id) :
    (run batch skip replica updates).Copies h ∧
      (run batch skip replica updates).id = latest replica.id (updates.map batch) := by
  induction updates using List.reverseRecOn generalizing reached with
  | nil => exact ⟨copies, rfl⟩
  | append_singleton updates u ih =>
    rw [List.map_append, List.map_singleton] at delivery ⊢
    obtain ⟨⟨before, earlier⟩, joins⟩ := delivery.joins
    obtain ⟨held, stands⟩ := ih earlier (fun v member => carries v (by simp [member]))
      (fun v member => tests v (by simp [member]))
    have last : run batch skip replica (updates ++ [u]) =
        (run batch skip replica updates).absorb (skip u (run batch skip replica updates).id)
          (batch u) := by
      simp [run]
    rw [last, latest_snoc, ← stands]
    exact absorb_copies held (carries u (by simp)) (tests u (by simp) _) (stands ▸ joins)

/-! Deliveries with gaps: what is delivered may lack batches, come late or come again. Each
value is then as old as the last batch in time that wrote it. -/

/-- The batches that were ahead of everything delivered before them. -/
def advancing (s : Nat) : List (Batch K V) → List (Batch K V)
  | [] => []
  | batch :: rest =>
    if s < batch.last then batch :: advancing batch.last rest else advancing s rest

omit [DecidableEq K] in
theorem advancing_snoc (s : Nat) (batches : List (Batch K V)) (batch : Batch K V) :
    advancing s (batches ++ [batch]) =
      advancing s batches ++ if latest s batches < batch.last then [batch] else [] := by
  induction batches generalizing s with
  | nil => rfl
  | cons first rest ih =>
    rw [List.cons_append, advancing, advancing]
    by_cases ahead : s < first.last
    · have later : latest s (first :: rest) = latest first.last rest := by
        simp [latest, max_eq_right (Nat.le_of_lt ahead)]
      rw [if_pos ahead, if_pos ahead, ih, List.cons_append, later]
    · have later : latest s (first :: rest) = latest s rest := by
        simp [latest, max_eq_left (Nat.le_of_not_lt ahead)]
      rw [if_neg ahead, if_neg ahead, ih, later]

omit [DecidableEq K] in
theorem advancing_sublist (s : Nat) (batches : List (Batch K V)) :
    (advancing s batches).Sublist batches := by
  induction batches generalizing s with
  | nil => exact .slnil
  | cons first rest ih =>
    rw [advancing]
    split_ifs
    · exact (ih first.last).cons_cons first
    · exact (ih s).cons first

omit [DecidableEq K] in
theorem advancing_le {s : Nat} {batches : List (Batch K V)} {batch : Batch K V}
    (member : batch ∈ advancing s batches) : batch.last ≤ latest s batches :=
  (le_latest s batches).2 batch ((advancing_sublist s batches).subset member)

/-- A value is the map's own at its stamp, which no batch in time for the key is newer than. -/
structure Stamped (h : History K V) (s : Nat) (batches : List (Batch K V)) (replica : Replica K V)
    (k : K) (stamp : Nat) : Prop where
  above : s ≤ stamp
  below : stamp ≤ replica.id
  value : replica.values k = h.after stamp k
  newest : ∀ batch ∈ advancing s batches, (∃ v, (k, v) ∈ batch.writes) → batch.last ≤ stamp

theorem absorb_latest (replica : Replica K V) {batch : Batch K V} {skip : Bool}
    (test : SkipTest skip batch replica.id) :
    (skip = true → batch.last ≤ replica.id) ∧ (skip = false → replica.id ≤ batch.last) ∧
      (replica.absorb skip batch).id = max replica.id batch.last := by
  cases skip with
  | true =>
    have behind : batch.last ≤ replica.id := by
      by_contra ahead
      cases test.ahead (Nat.lt_of_not_le ahead)
    exact ⟨fun _ => behind, fun no => (by cases no), (max_eq_left behind).symm⟩
  | false =>
    have fresh : replica.id ≤ batch.last := by
      by_contra stale
      cases test.stale (Nat.lt_of_not_le stale)
    exact ⟨fun no => (by cases no), fun _ => fresh, (max_eq_right fresh).symm⟩

theorem run_snoc {U : Type w} (batch : U → Batch K V) (skip : U → Nat → Bool)
    (replica : Replica K V) (updates : List U) (u : U) :
    run batch skip replica (updates ++ [u]) =
      (run batch skip replica updates).absorb (skip u (run batch skip replica updates).id)
        (batch u) := by
  simp [run]

theorem run_latest {U : Type w} {batch : U → Batch K V} {skip : U → Nat → Bool}
    (replica : Replica K V) (updates : List U)
    (tests : ∀ u ∈ updates, ∀ id, SkipTest (skip u id) (batch u) id) :
    (run batch skip replica updates).id = latest replica.id (updates.map batch) := by
  induction updates using List.reverseRecOn with
  | nil => rfl
  | append_singleton updates u ih =>
    rw [run_snoc, (absorb_latest _ (tests u (by simp) _)).2.2,
      ih (fun v member => tests v (by simp [member])), List.map_append, List.map_singleton,
      latest_snoc]

theorem absorb_stamped {h : History K V} {s : Nat} {batches : List (Batch K V)}
    {replica : Replica K V} {batch : Batch K V} {skip : Bool}
    (stands : replica.id = latest s batches)
    (exact : ∀ k v, (k, v) ∈ batch.writes → v = h.after batch.last k)
    (test : SkipTest skip batch replica.id) {k : K} {stamp : Nat}
    (stamped : Stamped h s batches replica k stamp) :
    ∃ stamp, Stamped h s (batches ++ [batch]) (replica.absorb skip batch) k stamp := by
  obtain ⟨behind, fresh, _⟩ := absorb_latest replica test
  cases skip with
  | true =>
    have old := behind rfl
    refine ⟨stamp, stamped.above, stamped.below, stamped.value, ?_⟩
    rw [advancing_snoc, if_neg (by omega), List.append_nil]
    exact stamped.newest
  | false =>
    have ahead := fresh rfl
    simp only [Replica.absorb, Bool.false_eq_true, if_false]
    by_cases present : ∃ v, (k, v) ∈ batch.writes
    · refine ⟨batch.last, stamped.above.trans (stamped.below.trans ahead), Nat.le_refl _, ?_, ?_⟩
      · exact overwrite_agreeing _ present (fun v member => exact k v member)
      · intro other member _
        have bound := advancing_le member
        rw [latest_snoc, ← stands, max_eq_right ahead] at bound
        exact bound
    · refine ⟨stamp, stamped.above, stamped.below.trans ahead, ?_, ?_⟩
      · rw [← stamped.value]
        exact overwrite_absent _ (fun v member => present ⟨v, member⟩)
      · intro other member writes
        rw [advancing_snoc, List.mem_append] at member
        rcases member with earlier | own
        · exact stamped.newest other earlier writes
        · split_ifs at own
          · cases List.mem_singleton.mp own
            exact absurd writes present
          · cases own

/-- Whatever is delivered, in whatever order: every value is the map's own at some stamp. -/
theorem run_stamped {U : Type w} {batch : U → Batch K V} {skip : U → Nat → Bool} {h : History K V}
    {replica : Replica K V} (copies : replica.Copies h) (updates : List U)
    (exact : ∀ u ∈ updates, ∀ k v, (k, v) ∈ (batch u).writes → v = h.after (batch u).last k)
    (tests : ∀ u ∈ updates, ∀ id, SkipTest (skip u id) (batch u) id) (k : K) :
    ∃ stamp, Stamped h replica.id (updates.map batch) (run batch skip replica updates) k stamp := by
  induction updates using List.reverseRecOn with
  | nil =>
    refine ⟨replica.id, Nat.le_refl _, Nat.le_refl _, congrFun copies k, ?_⟩
    intro batch member
    cases member
  | append_singleton updates u ih =>
    have before : ∀ v ∈ updates, ∀ id, SkipTest (skip v id) (batch v) id :=
      fun v member => tests v (by simp [member])
    obtain ⟨stamp, stamped⟩ := ih (fun v member => exact v (by simp [member])) before
    rw [run_snoc, List.map_append, List.map_singleton]
    exact absorb_stamped (run_latest replica updates before) (exact u (by simp))
      (tests u (by simp) _) stamped

/-- A value is exact when every change to its key was brought by a batch in time. -/
theorem Stamped.exact {h : History K V} {s : Nat} {batches : List (Batch K V)}
    {replica : Replica K V} {k : K} {stamp : Nat} (stamped : Stamped h s batches replica k stamp)
    (carries : ∀ batch ∈ batches, Carries h batch)
    (brought : ∀ n, s < n → n ≤ replica.id → (h.change n).1 = k →
      ∃ batch ∈ advancing s batches, batch.first ≤ n ∧ n ≤ batch.last) :
    replica.values k = h.after replica.id k := by
  rw [stamped.value]
  refine (h.after_untouched stamped.below (fun n above below same => ?_)).symm
  obtain ⟨batch, ahead, first, last⟩ :=
    brought n (Nat.lt_of_le_of_lt stamped.above above) below same
  have member := (advancing_sublist s batches).subset ahead
  obtain ⟨v, written⟩ := (carries batch member).complete n first last
  have newer := stamped.newest batch ahead ⟨v, same ▸ written⟩
  omega

end Replicas

end Changelog
