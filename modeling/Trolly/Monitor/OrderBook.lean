import Mathlib.Algebra.Ring.Nat
import Trolly.Monitor.Lob

/-! One live book: it is initialized with a REST snapshot and then absorbs the depth
updates of the stream, which may start before the snapshot and be delivered again. -/
namespace Trolly.Monitor

open Changelog

variable {P Q : Type}

inductive Operations (lob : Lob P Q) where
  | update (update : DepthUpdate P Q)
  | initializeBook (book : lob.Book)

namespace Lob

variable (lob : Lob P Q)

/-- The body of the `Update` branch of `absorb_first`. -/
def absorbUpdate (self : lob.Book) (update : DepthUpdate P Q) : lob.Book :=
  if lob.skipUpdate update (lob.updateId self) then self
  else
    let self := update.bids.foldl lob.addBid self
    let self := update.asks.foldl lob.addAsk self
    lob.setUpdateId self update.lastUpdateId

/-- `absorb_first`; a failed assertion is `none`. -/
def absorbFirst (self : lob.Book) (operation : Operations lob) (other : lob.Book) :
    Option lob.Book :=
  match operation with
  | .update update => some (lob.absorbUpdate self update)
  | .initializeBook book =>
    if self = lob.default ∧ other = lob.default then some (lob.extend self book) else none

/-- Operations absorbed in order, each with whatever the other copy then holds. -/
def absorbAll (self : lob.Book) (operations : List (Operations lob × lob.Book)) : Option lob.Book :=
  operations.foldlM (fun self (operation, other) => lob.absorbFirst self operation other) self

def replica (book : lob.Book) : Replica (Side × P) Q := ⟨lob.updateId book, lob.levels book⟩

variable {lob}

theorem absorbAll_updates (book : lob.Book) (updates : List (DepthUpdate P Q × lob.Book)) :
    lob.absorbAll book (updates.map (fun (update, other) => (.update update, other))) =
      some ((updates.map Prod.fst).foldl lob.absorbUpdate book) := by
  induction updates generalizing book with
  | nil => rfl
  | cons update rest ih => exact ih (lob.absorbUpdate book update.1)

theorem absorbFirst_initializeBook (extending : lob.ExtendsDefault) (snapshot : lob.Book) :
    lob.absorbFirst lob.default (.initializeBook snapshot) lob.default = some snapshot := by
  simp [absorbFirst, extending snapshot]

theorem absorbAll_initializeBook (extending : lob.ExtendsDefault) (snapshot : lob.Book)
    (updates : List (DepthUpdate P Q × lob.Book)) :
    lob.absorbAll lob.default ((.initializeBook snapshot, lob.default) ::
        updates.map (fun (update, other) => (.update update, other))) =
      some ((updates.map Prod.fst).foldl lob.absorbUpdate snapshot) := by
  rw [← absorbAll_updates]
  exact congrArg (Option.bind · _) (absorbFirst_initializeBook extending snapshot)

section Replicas

variable [DecidableEq P]

theorem SetsLevels.foldl_writes (side : Side) {add : lob.Book → P × Q → lob.Book}
    (sets : ∀ book level,
      lob.levels (add book level) = Function.update (lob.levels book) (side, level.1) level.2)
    (levels : List (P × Q)) (book : lob.Book) :
    lob.levels (levels.foldl add book) =
      overwrite (lob.levels book) (levels.map (fun level => ((side, level.1), level.2))) := by
  induction levels generalizing book with
  | nil => rfl
  | cons level rest ih =>
    rw [List.foldl_cons, ih, sets]
    rfl

theorem replica_absorbUpdate (field : lob.UpdateIdField) (sets : lob.SetsLevels)
    (book : lob.Book) (update : DepthUpdate P Q) :
    lob.replica (lob.absorbUpdate book update) =
      (lob.replica book).absorb (lob.skipUpdate update (lob.updateId book)) update.batch := by
  cases skipped : lob.skipUpdate update (lob.updateId book) with
  | true => simp [absorbUpdate, Replica.absorb, skipped]
  | false =>
    simp only [absorbUpdate, Replica.absorb, skipped, Bool.false_eq_true, if_false, replica,
      field.updateId_set, field.levels_set, SetsLevels.foldl_writes .bid sets.addBid,
      SetsLevels.foldl_writes .ask sets.addAsk, DepthUpdate.batch, overwrite_append]

theorem replica_foldl (field : lob.UpdateIdField) (sets : lob.SetsLevels)
    (updates : List (DepthUpdate P Q)) (book : lob.Book) :
    lob.replica (updates.foldl lob.absorbUpdate book) =
      run DepthUpdate.batch lob.skipUpdate (lob.replica book) updates := by
  induction updates generalizing book with
  | nil => rfl
  | cons update rest ih =>
    rw [List.foldl_cons, ih, replica_absorbUpdate field sets]
    rfl

/-- Whatever the exchange history, the snapshot and the delivery: the book stands at the
latest update delivered, and both its sides are the exchange's at that change. -/
theorem book_follows_exchange (field : lob.UpdateIdField) (sets : lob.SetsLevels)
    (skips : lob.SkipsStale) (extending : lob.ExtendsDefault) (exchange : History (Side × P) Q)
    {snapshot : lob.Book} (copied : lob.levels snapshot = exchange.after (lob.updateId snapshot))
    {updates : List (DepthUpdate P Q × lob.Book)} {reached : Option Nat}
    (delivery : Delivery (lob.updateId snapshot)
      ((updates.map Prod.fst).map DepthUpdate.batch) reached)
    (carries : ∀ update ∈ updates.map Prod.fst, Carries exchange update.batch) :
    ∃ book, lob.absorbAll lob.default ((.initializeBook snapshot, lob.default) ::
          updates.map (fun (update, other) => (.update update, other))) = some book ∧
      lob.updateId book =
        latest (lob.updateId snapshot) ((updates.map Prod.fst).map DepthUpdate.batch) ∧
      lob.levels book = exchange.after (lob.updateId book) := by
  refine ⟨_, absorbAll_initializeBook extending snapshot updates, ?_⟩
  have start : (lob.replica snapshot).Copies exchange := copied
  obtain ⟨follows, stands⟩ := run_copies start delivery carries
    (fun update _ id => skips.test update id)
  rw [← replica_foldl field sets] at follows stands
  exact ⟨stands, follows⟩

/-- What is left of a book over a delivery with gaps: every level is the exchange's own, of some
change that no update in time for the level is newer than. -/
structure Survives (exchange : History (Side × P) Q) (start : Nat)
    (batches : List (Batch (Side × P) Q)) (book : lob.Book) : Prop where
  newest : lob.updateId book = latest start batches
  aged : ∀ k, ∃ stamp, start ≤ stamp ∧ stamp ≤ lob.updateId book ∧
    lob.levels book k = exchange.after stamp k ∧
    ∀ batch ∈ advancing start batches, (∃ q, (k, q) ∈ batch.writes) → batch.last ≤ stamp
  current : ∀ k, (∀ n, start < n → n ≤ lob.updateId book → (exchange.change n).1 = k →
      ∃ batch ∈ advancing start batches, batch.first ≤ n ∧ n ≤ batch.last) →
    lob.levels book k = exchange.after (lob.updateId book) k

/-- The book does not look for gaps. Whatever updates are delivered, in whatever order, it stands
at the latest; a level whose changes all were brought in time is the exchange's, and any other
is what the exchange's was. -/
theorem book_survives_losses (field : lob.UpdateIdField) (sets : lob.SetsLevels)
    (skips : lob.SkipsStale) (extending : lob.ExtendsDefault) (exchange : History (Side × P) Q)
    {snapshot : lob.Book} (copied : lob.levels snapshot = exchange.after (lob.updateId snapshot))
    (updates : List (DepthUpdate P Q × lob.Book))
    (carries : ∀ update ∈ updates.map Prod.fst, Carries exchange update.batch) :
    ∃ book, lob.absorbAll lob.default ((.initializeBook snapshot, lob.default) ::
          updates.map (fun (update, other) => (.update update, other))) = some book ∧
      Survives exchange (lob.updateId snapshot)
        ((updates.map Prod.fst).map DepthUpdate.batch) book := by
  refine ⟨_, absorbAll_initializeBook extending snapshot updates, ?_⟩
  have start : (lob.replica snapshot).Copies exchange := copied
  have tests : ∀ update ∈ updates.map Prod.fst, ∀ id,
      SkipTest (lob.skipUpdate update id) update.batch id := fun update _ id => skips.test update id
  have stamped := run_stamped start (updates.map Prod.fst)
    (fun update member => (carries update member).exact) tests
  have latest := run_latest (lob.replica snapshot) (updates.map Prod.fst) tests
  rw [← replica_foldl field sets] at latest stamped
  refine ⟨latest, fun k => ?_, fun k brought => ?_⟩
  · obtain ⟨stamp, held⟩ := stamped k
    exact ⟨stamp, held.above, held.below, held.value, held.newest⟩
  · obtain ⟨stamp, held⟩ := stamped k
    exact held.exact (List.forall_mem_map.mpr carries) brought

end Replicas

/-! An exchange whose change `n` sets one of two bids to `n`. -/

def twoBids : History (Side × Nat) Nat := ⟨fun _ => 0, fun n => ((.bid, n % 2), n)⟩

def bidUpdate (first last : Nat) (bids : List (Nat × Nat)) : DepthUpdate Nat Nat :=
  ⟨"BTCUSDT", 0, first, last, none, bids, []⟩

/-- A snapshot at change 1, an update that overlaps it, the next one, and the first again. -/
theorem book_follows_two_bids :
    let lob := levelBooks Nat Nat
    let snapshot : lob.Book := ⟨1, [((.bid, 1), 1)]⟩
    let overlap := bidUpdate 1 2 [(1, 1), (0, 2)]
    let next := bidUpdate 3 3 [(1, 3)]
    ∃ book, lob.absorbAll lob.default [(.initializeBook snapshot, lob.default),
        (.update overlap, lob.default), (.update next, lob.default), (.update overlap, snapshot)] =
          some book ∧
      lob.updateId book = 3 ∧ lob.levels book = twoBids.after (lob.updateId book) := by
  intro lob snapshot overlap next
  let delivered := [(overlap, lob.default), (next, lob.default), (overlap, snapshot)]
  have delivery : Delivery (lob.updateId snapshot)
      ((delivered.map Prod.fst).map DepthUpdate.batch) (some 3) :=
    .again (.next (.first .nothing (by decide)) rfl) (.head _)
  have overlapCarries : Carries twoBids overlap.batch := by
    refine ⟨fun n low high => ?_, fun k v member => ?_⟩
    · obtain rfl | rfl : n = 1 ∨ n = 2 := by
        simp only [overlap, bidUpdate, DepthUpdate.batch] at low high
        omega
      · exact ⟨1, .head _⟩
      · exact ⟨2, .tail _ (.head _)⟩
    · simp only [overlap, bidUpdate, DepthUpdate.batch, List.map_cons, List.map_nil, List.append_nil,
        List.mem_cons, Prod.mk.injEq, List.not_mem_nil, or_false] at member
      rcases member with ⟨rfl, rfl⟩ | ⟨rfl, rfl⟩ <;> rfl
  have nextCarries : Carries twoBids next.batch := by
    refine ⟨fun n low high => ?_, fun k v member => ?_⟩
    · obtain rfl : n = 3 := Nat.le_antisymm high low
      exact ⟨3, .head _⟩
    · simp only [next, bidUpdate, DepthUpdate.batch, List.map_cons, List.map_nil, List.append_nil,
        List.mem_singleton, Prod.mk.injEq] at member
      obtain ⟨rfl, rfl⟩ := member
      rfl
  have copied : lob.levels snapshot = twoBids.after (lob.updateId snapshot) := rfl
  have carries : ∀ update ∈ delivered.map Prod.fst, Carries twoBids update.batch := by
    intro update member
    simp only [delivered, List.map_cons, List.map_nil, List.mem_cons, List.not_mem_nil, or_false] at member
    rcases member with rfl | rfl | rfl
    · exact overlapCarries
    · exact nextCarries
    · exact overlapCarries
  exact book_follows_exchange (levelBooks_updateIdField _ _) (levelBooks_setsLevels _ _)
    (levelBooks_skipsStale _ _) (levelBooks_extendsDefault _ _) twoBids copied delivery carries

/-- Change 2 is lost; the level of change 3 is exact all the same. -/
theorem book_survives_lost_update :
    let lob := levelBooks Nat Nat
    let snapshot : lob.Book := ⟨1, [((.bid, 1), 1)]⟩
    let delivered := [(bidUpdate 3 3 [(1, 3)], lob.default)]
    ∃ book, lob.absorbAll lob.default ((.initializeBook snapshot, lob.default) ::
          delivered.map (fun (update, other) => (.update update, other))) = some book ∧
      Survives twoBids 1 [(bidUpdate 3 3 [(1, 3)]).batch] book ∧
      lob.levels book (.bid, 1) = twoBids.after 3 (.bid, 1) := by
  intro lob snapshot delivered
  have carries : ∀ update ∈ delivered.map Prod.fst, Carries twoBids update.batch := by
    simp only [delivered, List.map_cons, List.map_nil, List.forall_mem_singleton]
    refine ⟨fun n low high => ?_, fun k v member => ?_⟩
    · obtain rfl : n = 3 := Nat.le_antisymm high low
      exact ⟨3, .head _⟩
    · simp only [bidUpdate, DepthUpdate.batch, List.map_cons, List.map_nil, List.append_nil,
        List.mem_singleton, Prod.mk.injEq] at member
      obtain ⟨rfl, rfl⟩ := member
      rfl
  have copied : lob.levels snapshot = twoBids.after (lob.updateId snapshot) := rfl
  obtain ⟨book, absorbed, survives⟩ := book_survives_losses (levelBooks_updateIdField _ _)
    (levelBooks_setsLevels _ _) (levelBooks_skipsStale _ _) (levelBooks_extendsDefault _ _)
    twoBids copied delivered carries
  have stands : lob.updateId book = 3 := survives.newest
  refine ⟨book, absorbed, survives, ?_⟩
  rw [← stands]
  refine survives.current (.bid, 1) (fun n above below same => ?_)
  obtain rfl : n = 3 := by
    have odd : n % 2 = 1 := congrArg Prod.snd same
    have high : n ≤ 3 := stands ▸ below
    have low : 1 < n := above
    omega
  exact ⟨_, .head _, le_rfl, le_rfl⟩

end Lob

end Trolly.Monitor
