import Mathlib.Algebra.Group.Defs
import Trolly.Lib.Changelog

/-! The order book crate `lob`, as far as the monitor uses it: a parameter, with what the
monitor relies on as named laws. Prices and quantities are any types; a quantity of zero is
an absent level. -/
namespace Trolly.Monitor

open Changelog

inductive Side where
  | bid
  | ask
  deriving DecidableEq

/-- `lob::DepthUpdate`: absolute quantities of the levels that changed. -/
structure DepthUpdate (P Q : Type) where
  symbol : String
  time : Nat
  firstUpdateId : Nat
  lastUpdateId : Nat
  previousUpdateId : Option Nat
  bids : List (P × Q)
  asks : List (P × Q)

/-- The levels of an update, bids first. -/
def DepthUpdate.batch {P Q : Type} (update : DepthUpdate P Q) : Batch (Side × P) Q where
  first := update.firstUpdateId
  last := update.lastUpdateId
  writes := update.bids.map (fun level => ((.bid, level.1), level.2)) ++
    update.asks.map (fun level => ((.ask, level.1), level.2))

/-- `lob::LimitOrderBook` and the methods the monitor calls. `levels` is how a book is
observed: the quantity that rests at a price. -/
structure Lob (P Q : Type) where
  Book : Type
  decEq : DecidableEq Book
  default : Book
  new : Book
  levels : Book → Side × P → Q
  updateId : Book → Nat
  setUpdateId : Book → Nat → Book
  addBid : Book → P × Q → Book
  addAsk : Book → P × Q → Book
  extend : Book → Book → Book
  mergeAggregateAbsorb : Book → Book → Book
  skipUpdate : DepthUpdate P Q → Nat → Bool

namespace Lob

variable {P Q : Type}

instance (lob : Lob P Q) : DecidableEq lob.Book := lob.decEq

/-- `update_id` is a field of its own. -/
structure UpdateIdField (lob : Lob P Q) : Prop where
  updateId_set : ∀ book id, lob.updateId (lob.setUpdateId book id) = id
  levels_set : ∀ book id, lob.levels (lob.setUpdateId book id) = lob.levels book

/-- `add_bid` and `add_ask` set the absolute quantity of one level. -/
structure SetsLevels [DecidableEq P] (lob : Lob P Q) : Prop where
  addBid : ∀ book level,
    lob.levels (lob.addBid book level) = Function.update (lob.levels book) (.bid, level.1) level.2
  addAsk : ∀ book level,
    lob.levels (lob.addAsk book level) = Function.update (lob.levels book) (.ask, level.1) level.2

/-- `skip_update` skips what ends before the book, and nothing that ends after it. -/
structure SkipsStale (lob : Lob P Q) : Prop where
  stale : ∀ update id, update.lastUpdateId < id → lob.skipUpdate update id = true
  only : ∀ update id, lob.skipUpdate update id = true → update.lastUpdateId ≤ id

/-- Extending a default book with a book gives that book. -/
def ExtendsDefault (lob : Lob P Q) : Prop := ∀ book, lob.extend lob.default book = book

/-- `merge_aggregate_absorb` adds level by level, from an empty book on. -/
structure MergesLevels [AddCommMonoid Q] (lob : Lob P Q) : Prop where
  levels_new : ∀ k, lob.levels lob.new k = 0
  levels_merge : ∀ a b k,
    lob.levels (lob.mergeAggregateAbsorb a b) k = lob.levels a k + lob.levels b k

theorem SkipsStale.test {lob : Lob P Q} (skips : lob.SkipsStale) (update : DepthUpdate P Q)
    (id : Nat) : SkipTest (lob.skipUpdate update id) update.batch id where
  stale := skips.stale update id
  ahead := fun later => by
    by_contra skipped
    exact absurd (skips.only update id (by simpa using skipped)) (Nat.not_le_of_lt later)

end Lob

/-! A book that keeps its writes: it satisfies all the laws. -/

structure LevelBook (P Q : Type) where
  updateId : Nat
  writes : List ((Side × P) × Q)
  deriving DecidableEq

namespace LevelBook

variable {P Q : Type} [DecidableEq P]

def levels [Zero Q] (book : LevelBook P Q) : Side × P → Q := overwrite (fun _ => 0) book.writes

def write (book : LevelBook P Q) (side : Side) (level : P × Q) : LevelBook P Q :=
  { book with writes := book.writes ++ [((side, level.1), level.2)] }

def merge [Zero Q] [Add Q] (a b : LevelBook P Q) : LevelBook P Q :=
  { a with writes := a.writes ++ b.writes.map (fun w => (w.1, a.levels w.1 + b.levels w.1)) }

theorem levels_write [Zero Q] (book : LevelBook P Q) (side : Side) (level : P × Q) :
    (book.write side level).levels = Function.update book.levels (side, level.1) level.2 := by
  rw [levels, write, overwrite_append]
  rfl

theorem levels_merge [AddCommMonoid Q] (a b : LevelBook P Q) (k : Side × P) :
    (a.merge b).levels k = a.levels k + b.levels k := by
  rw [levels, merge, overwrite_append]
  by_cases present : ∃ q, (k, q) ∈ b.writes
  · obtain ⟨q, member⟩ := present
    refine overwrite_agreeing _ ⟨_, List.mem_map_of_mem member⟩ (fun w member => ?_)
    obtain ⟨write, _, same⟩ := List.mem_map.mp member
    cases same
    rfl
  · have zero : b.levels k = 0 := overwrite_absent _ (fun q member => present ⟨q, member⟩)
    rw [zero, add_zero, overwrite_absent]
    · rfl
    · intro w member
      obtain ⟨write, there, same⟩ := List.mem_map.mp member
      cases same
      exact present ⟨write.2, there⟩

end LevelBook

namespace Lob

variable (P Q : Type) [DecidableEq P] [DecidableEq Q] [Zero Q] [Add Q]

def levelBooks : Lob P Q where
  Book := LevelBook P Q
  decEq := inferInstance
  default := ⟨0, []⟩
  new := ⟨0, []⟩
  levels := LevelBook.levels
  updateId := LevelBook.updateId
  setUpdateId := fun book id => { book with updateId := id }
  addBid := fun book level => book.write .bid level
  addAsk := fun book level => book.write .ask level
  extend := fun a b => ⟨b.updateId, a.writes ++ b.writes⟩
  mergeAggregateAbsorb := LevelBook.merge
  skipUpdate := fun update id => update.lastUpdateId ≤ id

theorem levelBooks_updateIdField : (levelBooks P Q).UpdateIdField := ⟨fun _ _ => rfl, fun _ _ => rfl⟩

theorem levelBooks_setsLevels : (levelBooks P Q).SetsLevels :=
  ⟨fun book level => book.levels_write .bid level, fun book level => book.levels_write .ask level⟩

theorem levelBooks_skipsStale : (levelBooks P Q).SkipsStale :=
  ⟨fun _ _ before => decide_eq_true (Nat.le_of_lt before), fun _ _ skipped => of_decide_eq_true skipped⟩

theorem levelBooks_extendsDefault : (levelBooks P Q).ExtendsDefault := fun _ => rfl

theorem levelBooks_mergesLevels (P Q : Type) [DecidableEq P] [DecidableEq Q] [AddCommMonoid Q] :
    (levelBooks P Q).MergesLevels := ⟨fun _ => rfl, LevelBook.levels_merge⟩

end Lob

end Trolly.Monitor
