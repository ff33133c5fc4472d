import Mathlib.Algebra.BigOperators.Group.List.Basic
import Trolly.Monitor.GlobalBook

/-! What one operation of the hub writes, and what a merged book shows. -/
namespace Trolly.Monitor

open Keyed

variable {P Q : Type}

/-- The merged book of what the readers of a group see. -/
def Lob.mergedSeen (lob : Lob P Q) (seen : List (Option lob.Book)) : lob.Book :=
  lob.setUpdateId
    (match seen with
      | [only] => only.getD lob.default
      | _ => seen.foldl lob.mergeSeen lob.new)
    ((seen.filterMap (Option.map lob.updateId)).max?.getD 0)

namespace World

variable {lob : Lob P Q} (table : Rust.CaseTable)

/-! What each operation writes. -/

section Frames

variable (world : World lob) (key instrument streamId : String) (factory : Nat)

theorem publishServe_frame :
    (world.publishServeInstrument table instrument).published = world.published ∧
      (world.publishServeInstrument table instrument).swaps = world.swaps ∧
      (world.publishServeInstrument table instrument).nextBook = world.nextBook ∧
      (world.publishServeInstrument table instrument).nextSwap = world.nextSwap ∧
      (world.publishServeInstrument table instrument).inner = world.inner := by
  unfold publishServeInstrument
  split
  · exact ⟨rfl, rfl, rfl, rfl, rfl⟩
  split <;> exact ⟨rfl, rfl, rfl, rfl, rfl⟩

theorem ensureLane_frame :
    (world.ensureLane key).published = world.published ∧
      (world.ensureLane key).nextBook = world.nextBook ∧
      (world.ensureLane key).serve = world.serve ∧
      (world.ensureLane key).inner.factories = world.inner.factories ∧
      (world.ensureLane key).inner.sourcesByInstrument = world.inner.sourcesByInstrument ∧
      (world.ensureLane key).inner.streamInstruments = world.inner.streamInstruments := by
  unfold ensureLane
  split <;> exact ⟨rfl, rfl, rfl, rfl, rfl, rfl⟩

theorem ensureLane_lane (k : String) :
    (world.ensureLane key).inner.mergedByInstrument.get k =
      if k = key then some ((world.inner.mergedByInstrument.get key).getD world.nextSwap)
      else world.inner.mergedByInstrument.get k := by
  unfold ensureLane
  split
  · rename_i swap found
    split
    · rename_i own
      rw [own, found, Option.getD_some]
    · rfl
  · rename_i vacant
    simp only [Map.get_insert, vacant, Option.getD_none]

theorem ensureLane_swaps {swap : Nat} (old : swap < world.nextSwap) :
    (world.ensureLane key).swaps swap = world.swaps swap := by
  unfold ensureLane
  split
  · rfl
  · exact Function.update_of_ne (Nat.ne_of_lt old) _ _

theorem ensureLane_nextSwap :
    world.nextSwap ≤ (world.ensureLane key).nextSwap ∧
      (world.inner.mergedByInstrument.get key = none →
        world.nextSwap < (world.ensureLane key).nextSwap) := by
  unfold ensureLane
  split
  · rename_i swap found
    exact ⟨le_rfl, fun vacant => by simp [found] at vacant⟩
  · exact ⟨Nat.le_succ _, fun _ => Nat.lt_succ_self _⟩

end Frames

/-- Everything a registration does. -/
structure Registered (world next : World lob) (streamId instrument : String) (book : lob.Book) :
    Prop where
  published : next.published = Function.update world.published world.nextBook (some book)
  nextBook : next.nextBook = world.nextBook + 1
  shards : next.shards = world.shards.insert streamId ⟨world.nextBook, instrument, streamId⟩
  factories : next.inner.factories = world.inner.factories.insert streamId world.nextBook
  instruments : next.inner.streamInstruments =
    world.inner.streamInstruments.insert streamId (table.toUppercase instrument)
  sources : next.inner.sourcesByInstrument =
    world.inner.sourcesByInstrument.insert (table.toUppercase instrument)
      ((world.inner.sourcesByInstrument.get (table.toUppercase instrument)).getD [] ++ [streamId])
  lanes : ∀ key, next.inner.mergedByInstrument.get key =
    if key = table.toUppercase instrument then
      some ((world.inner.mergedByInstrument.get key).getD world.nextSwap)
    else world.inner.mergedByInstrument.get key
  swaps : ∀ swap, swap < world.nextSwap → next.swaps swap = world.swaps swap
  nextSwap : world.nextSwap ≤ next.nextSwap ∧
    (world.inner.mergedByInstrument.get (table.toUppercase instrument) = none →
      world.nextSwap < next.nextSwap)
  serve : next.serve = world.serve.map (fun registry =>
    registry.insert (table.toUppercase instrument)
      (.merged ((world.inner.mergedByInstrument.get (table.toUppercase instrument)).getD
        world.nextSwap)))

theorem publishServe_serve (world : World lob) {instrument : String} {swap : Nat}
    (lane : world.inner.mergedByInstrument.get (table.toUppercase instrument) = some swap) :
    (world.publishServeInstrument table instrument).serve =
      world.serve.map (fun registry => registry.insert (table.toUppercase instrument) (.merged swap)) := by
  unfold publishServeInstrument
  split
  · rename_i absent
    rw [absent, Option.map_none]
  · rename_i registry present
    rw [mergedSwapFor, lane, present, Option.map_some]

theorem register_spec (world : World lob) (streamId instrument : String) (book : lob.Book) :
    Registered table world (world.register table streamId instrument book) streamId instrument book := by
  let key := table.toUppercase instrument
  let mid : World lob := { (world.newPair book).1 with
    inner := { world.inner with
      streamInstruments := world.inner.streamInstruments.insert streamId key
      sourcesByInstrument := world.inner.sourcesByInstrument.insert key
        ((world.inner.sourcesByInstrument.get key).getD [] ++ [streamId])
      factories := world.inner.factories.insert streamId world.nextBook } }
  have shape : world.register table streamId instrument book =
      { (mid.ensureLane key).publishServeInstrument table instrument with
        shards := world.shards.insert streamId ⟨world.nextBook, instrument, streamId⟩ } := by
    have shards : ((mid.ensureLane key).publishServeInstrument table instrument).shards =
        world.shards := by
      unfold publishServeInstrument ensureLane
      repeat' split
      all_goals rfl
    simp only [← shards]
    rfl
  obtain ⟨published, swaps, nextBook, nextSwap, inner⟩ :=
    (mid.ensureLane key).publishServe_frame table instrument
  obtain ⟨published', nextBook', serve', factories, sources, instruments⟩ := mid.ensureLane_frame key
  have lane := mid.ensureLane_lane key key
  rw [if_pos rfl] at lane
  rw [shape]
  exact
    { published := published.trans published'
      nextBook := nextBook.trans nextBook'
      shards := rfl
      factories := (congrArg HubInner.factories inner).trans factories
      instruments := (congrArg HubInner.streamInstruments inner).trans instruments
      sources := (congrArg HubInner.sourcesByInstrument inner).trans sources
      lanes := fun k => by
        refine (congrArg (fun inner => inner.mergedByInstrument.get k) inner).trans
          ((mid.ensureLane_lane key k).trans ?_)
        split
        · rename_i own
          rw [own]
          rfl
        · rfl
      swaps := fun swap old => (congrFun swaps swap).trans (mid.ensureLane_swaps key old)
      nextSwap := nextSwap ▸ mid.ensureLane_nextSwap key
      serve := ((mid.ensureLane key).publishServe_serve table lane).trans
        (congrArg (Option.map _) serve') }

theorem refresh_frame (world : World lob) (instrument : String) :
    (world.refreshMergedFor table instrument).published = world.published ∧
      (world.refreshMergedFor table instrument).nextBook = world.nextBook ∧
      (world.refreshMergedFor table instrument).nextSwap = world.nextSwap ∧
      (world.refreshMergedFor table instrument).inner = world.inner ∧
      (world.refreshMergedFor table instrument).serve = world.serve ∧
      (world.refreshMergedFor table instrument).shards = world.shards := by
  simp only [refreshMergedFor]
  split
  · exact ⟨rfl, rfl, rfl, rfl, rfl, rfl⟩
  split <;> exact ⟨rfl, rfl, rfl, rfl, rfl, rfl⟩

theorem refresh_own (world : World lob) {instrument : String} {swap : Nat}
    (lane : world.inner.mergedByInstrument.get (table.toUppercase instrument) = some swap)
    (sources : world.group (table.toUppercase instrument) ≠ []) :
    (world.refreshMergedFor table instrument).swaps swap =
      world.merged (world.group (table.toUppercase instrument)) := by
  simp only [refreshMergedFor, if_neg sources, lane, Function.update_self]

/-- A refresh writes no cell but the lane of its instrument. -/
theorem refresh_other (world : World lob) (instrument : String) {swap : Nat}
    (other : world.inner.mergedByInstrument.get (table.toUppercase instrument) ≠ some swap) :
    (world.refreshMergedFor table instrument).swaps swap = world.swaps swap := by
  simp only [refreshMergedFor]
  split
  · rfl
  split
  · rfl
  · rename_i own found
    have ne : swap ≠ own := fun same => other (same ▸ found)
    exact Function.update_of_ne ne _ _

/-! The merged book. -/

theorem merged_eq (world : World lob) (group : List Nat) :
    world.merged group = lob.mergedSeen (group.map world.published) := by
  have ids : world.maxUpdateId group =
      ((group.map world.published).filterMap (Option.map lob.updateId)).max?.getD 0 := by
    rw [List.filterMap_map]
    rfl
  unfold merged Lob.mergedSeen
  rw [ids]
  rcases group with _ | ⟨factory, _ | ⟨other, rest⟩⟩
  · rfl
  · rfl
  · simp only [mergeBooks, List.map_cons, List.foldl_cons, List.foldl_map]

theorem merged_congr {world next : World lob} {group : List Nat}
    (same : ∀ factory ∈ group, next.published factory = world.published factory) :
    next.merged group = world.merged group := by
  rw [merged_eq, merged_eq, List.map_congr_left same]

theorem updateId_merged (field : lob.UpdateIdField) (world : World lob) (group : List Nat) :
    lob.updateId (world.merged group) = world.maxUpdateId group := field.updateId_set _ _

section Sums

variable [AddCommMonoid Q]

/-- What a published book adds to a level. -/
def quantity (k : Side × P) (book : Option lob.Book) : Q := book.elim 0 (fun book => lob.levels book k)

theorem levels_foldl_merge (merges : lob.MergesLevels) (k : Side × P)
    (seen : List (Option lob.Book)) (book : lob.Book) :
    lob.levels (seen.foldl lob.mergeSeen book) k =
      lob.levels book k + (seen.map (quantity k)).sum := by
  induction seen generalizing book with
  | nil => simp
  | cons first rest ih =>
    rw [List.foldl_cons, ih, List.map_cons, List.sum_cons]
    cases first with
    | none => simp [quantity, Lob.mergeSeen]
    | some other => simp [quantity, Lob.mergeSeen, merges.levels_merge, add_assoc]

theorem levels_mergeBooks (merges : lob.MergesLevels) (world : World lob) (k : Side × P)
    (group : List Nat) :
    lob.levels (world.mergeBooks group) k = ((group.map world.published).map (quantity k)).sum := by
  rw [mergeBooks, ← List.foldl_map, levels_foldl_merge merges, merges.levels_new, zero_add]

/-- The level of a merged book is the sum over what is seen, on the clone path too. -/
theorem levels_mergedSeen (field : lob.UpdateIdField) (merges : lob.MergesLevels)
    {seen : List (Option lob.Book)} (alive : ∀ book ∈ seen, book.isSome) (k : Side × P) :
    lob.levels (lob.mergedSeen seen) k = (seen.map (quantity k)).sum := by
  unfold Lob.mergedSeen
  rw [field.levels_set]
  split
  · rename_i only
    obtain ⟨book, rfl⟩ := Option.isSome_iff_exists.mp (alive only (by simp))
    simp [quantity]
  · rw [levels_foldl_merge merges, merges.levels_new, zero_add]

theorem levels_merged (field : lob.UpdateIdField) (merges : lob.MergesLevels) (world : World lob)
    {group : List Nat} (alive : ∀ factory ∈ group, (world.published factory).isSome) (k : Side × P) :
    lob.levels (world.merged group) k = ((group.map world.published).map (quantity k)).sum := by
  rw [merged_eq]
  refine levels_mergedSeen field merges (fun book member => ?_) k
  obtain ⟨factory, there, rfl⟩ := List.mem_map.mp member
  exact alive factory there

/-- On one source whose writer is alive, the clone path gives what aggregating gives. -/
theorem merged_single (field : lob.UpdateIdField) (merges : lob.MergesLevels) (world : World lob)
    {factory : Nat} (alive : (world.published factory).isSome) :
    lob.levels (world.merged [factory]) =
        lob.levels (lob.setUpdateId (world.mergeBooks [factory]) (world.maxUpdateId [factory])) ∧
      lob.updateId (world.merged [factory]) =
        lob.updateId (lob.setUpdateId (world.mergeBooks [factory]) (world.maxUpdateId [factory])) := by
  refine ⟨?_, (updateId_merged field world _).trans (field.updateId_set _ _).symm⟩
  funext k
  rw [levels_merged field merges world (by simpa using alive), field.levels_set,
    levels_mergeBooks merges]

end Sums

end World

end Trolly.Monitor
