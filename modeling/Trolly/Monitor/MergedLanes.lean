import Mathlib.Algebra.Ring.Int.Defs
import Trolly.Monitor.HubRuns

/-! The merged lanes in every reachable state: once refreshed, the lane of an instrument is
the sum of its sources' books, and the registry serves that lane. -/
namespace Trolly.Monitor

open Keyed

variable {P Q : Type}

theorem toUppercase_rpi (table : Rust.CaseTable) (x : String) :
    table.toUppercase ("RPI:" ++ x) ≠ table.toUppercase x := by
  intro same
  have lengths := congrArg (fun s => s.toList.length) same
  have ascii : ("RPI:".toList.flatMap table.upper) = ['R', 'P', 'I', ':'] := by
    have r := table.ascii 'R' (by decide)
    have p := table.ascii 'P' (by decide)
    have i := table.ascii 'I' (by decide)
    have colon := table.ascii ':' (by decide)
    simp [r, p, i, colon]
  simp only [Rust.CaseTable.toUppercase, String.toList_append, List.flatMap_append, ascii,
    String.toList_ofList, List.length_append] at lengths
  simp at lengths

namespace World

open HubOp

variable {lob : Lob P Q} (table : Rust.CaseTable)

structure LanesMatch [AddCommMonoid Q] (serve : Option (Map String BookHandle))
    (ops : List (HubOp lob)) (world : World lob) : Prop where
  /-- A refreshed lane is the sum of the books of its sources, with their largest update id. -/
  lane : ∀ x, Refreshed table (table.toUppercase x) ops →
    ∃ swap, world.mergedSwapFor table x = some swap ∧
      (∀ k, lob.levels (world.swaps swap) k =
        ((sourcesOf table (table.toUppercase x) ops).map (fun s => quantity k (bookOf s ops))).sum) ∧
      (∀ s ∈ sourcesOf table (table.toUppercase x) ops, ∀ book, bookOf s ops = some book →
        lob.updateId book ≤ lob.updateId (world.swaps swap)) ∧
      ∃ s ∈ sourcesOf table (table.toUppercase x) ops, ∃ book, bookOf s ops = some book ∧
        lob.updateId book = lob.updateId (world.swaps swap)
  /-- The clone path of a single source gives what aggregating it gives. -/
  onePath : ∀ factory, (world.published factory).isSome →
    lob.levels (world.merged [factory]) =
        lob.levels (lob.setUpdateId (world.mergeBooks [factory]) (world.maxUpdateId [factory])) ∧
      lob.updateId (world.merged [factory]) =
        lob.updateId (lob.setUpdateId (world.mergeBooks [factory]) (world.maxUpdateId [factory]))
  /-- A refresh touches the lane of its own instrument only. -/
  frame : ∀ x y, table.toUppercase x ≠ table.toUppercase y → ∀ swap,
    world.mergedSwapFor table y = some swap →
      (world.refreshMergedFor table x).mergedSwapFor table y = some swap ∧
        (world.refreshMergedFor table x).swaps swap = world.swaps swap
  rpi : ∀ x, table.toUppercase ("RPI:" ++ x) ≠ table.toUppercase x
  /-- The registry, if there is one, hands out the lane. -/
  served : world.serve.isSome = serve.isSome ∧ ∀ registry, world.serve = some registry →
    ∀ x, sourcesOf table (table.toUppercase x) ops ≠ [] →
      ∃ swap, world.mergedSwapFor table x = some swap ∧
        registry.get (table.toUppercase x) = some (.merged swap)
  /-- The lane of an instrument is the same cell ever after. -/
  same : ∀ pre, pre <+: ops → ∀ x swap, (run table serve pre).mergedSwapFor table x = some swap →
    world.mergedSwapFor table x = some swap

theorem Consistent.lane_sum [AddCommMonoid Q] (field : lob.UpdateIdField)
    (merges : lob.MergesLevels) {ops : List (HubOp lob)} {world : World lob}
    (consistent : Consistent table ops world) (key : String) (k : Side × P) :
    lob.levels (world.merged (world.group key)) k =
      ((sourcesOf table key ops).map (fun s => quantity k (bookOf s ops))).sum := by
  rw [levels_merged field merges world (fun factory member => (consistent.group_alive table member).1),
    consistent.group_eq table key, List.map_map]
  rfl

theorem Consistent.lane_updateId (field : lob.UpdateIdField) {ops : List (HubOp lob)}
    {world : World lob} (consistent : Consistent table ops world) {key : String}
    (sources : sourcesOf table key ops ≠ []) :
    (∀ s ∈ sourcesOf table key ops, ∀ book, bookOf s ops = some book →
        lob.updateId book ≤ lob.updateId (world.merged (world.group key))) ∧
      ∃ s ∈ sourcesOf table key ops, ∃ book, bookOf s ops = some book ∧
        lob.updateId book = lob.updateId (world.merged (world.group key)) := by
  have ids : (world.group key).filterMap (fun f => (world.published f).map lob.updateId) =
      (sourcesOf table key ops).filterMap (fun s => (bookOf s ops).map lob.updateId) := by
    have books := congrArg (List.filterMap (Option.map lob.updateId)) (consistent.group_eq table key)
    rwa [List.filterMap_map, List.filterMap_map] at books
  rw [updateId_merged field, maxUpdateId, ids]
  generalize all : (sourcesOf table key ops).filterMap (fun s => (bookOf s ops).map lob.updateId) = list
  have member : ∀ s ∈ sourcesOf table key ops, ∀ book, bookOf s ops = some book →
      lob.updateId book ∈ list := fun s source book held =>
    all ▸ List.mem_filterMap.mpr ⟨s, source, by rw [held, Option.map_some]⟩
  obtain ⟨first, source⟩ := List.exists_mem_of_ne_nil _ sources
  obtain ⟨shard, wired, _⟩ := consistent.wired first (mem_registered table source)
  obtain ⟨book, held⟩ := Option.isSome_iff_exists.mp (wired.current ▸ wired.alive)
  cases top : list.max? with
  | none =>
    rw [List.max?_eq_none_iff.mp top] at member
    cases member first source book held
  | some largest =>
    obtain ⟨among, bound⟩ := List.max?_eq_some_iff.mp top
    rw [Option.getD_some]
    refine ⟨fun s source book held => bound _ (member s source book held), ?_⟩
    rw [← all] at among
    obtain ⟨s, source, read⟩ := List.mem_filterMap.mp among
    obtain ⟨book, held, same⟩ := Option.map_eq_some_iff.mp read
    exact ⟨s, source, book, held, same⟩

theorem refreshed_sources {key : String} {ops : List (HubOp lob)}
    (refreshed : Refreshed table key ops) : sourcesOf table key ops ≠ [] := by
  induction refreshed with
  | here source =>
    rw [sourcesOf_snoc]
    exact List.append_ne_nil_of_left_ne_nil (List.ne_nil_of_mem source) _
  | later _ _ ih =>
    rw [sourcesOf_snoc]
    exact List.append_ne_nil_of_left_ne_nil ih _

/-- In every state that registrations with distinct stream ids and updates of their shards
can reach, the merged lanes match the books of their sources. -/
theorem lanes_match [AddCommMonoid Q] (field : lob.UpdateIdField) (merges : lob.MergesLevels)
    (serve : Option (Map String BookHandle)) {ops : List (HubOp lob)}
    (distinct : (ops.filterMap registered).Nodup) :
    LanesMatch table serve ops (run table serve ops) := by
  obtain ⟨consistent, current⟩ := run_consistent table serve distinct
  refine ⟨fun x refreshed => ?_, fun factory alive => merged_single field merges _ alive,
    fun x y other swap lane => ?_, toUppercase_rpi table, ⟨?_, fun registry held x sources => ?_⟩, ?_⟩
  · obtain ⟨swap, lane, holds⟩ := current _ refreshed
    refine ⟨swap, lane, ?_⟩
    rw [holds]
    exact ⟨consistent.lane_sum table field merges _,
      consistent.lane_updateId table field (refreshed_sources table refreshed)⟩
  · obtain ⟨_, _, _, inner, _, _⟩ := (run table serve ops).refresh_frame table x
    refine ⟨by rw [mergedSwapFor, inner]; exact lane, (run table serve ops).refresh_other table x ?_⟩
    exact fun found => other (consistent.lanesApart _ _ _ found lane)
  · exact (run_keeps table (new lob serve) ops).2
  · obtain ⟨swap, lane⟩ := Option.isSome_iff_exists.mp ((consistent.lanes _).mpr sources)
    exact ⟨swap, lane, consistent.served registry held _ swap lane⟩
  · rintro pre ⟨post, rfl⟩ x swap lane
    rw [run, List.foldl_append]
    exact (run_keeps table (run table serve pre) post).1 _ swap lane

/-! Two venues of one symbol, registered in different letter case. -/

def bidBook (id price : Nat) (quantity : Int) : LevelBook Nat Int := ⟨id, [((.bid, price), quantity)]⟩

def twoVenues : List (HubOp (Lob.levelBooks Nat Int)) :=
  [.register "binance:BTCUSDT" "btcusdt" (bidBook 4 100 2),
    .register "binance-usd-m:BTCUSDT" "BTCUSDT" (bidBook 9 100 1),
    .handleUpdate "binance:BTCUSDT" ⟨"BTCUSDT", 0, 5, 6, none, [(100, 3)], []⟩]

theorem lanes_match_two_venues :
    let world := run .asciiOnly none twoVenues
    ∃ swap, world.mergedSwapFor .asciiOnly "BtcUsdt" = some swap ∧
      (Lob.levelBooks Nat Int).levels (world.swaps swap) (.bid, 100) = 3 + 1 := by
  intro world
  have distinct : (twoVenues.filterMap registered).Nodup := by decide
  have matched := lanes_match Rust.CaseTable.asciiOnly (Lob.levelBooks_updateIdField Nat Int)
    (Lob.levelBooks_mergesLevels Nat Int) none distinct
  have source : "binance:BTCUSDT" ∈ sourcesOf .asciiOnly
      (Rust.CaseTable.asciiOnly.toUppercase "BtcUsdt") (twoVenues.take 2) := by decide
  have refreshed : Refreshed .asciiOnly (Rust.CaseTable.asciiOnly.toUppercase "BtcUsdt") twoVenues :=
    .here source
  obtain ⟨swap, lane, sum, _⟩ := matched.lane "BtcUsdt" refreshed
  exact ⟨swap, lane, (sum (.bid, 100)).trans (by decide)⟩

end World

end Trolly.Monitor
