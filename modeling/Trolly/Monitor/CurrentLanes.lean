import Trolly.Monitor.DuplicateSources

/-! The merged lanes in a running stream: with every change of a source its lane is refreshed,
so each lane holds the sum of its sources' books as they are. -/
namespace Trolly.Monitor

open Keyed HubOp World

variable {P Q : Type} {lob : Lob P Q} {table : Rust.CaseTable}

/-- The lane of every instrument holds the merge of its sources as they are now. -/
def AllCurrent (world : World lob) : Prop :=
  ∀ key, (world.inner.mergedByInstrument.get key).isSome → LaneCurrent world key

theorem refresh_current {world : World lob} {instrument : String}
    (apart : ∀ key other swap, world.inner.mergedByInstrument.get key = some swap →
      world.inner.mergedByInstrument.get other = some swap → key = other)
    (others : ∀ key, key ≠ table.toUppercase instrument →
      (world.inner.mergedByInstrument.get key).isSome → LaneCurrent world key)
    (sources : world.group (table.toUppercase instrument) ≠ []) :
    AllCurrent (world.refreshMergedFor table instrument) := by
  obtain ⟨published, _, _, inner, _, _⟩ := world.refresh_frame table instrument
  intro key lane
  have group : (world.refreshMergedFor table instrument).group key = world.group key := by
    rw [World.group, World.group, inner]
  have merged : (world.refreshMergedFor table instrument).merged (world.group key) =
      world.merged (world.group key) :=
    merged_congr (fun factory _ => congrFun published factory)
  rw [inner] at lane
  by_cases own : key = table.toUppercase instrument
  · obtain ⟨swap, found⟩ := Option.isSome_iff_exists.mp lane
    refine ⟨swap, by rw [inner, found], ?_⟩
    rw [group, merged, own]
    exact world.refresh_own table (own ▸ found) sources
  · obtain ⟨swap, found, holds⟩ := others key own lane
    refine ⟨swap, by rw [inner, found], ?_⟩
    rw [group, merged, ← holds]
    exact world.refresh_other table instrument (fun same => own (apart _ _ _ found same))

theorem register_current {hubOps : List (HubOp lob)} {world : World lob}
    (consistent : Consistent table hubOps world) (current : AllCurrent world) {streamId : String}
    (fresh : streamId ∉ hubOps.filterMap registered) (instrument : String) (book : lob.Book) :
    AllCurrent ((world.register table streamId instrument book).refreshMergedFor table
      instrument) := by
  have spec := world.register_spec table streamId instrument book
  have next : Consistent table (hubOps ++ [.register streamId instrument book])
      (world.register table streamId instrument book) := consistent.register table fresh
  refine refresh_current next.lanesApart (fun key other lane => ?_) ?_
  · rw [spec.lanes, if_neg other] at lane
    exact consistent.current_register table fresh instrument book other (current key lane)
  · have member : world.nextBook ∈ (world.register table streamId instrument book).group
        (table.toUppercase instrument) := by
      refine List.mem_filterMap.mpr ⟨streamId, ?_, by rw [spec.factories, Map.get_insert_self]⟩
      rw [spec.sources, Map.get_insert_self]
      simp
    exact List.ne_nil_of_mem member

theorem handleUpdate_current {hubOps : List (HubOp lob)} {world : World lob}
    (consistent : Consistent table hubOps world) (current : AllCurrent world) {streamId : String}
    {shard : GlobalBookShard} (wired : Wired table hubOps world streamId shard)
    (keys : ∀ key, streamId ∈ sourcesOf table key hubOps ↔
      table.toUppercase shard.instrument = key) (update : DepthUpdate P Q) :
    AllCurrent (world.handleUpdate table shard update) := by
  obtain ⟨_, _, _, inner, _, _⟩ := (world.publish shard.book
    (lob.absorbUpdate · update)).refresh_frame table shard.instrument
  intro key lane
  by_cases own : key = table.toUppercase shard.instrument
  · rw [own]
    exact consistent.current_own table wired ((keys _).mpr rfl) update
  · rw [World.handleUpdate, inner] at lane
    exact consistent.current_other table wired (fun source => own ((keys key).mp source).symm) own
      (current key lane) update

/-! ### Over a whole run of the stream -/

namespace StreamState

variable {sources : List BookSource}

/-- What every state of the stream keeps, with a registry or without one. -/
structure Live (table : Rust.CaseTable) (sources : List BookSource) (state : StreamState lob) :
    Prop where
  tracked : ∃ hubOps, Tracked table sources hubOps state
  current : AllCurrent state.world

theorem live_new (serve : Option (Map String BookHandle)) :
    Live table sources (new lob serve) where
  tracked := ⟨[], tracked_new serve⟩
  current := fun _ lane => by cases lane

theorem Live.build (extending : lob.ExtendsDefault) {state : StreamState lob}
    (live : Live table sources state)
    (unique : ((jobs sources).map (Job.streamId table)).Nodup) (job : Job)
    (snapshot : Option lob.Book) : Live table sources (state.build table sources job snapshot) := by
  obtain ⟨hubOps, tracked⟩ := live.tracked
  refine ⟨tracked.build extending unique job snapshot, ?_⟩
  by_cases enabled : job ∈ jobs sources ∧ state.built.get job = none
  · cases snapshot with
    | none =>
      rw [StreamState.build, if_pos enabled]
      exact live.current
    | some book =>
      rw [build_some extending enabled.1 enabled.2]
      exact register_current tracked.consistent live.current
        (tracked.fresh unique enabled.1 enabled.2) _ book
  · unfold StreamState.build
    rw [if_neg enabled]
    exact live.current

/-- With distinct stream ids no writer is replaced. -/
theorem Tracked.collect_world {hubOps : List (HubOp lob)} {state : StreamState lob}
    (tracked : Tracked table sources hubOps state)
    (unique : ((jobs sources).map (Job.streamId table)).Nodup) (provider : Provider) :
    (state.collect sources provider).world = state.world := by
  unfold StreamState.collect
  split
  · rfl
  · rename_i job place
    simp only
    split
    · rfl
    · rfl
    · rename_i shard built
      rw [tracked.vacant unique place built]

theorem Live.collect {state : StreamState lob} (live : Live table sources state)
    (unique : ((jobs sources).map (Job.streamId table)).Nodup) (provider : Provider) :
    Live table sources (state.collect sources provider) := by
  obtain ⟨hubOps, tracked⟩ := live.tracked
  exact ⟨⟨hubOps, tracked.collect unique provider⟩,
    tracked.collect_world unique provider ▸ live.current⟩

theorem Live.ingest {state : StreamState lob} (live : Live table sources state)
    (provider : Provider) (update : DepthUpdate P Q) :
    Live table sources (state.ingest table sources provider update) := by
  obtain ⟨hubOps, tracked⟩ := live.tracked
  refine ⟨tracked.ingest provider update, ?_⟩
  unfold StreamState.ingest
  split
  · exact live.current
  split
  · exact live.current
  · rename_i shard writer
    obtain ⟨_, _, job, _, _, built⟩ := tracked.writers _ _ _ writer
    obtain ⟨member, held⟩ := tracked.shards job shard built
    have source := (tracked.registered _ _).mpr ⟨job, member, by simp [built], rfl, rfl⟩
    obtain ⟨found, wired, keys⟩ := tracked.consistent.wired _ (mem_registered table source)
    cases wired.found.symm.trans held
    exact handleUpdate_current tracked.consistent live.current wired keys update

theorem run_live (extending : lob.ExtendsDefault)
    (unique : ((jobs sources).map (Job.streamId table)).Nodup)
    (serve : Option (Map String BookHandle)) (ops : List (StreamOp lob)) :
    Live table sources (run table sources serve ops) := by
  refine run_invariant (step table sources) (Live table sources) ?_ ops _ (live_new serve)
  intro state op live
  cases op with
  | build job snapshot => exact live.build extending unique job snapshot
  | collect provider => exact live.collect unique provider
  | ingest provider update => exact live.ingest provider update

/-! ### Factories stay -/

/-- With distinct stream ids the factory of a stream is never replaced. -/
theorem Live.factory_step (extending : lob.ExtendsDefault) {state : StreamState lob}
    (live : Live table sources state)
    (unique : ((jobs sources).map (Job.streamId table)).Nodup) {id : String} {factory : Nat}
    (held : state.world.inner.factories.get id = some factory) (op : StreamOp lob) :
    (state.step table sources op).world.inner.factories.get id = some factory := by
  obtain ⟨hubOps, tracked⟩ := live.tracked
  cases op with
  | build job snapshot =>
    rw [step]
    by_cases enabled : job ∈ jobs sources ∧ state.built.get job = none
    · cases snapshot with
      | none =>
        rw [StreamState.build, if_pos enabled]
        exact held
      | some book =>
        have fresh := tracked.fresh unique enabled.1 enabled.2
        have other : id ≠ job.streamId table := by
          rintro rfl
          rw [(tracked.consistent.missing _ fresh).2] at held
          cases held
        obtain ⟨_, _, _, inner, _, _⟩ := (state.world.register table (job.streamId table)
          (job.instrument table) book).refresh_frame table (job.instrument table)
        rw [build_some extending enabled.1 enabled.2, inner,
          (state.world.register_spec table _ _ book).factories, Map.get_insert_of_ne _ other]
        exact held
    · unfold StreamState.build
      rw [if_neg enabled]
      exact held
  | collect provider =>
    rw [step, tracked.collect_world unique]
    exact held
  | ingest provider update =>
    rw [step, StreamState.ingest]
    split
    · exact held
    split
    · exact held
    · rename_i shard writer
      obtain ⟨_, _, _, inner, _, _⟩ := (state.world.publish shard.book
        (lob.absorbUpdate · update)).refresh_frame table shard.instrument
      rw [World.handleUpdate, inner]
      exact held

theorem run_factory_kept (extending : lob.ExtendsDefault)
    (unique : ((jobs sources).map (Job.streamId table)).Nodup)
    (serve : Option (Map String BookHandle)) (ops more : List (StreamOp lob)) {id : String}
    {factory : Nat}
    (held : (run table sources serve ops).world.inner.factories.get id = some factory) :
    (run table sources serve (ops ++ more)).world.inner.factories.get id = some factory := by
  induction more using List.reverseRecOn with
  | nil => rwa [List.append_nil]
  | append_singleton more op ih =>
    rw [← List.append_assoc, run, List.foldl_append]
    exact (run_live extending unique serve (ops ++ more)).factory_step extending unique ih op

/-- Who is registered has a book, and a job that built it. -/
theorem Live.book_of_factory {state : StreamState lob} (live : Live table sources state)
    {id : String} {factory : Nat} (held : state.world.inner.factories.get id = some factory) :
    (∃ book, state.world.published factory = some book ∧ state.world.bookFor id = some book) ∧
      ∃ job ∈ jobs sources, job.streamId table = id := by
  obtain ⟨hubOps, tracked⟩ := live.tracked
  have known : id ∈ hubOps.filterMap HubOp.registered := by
    by_contra unknown
    rw [(tracked.consistent.missing _ unknown).2] at held
    cases held
  obtain ⟨shard, wired, keys⟩ := tracked.consistent.wired id known
  cases held.symm.trans wired.factory
  obtain ⟨book, alive⟩ := Option.isSome_iff_exists.mp wired.alive
  refine ⟨⟨book, alive, by rw [World.bookFor, wired.factory, Option.bind_some, alive]⟩, ?_⟩
  obtain ⟨job, member, _, _, named⟩ := (tracked.registered _ _).mp ((keys _).mpr rfl)
  exact ⟨job, member, named⟩

/-! ### What a lane holds -/

/-- A book that sums up the books of some streams, with the largest of their update ids. -/
structure SumsUp [AddCommMonoid Q] (state : StreamState lob) (ids : Finset String)
    (book : lob.Book) : Prop where
  levels : ∀ k, lob.levels book k = ∑ id ∈ ids, quantity k (state.world.bookFor id)
  newest : ∀ id ∈ ids, ∀ source, state.world.bookFor id = some source →
    lob.updateId source ≤ lob.updateId book
  attained : ∃ id ∈ ids, ∃ source, state.world.bookFor id = some source ∧
    lob.updateId source = lob.updateId book

theorem registeredFor_eq {hubOps : List (HubOp lob)} {state : StreamState lob}
    (tracked : StreamState.Tracked table sources hubOps state) (pair : String) :
    state.registeredFor table sources pair =
      (sourcesOf table (table.toUppercase pair) hubOps).toFinset := by
  ext id
  rw [List.mem_toFinset, tracked.registered]
  simp [StreamState.registeredFor, and_assoc]

theorem bookFor_eq {hubOps : List (HubOp lob)} {state : StreamState lob}
    (tracked : StreamState.Tracked table sources hubOps state) {key id : String}
    (source : id ∈ sourcesOf table key hubOps) : state.world.bookFor id = bookOf id hubOps := by
  obtain ⟨shard, wired, _⟩ := tracked.consistent.wired id (mem_registered table source)
  rw [World.bookFor, wired.factory, Option.bind_some]
  exact wired.current

theorem Live.lane_none {state : StreamState lob} (live : Live table sources state)
    {instrument : String} (absent : state.registeredFor table sources instrument = ∅) :
    state.world.mergedSwapFor table instrument = none := by
  obtain ⟨hubOps, tracked⟩ := live.tracked
  rw [registeredFor_eq tracked, List.toFinset_eq_empty_iff] at absent
  rw [mergedSwapFor, ← Option.not_isSome_iff_eq_none, tracked.consistent.lanes, absent, not_not]

theorem Live.lane_some [AddCommMonoid Q] (field : lob.UpdateIdField)
    (merges : lob.MergesLevels) {state : StreamState lob} (live : Live table sources state)
    {instrument : String} (present : (state.registeredFor table sources instrument).Nonempty) :
    ∃ swap, state.world.mergedSwapFor table instrument = some swap ∧
      SumsUp state (state.registeredFor table sources instrument) (state.world.swaps swap) := by
  obtain ⟨hubOps, tracked⟩ := live.tracked
  rw [registeredFor_eq tracked] at present ⊢
  have nonempty := (List.toFinset_nonempty_iff _).mp present
  obtain ⟨swap, lane, holds⟩ := live.current _ ((tracked.consistent.lanes _).mpr nonempty)
  have once : (sourcesOf table (table.toUppercase instrument) hubOps).Nodup :=
    tracked.distinct.sublist (sourcesOf_sublist table _ hubOps)
  obtain ⟨newest, id, source, book, current, attained⟩ :=
    tracked.consistent.lane_updateId table field nonempty
  refine ⟨swap, lane, ?_, ?_, ?_⟩
  all_goals rw [holds]
  · intro k
    rw [tracked.consistent.lane_sum table field merges, List.sum_toFinset _ once]
    exact congrArg List.sum
      (List.map_congr_left (fun id source => by rw [bookFor_eq tracked source]))
  · intro id member book found
    have source := List.mem_toFinset.mp member
    exact newest id source book (by rw [← bookFor_eq tracked source, found])
  · exact ⟨id, List.mem_toFinset.mpr source, book,
      by rw [bookFor_eq tracked source, current], attained⟩

end StreamState

end Trolly.Monitor
