import Mathlib.Algebra.BigOperators.Group.Finset.Basic
import Trolly.Monitor.GlobalStream
import Trolly.Monitor.MergedLanes

/-! Sources named more than once. Registering a stream id again appends it to the sources of
its instrument but replaces its factory, so the last factory is merged once for each time the
id was named. The merged lanes count every stream id once exactly when none is named twice. -/
namespace Trolly.Monitor

open Keyed

variable {P Q : Type} {lob : Lob P Q} (table : Rust.CaseTable)

/-! The property of a state: what is registered is counted once. -/

namespace StreamState

variable (sources : List BookSource)

/-- The stream ids registered for an instrument: those of the jobs that built a shard. -/
def registeredFor (state : StreamState lob) (x : String) : Finset String :=
  (((jobs sources).filter (fun job => (state.built.get job).join.isSome ∧
    table.toUppercase (job.instrument table) = table.toUppercase x)).map
      (Job.streamId table)).toFinset

/-- Each stream id registered for an instrument adds its book once to the snapshot that
`refresh_merged_for` computes. -/
def CountsOnce [AddCommMonoid Q] (state : StreamState lob) : Prop :=
  ∀ x, (state.registeredFor table sources x).Nonempty →
    (∀ id ∈ state.registeredFor table sources x, (state.world.bookFor id).isSome) ∧
    ∃ swap, state.world.mergedSwapFor table x = some swap ∧
      ∀ k, lob.levels ((state.world.refreshMergedFor table x).swaps swap) k =
        ∑ id ∈ state.registeredFor table sources x, World.quantity k (state.world.bookFor id)

def Complete (state : StreamState lob) : Prop :=
  ∀ job ∈ jobs sources, (state.built.get job).join.isSome

end StreamState

/-! Without duplicates. -/

namespace World

open HubOp

variable {table}

theorem sourcesOf_sublist (table : Rust.CaseTable) (key : String) (ops : List (HubOp lob)) :
    (sourcesOf table key ops).Sublist (ops.filterMap registered) := by
  induction ops with
  | nil => exact .slnil
  | cons op rest ih =>
    cases op with
    | handleUpdate streamId update => exact ih
    | register streamId instrument book =>
      simp only [sourcesOf, List.filterMap_cons, sourceFor, registered]
      by_cases own : table.toUppercase instrument = key
      · simp only [if_pos own]
        exact ih.cons_cons streamId
      · simp only [if_neg own]
        exact ih.cons streamId

theorem Consistent.refresh {ops : List (HubOp lob)} {world : World lob}
    (consistent : Consistent table ops world) (instrument : String) :
    Consistent table ops (world.refreshMergedFor table instrument) := by
  obtain ⟨published, nextBook, nextSwap, inner, serve, shards⟩ :=
    world.refresh_frame table instrument
  refine ⟨consistent.toMapped.quiet table nextBook nextSwap inner serve, fun s member => ?_,
    fun s unknown => ?_, ?_⟩
  · obtain ⟨shard, wired, keys⟩ := consistent.wired s member
    refine ⟨shard, ⟨?_, ?_, ?_, ?_, ?_⟩, keys⟩
    · rw [shards]; exact wired.found
    · rw [inner]; exact wired.factory
    · rw [inner]; exact wired.instrument
    · rw [published]; exact wired.alive
    · rw [published]; exact wired.current
  · rw [shards, inner]
    exact consistent.missing s unknown
  · rw [inner]
    exact consistent.apart

end World

namespace StreamState

open HubOp World

variable {table} {sources : List BookSource}

theorem build_some (extending : lob.ExtendsDefault) {state : StreamState lob} {job : Job}
    (member : job ∈ jobs sources) (unbuilt : state.built.get job = none) (book : lob.Book) :
    state.build table sources job (some book) =
      { state with
        world := (state.world.register table (job.streamId table) (job.instrument table)
          book).refreshMergedFor table (job.instrument table)
        built := state.built.insert job
          (some ⟨state.world.nextBook, job.instrument table, job.streamId table⟩) } := by
  simp only [StreamState.build, if_pos (And.intro member unbuilt), World.build_eq table extending]
  rfl

/-- The hub's run behind a state: the registrations are those of the jobs that built a shard,
and every writer is such a shard, awaited at its place. -/
structure Tracked (table : Rust.CaseTable) (sources : List BookSource) (ops : List (HubOp lob))
    (state : StreamState lob) : Prop where
  consistent : Consistent table ops state.world
  registered : ∀ key id, id ∈ sourcesOf table key ops ↔ ∃ job ∈ jobs sources,
    (state.built.get job).join.isSome ∧ table.toUppercase (job.instrument table) = key ∧
      job.streamId table = id
  distinct : (ops.filterMap HubOp.registered).Nodup
  shards : ∀ job shard, state.built.get job = some (some shard) →
    job ∈ jobs sources ∧ state.world.shards.get (job.streamId table) = some shard
  writers : ∀ provider symbol shard, state.writers.get (provider, symbol) = some shard →
    ∃ i < state.awaited provider, ∃ job, (jobsOf sources provider)[i]? = some job ∧
      job.symbol = symbol ∧ state.built.get job = some (some shard)

theorem tracked_new (serve : Option (Map String BookHandle)) :
    Tracked table sources [] (new lob serve) where
  consistent := consistent_new table serve
  registered := fun _ _ => by simp [sourcesOf, new]
  distinct := List.nodup_nil
  shards := fun _ _ found => by cases found
  writers := fun _ _ _ found => by cases found

/-- With distinct stream ids, what a job registers is new as long as the job is. -/
theorem Tracked.fresh {ops : List (HubOp lob)} {state : StreamState lob}
    (tracked : Tracked table sources ops state)
    (unique : ((jobs sources).map (Job.streamId table)).Nodup) {job : Job}
    (member : job ∈ jobs sources) (unbuilt : state.built.get job = none) :
    job.streamId table ∉ ops.filterMap HubOp.registered := by
  intro known
  obtain ⟨shard, _, keys⟩ := tracked.consistent.wired _ known
  obtain ⟨other, there, built, _, same⟩ := (tracked.registered _ _).mp ((keys _).mpr rfl)
  cases List.inj_on_of_nodup_map unique there member same
  simp [unbuilt] at built

theorem built_insert {state : StreamState lob} {job : Job} (unbuilt : state.built.get job = none)
    (outcome : Option GlobalBookShard) (other : Job) :
    (((state.built.insert job outcome).get other).join.isSome ↔
      (other = job ∧ outcome.isSome) ∨ (state.built.get other).join.isSome) := by
  rw [Map.get_insert]
  by_cases same : other = job
  · subst same
    simp [unbuilt]
  · simp [same]

theorem Tracked.writers_insert {ops : List (HubOp lob)} {state : StreamState lob}
    (tracked : Tracked table sources ops state) {job : Job} (unbuilt : state.built.get job = none)
    (outcome : Option GlobalBookShard) (provider : Provider) (symbol : String)
    (shard : GlobalBookShard) (writer : state.writers.get (provider, symbol) = some shard) :
    ∃ i < state.awaited provider, ∃ other, (jobsOf sources provider)[i]? = some other ∧
      other.symbol = symbol ∧
        (state.built.insert job outcome).get other = some (some shard) := by
  obtain ⟨i, before, other, place, same, built⟩ := tracked.writers provider symbol shard writer
  have apart : other ≠ job := by
    rintro rfl
    cases unbuilt.symm.trans built
  exact ⟨i, before, other, place, same, by rw [Map.get_insert_of_ne _ apart, built]⟩

theorem Tracked.build_none {ops : List (HubOp lob)} {state : StreamState lob}
    (tracked : Tracked table sources ops state) {job : Job} (unbuilt : state.built.get job = none) :
    Tracked table sources ops { state with built := state.built.insert job none } := by
  refine ⟨tracked.consistent, fun key id => ?_, tracked.distinct, fun other shard found => ?_,
    tracked.writers_insert unbuilt none⟩
  · simp only [tracked.registered, built_insert unbuilt, Option.isSome_none, Bool.false_eq_true,
      and_false, false_or]
  · rw [Map.get_insert] at found
    split at found
    · cases found
    · exact tracked.shards other shard found

theorem Tracked.build_some (extending : lob.ExtendsDefault) {ops : List (HubOp lob)}
    {state : StreamState lob} (tracked : Tracked table sources ops state)
    (unique : ((jobs sources).map (Job.streamId table)).Nodup) {job : Job}
    (member : job ∈ jobs sources) (unbuilt : state.built.get job = none) (book : lob.Book) :
    Tracked table sources (ops ++ [.register (job.streamId table) (job.instrument table) book])
      (state.build table sources job (some book)) := by
  have fresh := tracked.fresh unique member unbuilt
  have spec := state.world.register_spec table (job.streamId table) (job.instrument table) book
  obtain ⟨_, _, _, _, _, shards⟩ := (state.world.register table (job.streamId table)
    (job.instrument table) book).refresh_frame table (job.instrument table)
  rw [StreamState.build_some extending member unbuilt]
  refine ⟨(tracked.consistent.register table fresh).refresh _, fun key id => ?_, ?_,
    fun other shard found => ?_, tracked.writers_insert unbuilt _⟩
  · simp only [sourcesOf_register, List.mem_append, tracked.registered, built_insert unbuilt,
      Option.isSome_some, and_true]
    constructor
    · rintro (⟨other, there, built, own⟩ | own)
      · exact ⟨other, there, Or.inr built, own⟩
      · split at own
        · rename_i key
          exact ⟨job, member, Or.inl rfl, key, (List.mem_singleton.mp own).symm⟩
        · cases own
    · rintro ⟨other, there, rfl | built, rfl, rfl⟩
      · exact Or.inr (by simp)
      · exact Or.inl ⟨other, there, built, rfl, rfl⟩
  · rw [registered_register]
    exact tracked.distinct.append (List.nodup_singleton _)
      (fun id known own => fresh (List.mem_singleton.mp own ▸ known))
  · simp only [shards, spec.shards]
    rw [Map.get_insert] at found
    split at found
    · rename_i same
      cases found
      cases same
      exact ⟨member, Map.get_insert_self ..⟩
    · rename_i new
      obtain ⟨there, held⟩ := tracked.shards other shard found
      have apart : other.streamId table ≠ job.streamId table :=
        fun same => new (List.inj_on_of_nodup_map unique there member same)
      exact ⟨there, (Map.get_insert_of_ne _ apart _).trans held⟩

theorem Tracked.build (extending : lob.ExtendsDefault) {ops : List (HubOp lob)}
    {state : StreamState lob} (tracked : Tracked table sources ops state)
    (unique : ((jobs sources).map (Job.streamId table)).Nodup) (job : Job)
    (snapshot : Option lob.Book) :
    ∃ ops', Tracked table sources ops' (state.build table sources job snapshot) := by
  by_cases enabled : job ∈ jobs sources ∧ state.built.get job = none
  · cases snapshot with
    | none =>
      rw [StreamState.build, if_pos enabled]
      exact ⟨ops, tracked.build_none enabled.2⟩
    | some book => exact ⟨_, tracked.build_some extending unique enabled.1 enabled.2 book⟩
  · unfold StreamState.build
    rw [if_neg enabled]
    exact ⟨ops, tracked⟩

theorem Tracked.vacant {ops : List (HubOp lob)} {state : StreamState lob}
    (tracked : Tracked table sources ops state)
    (unique : ((jobs sources).map (Job.streamId table)).Nodup) {provider : Provider} {job : Job}
    (next : (jobsOf sources provider)[state.awaited provider]? = some job) {shard : GlobalBookShard}
    (built : state.built.get job = some (some shard)) :
    state.writers.get (provider, job.symbol) = none := by
  rw [Option.eq_none_iff_forall_ne_some]
  intro replaced found
  obtain ⟨i, before, other, place, symbols, builtOther⟩ := tracked.writers _ _ _ found
  have ids : other.streamId table = job.streamId table := by
    rw [Job.streamId, Job.streamId, Job.source, Job.source, symbols,
      (mem_jobsOf (List.mem_of_getElem? place)).1, (mem_jobsOf (List.mem_of_getElem? next)).1]
  have same := List.inj_on_of_nodup_map unique (tracked.shards _ _ builtOther).1
    (tracked.shards _ _ built).1 ids
  have here := jobsOf_index place
  have there := jobsOf_index next
  rw [same] at here
  omega

theorem Tracked.collect {ops : List (HubOp lob)} {state : StreamState lob}
    (tracked : Tracked table sources ops state)
    (unique : ((jobs sources).map (Job.streamId table)).Nodup) (provider : Provider) :
    Tracked table sources ops (state.collect sources provider) := by
  unfold StreamState.collect
  split
  · exact tracked
  · rename_i job next
    have known : ∀ p symbol shard, state.writers.get (p, symbol) = some shard →
        ∃ i < Function.update state.awaited provider (state.awaited provider + 1) p, ∃ job,
          (jobsOf sources p)[i]? = some job ∧ job.symbol = symbol ∧
            state.built.get job = some (some shard) := by
      intro p symbol shard found
      obtain ⟨i, before, rest⟩ := tracked.writers p symbol shard found
      refine ⟨i, ?_, rest⟩
      by_cases own : p = provider
      · subst own
        rw [Function.update_self]
        omega
      · rw [Function.update_of_ne own]
        exact before
    simp only
    split
    · exact tracked
    · exact { tracked with writers := known }
    · rename_i shard built
      rw [tracked.vacant unique next built]
      refine { tracked with writers := fun p symbol other found => ?_ }
      rw [Map.get_insert] at found
      split at found
      · rename_i own
        cases own
        cases found
        exact ⟨state.awaited provider, by simp, job, next, rfl, built⟩
      · exact known p symbol other found

theorem Tracked.ingest {ops : List (HubOp lob)} {state : StreamState lob}
    (tracked : Tracked table sources ops state) (provider : Provider) (update : DepthUpdate P Q) :
    ∃ ops', Tracked table sources ops' (state.ingest table sources provider update) := by
  unfold StreamState.ingest
  split
  · exact ⟨ops, tracked⟩
  split
  · exact ⟨ops, tracked⟩
  · rename_i shard writer
    obtain ⟨_, _, job, _, _, built⟩ := tracked.writers _ _ _ writer
    obtain ⟨member, held⟩ := tracked.shards job shard built
    have source := (tracked.registered _ _).mpr ⟨job, member, by simp [built], rfl, rfl⟩
    obtain ⟨found, wired, _⟩ := tracked.consistent.wired _ (mem_registered table source)
    cases wired.found.symm.trans held
    obtain ⟨_, _, _, _, _, shards⟩ := (state.world.publish shard.book
      (lob.absorbUpdate · update)).refresh_frame table shard.instrument
    refine ⟨ops ++ [.handleUpdate (job.streamId table) update],
      ⟨tracked.consistent.handleUpdate table wired update, fun key id => ?_, ?_,
        fun other s found => ?_, tracked.writers⟩⟩
    · rw [sourcesOf_handleUpdate]
      exact tracked.registered key id
    · rw [registered_handleUpdate]
      exact tracked.distinct
    · rw [World.handleUpdate, shards]
      exact tracked.shards other s found

theorem run_tracked (extending : lob.ExtendsDefault)
    (unique : ((jobs sources).map (Job.streamId table)).Nodup)
    (serve : Option (Map String BookHandle)) (ops : List (StreamOp lob)) :
    ∃ hubOps, Tracked table sources hubOps (run table sources serve ops) := by
  refine run_invariant (step table sources)
    (fun state => ∃ hubOps, Tracked table sources hubOps state) ?_ ops (new lob serve)
      ⟨[], tracked_new serve⟩
  rintro state op ⟨hubOps, tracked⟩
  cases op with
  | build job snapshot => exact tracked.build extending unique job snapshot
  | collect provider => exact ⟨hubOps, tracked.collect unique provider⟩
  | ingest provider update => exact tracked.ingest provider update

theorem Tracked.countsOnce [AddCommMonoid Q] (field : lob.UpdateIdField)
    (merges : lob.MergesLevels) {ops : List (HubOp lob)} {state : StreamState lob}
    (tracked : Tracked table sources ops state) : state.CountsOnce table sources := by
  intro x nonempty
  have ids : state.registeredFor table sources x =
      (sourcesOf table (table.toUppercase x) ops).toFinset := by
    ext id
    rw [List.mem_toFinset, tracked.registered]
    simp [registeredFor, and_assoc]
  have held : ∀ id ∈ sourcesOf table (table.toUppercase x) ops,
      (state.world.bookFor id).isSome ∧ state.world.bookFor id = bookOf id ops := by
    intro id source
    obtain ⟨shard, wired, _⟩ := tracked.consistent.wired id (mem_registered table source)
    rw [World.bookFor, wired.factory, Option.bind_some]
    exact ⟨wired.alive, wired.current⟩
  have once : (sourcesOf table (table.toUppercase x) ops).Nodup :=
    tracked.distinct.sublist (sourcesOf_sublist table _ ops)
  rw [ids] at nonempty ⊢
  obtain ⟨swap, lane⟩ := Option.isSome_iff_exists.mp ((tracked.consistent.lanes _).mpr
    (List.toFinset_nonempty_iff _ |>.mp nonempty))
  refine ⟨fun id source => (held id (List.mem_toFinset.mp source)).1, swap, lane, fun k => ?_⟩
  rw [state.world.refresh_own table lane, tracked.consistent.lane_sum table field merges,
    List.sum_toFinset _ once]
  · exact congrArg List.sum (List.map_congr_left (fun id source => by rw [(held id source).2]))
  · intro empty
    have same := tracked.consistent.group_eq table (table.toUppercase x)
    rw [empty, List.map_nil, eq_comm, List.map_eq_nil_iff] at same
    rw [same] at nonempty
    simp at nonempty

/-! With duplicates: every job builds, and every book is the same. -/

/-- What the hub sees of jobs that build their shards from one snapshot. -/
def registrations (table : Rust.CaseTable) (snapshot : lob.Book) (done : List Job) :
    List (HubOp lob) :=
  done.map (fun job => .register (job.streamId table) (job.instrument table) snapshot)

structure Built (table : Rust.CaseTable) (snapshot : lob.Book) (done : List Job)
    (state : StreamState lob) : Prop where
  mapped : Mapped table (registrations table snapshot done) state.world
  books : ∀ id factory, state.world.inner.factories.get id = some factory →
    state.world.published factory = some snapshot
  built : ∀ job, (state.built.get job).join.isSome ↔ job ∈ done
  waiting : ∀ job, job ∉ done → state.built.get job = none

theorem run_builds (table : Rust.CaseTable) (extending : lob.ExtendsDefault)
    (serve : Option (Map String BookHandle)) (snapshot : lob.Book) {done : List Job}
    (distinct : done.Nodup) (within : done ⊆ jobs sources) :
    Built table snapshot done
      (run table sources serve (done.map (fun job => .build job (some snapshot)))) := by
  induction done using List.reverseRecOn with
  | nil =>
    exact
      { mapped := mapped_new table serve
        books := fun _ _ found => by cases found
        built := fun _ => by simp [run, StreamState.new]
        waiting := fun _ _ => rfl }
  | append_singleton done job ih =>
    have before := ih (distinct.sublist (List.sublist_append_left ..))
      (fun other member => within (by simp [member]))
    have new : job ∉ done := fun old => List.disjoint_of_nodup_append distinct old (by simp)
    have unbuilt := before.waiting job new
    rw [List.map_append, run, List.foldl_append, ← run]
    generalize run table sources serve (done.map (fun job => .build job (some snapshot))) = state
      at before unbuilt
    rw [List.map_singleton, List.foldl_cons, List.foldl_nil, step,
      build_some extending (within (by simp)) unbuilt]
    have spec := state.world.register_spec table (job.streamId table) (job.instrument table) snapshot
    obtain ⟨published, nextBook, nextSwap, inner, served, _⟩ := (state.world.register table
      (job.streamId table) (job.instrument table) snapshot).refresh_frame table (job.instrument table)
    refine ⟨?_, fun id factory found => ?_, fun other => ?_, fun other absent => ?_⟩
    · rw [registrations, List.map_append]
      exact (before.mapped.register table).quiet table nextBook nextSwap inner served
    · simp only [inner, spec.factories, Map.get_insert] at found
      simp only [published, spec.published]
      split at found
      · cases found
        exact Function.update_self ..
      · rw [Function.update_of_ne (Nat.ne_of_lt (before.mapped.below id factory found))]
        exact before.books id factory found
    · rw [built_insert unbuilt, before.built]
      simp [or_comm]
    · rw [List.mem_append, List.mem_singleton, not_or] at absent
      rw [Map.get_insert_of_ne _ absent.2]
      exact before.waiting other absent.1

theorem sourcesOf_builds (table : Rust.CaseTable) (snapshot : lob.Book) (done : List Job)
    (key : String) :
    sourcesOf table key (registrations table snapshot done) =
      (done.filter (fun job => table.toUppercase (job.instrument table) = key)).map
        (Job.streamId table) := by
  induction done with
  | nil => rfl
  | cons job rest ih =>
    rw [registrations, List.map_cons, ← registrations, sourcesOf, List.filterMap_cons, ← sourcesOf,
      ih, sourceFor, List.filter_cons]
    by_cases own : table.toUppercase (job.instrument table) = key <;> simp [own]

theorem Built.bookFor {snapshot : lob.Book} {done : List Job} {state : StreamState lob}
    (built : Built table snapshot done state) {key id : String} (source : id ∈ sourcesOf table key
      (registrations table snapshot done)) :
    ∃ factory, state.world.inner.factories.get id = some factory ∧
      state.world.published factory = state.world.bookFor id ∧
      state.world.bookFor id = some snapshot := by
  obtain ⟨factory, found⟩ := built.mapped.factories id (mem_registered table source)
  have shown : state.world.bookFor id = state.world.published factory := by
    rw [World.bookFor, found, Option.bind_some]
  exact ⟨factory, found, shown.symm, shown.trans (built.books id factory found)⟩

/-- Where every entry counts one, summing over the distinct entries tells a duplicate. -/
theorem nodup_of_counted [AddCommMonoidWithOne Q] [CharZero Q] {ids : List String} {f : String → Q}
    (one : ∀ id ∈ ids, f id = 1) (counted : (ids.map f).sum = ∑ id ∈ ids.toFinset, f id) :
    ids.Nodup := by
  have entries : (ids.map f).sum = (ids.length : Q) := by
    rw [List.map_congr_left one]
    simp
  have distinct : ∑ id ∈ ids.toFinset, f id = (ids.toFinset.card : Q) := by
    rw [Finset.sum_congr rfl (fun id member => one id (List.mem_toFinset.mp member))]
    simp
  have card := Nat.cast_injective (entries.symm.trans (counted.trans distinct))
  rw [List.card_toFinset] at card
  exact List.dedup_eq_self.mp ((List.dedup_sublist ids).eq_of_length card.symm)

/-- A refreshed lane adds the book of a stream id as often as the id was named. -/
theorem Built.lane_sum [AddCommMonoid Q] (field : lob.UpdateIdField) (merges : lob.MergesLevels)
    {snapshot : lob.Book} {done : List Job} {state : StreamState lob}
    (built : Built table snapshot done state) {x : String} {swap : Nat}
    (lane : state.world.mergedSwapFor table x = some swap)
    (named : sourcesOf table (table.toUppercase x) (registrations table snapshot done) ≠ [])
    (k : Side × P) :
    lob.levels ((state.world.refreshMergedFor table x).swaps swap) k =
      ((sourcesOf table (table.toUppercase x) (registrations table snapshot done)).map
          (fun id => World.quantity k (state.world.bookFor id))).sum := by
  have group : (state.world.group (table.toUppercase x)).map state.world.published =
      (sourcesOf table (table.toUppercase x) (registrations table snapshot done)).map
        state.world.bookFor := by
    refine built.mapped.group_books table (fun id source => ?_)
    obtain ⟨factory, found, seen, _⟩ := built.bookFor source
    exact ⟨factory, found, seen⟩
  have members : state.world.group (table.toUppercase x) ≠ [] := by
    intro none
    rw [none, List.map_nil, eq_comm, List.map_eq_nil_iff] at group
    exact named group
  have alive : ∀ factory ∈ state.world.group (table.toUppercase x),
      (state.world.published factory).isSome := by
    intro factory member
    obtain ⟨id, source, same⟩ := List.mem_map.mp (group ▸ List.mem_map_of_mem member)
    obtain ⟨_, _, _, book⟩ := built.bookFor source
    rw [← same, book, Option.isSome_some]
  rw [state.world.refresh_own table lane members, levels_merged field merges _ alive, group,
    List.map_map]
  rfl

/-- If the lane of an instrument counts every stream id once, none was named twice for it. -/
theorem Built.nodup [AddCommMonoidWithOne Q] [CharZero Q] (field : lob.UpdateIdField)
    (merges : lob.MergesLevels) {snapshot : lob.Book} {k : Side × P}
    (one : lob.levels snapshot k = 1) {state : StreamState lob}
    (built : Built table snapshot (jobs sources) state) (counts : state.CountsOnce table sources)
    (x : String) :
    (sourcesOf table (table.toUppercase x) (registrations table snapshot (jobs sources))).Nodup := by
  have registered : state.registeredFor table sources x = (sourcesOf table (table.toUppercase x)
      (registrations table snapshot (jobs sources))).toFinset := by
    rw [sourcesOf_builds]
    refine congrArg (fun list => (List.map (Job.streamId table) list).toFinset)
      (List.filter_congr (fun job member => ?_))
    simp [(built.built job).mpr member]
  by_cases named : sourcesOf table (table.toUppercase x)
      (registrations table snapshot (jobs sources)) = []
  · rw [named]
    exact List.nodup_nil
  · have nonempty : (state.registeredFor table sources x).Nonempty := by
      rw [registered]
      exact (List.toFinset_nonempty_iff _).mpr named
    obtain ⟨_, swap, lane, sum⟩ := counts x nonempty
    refine nodup_of_counted (fun id source => ?_)
      ((built.lane_sum field merges lane named k).symm.trans (registered ▸ sum k))
    obtain ⟨_, _, _, book⟩ := built.bookFor source
    rw [book]
    exact one

end StreamState

def streamIds (sources : List BookSource) : List String :=
  sources.map (fun s => (BookSource.new table s.provider s.symbol).streamId)

theorem jobs_streamIds {sources : List BookSource}
    (wired : ∀ s ∈ sources, s.provider ≠ .other) :
    ((jobs sources).map (Job.streamId table)).Perm (streamIds table sources) := by
  have perm := (jobs_sources table wired).map BookSource.streamId
  rw [List.map_map, List.map_map] at perm
  exact perm

namespace StreamState

/-- For every accepted list of sources: in every run of the streams, each distinct stream id
adds its book exactly once to the merged snapshot of its instrument, if and only if no two
entries of the list have one stream id; and so it is for the runs in which every shard is built. -/
theorem counts_once_iff [DecidableEq P] [Inhabited P] [AddCommMonoidWithOne Q] [CharZero Q]
    (field : lob.UpdateIdField) (sets : lob.SetsLevels) (merges : lob.MergesLevels)
    (extending : lob.ExtendsDefault) (serve : Option (Map String BookHandle)) {list : String}
    {sources : List BookSource} (accepted : parseBookSources table list = .ok sources) :
    ((∀ ops, (run table sources serve ops : StreamState lob).CountsOnce table sources) ↔
        (streamIds table sources).Nodup) ∧
      ((∀ ops, (run table sources serve ops : StreamState lob).Complete sources →
          (run table sources serve ops).CountsOnce table sources) ↔
        (streamIds table sources).Nodup) := by
  have perm := jobs_streamIds table (parseBookSources_wired accepted).2
  have enough : (streamIds table sources).Nodup →
      ∀ ops, (run table sources serve ops : StreamState lob).CountsOnce table sources := by
    intro unique ops
    obtain ⟨_, tracked⟩ := run_tracked extending (perm.nodup_iff.mpr unique) serve ops
    exact tracked.countsOnce field merges
  have needed : (∀ ops, (run table sources serve ops : StreamState lob).Complete sources →
      (run table sources serve ops).CountsOnce table sources) → (streamIds table sources).Nodup := by
    intro counts
    let spike := lob.addBid lob.new ((default : P), (1 : Q))
    have one : lob.levels spike (.bid, default) = 1 := by
      rw [sets.addBid, Function.update_self]
    have built := run_builds table extending serve spike (jobs_nodup sources)
      (List.Subset.refl _)
    have once := counts _ (fun job member => (built.built job).mpr member)
    refine perm.nodup_iff.mp ((List.nodup_map_iff_inj_on (jobs_nodup sources)).mpr
      (fun job member other there same => ?_))
    have own := BookSource.streamId_injective same
    have unique := built.nodup field merges one once (job.instrument table)
    rw [sourcesOf_builds] at unique
    have among := List.inj_on_of_nodup_map unique
    refine among (List.mem_filter.mpr ⟨member, by simp⟩) (List.mem_filter.mpr ⟨there, ?_⟩) same
    rw [Job.instrument, Job.instrument, own]
    simp
  exact ⟨⟨fun counts => needed (fun ops _ => counts ops), enough⟩,
    ⟨needed, fun unique ops _ => enough unique ops⟩⟩

/-! One symbol of two venues, and one source named twice. -/

def twoSources : List BookSource := [⟨.binance, "BTCUSDT"⟩, ⟨.stub, "BTCUSDT"⟩]

def twoBuilt : StreamState (Lob.levelBooks Nat Int) :=
  run .asciiOnly twoSources none
    [.build ⟨.stub, 0, "BTCUSDT"⟩ (some (World.bidBook 5 100 2)),
      .build ⟨.binance, 0, "BTCUSDT"⟩ (some (World.bidBook 7 100 1)), .collect .stub]

theorem counts_once_two_sources : twoBuilt.CountsOnce .asciiOnly twoSources := by
  have accepted : parseBookSources .asciiOnly "binance:btcusdt, stub:BTCUSDT" = .ok twoSources := rfl
  exact (counts_once_iff .asciiOnly (Lob.levelBooks_updateIdField Nat Int)
    (Lob.levelBooks_setsLevels Nat Int) (Lob.levelBooks_mergesLevels Nat Int)
    (Lob.levelBooks_extendsDefault Nat Int) none accepted).1.mpr (by decide) _

def oneSourceTwice : List BookSource := [⟨.binance, "BTCUSDT"⟩, ⟨.binance, "BTCUSDT"⟩]

def bothBuilt : StreamState (Lob.levelBooks Nat Int) :=
  run .asciiOnly oneSourceTwice none
    [.build ⟨.binance, 0, "BTCUSDT"⟩ (some (World.bidBook 5 100 1)),
      .build ⟨.binance, 1, "BTCUSDT"⟩ (some (World.bidBook 5 100 1))]

/-- The bid of 1 that the stream's factory shows is merged as 2. -/
theorem same_source_counted_twice :
    parseBookSources .asciiOnly "binance:BTCUSDT,binance:btcusdt" = .ok oneSourceTwice ∧
      bothBuilt.registeredFor .asciiOnly oneSourceTwice "BTCUSDT" = {"binance:BTCUSDT"} ∧
      World.quantity (.bid, 100) (bothBuilt.world.bookFor "binance:BTCUSDT") = 1 ∧
      (bothBuilt.world.mergedSwapFor .asciiOnly "BTCUSDT").map (fun swap =>
        (Lob.levelBooks Nat Int).levels (bothBuilt.world.swaps swap) (.bid, 100)) = some 2 ∧
      ¬ bothBuilt.CountsOnce .asciiOnly oneSourceTwice := by
  refine ⟨rfl, by decide, by decide, by decide, fun counts => ?_⟩
  obtain ⟨_, swap, lane, sum⟩ := counts "BTCUSDT" ⟨"binance:BTCUSDT", by decide⟩
  cases lane.symm.trans (show bothBuilt.world.mergedSwapFor .asciiOnly "BTCUSDT" = some 0 by decide)
  exact absurd (sum (.bid, 100)) (by decide)

end StreamState

end Trolly.Monitor
