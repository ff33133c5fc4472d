import Trolly.Monitor.HubRuns

/-! The global book stream: sources grouped by provider, one multiplexed stream for each
provider, whose shards are built concurrently and register with the shared hub in any order.
A step that is not enabled changes nothing, so every list of steps is a run. -/
namespace Trolly.Monitor

open Keyed

variable {P Q : Type}

def byProvider (sources : List BookSource) : Map Provider (List String) :=
  sources.foldl (fun m s => m.insert s.provider ((m.get s.provider).getD [] ++ [s.symbol])) Map.empty

def Provider.wired : List Provider := [.binance, .binanceUsdM, .stub]

/-- One shard to build: a symbol of a provider and its place among the provider's symbols. -/
structure Job where
  provider : Provider
  index : Nat
  symbol : String
  deriving DecidableEq

def jobsOf (sources : List BookSource) (provider : Provider) : List Job :=
  (((byProvider sources).get provider).getD []).zipIdx.map
    (fun (symbol, index) => ⟨provider, index, symbol⟩)

def jobs (sources : List BookSource) : List Job := Provider.wired.flatMap (jobsOf sources)

def Job.source (table : Rust.CaseTable) (job : Job) : BookSource :=
  BookSource.new table job.provider job.symbol

def Job.streamId (table : Rust.CaseTable) (job : Job) : String := (job.source table).streamId

def Job.instrument (table : Rust.CaseTable) (job : Job) : String :=
  (job.source table).canonicalInstrument

namespace World

variable {lob : Lob P Q} (table : Rust.CaseTable)

/-- `GlobalBookShard::build`, once the REST snapshot arrived. -/
def build (world : World lob) (source : BookSource) (snapshot : lob.Book) :
    World lob × GlobalBookShard :=
  let factory := world.nextBook
  let registered := world.register table source.streamId source.canonicalInstrument lob.default
  let initialized := registered.publish factory
    (fun book => (lob.absorbFirst book (.initializeBook snapshot) book).getD book)
  (initialized.refreshMergedFor table source.canonicalInstrument,
    ⟨factory, source.canonicalInstrument, source.streamId⟩)

/-- The writer of a pair is dropped: readers see nothing any more. -/
def dropWriter (world : World lob) (factory : Nat) : World lob :=
  { world with published := Function.update world.published factory none }

/-- The book of a stream id, as the factory that the hub holds for it shows it. -/
def bookFor (world : World lob) (streamId : String) : Option lob.Book :=
  (world.inner.factories.get streamId).bind world.published

end World

/-- The state of `run_global_book_stream`: the world, the build tasks that ended, with a
shard or an error, the handles awaited and the writers of each provider's multiplexor. -/
structure StreamState (lob : Lob P Q) where
  world : World lob
  built : Map Job (Option GlobalBookShard)
  awaited : Provider → Nat
  writers : Map (Provider × String) GlobalBookShard

/-- What happens next: a build task gets its snapshot, or an error, from REST; a provider's
multiplexor awaits its next handle; a message arrives on the stream of a provider. -/
inductive StreamOp (lob : Lob P Q) where
  | build (job : Job) (snapshot : Option lob.Book)
  | collect (provider : Provider)
  | ingest (provider : Provider) (update : DepthUpdate P Q)

namespace StreamState

variable {lob : Lob P Q} (table : Rust.CaseTable) (sources : List BookSource)

def new (lob : Lob P Q) (serve : Option (Map String BookHandle)) : StreamState lob :=
  ⟨World.new lob serve, Map.empty, fun _ => 0, Map.empty⟩

def build (state : StreamState lob) (job : Job) (snapshot : Option lob.Book) : StreamState lob :=
  if job ∈ jobs sources ∧ state.built.get job = none then
    match snapshot with
    | none => { state with built := state.built.insert job none }
    | some book =>
      let (world, shard) := state.world.build table (job.source table) book
      { state with world, built := state.built.insert job (some shard) }
  else state

/-- `MonitorMultiplexor::build` awaits its handles in the order of the symbols. A shard under
the same symbol is replaced, and its writer dropped; a task that failed is passed over. -/
def collect (state : StreamState lob) (provider : Provider) : StreamState lob :=
  match (jobsOf sources provider)[state.awaited provider]? with
  | none => state
  | some job =>
    let awaited := Function.update state.awaited provider (state.awaited provider + 1)
    match state.built.get job with
    | none => state
    | some none => { state with awaited }
    | some (some shard) =>
      let world := match state.writers.get (provider, job.symbol) with
        | some replaced => state.world.dropWriter replaced.book
        | none => state.world
      { state with world, awaited, writers := state.writers.insert (provider, job.symbol) shard }

def ingest (state : StreamState lob) (provider : Provider) (update : DepthUpdate P Q) :
    StreamState lob :=
  if state.awaited provider < (jobsOf sources provider).length then state
  else match state.writers.get (provider, update.symbol) with
    | none => state
    | some shard => { state with world := state.world.handleUpdate table shard update }

def step (state : StreamState lob) : StreamOp lob → StreamState lob
  | .build job snapshot => state.build table sources job snapshot
  | .collect provider => state.collect sources provider
  | .ingest provider update => state.ingest table sources provider update

def run (serve : Option (Map String BookHandle)) (ops : List (StreamOp lob)) : StreamState lob :=
  ops.foldl (step table sources) (new lob serve)

end StreamState

/-! The jobs of a list of sources are its entries. -/

theorem byProvider_snoc (sources : List BookSource) (s : BookSource) :
    byProvider (sources ++ [s]) = (byProvider sources).insert s.provider
      (((byProvider sources).get s.provider).getD [] ++ [s.symbol]) := by
  simp [byProvider]

theorem byProvider_get (sources : List BookSource) (provider : Provider) :
    ((byProvider sources).get provider).getD [] =
      (sources.filter (fun s => s.provider = provider)).map BookSource.symbol := by
  induction sources using List.reverseRecOn with
  | nil => rfl
  | append_singleton sources s ih =>
    rw [byProvider_snoc, Map.get_insert, List.filter_append, List.map_append]
    by_cases own : provider = s.provider
    · subst own
      simp [ih]
    · simp [own, Ne.symm own, ih]

theorem byProvider_isSome (sources : List BookSource) (provider : Provider) :
    ((byProvider sources).get provider).isSome ↔ ∃ s ∈ sources, s.provider = provider := by
  induction sources using List.reverseRecOn with
  | nil => simp [byProvider]
  | append_singleton sources s ih =>
    rw [byProvider_snoc, Map.get_insert]
    by_cases own : provider = s.provider
    · simp [own]
    · simp [own, Ne.symm own, ih]

theorem mem_jobsOf {sources : List BookSource} {provider : Provider} {job : Job}
    (member : job ∈ jobsOf sources provider) :
    job.provider = provider ∧ (jobsOf sources provider)[job.index]? = some job := by
  unfold jobsOf at member ⊢
  obtain ⟨⟨symbol, index⟩, there, rfl⟩ := List.mem_map.mp member
  refine ⟨rfl, ?_⟩
  rw [List.getElem?_map, List.getElem?_zipIdx, List.mem_zipIdx_iff_getElem?.mp there]
  simp

theorem jobsOf_index {sources : List BookSource} {provider : Provider} {job : Job} {i : Nat}
    (found : (jobsOf sources provider)[i]? = some job) : job.index = i := by
  rw [jobsOf, List.getElem?_map, List.getElem?_zipIdx, Option.map_map] at found
  obtain ⟨symbol, _, rfl⟩ := Option.map_eq_some_iff.mp found
  simp

theorem jobs_nodup (sources : List BookSource) : (jobs sources).Nodup := by
  refine List.nodup_flatMap.mpr ⟨fun provider _ => ?_, ?_⟩
  · have places : (jobsOf sources provider).map Job.index =
        List.range' 0 (((byProvider sources).get provider).getD []).length := by
      rw [jobsOf, List.map_map, ← List.zipIdx_map_snd]
      rfl
    exact List.Nodup.of_map _ (places ▸ List.nodup_range')
  · have apart : ∀ p q, p ≠ q → List.Disjoint (jobsOf sources p) (jobsOf sources q) :=
      fun p q ne job atP atQ => ne ((mem_jobsOf atP).1.symm.trans (mem_jobsOf atQ).1)
    simp [Provider.wired, Function.onFun, apart]

theorem jobsOf_sources (table : Rust.CaseTable) (sources : List BookSource) (provider : Provider) :
    (jobsOf sources provider).map (Job.source table) =
      (sources.filter (fun s => s.provider = provider)).map
        (fun s => BookSource.new table s.provider s.symbol) := by
  rw [jobsOf, byProvider_get, List.map_map]
  have symbols : ∀ list : List String, list.zipIdx.map
      (Job.source table ∘ fun (symbol, index) => ⟨provider, index, symbol⟩) =
        list.map (BookSource.new table provider) := by
    intro list
    conv_rhs => rw [← List.zipIdx_map_fst 0 list]
    rw [List.map_map]
    rfl
  rw [symbols, List.map_map]
  refine List.map_congr_left (fun s member => ?_)
  have own : s.provider = provider := by simpa using (List.mem_filter.mp member).2
  rw [own]
  rfl

theorem filter_wired_perm {sources : List BookSource} (wired : ∀ s ∈ sources, s.provider ≠ .other) :
    (sources.filter (fun s => s.provider = .binance) ++
      (sources.filter (fun s => s.provider = .binanceUsdM) ++
        sources.filter (fun s => s.provider = .stub))).Perm sources := by
  induction sources with
  | nil => exact .nil
  | cons s rest ih =>
    have tail := ih (fun t member => wired t (by simp [member]))
    cases provider : s.provider with
    | binance => simpa [provider] using tail
    | binanceUsdM =>
      simp only [List.filter_cons, provider, decide_true, reduceCtorEq, decide_false, if_true,
        Bool.false_eq_true, if_false, List.cons_append]
      exact List.perm_middle.trans (.cons s tail)
    | stub =>
      simp only [List.filter_cons, provider, decide_true, reduceCtorEq, decide_false, if_true,
        Bool.false_eq_true, if_false]
      exact ((List.Perm.append_left _ List.perm_middle).trans List.perm_middle).trans (.cons s tail)
    | other => exact absurd provider (wired s (by simp))

theorem jobs_sources (table : Rust.CaseTable) {sources : List BookSource}
    (wired : ∀ s ∈ sources, s.provider ≠ .other) :
    ((jobs sources).map (Job.source table)).Perm
      (sources.map (fun s => BookSource.new table s.provider s.symbol)) := by
  have flat : (jobs sources).map (Job.source table) =
      (sources.filter (fun s => s.provider = .binance) ++
        (sources.filter (fun s => s.provider = .binanceUsdM) ++
          sources.filter (fun s => s.provider = .stub))).map
            (fun s => BookSource.new table s.provider s.symbol) := by
    simp only [jobs, Provider.wired, List.flatMap_cons, List.flatMap_nil, List.append_nil,
      List.map_append, jobsOf_sources]
  rw [flat]
  exact (filter_wired_perm wired).map _

/-! A build is a registration followed by a refresh. -/

namespace World

variable {lob : Lob P Q} (table : Rust.CaseTable)

/-- The book of a new pair shows in what is published, nowhere else. -/
theorem register_published (world : World lob) (streamId instrument : String) (a b : lob.Book) :
    { world.register table streamId instrument a with
        published := (world.register table streamId instrument b).published } =
      world.register table streamId instrument b := by
  cases lane : world.inner.mergedByInstrument.get (table.toUppercase instrument) <;>
    cases served : world.serve <;>
    simp [register, registerFactory, newPair, ensureLane, publishServeInstrument, mergedSwapFor,
      lane, served]

theorem build_eq (extending : lob.ExtendsDefault) (world : World lob) (source : BookSource)
    (snapshot : lob.Book) :
    world.build table source snapshot =
      ((world.register table source.streamId source.canonicalInstrument snapshot).refreshMergedFor
          table source.canonicalInstrument,
        ⟨world.nextBook, source.canonicalInstrument, source.streamId⟩) := by
  have initialized : (lob.absorbFirst lob.default (.initializeBook snapshot) lob.default).getD
      lob.default = snapshot := by
    rw [Lob.absorbFirst_initializeBook extending, Option.getD_some]
  have shown := fun book => (world.register_spec table source.streamId source.canonicalInstrument
    book).published
  have registered : (world.register table source.streamId source.canonicalInstrument
      lob.default).publish world.nextBook
        (fun book => (lob.absorbFirst book (.initializeBook snapshot) book).getD book) =
      world.register table source.streamId source.canonicalInstrument snapshot := by
    rw [publish, shown, Function.update_self, Option.map_some, initialized, Function.update_idem,
      ← shown snapshot]
    exact world.register_published table _ _ _ _
  simp only [build, registered]

end World

end Trolly.Monitor
