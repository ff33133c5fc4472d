import Trolly.Monitor.CurrentLanes
import Trolly.Std.Casing

/-! The book server: one registry, read by gRPC and by SCALE requests. Behind the cross-source
stream it hands out the merged lanes; these are refreshed with every change of a source, so a
request always sees the sum of the sources' books as they are. -/
namespace Trolly.Servers

open Keyed Trolly.Monitor

variable {P Q : Type} {lob : Lob P Q} (table : Rust.CaseTable)

abbrev BookRegistry := Map String BookHandle

def newRegistry : BookRegistry := .empty

def Hook.register (registry : BookRegistry) (key : String) (factory : Nat) : BookRegistry :=
  registry.insert (table.toUppercase key) (.leftRight factory)

/-- What is found for a pair, while the pairs and the cells hold what they do. -/
def Hook.get (published : Nat → Option lob.Book) (swaps : Nat → lob.Book) (registry : BookRegistry)
    (pair : String) : Option lob.Book :=
  match registry.get (table.toUppercase pair) with
  | none => none
  | some (.leftRight factory) => published factory
  | some (.merged swap) => some (swaps swap)

inductive Status where
  | notFound (message : String)

/-- `get_limit_order_book`; `toProto` turns a book into its message. -/
def getLimitOrderBook {Proto : Type} (toProto : lob.Book → Proto)
    (published : Nat → Option lob.Book) (swaps : Nat → lob.Book) (registry : BookRegistry)
    (request : String) : Except Status Proto :=
  let pair := table.toUppercase request
  match Hook.get table published swaps registry pair with
  | none => .error (.notFound pair)
  | some nativeBook => .ok (toProto nativeBook)

/-- `serve_book`; without a book the body is the SCALE code of `None`. -/
def serveBook (encode : lob.Book → List UInt8) (published : Nat → Option lob.Book)
    (swaps : Nat → lob.Book) (registry : BookRegistry) (symbol : String) : UInt16 × List UInt8 :=
  match Hook.get table published swaps registry symbol with
  | some book => (200, encode book)
  | none => (404, [0])

/-! ### The registry behind the hub -/

section Hub

open HubOp World

variable {table}

/-- The registry holds the lanes and nothing else. -/
def LanesOnly (world : World lob) : Prop :=
  ∃ registry, world.serve = some registry ∧
    ∀ key, registry.get key = (world.inner.mergedByInstrument.get key).map .merged

theorem lanesOnly_congr {world next : World lob} (only : LanesOnly world)
    (serve : next.serve = world.serve) (inner : next.inner = world.inner) : LanesOnly next := by
  obtain ⟨registry, held, lanes⟩ := only
  exact ⟨registry, by rw [serve, held], fun key => by rw [inner]; exact lanes key⟩

theorem lanesOnly_register {world : World lob} (only : LanesOnly world)
    (streamId instrument : String) (book : lob.Book) :
    LanesOnly (world.register table streamId instrument book) := by
  obtain ⟨registry, held, lanes⟩ := only
  have spec := world.register_spec table streamId instrument book
  refine ⟨_, by rw [spec.serve, held]; rfl, fun key => ?_⟩
  rw [spec.lanes, Map.get_insert]
  by_cases own : key = table.toUppercase instrument
  · rw [if_pos own, if_pos own, own]
    rfl
  · rw [if_neg own, if_neg own]
    exact lanes key

theorem lanesOnly_refresh {world : World lob} (only : LanesOnly world) (instrument : String) :
    LanesOnly (world.refreshMergedFor table instrument) := by
  obtain ⟨_, _, _, inner, serve, _⟩ := world.refresh_frame table instrument
  exact lanesOnly_congr only serve inner

theorem lanesOnly_handleUpdate {world : World lob} (only : LanesOnly world)
    (shard : GlobalBookShard) (update : DepthUpdate P Q) :
    LanesOnly (world.handleUpdate table shard update) := by
  have published : LanesOnly (world.publish shard.book (lob.absorbUpdate · update)) :=
    lanesOnly_congr only rfl rfl
  exact lanesOnly_refresh published shard.instrument

variable {sources : List BookSource}

theorem run_lanesOnly (extending : lob.ExtendsDefault) (ops : List (StreamOp lob)) :
    LanesOnly (StreamState.run table sources (some newRegistry) ops).world := by
  refine run_invariant (StreamState.step table sources) (fun state => LanesOnly state.world)
    (fun state op only => ?_) ops _ ⟨newRegistry, rfl, fun _ => rfl⟩
  cases op with
  | build job snapshot =>
    by_cases enabled : job ∈ jobs sources ∧ state.built.get job = none
    · cases snapshot with
      | none =>
        rw [StreamState.step, StreamState.build, if_pos enabled]
        exact only
      | some book =>
        rw [StreamState.step, StreamState.build_some extending enabled.1 enabled.2]
        exact lanesOnly_refresh (lanesOnly_register only _ _ book) _
    · rw [StreamState.step]
      unfold StreamState.build
      rw [if_neg enabled]
      exact only
  | collect provider =>
    rw [StreamState.step, StreamState.collect]
    split
    · exact only
    · simp only
      split
      · exact only
      · exact only
      · split <;> exact only
  | ingest provider update =>
    rw [StreamState.step, StreamState.ingest]
    split
    · exact only
    · split
      · exact only
      · exact lanesOnly_handleUpdate only _ update

/-! ### What requests are answered -/

variable (table) in
theorem LanesOnly.get {world : World lob} (only : LanesOnly world) {registry : BookRegistry}
    (held : world.serve = some registry) (pair : String) :
    Hook.get table world.published world.swaps registry pair =
      (world.mergedSwapFor table pair).map world.swaps := by
  obtain ⟨own, same, lanes⟩ := only
  cases held.symm.trans same
  rw [Hook.get, lanes, mergedSwapFor]
  cases world.inner.mergedByInstrument.get (table.toUppercase pair) <;> rfl

/-- While the sources of `stream_global_depth_serve` build, fail and move, in any order, both
services answer every request alike: not found, until some source of the instrument has been
built, and from then on the sum of its sources' books as they are at that moment. -/
theorem requests_answered [AddCommMonoid Q] {Proto : Type} (toProto : lob.Book → Proto)
    (encode : lob.Book → List UInt8) (lawful : ∀ c, table.Tame c)
    (extending : lob.ExtendsDefault) (field : lob.UpdateIdField) (merges : lob.MergesLevels)
    {list : String} (accepted : parseBookSources table list = .ok sources)
    (unique : (streamIds table sources).Nodup) (ops : List (StreamOp lob)) (pair : String) :
    let state := StreamState.run table sources (some newRegistry) ops
    let ids := state.registeredFor table sources pair
    ∃ registry, state.world.serve = some registry ∧
      ((ids = ∅ ∧
          getLimitOrderBook table toProto state.world.published state.world.swaps registry pair =
            .error (.notFound (table.toUppercase pair)) ∧
          serveBook table encode state.world.published state.world.swaps registry pair =
            (404, [0])) ∨
        ∃ book, state.SumsUp ids book ∧
          getLimitOrderBook table toProto state.world.published state.world.swaps registry pair =
            .ok (toProto book) ∧
          serveBook table encode state.world.published state.world.swaps registry pair =
            (200, encode book)) := by
  intro state ids
  have perm := jobs_streamIds table (parseBookSources_wired accepted).2
  have live : StreamState.Live table sources state :=
    StreamState.run_live extending (perm.nodup_iff.mpr unique) _ ops
  have only : LanesOnly state.world := run_lanesOnly extending ops
  obtain ⟨registry, held, _⟩ := id only
  have found := only.get table held
  have upper : state.world.mergedSwapFor table (table.toUppercase pair) =
      state.world.mergedSwapFor table pair := by
    rw [mergedSwapFor, Rust.CaseTable.toUppercase_idem lawful, mergedSwapFor]
  refine ⟨registry, held, ?_⟩
  simp only [getLimitOrderBook, serveBook, found, upper]
  rcases Finset.eq_empty_or_nonempty ids with absent | present
  · refine .inl ⟨absent, ?_⟩
    simp only [live.lane_none absent, Option.map_none, and_self]
  · obtain ⟨swap, lane, sums⟩ := live.lane_some field merges present
    refine .inr ⟨_, sums, ?_⟩
    simp only [lane, Option.map_some, and_self]

def oneBuilt : StreamState (Lob.levelBooks Nat Int) :=
  .run .asciiOnly StreamState.twoSources (some newRegistry)
    [.build ⟨.binance, 0, "BTCUSDT"⟩ (some (bidBook 4 100 2)),
      .build ⟨.stub, 0, "BTCUSDT"⟩ none]

/-- An encoding to try requests on. -/
def idByte (book : (Lob.levelBooks Nat Int).Book) : List UInt8 :=
  [((Lob.levelBooks Nat Int).updateId book).toUInt8]

theorem requests_answered_one_built : ∃ registry, oneBuilt.world.serve = some registry ∧
    ∃ book, oneBuilt.SumsUp {"binance:BTCUSDT"} book ∧
      serveBook .asciiOnly idByte oneBuilt.world.published oneBuilt.world.swaps registry
        "btcUSDT" = (200, idByte book) := by
  have accepted : parseBookSources .asciiOnly "binance:btcusdt, stub:BTCUSDT" =
      .ok StreamState.twoSources := rfl
  have ids : oneBuilt.registeredFor .asciiOnly StreamState.twoSources "btcUSDT" =
      {"binance:BTCUSDT"} := by decide
  obtain ⟨registry, held, answered⟩ := requests_answered idByte idByte
    Rust.CaseTable.asciiOnly_tame (Lob.levelBooks_extendsDefault Nat Int)
    (Lob.levelBooks_updateIdField Nat Int) (Lob.levelBooks_mergesLevels Nat Int) accepted
    (by decide)
    [.build ⟨.binance, 0, "BTCUSDT"⟩ (some (bidBook 4 100 2)),
      .build ⟨.stub, 0, "BTCUSDT"⟩ none] "btcUSDT"
  refine ⟨registry, held, ?_⟩
  rcases answered with ⟨absent, _⟩ | ⟨book, sums, _, scale⟩
  · exact absurd (ids.symm.trans absent) (by decide)
  · exact ⟨book, ids ▸ sums, scale⟩

end Hub

end Trolly.Servers
