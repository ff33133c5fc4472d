import Mathlib.Data.List.Basic
import Trolly.Lib.Keyed

/-! The metrics of the book server. The globals are set together by the first scrape, and
the recording functions only read them: what is recorded before it is lost. -/
namespace Trolly.Servers

open Keyed

/-- A counter for each value of one label. Clones of a `CounterVec` share its counters. -/
structure CounterVec where
  name : String
  help : String
  label : String
  counters : Map String Nat

def CounterVec.new (name help label : String) : CounterVec := ⟨name, help, label, .empty⟩

/-- `with_label_values(&[value]).inc()` -/
def CounterVec.inc (self : CounterVec) (value : String) : CounterVec :=
  { self with counters := self.counters.insert value ((self.counters.get value).getD 0 + 1) }

/-- The globals of the process, and the counters that their handles point to. -/
structure Metrics where
  REGISTRY : Option (List Nat)
  DEPTH_UPDATES : Option Nat
  MERGE_REFRESHES : Option Nat
  counters : List CounterVec

def Metrics.start : Metrics := ⟨none, none, none, []⟩

/-- `OnceLock::set`; `none` is the panic of setting a cell twice. -/
def setOnce (cell : Option Nat) (handle : Nat) : Option (Option Nat) :=
  match cell with
  | none => some (some handle)
  | some _ => none

/-- `Registry::register`; `none` is the panic on a family that is there already. -/
def register (counters : List CounterVec) (registry : List Nat) (handle : Nat) :
    Option (List Nat) :=
  if registry.any (fun other => (counters[other]?).map CounterVec.name =
      (counters[handle]?).map CounterVec.name) then none
  else some (registry ++ [handle])

def depthUpdatesTotal : CounterVec :=
  .new "trolly_depth_updates_total" "Depth updates applied to a book shard" "stream_id"

def mergeRefreshTotal : CounterVec :=
  .new "trolly_global_book_merge_refresh_total"
    "Global book merge refreshes per canonical instrument" "instrument"

def registry (self : Metrics) : Option Metrics :=
  match self.REGISTRY with
  | some _ => some self
  | none => do
    let depth := self.counters.length
    let counters := self.counters ++ [depthUpdatesTotal]
    let registry ← register counters [] depth
    let depthUpdates ← setOnce self.DEPTH_UPDATES depth
    let merges := counters.length
    let counters := counters ++ [mergeRefreshTotal]
    let registry ← register counters registry merges
    let mergeRefreshes ← setOnce self.MERGE_REFRESHES merges
    some ⟨some registry, depthUpdates, mergeRefreshes, counters⟩

def recordDepthUpdate (self : Metrics) (streamId : String) : Metrics :=
  match self.DEPTH_UPDATES with
  | some counter => { self with counters := self.counters.modify counter (·.inc streamId) }
  | none => self

def recordMergeRefresh (self : Metrics) (instrument : String) : Metrics :=
  match self.MERGE_REFRESHES with
  | some counter => { self with counters := self.counters.modify counter (·.inc instrument) }
  | none => self

/-- `Registry::gather`, the families that are encoded as text. -/
def gather (self : Metrics) : List CounterVec :=
  (self.REGISTRY.getD []).filterMap (self.counters[·]?)

def encode (self : Metrics) : Option (Metrics × List CounterVec) :=
  (registry self).map (fun metrics => (metrics, gather metrics))

inductive Call where
  | recordDepthUpdate (streamId : String)
  | recordMergeRefresh (instrument : String)
  | encode
  deriving DecidableEq

def Metrics.call (self : Metrics) : Call → Option Metrics
  | .recordDepthUpdate streamId => some (recordDepthUpdate self streamId)
  | .recordMergeRefresh instrument => some (recordMergeRefresh self instrument)
  | .encode => (encode self).map Prod.fst

/-- Calls in any order from process start; `none` is a panic. -/
def run (calls : List Call) : Option Metrics := calls.foldlM Metrics.call .start

/-- What a scrape gathers after the calls. -/
def scrape (calls : List Call) : Option (List CounterVec) :=
  (run calls).bind (fun metrics => (encode metrics).map Prod.snd)

/-- The number a scrape shows for one value of a family's label. -/
def reported (families : List CounterVec) (name value : String) : Nat :=
  ((families.find? (·.name = name)).bind (·.counters.get value)).getD 0

/-- A scrape after these calls shows, for every label value, how often it was recorded. -/
def Exact (calls : List Call) : Prop :=
  ∃ families, scrape calls = some families ∧
    (∀ streamId, reported families depthUpdatesTotal.name streamId =
      calls.count (.recordDepthUpdate streamId)) ∧
    ∀ instrument, reported families mergeRefreshTotal.name instrument =
      calls.count (.recordMergeRefresh instrument)

/-! Before the first scrape nothing is counted, and after it everything is. -/

def live (depth merges : Map String Nat) : Metrics :=
  ⟨some [0, 1], some 0, some 1,
    [{ depthUpdatesTotal with counters := depth }, { mergeRefreshTotal with counters := merges }]⟩

theorem registry_start : registry .start = some (live .empty .empty) := by
  simp [registry, Metrics.start, register, setOnce, live, depthUpdatesTotal, mergeRefreshTotal,
    CounterVec.new]

theorem run_unscraped {calls : List Call} (unscraped : .encode ∉ calls) :
    run calls = some .start := by
  unfold run
  induction calls with
  | nil => rfl
  | cons call rest ih =>
    rw [List.mem_cons, not_or] at unscraped
    have here : Metrics.call .start call = some .start := by
      cases call with
      | encode => exact absurd rfl unscraped.1
      | _ => rfl
    rw [List.foldlM_cons, here]
    exact ih unscraped.2

def total (counters : Map String Nat) (value : String) : Nat := (counters.get value).getD 0

theorem total_inc (counters : Map String Nat) (value other : String) :
    total (counters.insert value ((counters.get value).getD 0 + 1)) other =
      total counters other + if other = value then 1 else 0 := by
  unfold total
  rw [Map.get_insert]
  split
  · rename_i same
    rw [same, Option.getD_some]
  · rfl

/-- Once live, every record is counted under its label. -/
theorem run_live (calls : List Call) (depth merges : Map String Nat) :
    ∃ depth' merges', calls.foldlM Metrics.call (live depth merges) = some (live depth' merges') ∧
      (∀ s, total depth' s = total depth s + calls.count (.recordDepthUpdate s)) ∧
      ∀ i, total merges' i = total merges i + calls.count (.recordMergeRefresh i) := by
  induction calls generalizing depth merges with
  | nil => exact ⟨depth, merges, rfl, fun _ => rfl, fun _ => rfl⟩
  | cons call rest ih =>
    rw [List.foldlM_cons]
    cases call with
    | recordDepthUpdate streamId =>
      obtain ⟨depth', merges', ran, updates, refreshes⟩ :=
        ih (depth.insert streamId ((depth.get streamId).getD 0 + 1)) merges
      refine ⟨depth', merges', ran, fun s => ?_, fun i => ?_⟩
      · rw [updates, total_inc, List.count_cons]
        simp only [beq_iff_eq, Call.recordDepthUpdate.injEq, eq_comm (a := s)]
        omega
      · rw [refreshes, List.count_cons_of_ne (by simp)]
    | recordMergeRefresh instrument =>
      obtain ⟨depth', merges', ran, updates, refreshes⟩ :=
        ih depth (merges.insert instrument ((merges.get instrument).getD 0 + 1))
      refine ⟨depth', merges', ran, fun s => ?_, fun i => ?_⟩
      · rw [updates, List.count_cons_of_ne (by simp)]
      · rw [refreshes, total_inc, List.count_cons]
        simp only [beq_iff_eq, Call.recordMergeRefresh.injEq, eq_comm (a := i)]
        omega
    | encode =>
      obtain ⟨depth', merges', ran, updates, refreshes⟩ := ih depth merges
      refine ⟨depth', merges', ran, fun s => ?_, fun i => ?_⟩
      · rw [updates, List.count_cons_of_ne (by simp)]
      · rw [refreshes, List.count_cons_of_ne (by simp)]

theorem reported_live (depth merges : Map String Nat) :
    (∀ s, reported (gather (live depth merges)) depthUpdatesTotal.name s = total depth s) ∧
      ∀ i, reported (gather (live depth merges)) mergeRefreshTotal.name i = total merges i := by
  constructor <;> intro value <;>
    simp [reported, gather, live, depthUpdatesTotal, mergeRefreshTotal, CounterVec.new, total]

/-- The first scrape shows zeros, whatever was recorded before it. -/
theorem scrape_first {calls : List Call} (unscraped : .encode ∉ calls) :
    ∃ families, scrape calls = some families ∧
      (∀ s, reported families depthUpdatesTotal.name s = 0) ∧
      ∀ i, reported families mergeRefreshTotal.name i = 0 := by
  obtain ⟨updates, refreshes⟩ := reported_live .empty .empty
  refine ⟨_, ?_, updates, refreshes⟩
  rw [scrape, run_unscraped unscraped, Option.bind_some, encode, registry_start]
  rfl

/-- Later ones show what was recorded since. -/
theorem scrape_live (calls : List Call) : Exact (.encode :: calls) := by
  obtain ⟨depth, merges, ran, updates, refreshes⟩ := run_live calls .empty .empty
  obtain ⟨shownUpdates, shownRefreshes⟩ := reported_live depth merges
  have first : Metrics.call .start .encode = some (live .empty .empty) := by
    rw [Metrics.call, encode, registry_start]
    rfl
  refine ⟨gather (live depth merges), ?_, fun s => ?_, fun i => ?_⟩
  · rw [scrape, run, List.foldlM_cons, first]
    change Option.bind (calls.foldlM Metrics.call (live .empty .empty)) _ = _
    rw [ran]
    rfl
  · rw [shownUpdates, updates, List.count_cons_of_ne (by simp)]
    exact Nat.zero_add _
  · rw [shownRefreshes, refreshes, List.count_cons_of_ne (by simp)]
    exact Nat.zero_add _

/-- Every scrape of a run is exact precisely when nothing is recorded before the first. -/
theorem scrapes_exact_iff (calls : List Call) :
    (∀ pre post, calls = pre ++ .encode :: post → Exact pre) ↔
      (.encode ∈ calls → calls.head? = some .encode) := by
  constructor
  · intro exact scraped
    obtain ⟨pre, post, split, unscraped⟩ := List.eq_append_cons_of_mem scraped
    obtain ⟨families, shown, updates, refreshes⟩ := exact pre post split
    obtain ⟨same, first, noUpdates, noRefreshes⟩ := scrape_first unscraped
    rw [shown] at first
    cases first
    cases pre with
    | nil => rw [split]; rfl
    | cons call rest =>
      cases call with
      | recordDepthUpdate streamId =>
        have counted := (noUpdates streamId).symm.trans (updates streamId)
        rw [List.count_cons_self] at counted
        omega
      | recordMergeRefresh instrument =>
        have counted := (noRefreshes instrument).symm.trans (refreshes instrument)
        rw [List.count_cons_self] at counted
        omega
      | encode => exact absurd (.head _) unscraped
  · rintro first pre post rfl
    have head := first (by simp)
    cases pre with
    | nil =>
      obtain ⟨families, shown, updates, refreshes⟩ :=
        scrape_first (List.not_mem_nil (a := Call.encode))
      exact ⟨families, shown, updates, refreshes⟩
    | cons call rest =>
      have same : call = .encode := Option.some.inj head
      subst same
      exact scrape_live rest

/-- One depth update before the first scrape, which shows none. -/
theorem first_update_lost :
    scrape [.recordDepthUpdate "binance:BTCUSDT"] = some (gather (live .empty .empty)) ∧
      reported (gather (live .empty .empty)) "trolly_depth_updates_total" "binance:BTCUSDT" = 0 ∧
      ¬ Exact [.recordDepthUpdate "binance:BTCUSDT"] := by
  have shown : scrape [.recordDepthUpdate "binance:BTCUSDT"] =
      some (gather (live .empty .empty)) := by
    rw [scrape, run_unscraped (by simp), Option.bind_some, encode, registry_start]
    rfl
  have none : reported (gather (live .empty .empty)) "trolly_depth_updates_total"
      "binance:BTCUSDT" = 0 := (reported_live .empty .empty).1 "binance:BTCUSDT"
  refine ⟨shown, none, fun exact => ?_⟩
  obtain ⟨families, scraped, updates, _⟩ := exact
  rw [shown] at scraped
  cases scraped
  have counted := none.symm.trans (updates "binance:BTCUSDT")
  rw [List.count_cons_self] at counted
  omega

end Trolly.Servers
