import Trolly.Monitor.DepthStreams
import Trolly.Monitor.SourceText
import Trolly.Std.Split
import Mathlib.Algebra.Order.BigOperators.Group.List
import Mathlib.Algebra.Order.Ring.Nat

/-! The tabs over a list of book sources. A tab groups the streams of an instrument with and
without the RPI overlay, which the hub merges apart: the merged tabs are named after the merge
keys without that overlay. -/
namespace Trolly.Tui

open Rust Trolly.Monitor

/-! ### The strip -/

def STREAM_LABELS : List String := ["binance-usd-m:", "binance:", "stub:"]

/-- Strip the provider and the overlay of a stream id. -/
def canonicalFromStreamId (table : CaseTable) (streamId : String) : String :=
  let sym := (STREAM_LABELS.findSome?
    (fun label => stripPrefix label.toList streamId.toList)).getD streamId.toList
  match stripPrefix RPI_PREFIX.toList sym with
  | some raw => table.toUppercase (String.ofList raw)
  | none => table.toUppercase (String.ofList sym)

inductive TabKind where
  | mergedCanon (instrument : String)
  | sym (streamId : String)
  | diff (instrument : String)
  deriving DecidableEq

inductive View where
  | mergedCanonical (instrument : String)
  | symbol (streamId : String)
  | diff (instrument : String)
  deriving DecidableEq

/-- The names in the order of their first streams; what was seen is what is out. -/
def canonicalFirstSeen (table : CaseTable) (streamOrder : List String) : List String :=
  streamOrder.foldl
    (fun out s =>
      let c := canonicalFromStreamId table s
      if c ∈ out then out else out ++ [c])
    []

/-- The label of each tab and what it shows. -/
def tabStrip (table : CaseTable) (streamOrder : List String) : List (String × TabKind) :=
  (canonicalFirstSeen table streamOrder).flatMap fun c =>
    ("MERGED·" ++ c, .mergedCanon c) ::
      (streamOrder.filter (fun s => canonicalFromStreamId table s = c)).map
        (fun s => (s, .sym s)) ++
      [("Δ·" ++ c, .diff c)]

def viewForTab (tab : Nat) (kinds : List TabKind) : View :=
  match kinds[tab]? with
  | some (.mergedCanon c) => .mergedCanonical c
  | some (.sym s) => .symbol s
  | some (.diff s) => .diff s
  | none => .mergedCanonical ""

/-! ### Which merged views are offered -/

/-- Some tab of the strip shows the merged view of the instrument. -/
def OffersMerged (table : CaseTable) (streamOrder : List String) (instrument : String) : Prop :=
  ∃ tab < (tabStrip table streamOrder).length,
    viewForTab tab ((tabStrip table streamOrder).map Prod.snd) = .mergedCanonical instrument

section Strip

variable {table : CaseTable} {streamOrder : List String}

theorem mem_canonicalFirstSeen (streamOrder : List String) (c : String) :
    c ∈ canonicalFirstSeen table streamOrder ↔
      ∃ s ∈ streamOrder, canonicalFromStreamId table s = c := by
  induction streamOrder using List.reverseRecOn with
  | nil => simp [canonicalFirstSeen]
  | append_singleton before s ih =>
    have step : canonicalFirstSeen table (before ++ [s]) =
        if canonicalFromStreamId table s ∈ canonicalFirstSeen table before then
          canonicalFirstSeen table before
        else canonicalFirstSeen table before ++ [canonicalFromStreamId table s] := by
      rw [canonicalFirstSeen, List.foldl_append]
      rfl
    have members : (∃ t ∈ before ++ [s], canonicalFromStreamId table t = c) ↔
        c ∈ canonicalFirstSeen table before ∨ canonicalFromStreamId table s = c := by
      simp only [List.mem_append, List.mem_singleton, or_and_right, exists_or, exists_eq_left, ih]
    rw [step, members]
    by_cases seen : canonicalFromStreamId table s ∈ canonicalFirstSeen table before
    · rw [if_pos seen, or_iff_left_of_imp]
      exact fun same => same ▸ seen
    · rw [if_neg seen, List.mem_append, List.mem_singleton, eq_comm (a := c)]

theorem merged_mem_tabStrip (c : String) :
    .mergedCanon c ∈ (tabStrip table streamOrder).map Prod.snd ↔
      c ∈ canonicalFirstSeen table streamOrder := by
  simp [tabStrip, List.mem_flatMap]

theorem offersMerged_iff (c : String) :
    OffersMerged table streamOrder c ↔ ∃ s ∈ streamOrder, canonicalFromStreamId table s = c := by
  rw [← mem_canonicalFirstSeen, ← merged_mem_tabStrip, List.mem_iff_getElem?]
  constructor
  · rintro ⟨tab, bound, shown⟩
    refine ⟨tab, ?_⟩
    rw [← List.length_map (f := Prod.snd)] at bound
    rw [viewForTab, List.getElem?_eq_getElem bound] at shown
    rw [List.getElem?_eq_getElem bound]
    cases kind : ((tabStrip table streamOrder).map Prod.snd)[tab] with
    | mergedCanon d =>
      rw [kind] at shown
      cases shown
      rfl
    | sym s =>
      rw [kind] at shown
      cases shown
    | diff d =>
      rw [kind] at shown
      cases shown
  · rintro ⟨tab, found⟩
    have bound := (List.getElem?_eq_some_iff.mp found).1
    rw [List.length_map] at bound
    exact ⟨tab, bound, by rw [viewForTab, found]⟩

end Strip

/-! ### The names of the sources -/

/-- What the tabs call a source: its merge key without the RPI overlay. A venue that is not
wired stays in front. -/
def tabName (source : BookSource) : String :=
  match source.provider with
  | .other => "OTHER:" ++ source.canonicalInstrument
  | _ => (stripRpi source.canonicalInstrument).1

/-- The merged tabs name the merge keys of the sources, no other instrument and every one. -/
structure NamesMergeKeys (table : CaseTable) (sources : List BookSource) : Prop where
  sound : ∀ c, OffersMerged table (sources.map BookSource.streamId) c →
    ∃ source ∈ sources, source.canonicalInstrument = c
  complete : ∀ source ∈ sources,
    OffersMerged table (sources.map BookSource.streamId) source.canonicalInstrument

/-- The symbol of the RPI overlay. -/
def IsOverlay (symbol : String) : Prop := RPI_PREFIX.toList <+: symbol.toList

theorem stripRpi_overlay {symbol : String} (overlay : IsOverlay symbol) :
    symbol = RPI_PREFIX ++ (stripRpi symbol).1 := by
  obtain ⟨raw, split⟩ := overlay
  rw [stripRpi, ← split, stripPrefix_append, ← String.toList_inj, String.toList_append, ← split]
  simp

theorem stripRpi_plain {symbol : String} (plain : ¬IsOverlay symbol) :
    stripPrefix RPI_PREFIX.toList symbol.toList = none := by
  refine if_neg ?_
  rwa [List.isPrefixOf_iff_prefix]

section Names

variable {table : CaseTable}

theorem toUppercase_fixed {cs : List Char} (fixed : ∀ c ∈ cs, table.upper c = [c]) :
    table.toUppercase (String.ofList cs) = String.ofList cs := by
  rw [CaseTable.toUppercase, String.toList_ofList, CaseTable.upper_fixed fixed]

/-- Behind the venue only the overlay is taken away. -/
theorem canonicalFromStreamId_wired {streamId symbol : String}
    (found : STREAM_LABELS.findSome? (fun label => stripPrefix label.toList streamId.toList) =
      some symbol.toList) (fixed : ∀ c ∈ symbol.toList, table.upper c = [c]) :
    canonicalFromStreamId table streamId = (stripRpi symbol).1 := by
  rw [canonicalFromStreamId, found, Option.getD_some, stripRpi]
  cases strip : stripPrefix RPI_PREFIX.toList symbol.toList with
  | none => rw [toUppercase_fixed fixed, String.ofList_toList]
  | some raw =>
    refine toUppercase_fixed (fun c member => fixed c ?_)
    obtain ⟨_, rest⟩ := Option.ite_none_right_eq_some.mp strip
    rw [← Option.some.inj rest] at member
    exact List.mem_of_mem_drop member

theorem findSome_wired {source : BookSource} (wired : source.provider ≠ .other) :
    STREAM_LABELS.findSome? (fun label => stripPrefix label.toList source.streamId.toList) =
      some source.symbol.toList := by
  obtain ⟨provider, symbol⟩ := source
  rw [BookSource.streamId_toList]
  cases provider with
  | other => exact absurd rfl wired
  | _ => simp [STREAM_LABELS, stripPrefix, Provider.label]

theorem findSome_other (symbol : String) :
    STREAM_LABELS.findSome?
      (fun label => stripPrefix label.toList (BookSource.mk .other symbol).streamId.toList) =
        none := by
  rw [BookSource.streamId_toList]
  simp [STREAM_LABELS, stripPrefix, Provider.label]

/-- `BookSource::new` made the source. -/
def Built (table : CaseTable) (source : BookSource) : Prop :=
  ∃ symbol, source = BookSource.new table source.provider symbol

variable (lawful : ∀ c, table.Tame c)

include lawful

theorem Built.fixed {source : BookSource} (built : Built table source) :
    ∀ c ∈ source.symbol.toList, table.upper c = [c] := by
  obtain ⟨symbol, made⟩ := built
  rw [made, BookSource.new, CaseTable.toUppercase_toList]
  exact CaseTable.fixed_upper (fun c _ => lawful c)

theorem canonicalFromStreamId_streamId {source : BookSource} (built : Built table source) :
    canonicalFromStreamId table source.streamId = tabName source := by
  have fixed := built.fixed lawful
  by_cases wired : source.provider ≠ .other
  · rw [canonicalFromStreamId_wired (findSome_wired wired) fixed, tabName]
    cases kind : source.provider with
    | other => exact absurd kind wired
    | _ => rfl
  · rw [not_ne_iff] at wired
    obtain ⟨provider, symbol⟩ := source
    subst wired
    have start : stripPrefix RPI_PREFIX.toList (BookSource.mk .other symbol).streamId.toList =
        none := by
      rw [BookSource.streamId_toList]
      simp [RPI_PREFIX, stripPrefix, Provider.label]
    have venue : ∀ c ∈ "other:".toList, table.upper c = [c.toUpper] :=
      fun c member => table.ascii c (ascii_of_all (by decide) c member)
    rw [canonicalFromStreamId, findSome_other, Option.getD_none, start]
    simp only [CaseTable.toUppercase, String.ofList_toList]
    rw [← String.toList_inj, String.toList_ofList]
    have split : (BookSource.mk .other symbol).streamId.toList =
        "other:".toList ++ symbol.toList := by
      rw [BookSource.streamId_toList]
      simp [Provider.label]
    rw [split, List.flatMap_append, List.flatMap_congr venue, CaseTable.upper_fixed fixed]
    simp [tabName, BookSource.canonicalInstrument]

theorem offersMerged_sources {sources : List BookSource} (built : ∀ s ∈ sources, Built table s)
    (c : String) :
    OffersMerged table (sources.map BookSource.streamId) c ↔ ∃ s ∈ sources, tabName s = c := by
  rw [offersMerged_iff]
  constructor
  · rintro ⟨_, listed, rfl⟩
    obtain ⟨s, member, rfl⟩ := List.mem_map.mp listed
    exact ⟨s, member, (canonicalFromStreamId_streamId lawful (built s member)).symm⟩
  · rintro ⟨s, member, rfl⟩
    exact ⟨s.streamId, List.mem_map_of_mem member,
      canonicalFromStreamId_streamId lawful (built s member)⟩

end Names

section Keys

variable {table : CaseTable} (lawful : ∀ c, table.Tame c) {sources : List BookSource}
  (built : ∀ s ∈ sources, Built table s)

theorem tabName_plain {source : BookSource} (wired : source.provider ≠ .other)
    (plain : ¬IsOverlay source.symbol) : tabName source = source.symbol := by
  have name : tabName source = (stripRpi source.symbol).1 := by
    rw [tabName]
    cases kind : source.provider with
    | other => exact absurd kind wired
    | _ => rfl
  rw [name, stripRpi, stripRpi_plain plain]

theorem tabName_overlay {source : BookSource} (wired : source.provider ≠ .other)
    (overlay : IsOverlay source.symbol) : source.symbol = RPI_PREFIX ++ tabName source := by
  have name : tabName source = (stripRpi source.symbol).1 := by
    rw [tabName]
    cases kind : source.provider with
    | other => exact absurd kind wired
    | _ => rfl
  rw [name]
  exact stripRpi_overlay overlay

include lawful built

/-- The tab that names a symbol with the overlay belongs to a longer such symbol. -/
theorem longer_overlay (wired : ∀ s ∈ sources, s.provider ≠ .other)
    (names : NamesMergeKeys table sources) {s : BookSource} (member : s ∈ sources)
    (overlay : IsOverlay s.symbol) :
    ∃ t ∈ sources, IsOverlay t.symbol ∧ s.symbol.toList.length < t.symbol.toList.length := by
  obtain ⟨t, listed, named⟩ :=
    (offersMerged_sources lawful built s.canonicalInstrument).mp (names.complete s member)
  have same : tabName t = s.symbol := named
  by_cases twice : IsOverlay t.symbol
  · refine ⟨t, listed, twice, ?_⟩
    rw [tabName_overlay (wired t listed) twice, same, String.toList_append, List.length_append]
    exact Nat.lt_add_of_pos_left (by decide)
  · rw [tabName_plain (wired t listed) twice] at same
    rw [same] at twice
    exact absurd overlay twice

/-- A symbol with the overlay is named by no tab of finitely many. -/
theorem namesMergeKeys_iff (wired : ∀ s ∈ sources, s.provider ≠ .other) :
    NamesMergeKeys table sources ↔ ∀ s ∈ sources, ¬IsOverlay s.symbol := by
  constructor
  · intro names s member overlay
    have unbounded : ∀ n, ∃ t ∈ sources, IsOverlay t.symbol ∧ n ≤ t.symbol.toList.length := by
      intro n
      induction n with
      | zero => exact ⟨s, member, overlay, Nat.zero_le _⟩
      | succ n ih =>
        obtain ⟨t, listed, again, long⟩ := ih
        obtain ⟨u, inside, more, longer⟩ := longer_overlay lawful built wired names listed again
        exact ⟨u, inside, more, Nat.lt_of_le_of_lt long longer⟩
    let lengths := sources.map (fun s => s.symbol.toList.length)
    obtain ⟨t, listed, _, long⟩ := unbounded (lengths.sum + 1)
    have bound : t.symbol.toList.length ≤ lengths.sum :=
      List.single_le_sum (fun _ _ => Nat.zero_le _) _ (List.mem_map_of_mem listed)
    omega
  · intro plain
    refine ⟨fun c offered => ?_, fun s member => ?_⟩
    · obtain ⟨s, member, rfl⟩ := (offersMerged_sources lawful built c).mp offered
      exact ⟨s, member, (tabName_plain (wired s member) (plain s member)).symm⟩
    · exact (offersMerged_sources lawful built _).mpr
        ⟨s, member, tabName_plain (wired s member) (plain s member)⟩

/-- The merged tabs of a list of sources are the merge keys without the RPI overlay. They are
the merge keys themselves exactly when no source has it. -/
theorem merged_tabs :
    (∀ c, OffersMerged table (sources.map BookSource.streamId) c ↔
      ∃ s ∈ sources, tabName s = c) ∧
    ((∀ s ∈ sources, s.provider ≠ .other) →
      (NamesMergeKeys table sources ↔ ∀ s ∈ sources, ¬IsOverlay s.symbol)) :=
  ⟨offersMerged_sources lawful built, namesMergeKeys_iff lawful built⟩

end Keys

/-- A standard and an RPI leg of one instrument. -/
def standardAndRpi : List BookSource :=
  [.new .asciiOnly .binanceUsdM "btcusdt", .new .asciiOnly .binanceUsdM "rpi:btcusdt"]

theorem standardAndRpi_built : ∀ s ∈ standardAndRpi, Built CaseTable.asciiOnly s := by
  intro s member
  simp only [standardAndRpi, List.mem_cons, List.not_mem_nil, or_false] at member
  rcases member with rfl | rfl
  · exact ⟨_, rfl⟩
  · exact ⟨_, rfl⟩

theorem merged_tabs_standard_and_rpi :
    (∀ c, CaseTable.asciiOnly.Tame c) ∧ (∀ s ∈ standardAndRpi, Built CaseTable.asciiOnly s) ∧
    (∀ c, OffersMerged CaseTable.asciiOnly (standardAndRpi.map BookSource.streamId) c ↔
      ∃ s ∈ standardAndRpi, tabName s = c) ∧
    ((∀ s ∈ standardAndRpi, s.provider ≠ .other) →
      (NamesMergeKeys CaseTable.asciiOnly standardAndRpi ↔
        ∀ s ∈ standardAndRpi, ¬IsOverlay s.symbol)) :=
  ⟨CaseTable.asciiOnly_tame, standardAndRpi_built,
    merged_tabs CaseTable.asciiOnly_tame standardAndRpi_built⟩

/-- The merge key of the RPI leg is on no tab, and alone it is shown under a name that is no
merge key. -/
theorem rpi_leg_not_named :
    standardAndRpi.map BookSource.canonicalInstrument = ["BTCUSDT", "RPI:BTCUSDT"] ∧
    (tabStrip .asciiOnly (standardAndRpi.map BookSource.streamId)).map Prod.fst =
      ["MERGED·BTCUSDT", "binance-usd-m:BTCUSDT", "binance-usd-m:RPI:BTCUSDT", "Δ·BTCUSDT"] ∧
    ¬NamesMergeKeys .asciiOnly standardAndRpi ∧
    ¬NamesMergeKeys .asciiOnly [.new .asciiOnly .binanceUsdM "RPI:BTCUSDT"] := by
  have named : ∀ sources, ∀ key ∈ sources.map BookSource.canonicalInstrument,
      key ∉ (sources.map BookSource.streamId).map (canonicalFromStreamId .asciiOnly) →
      ¬NamesMergeKeys .asciiOnly sources := by
    intro sources key listed absent names
    obtain ⟨s, member, rfl⟩ := List.mem_map.mp listed
    obtain ⟨id, shown, same⟩ := (offersMerged_iff _).mp (names.complete s member)
    exact absent (same ▸ List.mem_map_of_mem shown)
  refine ⟨by decide +kernel, by decide +kernel, ?_, ?_⟩
  · exact named _ "RPI:BTCUSDT" (by decide +kernel) (by decide +kernel)
  · exact named _ "RPI:BTCUSDT" (by decide +kernel) (by decide +kernel)

end Trolly.Tui
