import Trolly.Lib.Traversal
import Trolly.Monitor.BookSource
import Trolly.Std.Casing

/-! Book sources as text: the stream ids that a list is rendered to, and which lists read
back as themselves. -/
namespace Trolly.Monitor

open Rust Traversal

/-- The stream ids of the sources, joined by commas. -/
def renderSources (sources : List BookSource) : String :=
  String.ofList ([','].intercalate (sources.map (fun source => source.streamId.toList)))

/-- A symbol that reading leaves alone: no comma, no outer blank, all upper case. -/
structure Canonical (table : CaseTable) (symbol : String) : Prop where
  shown : symbol.toList ≠ []
  noComma : ',' ∉ symbol.toList
  trimmed : Trimmed symbol.toList
  upper : ∀ c ∈ symbol.toList, table.upper c = [c]

section Symbols

variable {table : CaseTable}

theorem Canonical.trim_eq {symbol : String} (canonical : Canonical table symbol) :
    trim symbol = symbol := by
  rw [trim, trimChars_eq_self canonical.trimmed, String.ofList_toList]

theorem Canonical.toUppercase_eq {symbol : String} (canonical : Canonical table symbol) :
    table.toUppercase symbol = symbol := by
  rw [CaseTable.toUppercase, CaseTable.upper_fixed canonical.upper, String.ofList_toList]

/-- What `BookSource::new` stores is canonical. -/
theorem new_canonical {symbol : String} (tame : ∀ c ∈ symbol.toList, table.Tame c)
    (shown : trim symbol ≠ "") (noComma : ',' ∉ symbol.toList) :
    Canonical table (table.toUppercase (trim symbol)) := by
  have inner : ∀ c ∈ trimChars symbol.toList, c ∈ symbol.toList :=
    fun c member => (trimChars_within symbol.toList).mem member
  have tame : ∀ c ∈ trimChars symbol.toList, table.Tame c :=
    fun c member => tame c (inner c member)
  have text : (table.toUppercase (trim symbol)).toList =
      (trimChars symbol.toList).flatMap table.upper := by
    rw [CaseTable.toUppercase_toList, trim, String.toList_ofList]
  constructor
  · rw [text, Ne, CaseTable.upper_eq_nil_iff tame]
    exact ne_nil_of_trim shown
  · rw [text]
    exact fun comma => noComma (inner _ (CaseTable.comma_of_upper tame comma))
  · rw [text, CaseTable.trimmed_upper_iff tame]
    exact trimChars_trimmed _
  · rw [text]
    exact CaseTable.fixed_upper tame

theorem fromLabel_label {provider : Provider} (wired : provider ≠ .other) :
    Provider.fromLabel provider.label = some provider := by
  cases provider with
  | other => exact absurd rfl wired
  | _ => rfl

theorem label_ends (provider : Provider) :
    provider.label.toList ≠ [] ∧ ∀ c ∈ provider.label.toList.head?, isWhitespace c = false := by
  cases provider <;> exact ⟨by decide, fun c head => by cases head; rfl⟩

theorem label_noComma (provider : Provider) : ',' ∉ provider.label.toList := by
  cases provider <;> decide

end Symbols

namespace BookSource

variable {table : CaseTable} {source : BookSource}

theorem streamId_toList (source : BookSource) :
    source.streamId.toList = source.provider.label.toList ++ ':' :: source.symbol.toList := by
  simp [streamId]

theorem streamId_trimmed (canonical : Canonical table source.symbol) :
    Trimmed source.streamId.toList := by
  obtain ⟨labelled, first⟩ := label_ends source.provider
  rw [streamId_toList]
  constructor
  · rwa [List.head?_append_of_ne_nil _ labelled]
  · rw [List.append_cons, List.getLast?_append_of_ne_nil _ canonical.shown]
    exact canonical.trimmed.2

theorem streamId_noComma (canonical : Canonical table source.symbol) :
    ',' ∉ source.streamId.toList := by
  rw [streamId_toList, List.mem_append, List.mem_cons]
  rintro (label | colon | symbol)
  · exact label_noComma _ label
  · exact absurd colon (by decide)
  · exact canonical.noComma symbol

/-- A stream id reads back as its source. -/
theorem parse_streamId (canonical : Canonical table source.symbol)
    (wired : source.provider ≠ .other) : parse table source.streamId = .ok source := by
  have whole : trim source.streamId = source.streamId := by
    rw [trim, trimChars_eq_self (streamId_trimmed canonical), String.ofList_toList]
  have shown : source.symbol ≠ "" := by
    rintro empty
    exact canonical.shown (by rw [empty]; rfl)
  unfold parse
  simp only [whole]
  rw [streamId_toList, splitOnce_append source.provider.label_noColon]
  simp only [String.ofList_toList, fromLabel_label wired, canonical.trim_eq, if_neg shown, new,
    canonical.toUppercase_eq]

/-- What is read has been built by `new` from a symbol of the text. -/
theorem parse_ok {raw : String} (parsed : parse table raw = .ok source) :
    ∃ symbol, (∀ c ∈ symbol.toList, c ∈ raw.toList) ∧ trim symbol ≠ "" ∧
      source = new table source.provider symbol := by
  unfold parse at parsed
  simp only at parsed
  split at parsed
  · cases parsed
  rename_i label symbol split
  split at parsed
  · cases parsed
  split_ifs at parsed with blank
  cases parsed
  refine ⟨String.ofList symbol, fun c member => ?_, blank, rfl⟩
  rw [String.toList_ofList] at member
  apply (trimChars_within raw.toList).mem
  rw [trim, String.toList_ofList] at split
  rw [splitOnce_some split]
  exact List.mem_append_right _ (.tail _ member)

end BookSource

/-! Lists of sources. -/

section Lists

variable {table : CaseTable} {sources : List BookSource}

theorem render_splitOn (canonical : ∀ source ∈ sources, Canonical table source.symbol)
    (nonempty : sources ≠ []) :
    (renderSources sources).toList.splitOn ',' =
      sources.map (fun source => source.streamId.toList) := by
  rw [renderSources, String.toList_ofList]
  refine List.splitOn_intercalate ',' ?_ (by simpa using nonempty)
  intro part member
  obtain ⟨source, listed, rfl⟩ := List.mem_map.mp member
  exact BookSource.streamId_noComma (canonical source listed)

/-- A list of canonical sources of wired venues reads back as itself. -/
theorem parseBookSources_render (nonempty : sources ≠ [])
    (canonical : ∀ source ∈ sources, Canonical table source.symbol)
    (wired : ∀ source ∈ sources, source.provider ≠ .other) :
    parseBookSources table (renderSources sources) = .ok sources := by
  have parts : (sources.map (fun source => source.streamId.toList)).map
      (fun part => trim (String.ofList part)) = sources.map BookSource.streamId := by
    rw [List.map_map]
    refine List.map_congr_left (fun source listed => ?_)
    rw [Function.comp_apply, String.ofList_toList, trim,
      trimChars_eq_self (BookSource.streamId_trimmed (canonical source listed)),
      String.ofList_toList]
  have shown : (sources.map BookSource.streamId).filter (· ≠ "") =
      sources.map BookSource.streamId := by
    refine List.filter_eq_self.mpr (fun part member => decide_eq_true ?_)
    obtain ⟨source, _, rfl⟩ := List.mem_map.mp member
    intro empty
    have text := BookSource.streamId_toList source
    rw [empty] at text
    simp at text
  have read : (sources.map BookSource.streamId).mapM (BookSource.parse table) = .ok sources := by
    apply mapM_of_forall₂
    rw [List.forall₂_map_left_iff, List.forall₂_same]
    exact fun source listed =>
      BookSource.parse_streamId (canonical source listed) (wired source listed)
  simp only [parseBookSources, render_splitOn canonical nonempty, parts, shown, read]
  exact if_neg nonempty

/-- Every source of an accepted list is built from a symbol without commas. -/
theorem parseBookSources_built {list : String}
    (accepted : parseBookSources table list = .ok sources) :
    ∀ source ∈ sources, ∃ symbol, ',' ∉ symbol.toList ∧ trim symbol ≠ "" ∧
      source = .new table source.provider symbol := by
  simp only [parseBookSources, bind, Except.bind] at accepted
  split at accepted
  · cases accepted
  rename_i out read
  split_ifs at accepted
  cases accepted
  intro source listed
  obtain ⟨part, kept, parsed⟩ := mapM_mem read listed
  obtain ⟨symbol, within, shown, built⟩ := BookSource.parse_ok parsed
  refine ⟨symbol, fun comma => ?_, shown, built⟩
  obtain ⟨piece, cut, rfl⟩ := List.mem_map.mp (List.mem_filter.mp kept).1
  have inside := within ',' comma
  rw [trim, String.toList_ofList, String.toList_ofList] at inside
  exact not_mem_of_mem_splitOn cut ((trimChars_within piece).mem inside)

theorem parseBookSources_canonical (lawful : ∀ c, table.Tame c) {list : String}
    (accepted : parseBookSources table list = .ok sources) :
    ∀ source ∈ sources, Canonical table source.symbol := by
  intro source listed
  obtain ⟨symbol, noComma, shown, built⟩ := parseBookSources_built accepted source listed
  rw [built]
  exact new_canonical (fun c _ => lawful c) shown noComma

end Lists

/-- An ASCII symbol that is not blank and contains no comma. -/
structure Listable (symbol : String) : Prop where
  ascii : ∀ c ∈ symbol.toList, c.toNat < 128
  shown : trim symbol ≠ ""
  noComma : ',' ∉ symbol.toList

/-- A rendered list of sources reads back exactly when it names no unwired venue, and what
has been read once always does. -/
theorem sources_round_trip_iff {table : CaseTable} (lawful : ∀ c, table.Tame c) :
    (∀ feeds : List (Provider × String), feeds ≠ [] → (∀ feed ∈ feeds, Listable feed.2) →
      (parseBookSources table
          (renderSources (feeds.map (fun feed => .new table feed.1 feed.2))) =
        .ok (feeds.map (fun feed => .new table feed.1 feed.2)) ↔
        ∀ feed ∈ feeds, feed.1 ≠ .other)) ∧
      ∀ list sources, parseBookSources table list = .ok sources →
        parseBookSources table (renderSources sources) = .ok sources := by
  refine ⟨fun feeds nonempty listable => ⟨fun reads feed listed => ?_, fun wired => ?_⟩, ?_⟩
  · have wired := (parseBookSources_wired reads).2
    exact wired _ (List.mem_map_of_mem listed)
  · refine parseBookSources_render (by simpa using nonempty) ?_ ?_ <;> intro source listed <;>
      obtain ⟨feed, member, rfl⟩ := List.mem_map.mp listed
    · have fits := listable feed member
      exact new_canonical (fun c inside => table.tame_ascii (fits.ascii c inside)) fits.shown
        fits.noComma
    · exact wired feed member
  · intro list sources accepted
    obtain ⟨nonempty, wired⟩ := parseBookSources_wired accepted
    exact parseBookSources_render nonempty (parseBookSources_canonical lawful accepted) wired

/-! The third venue of the documentation. -/

/-- The label that `Provider::Other` renders to is not one that reads. -/
theorem other_unreadable :
    Listable "BTCUSDT" ∧
      renderSources [.new .asciiOnly .other "BTCUSDT"] = "other:BTCUSDT" ∧
      parseBookSources .asciiOnly "other:BTCUSDT" = .error (.unknownProvider "other") :=
  ⟨⟨ascii_of_all (by decide), by decide, by decide⟩, by decide, by decide⟩

theorem sources_round_trip_ascii :
    parseBookSources .asciiOnly (renderSources [.new .asciiOnly .binanceUsdM " rpi:btcusdc"]) =
        .ok [.new .asciiOnly .binanceUsdM " rpi:btcusdc"] ↔
      ∀ feed ∈ [(Provider.binanceUsdM, " rpi:btcusdc")], feed.1 ≠ .other :=
  (sources_round_trip_iff CaseTable.asciiOnly_tame).1 [(.binanceUsdM, " rpi:btcusdc")] (by simp)
    (by simpa using ⟨ascii_of_all (by decide), by decide, by decide⟩)

end Trolly.Monitor
