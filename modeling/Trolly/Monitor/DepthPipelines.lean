import Trolly.Monitor.SourceText

/-! The two single-venue depth pipelines. Both take `--symbols` as free text; echo trims its
parts and skips the empty ones, serve takes them as they are. -/
namespace Trolly.Monitor

open Rust

inductive DepthOutput where
  | serve
  | global
  | echo
  deriving DecidableEq

structure DepthConfig where
  provider : Provider
  symbols : String
  sources : Option String
  serverPort : Option UInt16
  output : DepthOutput

inductive ConfigError where
  | message (text : String)
  | source (error : SourceError)
  deriving DecidableEq

/-- The comma-separated parts of a text, as they are. -/
def commaParts (text : String) : List String := (text.toList.splitOn ',').map String.ofList

def DepthConfig.validate (table : CaseTable) (self : DepthConfig) : Except ConfigError Unit :=
  match self.output with
  | .global =>
    match self.sources with
    | none => .error (.message "--sources is required when --output global")
    | some sources =>
      if trim sources = "" then
        .error (.message "--sources must list at least one provider:SYMBOL")
      else
        match parseBookSources table sources with
        | .ok _ => .ok ()
        | .error e => .error (.source e)
  | .serve | .echo =>
    if (commaParts self.symbols).all (fun s => trim s = "") then
      .error (.message "--symbols must list at least one pair")
    else .ok ()

/-- One run of `stream`: the symbols it subscribes to, and the key of the handler that is
built for each of them. -/
structure Streaming where
  provider : Provider
  subscribed : List String
  handlers : List String
  deriving DecidableEq

/-- `build` is the key under which the handler of a symbol is built. -/
def stream (build : String → String) (provider : Provider) (symbols : List String) : Streaming :=
  ⟨provider, symbols, symbols.map build⟩

/-- `EchoDepth::build` upper-cases the symbol. -/
def echoBuild (table : CaseTable) (symbol : String) : String := table.toUppercase symbol

/-- `OrderBook::build` keeps the symbol. -/
def orderBookBuild (symbol : String) : String := symbol

def streamDepthEcho (table : CaseTable) (provider : Provider) (symbols : String) :
    Option Streaming :=
  let symbols := table.toUppercase symbols
  let syms := ((commaParts symbols).map trim).filter (· ≠ "")
  match provider with
  | .binance | .binanceUsdM | .stub => some (stream (echoBuild table) provider syms)
  | .other => none

/-- The book server, which starts once `waits` books have arrived, and the stream. -/
structure Serving where
  port : UInt16
  waits : Nat
  streaming : Option Streaming
  deriving DecidableEq

def streamDepthServe (table : CaseTable) (cfg : DepthConfig) : Serving :=
  let port := cfg.serverPort.getD 50051
  let n := (commaParts cfg.symbols).length
  let symbols := table.toUppercase cfg.symbols
  let syms := commaParts symbols
  ⟨port, n, match cfg.provider with
    | .binance | .binanceUsdM | .stub => some (stream orderBookBuild cfg.provider syms)
    | .other => none⟩

/-! What the user asks for, and when serve does it. -/

/-- The comma-separated parts, upper-cased, trimmed and non-empty. -/
def listedSymbols (table : CaseTable) (symbols : String) : List String :=
  ((commaParts symbols).map (fun part => trim (table.toUppercase part))).filter (· ≠ "")

/-- A stream that subscribes to the listed symbols and has a handler under each of them. -/
def Streams (table : CaseTable) (symbols : String) (streaming : Option Streaming) : Prop :=
  ∃ s, streaming = some s ∧ s.subscribed = listedSymbols table symbols ∧
    s.handlers = listedSymbols table symbols

structure PipelinesAgree (table : CaseTable) (cfg : DepthConfig) : Prop where
  echo : Streams table cfg.symbols (streamDepthEcho table cfg.provider cfg.symbols)
  serve : Streams table cfg.symbols (streamDepthServe table cfg).streaming
  waits : (streamDepthServe table cfg).waits = (listedSymbols table cfg.symbols).length

/-- No part is empty or has an outer blank. -/
def CleanParts (symbols : String) : Prop :=
  ∀ part ∈ commaParts symbols, part ≠ "" ∧ trim part = part

section Parts

variable {table : CaseTable}

theorem commaParts_upper (lawful : ∀ c, table.Tame c) (symbols : String) :
    commaParts (table.toUppercase symbols) = (commaParts symbols).map table.toUppercase := by
  rw [commaParts, CaseTable.toUppercase_toList, CaseTable.splitOn_upper lawful, commaParts,
    List.map_map, List.map_map]
  refine List.map_congr_left (fun part _ => ?_)
  simp [CaseTable.toUppercase]

theorem clean_upper_iff (lawful : ∀ c, table.Tame c) (part : String) :
    (table.toUppercase part ≠ "" ∧ trim (table.toUppercase part) = table.toUppercase part) ↔
      part ≠ "" ∧ trim part = part := by
  have tame : ∀ c ∈ part.toList, table.Tame c := fun c _ => lawful c
  have empty : table.toUppercase part = "" ↔ part = "" := by
    rw [← String.toList_eq_nil_iff, CaseTable.toUppercase_toList, CaseTable.upper_eq_nil_iff tame,
      String.toList_eq_nil_iff]
  rw [Ne, empty, trim_eq_self_iff, trim_eq_self_iff, CaseTable.toUppercase_toList,
    CaseTable.trimmed_upper_iff tame]

/-- A key that echo upper-cases again does not move. -/
theorem echoBuild_trim (lawful : ∀ c, table.Tame c) (part : String) :
    echoBuild table (trim (table.toUppercase part)) = trim (table.toUppercase part) := by
  have fixed : ∀ c ∈ (trim (table.toUppercase part)).toList, table.upper c = [c] := by
    intro c member
    rw [trim, String.toList_ofList, CaseTable.toUppercase_toList] at member
    exact CaseTable.fixed_upper (fun d _ => lawful d) c ((trimChars_within _).mem member)
  rw [echoBuild, CaseTable.toUppercase, CaseTable.upper_fixed fixed, String.ofList_toList]

/-- Trimming and dropping the empty parts changes nothing exactly when every part is clean. -/
theorem trimmed_parts_iff (parts : List String) :
    (parts.map trim).filter (· ≠ "") = parts ↔ ∀ part ∈ parts, part ≠ "" ∧ trim part = part := by
  constructor
  · intro same
    have lengths : ((parts.map trim).filter (· ≠ "")).length = (parts.map trim).length := by
      rw [same, List.length_map]
    have kept := List.filter_eq_self.mpr (List.length_filter_eq_length_iff.mp lengths)
    rw [kept] at same
    have each := List.map_inj_left.mp (same.trans (List.map_id parts).symm)
    intro part member
    have trimmed : trim part = part := each part member
    have shown := List.length_filter_eq_length_iff.mp lengths _ (List.mem_map_of_mem member)
    exact ⟨trimmed ▸ of_decide_eq_true shown, trimmed⟩
  · intro clean
    have trimmed : parts.map trim = parts :=
      (List.map_congr_left (fun part member => (clean part member).2)).trans (List.map_id parts)
    rw [trimmed, List.filter_eq_self]
    exact fun part member => decide_eq_true (clean part member).1

end Parts

theorem streamDepthEcho_streams {table : CaseTable} (lawful : ∀ c, table.Tame c)
    (provider : Provider) (symbols : String) :
    Streams table symbols (streamDepthEcho table provider symbols) ↔ provider ≠ .other := by
  have syms : ((commaParts (table.toUppercase symbols)).map trim).filter (· ≠ "") =
      listedSymbols table symbols := by
    rw [commaParts_upper lawful, List.map_map]
    rfl
  have built : (listedSymbols table symbols).map (echoBuild table) =
      listedSymbols table symbols := by
    refine (List.map_congr_left (fun key member => ?_)).trans (List.map_id _)
    obtain ⟨part, _, rfl⟩ := List.mem_map.mp (List.mem_filter.mp member).1
    exact echoBuild_trim lawful part
  have wired : Streams table symbols
      (some (stream (echoBuild table) provider (listedSymbols table symbols))) :=
    ⟨_, rfl, rfl, built⟩
  simp only [streamDepthEcho, syms]
  cases provider with
  | other => simp [Streams]
  | _ => exact iff_of_true wired (by decide)

/-- The parts as serve takes them are the listed symbols exactly when all are clean. -/
theorem commaParts_listed_iff {table : CaseTable} (lawful : ∀ c, table.Tame c) (symbols : String) :
    commaParts (table.toUppercase symbols) = listedSymbols table symbols ↔ CleanParts symbols := by
  have parts := trimmed_parts_iff ((commaParts symbols).map table.toUppercase)
  rw [List.map_map] at parts
  rw [commaParts_upper lawful, eq_comm]
  refine parts.trans ?_
  simp only [List.forall_mem_map, clean_upper_iff lawful, CleanParts]

theorem streamDepthServe_streams {table : CaseTable} (lawful : ∀ c, table.Tame c)
    (cfg : DepthConfig) :
    Streams table cfg.symbols (streamDepthServe table cfg).streaming ↔
      cfg.provider ≠ .other ∧ CleanParts cfg.symbols := by
  have kept : ∀ syms : List String, syms.map orderBookBuild = syms := List.map_id
  rw [← commaParts_listed_iff lawful]
  unfold streamDepthServe Streams
  cases cfg.provider with
  | other => simp
  | _ => simp [stream, kept]

/-- Serve subscribes to, builds handlers for and waits for what echo does, exactly when the
venue is wired and the list has no empty part and no outer blank. -/
theorem pipelines_agree_iff {table : CaseTable} (lawful : ∀ c, table.Tame c) (cfg : DepthConfig) :
    PipelinesAgree table cfg ↔ cfg.provider ≠ .other ∧ CleanParts cfg.symbols := by
  constructor
  · exact fun agree => (streamDepthServe_streams lawful cfg).mp agree.serve
  · intro clean
    refine ⟨(streamDepthEcho_streams lawful _ _).mpr clean.1,
      (streamDepthServe_streams lawful cfg).mpr clean, ?_⟩
    rw [← (commaParts_listed_iff lawful cfg.symbols).mpr clean.2, commaParts_upper lawful,
      List.length_map]
    rfl

/-! A blank after the comma. -/

def spacedConfig : DepthConfig := ⟨.binance, "btcusdt, ethusdt", none, none, .serve⟩

/-- Serve subscribes to and keys a handler by a symbol that starts with a blank. -/
theorem spaced_symbol_kept :
    spacedConfig.validate .asciiOnly = .ok () ∧
      streamDepthServe .asciiOnly spacedConfig =
        ⟨50051, 2, some ⟨.binance, ["BTCUSDT", " ETHUSDT"], ["BTCUSDT", " ETHUSDT"]⟩⟩ ∧
      streamDepthEcho .asciiOnly .binance "btcusdt, ethusdt" =
        some ⟨.binance, ["BTCUSDT", "ETHUSDT"], ["BTCUSDT", "ETHUSDT"]⟩ ∧
      ¬ PipelinesAgree .asciiOnly spacedConfig := by
  have serves : streamDepthServe .asciiOnly spacedConfig =
      ⟨50051, 2, some ⟨.binance, ["BTCUSDT", " ETHUSDT"], ["BTCUSDT", " ETHUSDT"]⟩⟩ := by decide
  refine ⟨by decide, serves, by decide, fun agree => ?_⟩
  obtain ⟨s, streams, subscribed, _⟩ := agree.serve
  rw [serves] at streams
  cases streams
  revert subscribed
  decide

theorem pipelines_agree_spaced :
    PipelinesAgree .asciiOnly spacedConfig ↔
      Provider.binance ≠ .other ∧ CleanParts "btcusdt, ethusdt" :=
  pipelines_agree_iff CaseTable.asciiOnly_tame spacedConfig

end Trolly.Monitor
