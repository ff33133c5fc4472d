import Trolly.Lib.Traversal
import Trolly.Std.Text

/-! Book sources: which venue and symbol a depth feed comes from, and how a list of them
is parsed. -/
namespace Trolly.Monitor

inductive Provider where
  | binance
  | binanceUsdM
  | stub
  | other
  deriving DecidableEq

namespace Provider

def label : Provider → String
  | binance => "binance"
  | binanceUsdM => "binance-usd-m"
  | stub => "stub"
  | other => "other"

def fromLabel (label : String) : Option Provider :=
  let label := Rust.toAsciiLowercase (Rust.trim label)
  if label = "binance" then some binance
  else if label = "binance-usd-m" ∨ label = "binance_usd_m" ∨ label = "binanceusdm" then
    some binanceUsdM
  else if label = "stub" then some stub
  else none

end Provider

/-- One depth feed: exchange provider and subscription symbol. -/
structure BookSource where
  provider : Provider
  symbol : String
  deriving DecidableEq

inductive SourceError where
  | expectedSource (raw : String)
  | unknownProvider (label : String)
  | missingSymbol (raw : String)
  | noSource
  deriving DecidableEq

namespace BookSource

def new (table : Rust.CaseTable) (provider : Provider) (symbol : String) : BookSource :=
  ⟨provider, table.toUppercase (Rust.trim symbol)⟩

/-- Unique routing and factory key. -/
def streamId (self : BookSource) : String := self.provider.label ++ ":" ++ self.symbol

/-- Instrument identity for cross-source merge. -/
def canonicalInstrument (self : BookSource) : String := self.symbol

def parse (table : Rust.CaseTable) (raw : String) : Except SourceError BookSource :=
  let raw := Rust.trim raw
  match Rust.splitOnce ':' raw.toList with
  | none => .error (.expectedSource raw)
  | some (providerLabel, symbol) =>
    match Provider.fromLabel (String.ofList providerLabel) with
    | none => .error (.unknownProvider (String.ofList providerLabel))
    | some provider =>
      if Rust.trim (String.ofList symbol) = "" then .error (.missingSymbol raw)
      else .ok (new table provider (String.ofList symbol))

end BookSource

/-- Parse a comma-separated list of `provider:SYMBOL` entries. -/
def parseBookSources (table : Rust.CaseTable) (list : String) :
    Except SourceError (List BookSource) := do
  let parts := (list.toList.splitOn ',').map (fun part => Rust.trim (String.ofList part))
  let out ← (parts.filter (· ≠ "")).mapM (BookSource.parse table)
  if out = [] then .error .noSource else .ok out

/-! What parsing promises. -/

theorem Provider.fromLabel_wired {label : String} {provider : Provider}
    (parsed : Provider.fromLabel label = some provider) : provider ≠ .other := by
  unfold Provider.fromLabel at parsed
  rintro rfl
  simp only at parsed
  split at parsed
  · cases parsed
  split at parsed
  · cases parsed
  split at parsed <;> cases parsed

theorem BookSource.parse_wired {table : Rust.CaseTable} {raw : String} {source : BookSource}
    (parsed : BookSource.parse table raw = .ok source) : source.provider ≠ .other := by
  simp only [BookSource.parse] at parsed
  split at parsed
  · cases parsed
  split at parsed
  · cases parsed
  · rename_i provider label
    split at parsed
    · cases parsed
    · cases parsed
      exact Provider.fromLabel_wired label

theorem parseBookSources_wired {table : Rust.CaseTable} {list : String} {sources : List BookSource}
    (accepted : parseBookSources table list = .ok sources) :
    sources ≠ [] ∧ ∀ s ∈ sources, s.provider ≠ .other := by
  unfold parseBookSources at accepted
  simp only [bind, Except.bind] at accepted
  split at accepted
  · cases accepted
  · rename_i out parsed
    split at accepted
    · cases accepted
    · rename_i nonempty
      cases accepted
      refine ⟨nonempty, fun s member => ?_⟩
      obtain ⟨part, _, read⟩ := Traversal.mapM_mem parsed member
      exact BookSource.parse_wired read

theorem Provider.label_noColon (provider : Provider) : ':' ∉ provider.label.toList := by
  cases provider <;> decide

theorem Provider.label_injective {p q : Provider} (same : p.label = q.label) : p = q := by
  cases p <;> cases q <;> first | rfl | exact absurd same (by decide)

/-- The provider ends at the first colon, so a stream id tells its source. -/
theorem BookSource.streamId_injective {s t : BookSource} (same : s.streamId = t.streamId) : s = t := by
  have read : ∀ source : BookSource, Rust.splitOnce ':' source.streamId.toList =
      some (source.provider.label.toList, source.symbol.toList) := by
    intro source
    have text : source.streamId.toList =
        source.provider.label.toList ++ ':' :: source.symbol.toList := by
      simp [BookSource.streamId]
    rw [text, Rust.splitOnce_append source.provider.label_noColon]
  have parts := (read s).symm.trans ((congrArg (Rust.splitOnce ':' ·.toList) same).trans (read t))
  rw [Option.some.injEq, Prod.mk.injEq, String.toList_inj, String.toList_inj] at parts
  obtain ⟨labels, symbols⟩ := parts
  obtain ⟨p, x⟩ := s
  obtain ⟨q, y⟩ := t
  exact BookSource.mk.injEq .. ▸ ⟨Provider.label_injective labels, symbols⟩

end Trolly.Monitor
