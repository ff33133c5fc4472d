import Trolly.Spot.Events
import Trolly.Std.Text

/-! The account book that all spot handlers share, and its decimal arithmetic on strings.
`none` is a panic: a string cut inside a character, a padding wider than `format!` takes, or an
overflow in a build that checks for it. -/
namespace Trolly.Spot

open Keyed

variable [Rust.Build]

structure AccountBook where
  balances : Map String AssetBalance
  openOrders : Map Int64 ExecutionReport

def AccountBook.default : AccountBook := ⟨Map.empty, Map.empty⟩

def decimalScale (value : List Char) : Nat := ((value.splitOn '.')[1]?.map Rust.utf8Len).getD 0

def toScaledI128 (value : List Char) (scale : Nat) : Option Int := do
  let negative := value.head? == some '-'
  let normalized := value.dropWhile (· == '-')
  let (whole, frac) := (Rust.splitOnce '.' normalized).getD (normalized, [])
  let frac ← Rust.padRight frac scale
  let cut ← Rust.takeBytes (min scale (Rust.utf8Len frac)) frac
  let parsed := (Rust.parseI128 (whole ++ cut)).getD 0
  if negative then Rust.i128Result (-parsed) else some parsed

def formatScaled (value : Int) (scale : Nat) : Option (List Char) :=
  if scale = 0 then some (Rust.i128ToChars value)
  else do
    let negative := value < 0
    let digits := Rust.natToChars value.natAbs
    let split := digits.length - scale
    let (whole, frac) ←
      if digits.length ≤ scale then (Rust.padLeft digits scale).map (['0'], ·)
      else some (digits.take split, digits.drop split)
    some (if negative then '-' :: (whole ++ '.' :: frac) else whole ++ '.' :: frac)

def addDecimalStrings (lhs rhs : String) : Option String := do
  let scale := max (decimalScale lhs.toList) (decimalScale rhs.toList)
  let left ← toScaledI128 lhs.toList scale
  let right ← toScaledI128 rhs.toList scale
  let sum ← Rust.i128Result (left + right)
  (formatScaled sum scale).map String.ofList

namespace AccountBook

def applyPosition (self : AccountBook) (pos : OutboundAccountPosition) : AccountBook :=
  { self with
    balances := pos.balances.foldl (fun balances row => balances.insert row.asset row) self.balances }

/-- `entry(asset).or_insert_with(..)`: the stored balance, or a zero one. -/
def entry (self : AccountBook) (asset : String) : AssetBalance :=
  (self.balances.get asset).getD ⟨asset, "0", "0"⟩

def applyBalanceDelta (self : AccountBook) (update : BalanceUpdate) : Option AccountBook := do
  let entry := self.entry update.asset
  let free ← addDecimalStrings entry.free update.delta
  pure { self with balances := self.balances.insert update.asset { entry with free } }

def applyExternalLock (self : AccountBook) (lock : ExternalLockUpdate) : Option AccountBook := do
  let entry := self.entry lock.asset
  let locked ← addDecimalStrings entry.locked lock.delta
  pure { self with balances := self.balances.insert lock.asset { entry with locked } }

def applyExecutionReport (self : AccountBook) (report : ExecutionReport) : AccountBook :=
  if report.orderStatus ∈ ["FILLED", "CANCELED", "EXPIRED", "REJECTED"] then
    { self with openOrders := self.openOrders.remove report.orderId }
  else { self with openOrders := self.openOrders.insert report.orderId report }

def apply (self : AccountBook) : SpotUserEvent → Option AccountBook
  | .outboundAccountPosition pos => some (self.applyPosition pos)
  | .balanceUpdate update => self.applyBalanceDelta update
  | .executionReport report => some (self.applyExecutionReport report)
  | .externalLockUpdate lock => self.applyExternalLock lock
  | .listStatus _ | .eventStreamTerminated _ => some self

end AccountBook

/-! The scale grows and the sign changes; a sum that is too large depends on the build. -/

example : @addDecimalStrings .release "1" "-2.50" = some "-1.50" := by decide

example : @addDecimalStrings .debug "170141183460469231731687303715884105727" "1" = none := by
  decide

end Trolly.Spot
