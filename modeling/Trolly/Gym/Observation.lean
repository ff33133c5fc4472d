import Trolly.Lib.Recent
import Trolly.Strategy.Messages

/-! Feature vectors of stream events and the rolling window of the latest ones.
The arithmetic of `f32` is a parameter; nothing here depends on it. -/
namespace Trolly.Gym

open Recent Strategy

/-- `f32`, as far as features and rewards use it. -/
structure F32 (F : Type) where
  zero : F
  one : F
  two : F
  three : F
  /-- The literal `0.001`. -/
  milli : F
  parse : String → Option F
  ofU64 : UInt64 → F
  isPositive : F → Bool
  add : F → F → F
  sub : F → F → F
  mul : F → F → F
  div : F → F → F
  neg : F → F

variable {F : Type}

abbrev FeatureVector (F : Type) := List F

structure ObservationWindow (F : Type) where
  capacity : Nat
  frames : List (FeatureVector F)

namespace ObservationWindow

def new (capacity : Nat) : ObservationWindow F := ⟨capacity, []⟩

def push (self : ObservationWindow F) (frame : FeatureVector F) : ObservationWindow F :=
  let frames := if self.frames.length = self.capacity then self.frames.drop 1 else self.frames
  { self with frames := frames ++ [frame] }

def flattened (self : ObservationWindow F) : List F := self.frames.flatten

end ObservationWindow

section Features

variable (f32 : F32 F)

def parseLevel (level : PriceLevel) : F × F :=
  ((f32.parse level.price).getD f32.zero, (f32.parse level.qty).getD f32.zero)

def depthFeatures (depth : DepthUpdate) : FeatureVector F :=
  let (bestBid, bidQty) := (depth.bids.head?.map (parseLevel f32)).getD (f32.zero, f32.zero)
  let (bestAsk, askQty) := (depth.asks.head?.map (parseLevel f32)).getD (f32.zero, f32.zero)
  let quoted := f32.isPositive bestBid && f32.isPositive bestAsk
  let spread := if quoted then f32.sub bestAsk bestBid else f32.zero
  let mid := if quoted then f32.div (f32.add bestBid bestAsk) f32.two else f32.zero
  [bestBid, bidQty, bestAsk, askQty, spread, mid, f32.ofU64 (depth.updateId.getD 0)]

def kindTagFeatures (kind : EventKind) : FeatureVector F :=
  match kind with
  | .depth => [f32.one]
  | .execution => [f32.two]
  | .account => [f32.three]

def featuresFromEvent (event : StreamEvent) : Option (FeatureVector F) :=
  match event with
  | .depth depth => some (depthFeatures f32 depth)
  | .execution _ | .account _ => some (kindTagFeatures f32 event.kind)

theorem featuresFromEvent_isSome (event : StreamEvent) : (featuresFromEvent f32 event).isSome := by
  cases event <;> rfl

end Features

/-- A window that holds the end of a log goes on holding it. -/
theorem ObservationWindow.push_last {window : ObservationWindow F} (log : List (FeatureVector F))
    (positive : 0 < window.capacity) (holds : window.frames = last window.capacity log)
    (frame : FeatureVector F) :
    window.push frame = ⟨window.capacity, last window.capacity (log ++ [frame])⟩ := by
  rw [last_snoc positive, ← holds]
  rfl

end Trolly.Gym
