import Trolly.Lib.Keyed
import Trolly.Monitor.BookSource
import Trolly.Monitor.OrderBook

/-! The hub of the cross-source global book: per-source live books, grouped by instrument,
and one merged snapshot per instrument. Left-right pairs and `ArcSwap` cells are shared by
reference, so they live in a world and are known by their address. -/
namespace Trolly.Monitor

open Keyed

variable {P Q : Type}

structure HubInner where
  factories : Map String Nat
  streamInstruments : Map String String
  sourcesByInstrument : Map String (List String)
  mergedByInstrument : Map String Nat

/-- `servers::BookHandle`, with the address of the pair or cell it shares. -/
inductive BookHandle where
  | leftRight (factory : Nat)
  | merged (swap : Nat)
  deriving DecidableEq

/-- One subscribed symbol on one provider: its write handle, by address, and its names. -/
structure GlobalBookShard where
  book : Nat
  instrument : String
  streamId : String

/-- The hub with everything it shares. A left-right reader sees the book published last,
or nothing once the writer is dropped. -/
structure World (lob : Lob P Q) where
  published : Nat → Option lob.Book
  swaps : Nat → lob.Book
  nextBook : Nat
  nextSwap : Nat
  inner : HubInner
  serve : Option (Map String BookHandle)
  shards : Map String GlobalBookShard

/-- One turn of the merge loop; a source without a writer adds nothing. -/
def Lob.mergeSeen (lob : Lob P Q) (merged : lob.Book) : Option lob.Book → lob.Book
  | some book => lob.mergeAggregateAbsorb merged book
  | none => merged

namespace World

variable {lob : Lob P Q} (table : Rust.CaseTable)

/-- `GlobalBookHub::new`, or `with_serve_registry` for a given registry. -/
def new (lob : Lob P Q) (serve : Option (Map String BookHandle)) : World lob where
  published := fun _ => none
  swaps := fun _ => lob.default
  nextBook := 0
  nextSwap := 0
  inner := ⟨Map.empty, Map.empty, Map.empty, Map.empty⟩
  serve := serve
  shards := Map.empty

def mergedSwapFor (world : World lob) (instrument : String) : Option Nat :=
  world.inner.mergedByInstrument.get (table.toUppercase instrument)

def publishServeInstrument (world : World lob) (instrument : String) : World lob :=
  match world.serve with
  | none => world
  | some registry =>
    match world.mergedSwapFor table instrument with
    | none => world
    | some swap =>
      { world with serve := some (registry.insert (table.toUppercase instrument) (.merged swap)) }

/-- The vacant entry gets a new cell with a default book. -/
def ensureLane (world : World lob) (key : String) : World lob :=
  match world.inner.mergedByInstrument.get key with
  | some _ => world
  | none =>
    { world with
      swaps := Function.update world.swaps world.nextSwap lob.default
      nextSwap := world.nextSwap + 1
      inner := { world.inner with
        mergedByInstrument := world.inner.mergedByInstrument.insert key world.nextSwap } }

def registerFactory (world : World lob) (streamId : String) (factory : Nat) (instrument : String) :
    World lob :=
  let key := table.toUppercase instrument
  let inner := { world.inner with
    streamInstruments := world.inner.streamInstruments.insert streamId key
    sourcesByInstrument := world.inner.sourcesByInstrument.insert key
      ((world.inner.sourcesByInstrument.get key).getD [] ++ [streamId])
    factories := world.inner.factories.insert streamId factory }
  (ensureLane { world with inner } key).publishServeInstrument table instrument

def group (world : World lob) (key : String) : List Nat :=
  ((world.inner.sourcesByInstrument.get key).getD []).filterMap world.inner.factories.get

def cloneBook (world : World lob) (factory : Nat) : lob.Book :=
  (world.published factory).getD lob.default

def mergeBooks (world : World lob) (group : List Nat) : lob.Book :=
  group.foldl (fun merged factory => lob.mergeSeen merged (world.published factory)) lob.new

def maxUpdateId (world : World lob) (group : List Nat) : Nat :=
  (group.filterMap (fun factory => (world.published factory).map lob.updateId)).max?.getD 0

def merged (world : World lob) (group : List Nat) : lob.Book :=
  let merged := match group with
    | [factory] => world.cloneBook factory
    | _ => world.mergeBooks group
  lob.setUpdateId merged (world.maxUpdateId group)

def refreshMergedFor (world : World lob) (instrument : String) : World lob :=
  let key := table.toUppercase instrument
  let group := world.group key
  if group = [] then world
  else match world.inner.mergedByInstrument.get key with
    | none => world
    | some swap => { world with swaps := Function.update world.swaps swap (world.merged group) }

/-- `append(operation).publish()` on a pair, for what `absorb` does to the book. -/
def publish (world : World lob) (factory : Nat) (absorb : lob.Book → lob.Book) : World lob :=
  { world with
    published := Function.update world.published factory ((world.published factory).map absorb) }

/-- `left_right::new`, with a book published, and its address. -/
def newPair (world : World lob) (book : lob.Book) : World lob × Nat :=
  ({ world with
      published := Function.update world.published world.nextBook (some book)
      nextBook := world.nextBook + 1 }, world.nextBook)

def handleUpdate (world : World lob) (shard : GlobalBookShard) (update : DepthUpdate P Q) :
    World lob :=
  (world.publish shard.book (lob.absorbUpdate · update)).refreshMergedFor table shard.instrument

def register (world : World lob) (streamId instrument : String) (book : lob.Book) : World lob :=
  let (world, factory) := world.newPair book
  let world := world.registerFactory table streamId factory instrument
  { world with shards := world.shards.insert streamId ⟨factory, instrument, streamId⟩ }

end World

end Trolly.Monitor
