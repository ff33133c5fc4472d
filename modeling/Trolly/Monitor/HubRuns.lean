import Mathlib.Data.List.Induction
import Trolly.Monitor.HubSteps

/-! Runs of the hub: registrations and updates of shards in any order. The four maps, the
serve registry and the pairs stay consistent with the registrations made, and the lane of an
instrument that was refreshed after its last registration is up to date. -/
namespace Trolly.Monitor

open Keyed

variable {P Q : Type}

inductive HubOp (lob : Lob P Q) where
  | register (streamId instrument : String) (book : lob.Book)
  | handleUpdate (streamId : String) (update : DepthUpdate P Q)

namespace HubOp

variable {lob : Lob P Q} (table : Rust.CaseTable)

def registered : HubOp lob → Option String
  | register streamId _ _ => some streamId
  | handleUpdate _ _ => none

def sourceFor (key : String) : HubOp lob → Option String
  | register streamId instrument _ =>
    if table.toUppercase instrument = key then some streamId else none
  | handleUpdate _ _ => none

def sourcesOf (key : String) (ops : List (HubOp lob)) : List String := ops.filterMap (sourceFor table key)

def moveBook (streamId : String) (book : Option lob.Book) : HubOp lob → Option lob.Book
  | register id _ start => if id = streamId then some start else book
  | handleUpdate id update =>
    if id = streamId then book.map (lob.absorbUpdate · update) else book

/-- The current book of a stream: the registered one with every later update of its shard. -/
def bookOf (streamId : String) (ops : List (HubOp lob)) : Option lob.Book :=
  ops.foldl (moveBook streamId) none

/-- The instrument was refreshed after its last registration. -/
inductive Refreshed (key : String) : List (HubOp lob) → Prop where
  | here {ops streamId update} : streamId ∈ sourcesOf table key ops →
      Refreshed key (ops ++ [handleUpdate streamId update])
  | later {ops op} : Refreshed key ops → sourceFor table key op = none → Refreshed key (ops ++ [op])

theorem sourcesOf_snoc (key : String) (ops : List (HubOp lob)) (op : HubOp lob) :
    sourcesOf table key (ops ++ [op]) = sourcesOf table key ops ++ (sourceFor table key op).toList := by
  rw [sourcesOf, List.filterMap_append]
  cases brought : sourceFor table key op <;> simp [sourcesOf, brought]

theorem bookOf_snoc (streamId : String) (ops : List (HubOp lob)) (op : HubOp lob) :
    bookOf streamId (ops ++ [op]) = moveBook streamId (bookOf streamId ops) op := by
  simp [bookOf]

theorem mem_sourcesOf {key streamId : String} {ops : List (HubOp lob)} :
    streamId ∈ sourcesOf table key ops ↔
      ∃ instrument book, register streamId instrument book ∈ ops ∧
        table.toUppercase instrument = key := by
  simp only [sourcesOf, List.mem_filterMap]
  constructor
  · rintro ⟨op, member, brought⟩
    cases op with
    | register id instrument book =>
      simp only [sourceFor, Option.ite_none_right_eq_some, Option.some.injEq] at brought
      obtain ⟨own, rfl⟩ := brought
      exact ⟨instrument, book, member, own⟩
    | handleUpdate id update => cases brought
  · rintro ⟨instrument, book, member, own⟩
    exact ⟨_, member, if_pos own⟩

end HubOp

namespace World

open HubOp

variable {lob : Lob P Q} (table : Rust.CaseTable)

def step (world : World lob) : HubOp lob → World lob
  | .register streamId instrument book => world.register table streamId instrument book
  | .handleUpdate streamId update =>
    match world.shards.get streamId with
    | some shard => world.handleUpdate table shard update
    | none => world

def run (serve : Option (Map String BookHandle)) (ops : List (HubOp lob)) : World lob :=
  ops.foldl (step table) (new lob serve)

/-- The shard of a stream, and how the maps of the hub and its pair agree with it. -/
structure Wired (ops : List (HubOp lob)) (world : World lob) (streamId : String)
    (shard : GlobalBookShard) : Prop where
  found : world.shards.get streamId = some shard
  factory : world.inner.factories.get streamId = some shard.book
  instrument : world.inner.streamInstruments.get streamId = some (table.toUppercase shard.instrument)
  alive : (world.published shard.book).isSome
  current : world.published shard.book = bookOf streamId ops

/-- The maps of the hub agree with the registrations made, also when a stream id came twice. -/
structure Mapped (ops : List (HubOp lob)) (world : World lob) : Prop where
  sources : ∀ key, (world.inner.sourcesByInstrument.get key).getD [] = sourcesOf table key ops
  factories : ∀ streamId ∈ ops.filterMap registered,
    ∃ factory, world.inner.factories.get streamId = some factory
  below : ∀ streamId factory, world.inner.factories.get streamId = some factory →
    factory < world.nextBook
  lanes : ∀ key, (world.inner.mergedByInstrument.get key).isSome ↔ sourcesOf table key ops ≠ []
  lanesBelow : ∀ key swap, world.inner.mergedByInstrument.get key = some swap → swap < world.nextSwap
  lanesApart : ∀ key other swap, world.inner.mergedByInstrument.get key = some swap →
    world.inner.mergedByInstrument.get other = some swap → key = other
  served : ∀ registry, world.serve = some registry → ∀ key swap,
    world.inner.mergedByInstrument.get key = some swap → registry.get key = some (.merged swap)

/-- With distinct stream ids every registration has its own shard and pair. -/
structure Consistent (ops : List (HubOp lob)) (world : World lob) : Prop
    extends Mapped table ops world where
  wired : ∀ streamId ∈ ops.filterMap registered, ∃ shard, Wired table ops world streamId shard ∧
    ∀ key, streamId ∈ sourcesOf table key ops ↔ table.toUppercase shard.instrument = key
  missing : ∀ streamId, streamId ∉ ops.filterMap registered →
    world.shards.get streamId = none ∧ world.inner.factories.get streamId = none
  apart : ∀ s t factory, world.inner.factories.get s = some factory →
    world.inner.factories.get t = some factory → s = t

theorem mem_registered {key streamId : String} {ops : List (HubOp lob)}
    (source : streamId ∈ sourcesOf table key ops) : streamId ∈ ops.filterMap registered := by
  obtain ⟨instrument, book, member, _⟩ := (mem_sourcesOf table).mp source
  exact List.mem_filterMap.mpr ⟨_, member, rfl⟩

theorem Mapped.group_books {ops : List (HubOp lob)} {world : World lob}
    (mapped : Mapped table ops world) {key : String} {shown : String → Option lob.Book}
    (each : ∀ streamId ∈ sourcesOf table key ops, ∃ factory,
      world.inner.factories.get streamId = some factory ∧ world.published factory = shown streamId) :
    (world.group key).map world.published = (sourcesOf table key ops).map shown := by
  rw [group, mapped.sources]
  generalize sourcesOf table key ops = sources at each ⊢
  induction sources with
  | nil => rfl
  | cons streamId rest ih =>
    obtain ⟨factory, found, current⟩ := each streamId (by simp)
    rw [List.filterMap_cons, found, List.map_cons, List.map_cons, current,
      ih (fun other member => each other (by simp [member]))]

/-- The factories of a group are the pairs of its sources, whose books are current. -/
theorem Consistent.group_eq {ops : List (HubOp lob)} {world : World lob}
    (consistent : Consistent table ops world) (key : String) :
    (world.group key).map world.published = (sourcesOf table key ops).map (bookOf · ops) := by
  refine consistent.toMapped.group_books table (fun streamId source => ?_)
  obtain ⟨shard, wired, _⟩ := consistent.wired streamId (mem_registered table source)
  exact ⟨shard.book, wired.factory, wired.current⟩

theorem Consistent.group_alive {ops : List (HubOp lob)} {world : World lob}
    (consistent : Consistent table ops world) {key : String} {factory : Nat}
    (member : factory ∈ world.group key) :
    (world.published factory).isSome ∧ ∃ streamId ∈ sourcesOf table key ops,
      world.inner.factories.get streamId = some factory := by
  rw [group, consistent.sources] at member
  obtain ⟨streamId, source, found⟩ := List.mem_filterMap.mp member
  obtain ⟨shard, wired, _⟩ := consistent.wired streamId (mem_registered table source)
  cases wired.factory.symm.trans found
  exact ⟨wired.alive, streamId, source, found⟩

theorem mapped_new (serve : Option (Map String BookHandle)) :
    Mapped table [] (new lob serve) where
  sources := fun _ => rfl
  factories := fun _ member => by cases member
  below := fun _ _ found => by cases found
  lanes := fun _ => by simp [new, sourcesOf]
  lanesBelow := fun _ _ found => by cases found
  lanesApart := fun _ _ _ found => by cases found
  served := fun _ _ _ _ found => by cases found

theorem consistent_new (serve : Option (Map String BookHandle)) :
    Consistent table [] (new lob serve) where
  toMapped := mapped_new table serve
  wired := fun _ member => by cases member
  missing := fun _ _ => ⟨rfl, rfl⟩
  apart := fun _ _ _ found => by cases found

/-! Registrations. -/

section Register

variable {ops : List (HubOp lob)} {world : World lob} {streamId instrument : String} {book : lob.Book}

theorem sourcesOf_register (key : String) :
    sourcesOf table key (ops ++ [.register streamId instrument book]) =
      sourcesOf table key ops ++ (if table.toUppercase instrument = key then [streamId] else []) := by
  rw [sourcesOf_snoc, sourceFor]
  split <;> rfl

theorem registered_register : (ops ++ [HubOp.register streamId instrument book]).filterMap registered =
    ops.filterMap registered ++ [streamId] := by
  simp [registered]

/-- A lane after a registration was there before, or is the new cell of its instrument. -/
theorem Registered.lane_cases {next : World lob}
    (spec : Registered table world next streamId instrument book) {key : String} {swap : Nat}
    (lane : next.inner.mergedByInstrument.get key = some swap) :
    world.inner.mergedByInstrument.get key = some swap ∨
      (world.inner.mergedByInstrument.get key = none ∧ key = table.toUppercase instrument ∧
        swap = world.nextSwap) := by
  rw [spec.lanes] at lane
  split at lane
  · rename_i own
    cases before : world.inner.mergedByInstrument.get key with
    | none =>
      rw [before] at lane
      exact Or.inr ⟨rfl, own, (Option.some.inj lane).symm⟩
    | some old =>
      rw [before] at lane
      exact Or.inl lane
  · exact Or.inl lane

theorem Mapped.register (mapped : Mapped table ops world) :
    Mapped table (ops ++ [.register streamId instrument book])
      (world.register table streamId instrument book) := by
  have spec := world.register_spec table streamId instrument book
  have below : ∀ {key swap}, world.inner.mergedByInstrument.get key = some swap →
      swap ≠ world.nextSwap := fun lane => Nat.ne_of_lt (mapped.lanesBelow _ _ lane)
  refine ⟨fun key => ?_, fun s member => ?_, fun s factory found => ?_, fun key => ?_,
    fun key swap lane => ?_, fun key other swap laneKey laneOther => ?_, ?_⟩
  · rw [spec.sources, Map.get_insert, sourcesOf_register]
    by_cases own : key = table.toUppercase instrument
    · subst own
      simp [mapped.sources]
    · simp [own, Ne.symm own, mapped.sources]
  · rw [registered_register] at member
    rw [spec.factories, Map.get_insert]
    split
    · exact ⟨_, rfl⟩
    · rename_i new
      exact mapped.factories s (by simpa [new] using member)
  · rw [spec.factories, Map.get_insert] at found
    rw [spec.nextBook]
    split at found
    · cases found
      exact Nat.lt_succ_self _
    · exact Nat.lt_succ_of_lt (mapped.below s factory found)
  · rw [spec.lanes, sourcesOf_register]
    by_cases own : key = table.toUppercase instrument
    · simp [own]
    · simp [own, Ne.symm own, mapped.lanes]
  · rcases spec.lane_cases table lane with old | ⟨vacant, rfl, rfl⟩
    · exact lt_of_lt_of_le (mapped.lanesBelow _ _ old) spec.nextSwap.1
    · exact spec.nextSwap.2 vacant
  · rcases spec.lane_cases table laneKey with oldKey | ⟨_, newKey, cell⟩ <;>
      rcases spec.lane_cases table laneOther with oldOther | ⟨_, newOther, cell'⟩
    · exact mapped.lanesApart _ _ _ oldKey oldOther
    · exact absurd cell' (below oldKey)
    · exact absurd cell (below oldOther)
    · exact newKey.trans newOther.symm
  · intro registry served key swap lane
    rw [spec.serve, Option.map_eq_some_iff] at served
    obtain ⟨before, held, rfl⟩ := served
    rw [spec.lanes] at lane
    split at lane
    · rename_i own
      rw [own, Map.get_insert_self]
      rw [own] at lane
      rw [Option.some.inj lane]
    · rename_i other
      rw [Map.get_insert_of_ne _ other]
      exact mapped.served before held key swap lane

theorem Registered.wired {next : World lob}
    (spec : Registered table world next streamId instrument book) :
    Wired table (ops ++ [.register streamId instrument book]) next streamId
      ⟨world.nextBook, instrument, streamId⟩ where
  found := by rw [spec.shards, Map.get_insert_self]
  factory := by rw [spec.factories, Map.get_insert_self]
  instrument := by rw [spec.instruments, Map.get_insert_self]
  alive := by rw [spec.published, Function.update_self, Option.isSome_some]
  current := by rw [spec.published, Function.update_self, bookOf_snoc, moveBook, if_pos rfl]

theorem Wired.register {next : World lob} {s : String} {shard : GlobalBookShard}
    (wired : Wired table ops world s shard)
    (spec : Registered table world next streamId instrument book) (other : s ≠ streamId)
    (older : shard.book ≠ world.nextBook) :
    Wired table (ops ++ [.register streamId instrument book]) next s shard where
  found := by rw [spec.shards, Map.get_insert_of_ne _ other, wired.found]
  factory := by rw [spec.factories, Map.get_insert_of_ne _ other, wired.factory]
  instrument := by rw [spec.instruments, Map.get_insert_of_ne _ other, wired.instrument]
  alive := by rw [spec.published, Function.update_of_ne older]; exact wired.alive
  current := by
    rw [spec.published, Function.update_of_ne older, wired.current, bookOf_snoc, moveBook,
      if_neg (Ne.symm other)]

theorem Consistent.register (consistent : Consistent table ops world)
    (fresh : streamId ∉ ops.filterMap registered) :
    Consistent table (ops ++ [.register streamId instrument book])
      (world.register table streamId instrument book) := by
  have spec := world.register_spec table streamId instrument book
  refine ⟨consistent.toMapped.register table, fun s member => ?_, fun s unknown => ?_, ?_⟩
  · rw [registered_register] at member
    by_cases new : s = streamId
    · subst new
      refine ⟨_, spec.wired, fun key => ?_⟩
      have absent : s ∉ sourcesOf table key ops := fun source => fresh (mem_registered table source)
      rw [sourcesOf_register]
      simp [absent]
    · have known : s ∈ ops.filterMap registered := by simpa [new] using member
      obtain ⟨shard, wired, keys⟩ := consistent.wired s known
      have older : shard.book ≠ world.nextBook :=
        Nat.ne_of_lt (consistent.below s _ wired.factory)
      refine ⟨shard, wired.register table spec new older, fun key => ?_⟩
      rw [sourcesOf_register, ← keys key]
      by_cases own : table.toUppercase instrument = key <;> simp [own, new]
  · rw [registered_register] at unknown
    have new : s ≠ streamId := fun same => unknown (by simp [same])
    obtain ⟨noShard, noFactory⟩ := consistent.missing s (fun known => unknown (by simp [known]))
    rw [spec.shards, spec.factories, Map.get_insert_of_ne _ new, Map.get_insert_of_ne _ new]
    exact ⟨noShard, noFactory⟩
  · intro s t factory foundS foundT
    rw [spec.factories, Map.get_insert] at foundS foundT
    have below : ∀ {id}, world.inner.factories.get id = some world.nextBook → False :=
      fun found => absurd (consistent.below _ _ found) (lt_irrefl _)
    split at foundS <;> split at foundT
    · rename_i atS atT
      rw [atS, atT]
    · cases foundS
      exact (below foundT).elim
    · cases foundT
      exact (below foundS).elim
    · exact consistent.apart s t factory foundS foundT

end Register

/-! Updates. -/

theorem Mapped.quiet {ops : List (HubOp lob)} {world next : World lob}
    (mapped : Mapped table ops world) (nextBook : next.nextBook = world.nextBook)
    (nextSwap : next.nextSwap = world.nextSwap) (inner : next.inner = world.inner)
    (serve : next.serve = world.serve) : Mapped table ops next where
  sources := by rw [inner]; exact mapped.sources
  factories := by rw [inner]; exact mapped.factories
  below := by rw [inner, nextBook]; exact mapped.below
  lanes := by rw [inner]; exact mapped.lanes
  lanesBelow := by rw [inner, nextSwap]; exact mapped.lanesBelow
  lanesApart := by rw [inner]; exact mapped.lanesApart
  served := by rw [inner, serve]; exact mapped.served

theorem sourcesOf_handleUpdate (key : String) (ops : List (HubOp lob)) (streamId : String)
    (update : DepthUpdate P Q) :
    sourcesOf table key (ops ++ [.handleUpdate streamId update]) = sourcesOf table key ops := by
  rw [sourcesOf_snoc]
  exact List.append_nil _

theorem registered_handleUpdate (ops : List (HubOp lob)) (streamId : String)
    (update : DepthUpdate P Q) :
    (ops ++ [HubOp.handleUpdate streamId update]).filterMap registered = ops.filterMap registered := by
  simp [registered]

theorem Mapped.handleUpdate {ops : List (HubOp lob)} {world : World lob}
    (mapped : Mapped table ops world) (streamId : String) (update : DepthUpdate P Q) :
    Mapped table (ops ++ [.handleUpdate streamId update]) world :=
  { mapped with
    sources := fun key => (mapped.sources key).trans (sourcesOf_handleUpdate table ..).symm
    factories := fun s member => mapped.factories s (registered_handleUpdate ops streamId update ▸ member)
    lanes := fun key => by rw [sourcesOf_handleUpdate, mapped.lanes] }

/-- The pair of the updated stream moves, and no other. -/
theorem Consistent.published_handleUpdate {ops : List (HubOp lob)} {world : World lob}
    (consistent : Consistent table ops world) {streamId s : String} {shard other : GlobalBookShard}
    (wired : Wired table ops world streamId shard) (there : Wired table ops world s other)
    (update : DepthUpdate P Q) :
    (world.handleUpdate table shard update).published other.book =
      bookOf s (ops ++ [.handleUpdate streamId update]) := by
  obtain ⟨published, _⟩ :=
    (world.publish shard.book (lob.absorbUpdate · update)).refresh_frame table shard.instrument
  rw [World.handleUpdate, published, bookOf_snoc, moveBook]
  by_cases own : streamId = s
  · subst own
    cases wired.found.symm.trans there.found
    rw [if_pos rfl, ← wired.current]
    exact Function.update_self _ _ _
  · have apart : other.book ≠ shard.book := fun same =>
      own (consistent.apart _ _ _ wired.factory (same ▸ there.factory))
    rw [if_neg own, ← there.current]
    exact Function.update_of_ne apart _ _

theorem isSome_moveBook {streamId s : String} {before : Option lob.Book}
    (alive : before.isSome = true) (update : DepthUpdate P Q) :
    (moveBook s before (.handleUpdate streamId update)).isSome = true := by
  rw [moveBook]
  split
  · rw [Option.isSome_map]
    exact alive
  · exact alive

theorem Consistent.handleUpdate {ops : List (HubOp lob)} {world : World lob}
    (consistent : Consistent table ops world) {streamId : String} {shard : GlobalBookShard}
    (wired : Wired table ops world streamId shard) (update : DepthUpdate P Q) :
    Consistent table (ops ++ [.handleUpdate streamId update])
      (world.handleUpdate table shard update) := by
  obtain ⟨_, nextBook, nextSwap, inner, serve, shards⟩ :=
    (world.publish shard.book (lob.absorbUpdate · update)).refresh_frame table shard.instrument
  refine ⟨(consistent.toMapped.handleUpdate table streamId update).quiet table nextBook nextSwap
    inner serve, fun s member => ?_, fun s unknown => ?_, ?_⟩
  · rw [registered_handleUpdate] at member
    obtain ⟨other, there, keys⟩ := consistent.wired s member
    have moved := consistent.published_handleUpdate table wired there update
    refine ⟨other, ⟨?_, ?_, ?_, ?_, moved⟩, fun key => ?_⟩
    · rw [World.handleUpdate, shards]
      exact there.found
    · rw [World.handleUpdate, inner]
      exact there.factory
    · rw [World.handleUpdate, inner]
      exact there.instrument
    · rw [moved, bookOf_snoc]
      exact isSome_moveBook (there.current ▸ there.alive) update
    · rw [sourcesOf_handleUpdate, keys]
  · rw [registered_handleUpdate] at unknown
    rw [World.handleUpdate, shards, inner]
    exact consistent.missing s unknown
  · rw [World.handleUpdate, inner]
    exact consistent.apart

/-! Lanes that are up to date. -/

/-- The lane of the instrument holds the merge of its sources as they are now. -/
def LaneCurrent (world : World lob) (key : String) : Prop :=
  ∃ swap, world.inner.mergedByInstrument.get key = some swap ∧
    world.swaps swap = world.merged (world.group key)

theorem Consistent.current_register {ops : List (HubOp lob)} {world : World lob}
    (consistent : Consistent table ops world) {streamId : String}
    (fresh : streamId ∉ ops.filterMap registered) (instrument : String) (book : lob.Book)
    {key : String} (other : key ≠ table.toUppercase instrument) (current : LaneCurrent world key) :
    LaneCurrent (world.register table streamId instrument book) key := by
  have spec := world.register_spec table streamId instrument book
  obtain ⟨swap, lane, holds⟩ := current
  have group : (world.register table streamId instrument book).group key = world.group key := by
    rw [World.group, World.group, spec.sources, Map.get_insert_of_ne _ other, consistent.sources]
    refine List.filterMap_congr (fun s source => ?_)
    have old : s ≠ streamId := fun same => fresh (same ▸ mem_registered table source)
    rw [spec.factories, Map.get_insert_of_ne _ old]
  refine ⟨swap, by rw [spec.lanes, if_neg other, lane], ?_⟩
  rw [spec.swaps swap (consistent.lanesBelow _ _ lane), holds, group]
  refine (merged_congr (fun factory member => ?_)).symm
  obtain ⟨_, s, _, found⟩ := consistent.group_alive table member
  rw [spec.published, Function.update_of_ne (Nat.ne_of_lt (consistent.below s _ found))]

theorem Consistent.current_own {ops : List (HubOp lob)} {world : World lob}
    (consistent : Consistent table ops world) {streamId : String} {shard : GlobalBookShard}
    (wired : Wired table ops world streamId shard)
    (source : streamId ∈ sourcesOf table (table.toUppercase shard.instrument) ops)
    (update : DepthUpdate P Q) :
    LaneCurrent (world.handleUpdate table shard update) (table.toUppercase shard.instrument) := by
  let mid := world.publish shard.book (lob.absorbUpdate · update)
  obtain ⟨published, _, _, inner, _, _⟩ := mid.refresh_frame table shard.instrument
  obtain ⟨swap, lane⟩ := Option.isSome_iff_exists.mp
    ((consistent.lanes _).mpr (List.ne_nil_of_mem source))
  have sources : mid.group (table.toUppercase shard.instrument) ≠ [] := by
    refine List.ne_nil_of_mem (List.mem_filterMap.mpr ⟨streamId, ?_, wired.factory⟩)
    rw [show mid.inner = world.inner from rfl, consistent.sources]
    exact source
  refine ⟨swap, by rw [World.handleUpdate, inner]; exact lane, ?_⟩
  rw [World.handleUpdate, mid.refresh_own table lane sources]
  refine Eq.trans ?_ (merged_congr (fun factory _ => congrFun published factory)).symm
  rw [World.group, World.group, inner]

theorem Consistent.current_other {ops : List (HubOp lob)} {world : World lob}
    (consistent : Consistent table ops world) {streamId : String} {shard : GlobalBookShard}
    (wired : Wired table ops world streamId shard) {key : String}
    (notSource : streamId ∉ sourcesOf table key ops)
    (other : key ≠ table.toUppercase shard.instrument) (current : LaneCurrent world key)
    (update : DepthUpdate P Q) : LaneCurrent (world.handleUpdate table shard update) key := by
  let mid := world.publish shard.book (lob.absorbUpdate · update)
  obtain ⟨published, _, _, inner, _, _⟩ := mid.refresh_frame table shard.instrument
  obtain ⟨swap, lane, holds⟩ := current
  have untouched : mid.inner.mergedByInstrument.get (table.toUppercase shard.instrument) ≠ some swap :=
    fun found => other (consistent.lanesApart _ _ _ lane found)
  refine ⟨swap, by rw [World.handleUpdate, inner]; exact lane, ?_⟩
  have group : (world.handleUpdate table shard update).group key = world.group key := by
    rw [World.group, World.handleUpdate, inner]
    rfl
  rw [group, World.handleUpdate, mid.refresh_other table _ untouched]
  refine holds.trans (merged_congr (fun factory member => ?_)).symm
  obtain ⟨_, s, source, found⟩ := consistent.group_alive table member
  have apart : factory ≠ shard.book := fun same =>
    notSource (consistent.apart _ _ _ (same ▸ found) wired.factory ▸ source)
  rw [published]
  exact Function.update_of_ne apart _ _

/-! Whole runs. -/

theorem run_snoc (serve : Option (Map String BookHandle)) (ops : List (HubOp lob)) (op : HubOp lob) :
    run table serve (ops ++ [op]) = (run table serve ops).step table op := by
  simp [run]

theorem refreshed_snoc {key : String} {ops : List (HubOp lob)} {op : HubOp lob}
    (refreshed : Refreshed table key (ops ++ [op])) :
    (∃ streamId update, op = .handleUpdate streamId update ∧ streamId ∈ sourcesOf table key ops) ∨
      (Refreshed table key ops ∧ sourceFor table key op = none) := by
  generalize whole : ops ++ [op] = all at refreshed
  cases refreshed with
  | here source =>
    obtain ⟨rfl, same⟩ := List.append_inj' whole rfl
    cases same
    exact Or.inl ⟨_, _, rfl, source⟩
  | later before unbrought =>
    obtain ⟨rfl, same⟩ := List.append_inj' whole rfl
    cases same
    exact Or.inr ⟨before, unbrought⟩

theorem Consistent.idle {ops : List (HubOp lob)} {world : World lob}
    (consistent : Consistent table ops world) {streamId : String}
    (unknown : streamId ∉ ops.filterMap registered) (update : DepthUpdate P Q) :
    Consistent table (ops ++ [.handleUpdate streamId update]) world := by
  refine ⟨consistent.toMapped.handleUpdate table streamId update, fun s member => ?_,
    fun s absent => ?_, consistent.apart⟩
  · rw [registered_handleUpdate] at member
    obtain ⟨shard, wired, keys⟩ := consistent.wired s member
    have other : streamId ≠ s := fun same => unknown (same ▸ member)
    refine ⟨shard, { wired with current := ?_ }, fun key => by rw [sourcesOf_handleUpdate, keys]⟩
    rw [wired.current, bookOf_snoc, moveBook, if_neg other]
  · rw [registered_handleUpdate] at absent
    exact consistent.missing s absent

theorem run_consistent (serve : Option (Map String BookHandle)) {ops : List (HubOp lob)}
    (distinct : (ops.filterMap registered).Nodup) :
    Consistent table ops (run table serve ops) ∧
      ∀ key, Refreshed table key ops → LaneCurrent (run table serve ops) key := by
  induction ops using List.reverseRecOn with
  | nil =>
    refine ⟨consistent_new table serve, fun key refreshed => ?_⟩
    generalize none_ : ([] : List (HubOp lob)) = all at refreshed
    cases refreshed <;> simp at none_
  | append_singleton ops op ih =>
    rw [List.filterMap_append] at distinct
    obtain ⟨consistent, current⟩ := ih (List.Nodup.of_append_left distinct)
    rw [run_snoc]
    cases op with
    | register streamId instrument book =>
      have fresh : streamId ∉ ops.filterMap registered := by
        intro known
        exact List.disjoint_of_nodup_append distinct known (by simp [registered])
      refine ⟨consistent.register table fresh, fun key refreshed => ?_⟩
      rcases refreshed_snoc table refreshed with ⟨_, _, same, _⟩ | ⟨before, unbrought⟩
      · cases same
      · have other : key ≠ table.toUppercase instrument := by
          rintro rfl
          simp [sourceFor] at unbrought
        exact consistent.current_register table fresh instrument book other (current key before)
    | handleUpdate streamId update =>
      by_cases known : streamId ∈ ops.filterMap registered
      · obtain ⟨shard, wired, keys⟩ := consistent.wired streamId known
        simp only [step, wired.found]
        refine ⟨consistent.handleUpdate table wired update, fun key refreshed => ?_⟩
        by_cases source : streamId ∈ sourcesOf table key ops
        · have own := (keys key).mp source
          subst own
          exact consistent.current_own table wired source update
        · rcases refreshed_snoc table refreshed with ⟨_, _, same, member⟩ | ⟨before, _⟩
          · cases same
            exact absurd member source
          · exact consistent.current_other table wired source
              (fun own => source ((keys key).mpr own.symm)) (current key before) update
      · simp only [step, (consistent.missing streamId known).1]
        refine ⟨consistent.idle table known update, fun key refreshed => ?_⟩
        rcases refreshed_snoc table refreshed with ⟨_, _, same, member⟩ | ⟨before, _⟩
        · cases same
          exact absurd (mem_registered table member) known
        · exact current key before

theorem step_keeps (world : World lob) (op : HubOp lob) :
    (∀ key swap, world.inner.mergedByInstrument.get key = some swap →
        (world.step table op).inner.mergedByInstrument.get key = some swap) ∧
      (world.step table op).serve.isSome = world.serve.isSome := by
  cases op with
  | register streamId instrument book =>
    have spec := world.register_spec table streamId instrument book
    refine ⟨fun key swap lane => ?_, ?_⟩
    · simp only [step, spec.lanes, lane, Option.getD_some, ite_self]
    · simp only [step, spec.serve, Option.isSome_map]
  | handleUpdate streamId update =>
    simp only [step]
    split
    · rename_i shard found
      obtain ⟨_, _, _, inner, serve, _⟩ :=
        (world.publish shard.book (lob.absorbUpdate · update)).refresh_frame table shard.instrument
      rw [World.handleUpdate, inner, serve]
      exact ⟨fun _ _ lane => lane, rfl⟩
    · exact ⟨fun _ _ lane => lane, rfl⟩

theorem run_keeps (world : World lob) (ops : List (HubOp lob)) :
    (∀ key swap, world.inner.mergedByInstrument.get key = some swap →
        (ops.foldl (step table) world).inner.mergedByInstrument.get key = some swap) ∧
      (ops.foldl (step table) world).serve.isSome = world.serve.isSome :=
  run_invariant (step table)
    (fun w => (∀ key swap, world.inner.mergedByInstrument.get key = some swap →
        w.inner.mergedByInstrument.get key = some swap) ∧ w.serve.isSome = world.serve.isSome)
    (fun w op ⟨lanes, serve⟩ =>
      ⟨fun key swap lane => (w.step_keeps table op).1 key swap (lanes key swap lane),
        ((w.step_keeps table op).2).trans serve⟩)
    ops world ⟨fun _ _ lane => lane, rfl⟩

end World

end Trolly.Monitor
