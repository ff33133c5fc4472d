import Mathlib.Algebra.BigOperators.Group.List.Basic
import Trolly.Lib.Keyed
import Trolly.Lib.PartialRun
import Trolly.Spot.Arithmetic

/-! The balances after a run of events: per asset and side, the last snapshot row plus the
deltas that came after it. -/
namespace Trolly.Spot

open Keyed

inductive Side where
  | free
  | locked
  deriving DecidableEq

def AssetBalance.amount (balance : AssetBalance) : Side → String
  | .free => balance.free
  | .locked => balance.locked

/-- The row a snapshot carries for an asset; of several rows the last one stands. -/
def snapshotRow (asset : String) : SpotUserEvent → Option AssetBalance
  | .outboundAccountPosition pos =>
    last? (fun row => if asset = row.asset then some row else none) pos.balances
  | _ => none

structure Delta where
  side : Side
  asset : String
  amount : String

def SpotUserEvent.delta : SpotUserEvent → Option Delta
  | balanceUpdate update => some ⟨.free, update.asset, update.delta⟩
  | externalLockUpdate lock => some ⟨.locked, lock.asset, lock.delta⟩
  | _ => none

def SpotUserEvent.isSnapshot : SpotUserEvent → Bool
  | outboundAccountPosition _ => true
  | _ => false

/-- A string that is no decimal counts as zero; well-formed runs have none. -/
def decimalOrZero (s : String) : Decimal := (decimalOf s).getD .zero

def deltaFor (side : Side) (asset : String) (event : SpotUserEvent) : Option Decimal :=
  event.delta.bind (fun delta =>
    if delta.side = side ∧ delta.asset = asset then some (decimalOrZero delta.amount) else none)

def sinceSnapshot (asset : String) (events : List SpotUserEvent) : List SpotUserEvent :=
  (events.reverse.takeWhile (fun event => (snapshotRow asset event).isNone)).reverse

def snapshotAmount (side : Side) (asset : String) (events : List SpotUserEvent) : Decimal :=
  ((last? (snapshotRow asset) events).map (fun row => decimalOrZero (row.amount side))).getD .zero

/-- The last snapshot amount plus all later deltas, over the largest scale among them. -/
def total (side : Side) (asset : String) (events : List SpotUserEvent) : Decimal :=
  ((sinceSnapshot asset events).filterMap (deltaFor side asset)).foldl Decimal.add
    (snapshotAmount side asset events)

def expected (side : Side) (asset : String) (events : List SpotUserEvent) : ℚ :=
  (snapshotAmount side asset events).value +
    (((sinceSnapshot asset events).filterMap (deltaFor side asset)).map Decimal.value).sum

theorem foldl_add_value (amounts : List Decimal) (start : Decimal) :
    (amounts.foldl Decimal.add start).value = start.value + (amounts.map Decimal.value).sum := by
  induction amounts generalizing start with
  | nil => simp
  | cons d rest ih => rw [List.foldl_cons, ih, Decimal.value_add, List.map_cons, List.sum_cons, add_assoc]

theorem total_value (side : Side) (asset : String) (events : List SpotUserEvent) :
    (total side asset events).value = expected side asset events := foldl_add_value _ _

theorem total_snapshot {asset : String} {event : SpotUserEvent} {row : AssetBalance}
    (listed : snapshotRow asset event = some row) (side : Side) (events : List SpotUserEvent) :
    total side asset (events ++ [event]) = decimalOrZero (row.amount side) := by
  simp [total, sinceSnapshot, snapshotAmount, listed, last?_append]

theorem sinceSnapshot_later {asset : String} {event : SpotUserEvent}
    (unlisted : snapshotRow asset event = none) (events : List SpotUserEvent) :
    sinceSnapshot asset (events ++ [event]) = sinceSnapshot asset events ++ [event] := by
  simp [sinceSnapshot, unlisted]

theorem total_later {asset : String} {event : SpotUserEvent}
    (unlisted : snapshotRow asset event = none) (side : Side) (events : List SpotUserEvent) :
    total side asset (events ++ [event]) =
      match deltaFor side asset event with
      | some d => (total side asset events).add d
      | none => total side asset events := by
  simp only [total, sinceSnapshot_later unlisted, snapshotAmount, last?_append, last?_singleton,
    unlisted, Option.none_or, List.filterMap_append, List.foldl_append]
  cases read : deltaFor side asset event <;> simp [read]

theorem expected_snapshot {asset : String} {event : SpotUserEvent} {row : AssetBalance}
    (listed : snapshotRow asset event = some row) (side : Side) (events : List SpotUserEvent) :
    expected side asset (events ++ [event]) = (decimalOrZero (row.amount side)).value := by
  rw [← total_value, total_snapshot listed]

def deltaValue (side : Side) (asset : String) (event : SpotUserEvent) : ℚ :=
  ((deltaFor side asset event).map Decimal.value).getD 0

theorem expected_later {asset : String} {event : SpotUserEvent}
    (unlisted : snapshotRow asset event = none) (side : Side) (events : List SpotUserEvent) :
    expected side asset (events ++ [event]) =
      expected side asset events + deltaValue side asset event := by
  rw [← total_value, ← total_value, total_later unlisted, deltaValue]
  cases deltaFor side asset event with
  | none => simp
  | some d => simp [Decimal.value_add]

theorem expected_unlisted {asset : String} {us : List SpotUserEvent}
    (unlisted : ∀ event ∈ us, snapshotRow asset event = none) (side : Side)
    (pre : List SpotUserEvent) :
    expected side asset (pre ++ us) =
      expected side asset pre + (us.map (deltaValue side asset)).sum := by
  induction us using List.reverseRecOn with
  | nil => simp
  | append_singleton us event ih =>
    have before := ih (fun e member => unlisted e (by simp [member]))
    rw [← List.append_assoc, expected_later (unlisted event (by simp)), before, List.map_append,
      List.sum_append, List.map_singleton, List.sum_singleton, add_assoc]

theorem snapshotRow_of_plain (asset : String) {event : SpotUserEvent}
    (plain : event.isSnapshot = false) : snapshotRow asset event = none := by
  cases event with
  | outboundAccountPosition pos => cases plain
  | _ => rfl

/-- Deltas commute: between snapshots only the multiset of events matters. -/
theorem expected_perm {us vs : List SpotUserEvent} (permuted : us.Perm vs)
    (plain : ∀ event ∈ us, event.isSnapshot = false) (pre post : List SpotUserEvent)
    (side : Side) (asset : String) :
    expected side asset (pre ++ us ++ post) = expected side asset (pre ++ vs ++ post) := by
  induction post using List.reverseRecOn with
  | nil =>
    have left : ∀ event ∈ us, snapshotRow asset event = none :=
      fun event member => snapshotRow_of_plain asset (plain event member)
    have right : ∀ event ∈ vs, snapshotRow asset event = none :=
      fun event member => left event (permuted.mem_iff.mpr member)
    rw [List.append_nil, List.append_nil, expected_unlisted left, expected_unlisted right,
      (permuted.map _).sum_eq]
  | append_singleton post event ih =>
    rw [← List.append_assoc, ← List.append_assoc]
    cases listed : snapshotRow asset event with
    | none => rw [expected_later listed, expected_later listed, ih]
    | some row => rw [expected_snapshot listed, expected_snapshot listed]

/-! Which runs are admissible. -/

def WellFormed : SpotUserEvent → Prop
  | .outboundAccountPosition pos =>
    ∀ row ∈ pos.balances, (decimalOf row.free).isSome ∧ (decimalOf row.locked).isSome
  | .balanceUpdate update => (decimalOf update.delta).isSome
  | .externalLockUpdate lock => (decimalOf lock.delta).isSome
  | _ => True

def AtDelta (p : Decimal → Decimal → Prop) (pre : List SpotUserEvent) (event : SpotUserEvent) : Prop :=
  ∀ delta, event.delta = some delta →
    p (total delta.side delta.asset pre) (decimalOrZero delta.amount)

instance (p : Decimal → Decimal → Prop) [DecidableRel p] (pre : List SpotUserEvent)
    (event : SpotUserEvent) : Decidable (AtDelta p pre event) :=
  match changes : event.delta with
  | none => isTrue (fun _ same => nomatch changes.symm.trans same)
  | some delta =>
    decidable_of_iff (p (total delta.side delta.asset pre) (decimalOrZero delta.amount))
      ⟨fun holds _ same => Option.some.inj (changes.symm.trans same) ▸ holds,
        fun each => each delta changes⟩

instance : DecidablePred WellFormed
  | .outboundAccountPosition pos => inferInstanceAs (Decidable (∀ row ∈ pos.balances, _))
  | .balanceUpdate update => inferInstanceAs (Decidable ((decimalOf update.delta).isSome = true))
  | .externalLockUpdate lock => inferInstanceAs (Decidable ((decimalOf lock.delta).isSome = true))
  | .executionReport _ | .listStatus _ | .eventStreamTerminated _ => inferInstanceAs (Decidable True)

def EachStep (p : List SpotUserEvent → SpotUserEvent → Prop) (events : List SpotUserEvent) : Prop :=
  ∀ pre event post, events = pre ++ event :: post → p pre event

theorem eachStep_iff_get {p : List SpotUserEvent → SpotUserEvent → Prop}
    {events : List SpotUserEvent} :
    EachStep p events ↔ ∀ i : Fin events.length, p (events.take i) events[i] := by
  constructor
  · intro each i
    exact each (events.take i) events[i] (events.drop (i + 1))
      (by rw [Fin.getElem_fin, List.getElem_cons_drop, List.take_append_drop])
  · rintro at_index pre event post rfl
    simpa using at_index ⟨pre.length, by simp⟩

instance (p : List SpotUserEvent → SpotUserEvent → Prop) [∀ pre event, Decidable (p pre event)]
    (events : List SpotUserEvent) : Decidable (EachStep p events) :=
  decidable_of_iff _ eachStep_iff_get.symm

/-- All amounts are decimals, and every addition stays within `i128` and what `format!` pads. -/
structure Admissible (events : List SpotUserEvent) : Prop where
  wellFormed : ∀ event ∈ events, WellFormed event
  fits : EachStep (AtDelta Fits) events

theorem eachStep_nil (p : List SpotUserEvent → SpotUserEvent → Prop) : EachStep p [] :=
  PartialRun.eachCall_nil p

theorem eachStep_snoc {p : List SpotUserEvent → SpotUserEvent → Prop} {events : List SpotUserEvent}
    {event : SpotUserEvent} : EachStep p (events ++ [event]) ↔ EachStep p events ∧ p events event :=
  PartialRun.eachCall_snoc

theorem Admissible.snoc {events : List SpotUserEvent} {event : SpotUserEvent}
    (admissible : Admissible (events ++ [event])) :
    Admissible events ∧ WellFormed event ∧ AtDelta Fits events event := by
  obtain ⟨fits, last⟩ := eachStep_snoc.mp admissible.fits
  exact ⟨⟨fun e member => admissible.wellFormed e (by simp [member]), fits⟩,
    admissible.wellFormed event (by simp), last⟩

/-! What the account book does with an event. -/

def AssetBalance.withAmount (balance : AssetBalance) (side : Side) (amount : String) : AssetBalance :=
  match side with
  | .free => { balance with free := amount }
  | .locked => { balance with locked := amount }

theorem AssetBalance.withAmount_same (balance : AssetBalance) (side : Side) (amount : String) :
    (balance.withAmount side amount).amount side = amount := by
  cases side <;> rfl

theorem AssetBalance.withAmount_other (balance : AssetBalance) {side other : Side}
    (ne : other ≠ side) (amount : String) :
    (balance.withAmount side amount).amount other = balance.amount other := by
  cases side <;> cases other <;> first | rfl | exact absurd rfl ne

theorem AssetBalance.withAmount_asset (balance : AssetBalance) (side : Side) (amount : String) :
    (balance.withAmount side amount).asset = balance.asset := by
  cases side <;> rfl

namespace AccountBook

def write (self : AccountBook) (delta : Delta) (amount : String) : AccountBook :=
  { self with balances :=
      self.balances.insert delta.asset ((self.entry delta.asset).withAmount delta.side amount) }

theorem applyPosition_get (self : AccountBook) (pos : OutboundAccountPosition) (asset : String) :
    (self.applyPosition pos).balances.get asset =
      (snapshotRow asset (.outboundAccountPosition pos)).or (self.balances.get asset) := by
  simp only [applyPosition, snapshotRow]
  generalize self.balances = balances
  induction pos.balances generalizing balances with
  | nil => rfl
  | cons row rest ih =>
    rw [List.foldl_cons, ih, last?_cons, Map.get_insert]
    cases last? (fun row => if asset = row.asset then some row else none) rest with
    | some later => rfl
    | none =>
      simp only [Option.none_or]
      split <;> rfl

theorem entry_write_same (self : AccountBook) (delta : Delta) (amount : String) :
    (self.write delta amount).entry delta.asset =
      (self.entry delta.asset).withAmount delta.side amount := by
  simp [entry, write]

theorem entry_write_other (self : AccountBook) (delta : Delta) (amount : String) {asset : String}
    (other : asset ≠ delta.asset) :
    (self.write delta amount).balances.get asset = self.balances.get asset :=
  Map.get_insert_of_ne _ other _

section Run

variable [Rust.Build]

def run (events : List SpotUserEvent) : Option AccountBook := events.foldlM apply .default

theorem run_snoc (events : List SpotUserEvent) (event : SpotUserEvent) :
    run (events ++ [event]) = (run events).bind (·.apply event) := by
  simp [run, List.foldlM_append]

theorem apply_delta (self : AccountBook) {event : SpotUserEvent} {delta : Delta}
    (changes : event.delta = some delta) :
    self.apply event =
      (addDecimalStrings ((self.entry delta.asset).amount delta.side) delta.amount).map
        (self.write delta) := by
  cases event with
  | balanceUpdate update =>
    cases changes
    simp only [apply, applyBalanceDelta, AssetBalance.amount]
    cases addDecimalStrings (self.entry update.asset).free update.delta <;> rfl
  | externalLockUpdate lock =>
    cases changes
    simp only [apply, applyExternalLock, AssetBalance.amount]
    cases addDecimalStrings (self.entry lock.asset).locked lock.delta <;> rfl
  | _ => cases changes

theorem apply_plain (self : AccountBook) {event : SpotUserEvent} (plain : event.delta = none) :
    ∃ next, self.apply event = some next ∧ ∀ asset,
      next.balances.get asset = (snapshotRow asset event).or (self.balances.get asset) := by
  cases event with
  | outboundAccountPosition pos => exact ⟨_, rfl, self.applyPosition_get pos⟩
  | executionReport report =>
    refine ⟨_, rfl, fun asset => ?_⟩
    unfold applyExecutionReport
    split <;> rfl
  | listStatus status => exact ⟨self, rfl, fun asset => rfl⟩
  | eventStreamTerminated terminated => exact ⟨self, rfl, fun asset => rfl⟩
  | _ => cases plain

end Run

end AccountBook

/-- A delta moves one side of one asset and nothing else. -/
structure DeltaFrame (delta : Delta) (book next : AccountBook) : Prop where
  otherAssets : ∀ asset, asset ≠ delta.asset → next.balances.get asset = book.balances.get asset
  otherSide : ∀ side, side ≠ delta.side →
    (next.entry delta.asset).amount side = (book.entry delta.asset).amount side
  name : (next.entry delta.asset).asset = (book.entry delta.asset).asset
  openOrders : next.openOrders = book.openOrders

section Frames

variable [Rust.Build]

theorem AccountBook.delta_frame {book next : AccountBook} {event : SpotUserEvent} {delta : Delta}
    (changes : event.delta = some delta) (applied : book.apply event = some next) :
    DeltaFrame delta book next := by
  rw [book.apply_delta changes] at applied
  obtain ⟨amount, _, rfl⟩ := Option.map_eq_some_iff.mp applied
  refine ⟨fun asset other => book.entry_write_other delta amount other, fun side other => ?_, ?_, rfl⟩
  · rw [book.entry_write_same, AssetBalance.withAmount_other _ other]
  · rw [book.entry_write_same, AssetBalance.withAmount_asset]

theorem AccountBook.snapshot_frame {book next : AccountBook} {event : SpotUserEvent}
    (snapshot : event.isSnapshot = true) (applied : book.apply event = some next) :
    next.openOrders = book.openOrders := by
  cases event with
  | outboundAccountPosition pos => cases applied; rfl
  | _ => cases snapshot

end Frames

/-! The invariant of a run: every stored amount spells its total. -/

def Tracks (book : AccountBook) (events : List SpotUserEvent) : Prop :=
  ∀ side asset, decimalOf ((book.entry asset).amount side) = some (total side asset events)

theorem tracks_default : Tracks .default [] := by
  intro side asset
  have zero : decimalOf "0" = some .zero := by decide
  cases side <;> exact zero

theorem decimalOf_eq {s : String} (read : (decimalOf s).isSome) :
    decimalOf s = some (decimalOrZero s) := by
  obtain ⟨d, same⟩ := Option.isSome_iff_exists.mp read
  rw [decimalOrZero, same, Option.getD_some]

theorem WellFormed.delta {event : SpotUserEvent} (wellFormed : WellFormed event) {delta : Delta}
    (changes : event.delta = some delta) :
    decimalOf delta.amount = some (decimalOrZero delta.amount) := by
  cases event with
  | balanceUpdate update => cases changes; exact decimalOf_eq wellFormed
  | externalLockUpdate lock => cases changes; exact decimalOf_eq wellFormed
  | _ => cases changes

theorem WellFormed.row {event : SpotUserEvent} (wellFormed : WellFormed event) {asset : String}
    {row : AssetBalance} (listed : snapshotRow asset event = some row) (side : Side) :
    decimalOf (row.amount side) = some (decimalOrZero (row.amount side)) := by
  cases event with
  | outboundAccountPosition pos =>
    obtain ⟨row', member, same⟩ := last?_mem listed
    rw [Option.ite_none_right_eq_some] at same
    cases same.2
    obtain ⟨free, locked⟩ := wellFormed row member
    cases side
    · exact decimalOf_eq free
    · exact decimalOf_eq locked
  | _ => cases listed

theorem snapshotRow_of_delta {event : SpotUserEvent} {delta : Delta}
    (changes : event.delta = some delta) (asset : String) : snapshotRow asset event = none := by
  cases event with
  | outboundAccountPosition pos => cases changes
  | _ => rfl

theorem total_delta {event : SpotUserEvent} {delta : Delta} (changes : event.delta = some delta)
    (side : Side) (asset : String) (events : List SpotUserEvent) :
    total side asset (events ++ [event]) =
      if delta.side = side ∧ delta.asset = asset then
        (total side asset events).add (decimalOrZero delta.amount)
      else total side asset events := by
  rw [total_later (snapshotRow_of_delta changes asset), deltaFor, changes, Option.bind_some]
  by_cases own : delta.side = side ∧ delta.asset = asset
  · simp only [if_pos own]
  · simp only [if_neg own]

theorem tracks_write {book : AccountBook} {events : List SpotUserEvent} (tracks : Tracks book events)
    {event : SpotUserEvent} {delta : Delta} (changes : event.delta = some delta) {out : String}
    (sum : decimalOf out =
      some ((total delta.side delta.asset events).add (decimalOrZero delta.amount))) :
    Tracks (book.write delta out) (events ++ [event]) := by
  intro side asset
  rw [total_delta changes]
  by_cases at_asset : asset = delta.asset
  · subst at_asset
    rw [book.entry_write_same]
    by_cases at_side : side = delta.side
    · subst at_side
      rw [AssetBalance.withAmount_same, if_pos ⟨rfl, rfl⟩, sum]
    · rw [AssetBalance.withAmount_other _ at_side, if_neg (fun own => at_side own.1.symm)]
      exact tracks side delta.asset
  · rw [AccountBook.entry, book.entry_write_other delta out at_asset,
      if_neg (fun own => at_asset own.2.symm)]
    exact tracks side asset

theorem tracks_plain {book next : AccountBook} {events : List SpotUserEvent}
    (tracks : Tracks book events) {event : SpotUserEvent} (wellFormed : WellFormed event)
    (plain : event.delta = none)
    (rows : ∀ asset, next.balances.get asset =
      (snapshotRow asset event).or (book.balances.get asset)) :
    Tracks next (events ++ [event]) := by
  intro side asset
  rw [AccountBook.entry, rows]
  cases listed : snapshotRow asset event with
  | some row => rw [total_snapshot listed]; exact wellFormed.row listed side
  | none =>
    have noDelta : deltaFor side asset event = none := by rw [deltaFor, plain, Option.bind_none]
    rw [total_later listed, noDelta]
    exact tracks side asset

/-- The stored amount as a rational number, zero for an asset that was never mentioned. -/
def AccountBook.denoted (book : AccountBook) (side : Side) (asset : String) : Option ℚ :=
  (decimalOf ((book.entry asset).amount side)).map Decimal.value

theorem Tracks.denoted {book : AccountBook} {events : List SpotUserEvent}
    (tracks : Tracks book events) (side : Side) (asset : String) :
    book.denoted side asset = some (expected side asset events) := by
  rw [AccountBook.denoted, tracks side asset, Option.map_some, total_value]

section Exactness

variable [Rust.Build]

theorem tracks_step {book : AccountBook} {events : List SpotUserEvent} (tracks : Tracks book events)
    {event : SpotUserEvent} (wellFormed : WellFormed event) (fits : AtDelta Fits events event)
    (representable : AtDelta Representable events event) :
    ∃ next, book.apply event = some next ∧ Tracks next (events ++ [event]) := by
  cases changes : event.delta with
  | none =>
    obtain ⟨next, applied, rows⟩ := book.apply_plain changes
    exact ⟨next, applied, tracks_plain tracks wellFormed changes rows⟩
  | some delta =>
    obtain ⟨out, added, sum⟩ := addDecimalStrings_exact (tracks delta.side delta.asset)
      (wellFormed.delta changes) (fits delta changes) (representable delta changes)
    exact ⟨book.write delta out, by rw [book.apply_delta changes, added, Option.map_some],
      tracks_write tracks changes sum⟩

/-- The run goes through, and every stored amount is exactly what it should be. -/
def Exact (events : List SpotUserEvent) : Prop :=
  ∃ book, AccountBook.run events = some book ∧
    ∀ side asset, book.denoted side asset = some (expected side asset events)

theorem run_tracks {events : List SpotUserEvent} (admissible : Admissible events)
    (representable : EachStep (AtDelta Representable) events) :
    ∃ book, AccountBook.run events = some book ∧ Tracks book events := by
  induction events using List.reverseRecOn with
  | nil => exact ⟨.default, rfl, tracks_default⟩
  | append_singleton events event ih =>
    obtain ⟨before, wellFormed, fits⟩ := admissible.snoc
    obtain ⟨earlier, last⟩ := eachStep_snoc.mp representable
    obtain ⟨book, ran, tracks⟩ := ih before earlier
    obtain ⟨next, applied, holds⟩ := tracks_step tracks wellFormed fits last
    exact ⟨next, by rw [AccountBook.run_snoc, ran, Option.bind_some, applied], holds⟩

/-- A step that adds the least `i128` ends with a wrong amount. -/
theorem representable_of_exact {book : AccountBook} {events : List SpotUserEvent}
    {event : SpotUserEvent} (ran : AccountBook.run events = some book) (tracks : Tracks book events)
    (wellFormed : WellFormed event) (fits : AtDelta Fits events event)
    (exact_after : Exact (events ++ [event])) : AtDelta Representable events event := by
  intro delta changes
  by_contra unrepresentable
  obtain ⟨out, d, added, sum, wrong⟩ := addDecimalStrings_inexact (tracks delta.side delta.asset)
    (wellFormed.delta changes) (fits delta changes) unrepresentable
  obtain ⟨next, reached, holds⟩ := exact_after
  rw [AccountBook.run_snoc, ran, Option.bind_some, book.apply_delta changes, added,
    Option.map_some, Option.some.injEq] at reached
  have held := holds delta.side delta.asset
  rw [AccountBook.denoted, ← reached, book.entry_write_same, AssetBalance.withAmount_same, sum,
    Option.map_some, ← total_value, total_delta changes, if_pos ⟨rfl, rfl⟩] at held
  exact wrong (Option.some.inj held)

theorem exact_prefixes_iff {events : List SpotUserEvent} (admissible : Admissible events) :
    (∀ pre, pre <+: events → Exact pre) ↔ EachStep (AtDelta Representable) events := by
  induction events using List.reverseRecOn with
  | nil =>
    refine ⟨fun _ => eachStep_nil _, fun _ pre isPrefix => ?_⟩
    rw [List.prefix_nil.mp isPrefix]
    exact ⟨.default, rfl, tracks_default.denoted⟩
  | append_singleton events event ih =>
    obtain ⟨before, wellFormed, fits⟩ := admissible.snoc
    constructor
    · intro exact_all
      have earlier := (ih before).mp
        (fun pre isPrefix => exact_all pre (isPrefix.trans (List.prefix_append _ _)))
      obtain ⟨book, ran, tracks⟩ := run_tracks before earlier
      exact eachStep_snoc.mpr ⟨earlier, representable_of_exact ran tracks wellFormed fits
        (exact_all _ (List.prefix_refl _))⟩
    · intro representable pre isPrefix
      rcases List.prefix_concat_iff.mp isPrefix with rfl | shorter
      · obtain ⟨book, ran, tracks⟩ := run_tracks admissible representable
        exact ⟨book, ran, tracks.denoted⟩
      · exact (ih before).mpr (eachStep_snoc.mp representable).1 pre shorter

/-- For every admissible run: every prefix is exact if and only if no step adds the least
`i128`; each step of it has the frame of its kind; and reordering the deltas between two
snapshots leaves what is denoted. -/
theorem balances_exact {events : List SpotUserEvent} (admissible : Admissible events) :
    ((∀ pre, pre <+: events → Exact pre) ↔ EachStep (AtDelta Representable) events) ∧
    EachStep (fun pre event => ∀ book next,
      AccountBook.run pre = some book → book.apply event = some next →
        (∀ delta, event.delta = some delta → DeltaFrame delta book next) ∧
        (event.isSnapshot = true → next.openOrders = book.openOrders)) events ∧
    ∀ pre us vs post, events = pre ++ us ++ post → us.Perm vs →
      (∀ event ∈ us, event.isSnapshot = false) →
      EachStep (AtDelta Representable) events → Admissible (pre ++ vs ++ post) →
      EachStep (AtDelta Representable) (pre ++ vs ++ post) →
      ∃ book permuted, AccountBook.run events = some book ∧
        AccountBook.run (pre ++ vs ++ post) = some permuted ∧
        ∀ side asset, book.denoted side asset = permuted.denoted side asset := by
  refine ⟨exact_prefixes_iff admissible, fun pre event post _ book next _ applied => ?_, ?_⟩
  · exact ⟨fun delta changes => AccountBook.delta_frame changes applied,
      fun snapshot => AccountBook.snapshot_frame snapshot applied⟩
  · rintro pre us vs post rfl permuted plain representable admissible' representable'
    obtain ⟨book, ran, tracks⟩ := run_tracks admissible representable
    obtain ⟨book', ran', tracks'⟩ := run_tracks admissible' representable'
    refine ⟨book, book', ran, ran', fun side asset => ?_⟩
    rw [tracks.denoted, tracks'.denoted, expected_perm permuted plain]

end Exactness

theorem balances_exact_small :
    let events : List SpotUserEvent := [.outboundAccountPosition ⟨1, 1, [⟨"BTC", "1.5", "0"⟩]⟩,
      .balanceUpdate ⟨2, "BTC", "-2.75", 2⟩, .externalLockUpdate ⟨3, "BTC", "0.25", 3⟩]
    ∀ pre, pre <+: events → @Exact .release pre := by
  intro events
  have admissible : Admissible events := ⟨by decide, by decide⟩
  exact (@balances_exact .release _ admissible).1.mpr (by decide)

/-- The least `i128` as a delta: it fits, and is then read as zero. -/
theorem least_i128_delta_lost :
    let delta : SpotUserEvent := .balanceUpdate ⟨1, "BTC", "-170141183460469231731687303715884105728", 1⟩
    Admissible [delta] ∧ ¬@Exact .release [delta] := by
  intro delta
  refine ⟨⟨by decide, by decide⟩, fun exact_after => ?_⟩
  have representable : AtDelta Representable [] delta :=
    @representable_of_exact .release _ _ _ rfl tracks_default (by decide) (by decide) exact_after
  exact absurd representable (by decide)

end Trolly.Spot
