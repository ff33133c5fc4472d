import Trolly.Monitor.CurrentLanes
import Trolly.Tui.BookText
import Trolly.Tui.DeltaChart
import Trolly.Tui.Tabs

/-! What the screen shows while the stream runs in another thread. A frame lists the factories,
asks whether its view has a book, and then reads; the stream may go on between the reads. -/
namespace Trolly.Tui

open Rust Keyed Trolly.Monitor

universe u

variable {P Q : Type} {lob : Lob P Q} {K : Type u} [AddCommGroup K] [LinearOrder K]

/-! ### Keys -/

inductive Key where
  | char (c : Char)
  | esc
  | right
  | tab
  | left
  | other

/-- `none` leaves the loop. -/
def pressKey (labels tab : Nat) : Key → Option Nat
  | .char c => if c = 'q' then none else some tab
  | .esc => none
  | .right | .tab => some ((tab + 1) % max labels 1)
  | .left => some (if tab = 0 then labels - 1 else tab - 1)
  | .other => some tab

def clampTab (labels tab : Nat) : Nat := if labels ≤ tab then labels - 1 else tab

def tabAfter (labels : Nat) (keys : List Key) : Option Nat :=
  keys.foldlM (fun tab key => pressKey labels (clampTab labels tab) key) 0

/-! ### Snapshots -/

/-- `(0, 0, vec![], vec![])` is no book. -/
structure Snapshot where
  bookId : UInt64
  fp : UInt64
  bids : List TextLevel
  asks : List TextLevel

def Snapshot.blank : Snapshot := ⟨0, 0, [], []⟩

def fnv1a64Prefix (s : String) (max : Nat) : UInt64 :=
  ((Utf8.bytes s).take max).foldl (fun h b => (h ^^^ b.toUInt64) * 1099511628211)
    14695981039346656037

/-- How the crate `lob` prints a book: the levels of both sides, as texts. -/
structure BookDisplay (lob : Lob P Q) where
  bids : lob.Book → List (Token × Token)
  asks : lob.Book → List (Token × Token)

namespace BookDisplay

variable (display : BookDisplay lob)

def text (book : lob.Book) : String :=
  bookText (UInt64.ofNat (lob.updateId book)) (Token.texts (display.bids book))
    (Token.texts (display.asks book))

/-- The id of the book itself, with the rows that are read from its text. -/
def snapshot (book : lob.Book) : Snapshot :=
  let bookId := UInt64.ofNat (lob.updateId book)
  let text := display.text book
  let fp := fnv1a64Prefix text 4096
  let (_, bids, asks) := (parseBookDisplay text).getD (0, [], [])
  { bookId, fp, bids, asks }

end BookDisplay

def eqIgnoreAsciiCase (s t : String) : Bool := toAsciiLowercase s = toAsciiLowercase t

theorem eqIgnoreAsciiCase_iff {s t : String} :
    eqIgnoreAsciiCase s t = true ↔ toAsciiLowercase s = toAsciiLowercase t := by
  rw [eqIgnoreAsciiCase, decide_eq_true_iff]

/-- The factories by stream id, in the order in which a hash map visits them. -/
abbrev Factories := List (String × Nat)

section Code

variable (table : CaseTable) (display : BookDisplay lob)

def snapshotLadder (world : World lob) (factoriesBySymbol : Factories) : View → Snapshot
  | .mergedCanonical canon =>
    match world.mergedSwapFor table canon with
    | none => .blank
    | some swap => display.snapshot (world.swaps swap)
  | .symbol sym =>
    let sym := table.toUppercase sym
    match factoriesBySymbol.find? (fun entry => eqIgnoreAsciiCase entry.1 sym) with
    | none => .blank
    | some (_, factory) =>
      match world.published factory with
      | none => .blank
      | some book => display.snapshot book
  | .diff _ => .blank

def usdmStdStreamId (base : String) : String := "binance-usd-m:" ++ table.toUppercase base

def usdmRpiStreamId (base : String) : String :=
  "binance-usd-m:" ++ RPI_PREFIX ++ table.toUppercase base

def hubHasSymbol (factoriesBySymbol : Factories) (key : String) : Bool :=
  factoriesBySymbol.any (fun entry => eqIgnoreAsciiCase entry.1 key)

def rpiDepthPairInKeys (keys : List String) (instrument : String) : Bool :=
  let base := table.toUppercase instrument
  let stdKey := usdmStdStreamId table base
  let rpiKey := usdmRpiStreamId table base
  let keys := keys.map toAsciiUppercase
  keys.contains (toAsciiUppercase stdKey) && keys.contains (toAsciiUppercase rpiKey)

def BOOK_ENTER_RETRIES : Nat := 48

def cloneFactoryForSymbol (factories : Factories) (sym : String) : Option Nat :=
  let u := table.toUppercase sym
  (factories.find? (fun entry => eqIgnoreAsciiCase entry.1 u)).map Prod.snd

/-- The world at each attempt is given. -/
def readSymbolBookWithRetry (world : Nat → World lob) (sym : String) (factories : Factories) :
    Snapshot :=
  match cloneFactoryForSymbol table factories sym with
  | none => .blank
  | some factory =>
    ((List.range BOOK_ENTER_RETRIES).findSome?
      (fun attempt => ((world attempt).published factory).map display.snapshot)).getD .blank

/-- `{:016x}`. -/
def hex16 (n : UInt64) : String :=
  let digits := Nat.toDigits 16 n.toNat
  String.ofList (List.replicate (16 - digits.length) '0' ++ digits)

/-- What the difference is computed with: numbers and their texts, the `1e-12` that nothing is
dropped by here, and the order in which the prices of two sides are visited. -/
structure DiffNumbers (K : Type u) where
  f64 : F64Text K
  tiny : K
  order : List TextLevel → List TextLevel → List String

variable (numbers : DiffNumbers K)

def trySnapshotStdBookMinusRpiStream (stdWorld rpiWorld : Nat → World lob) (instrument : String)
    (factoriesBySymbol : Factories) : Option Snapshot :=
  let base := table.toUppercase instrument
  let stdKey := usdmStdStreamId table base
  let rpiKey := usdmRpiStreamId table base
  if !hubHasSymbol factoriesBySymbol stdKey || !hubHasSymbol factoriesBySymbol rpiKey then none
  else
    let stdSnap := readSymbolBookWithRetry table display stdWorld stdKey factoriesBySymbol
    let rpiSnap := readSymbolBookWithRetry table display rpiWorld rpiKey factoriesBySymbol
    let diff left right :=
      diffQtyLevels numbers.f64 numbers.tiny (numbers.order left right) left right false
    let text := "std−rpi|" ++ hex16 stdSnap.fp ++ "|" ++ hex16 rpiSnap.fp
    some
      { bookId := stdSnap.bookId + rpiSnap.bookId
        fp := fnv1a64Prefix text 256
        bids := diff rpiSnap.bids stdSnap.bids
        asks := diff rpiSnap.asks stdSnap.asks }

def snapshotDiff (stdWorld rpiWorld : Nat → World lob) (sym : String)
    (factoriesBySymbol : Factories) : Snapshot :=
  (trySnapshotStdBookMinusRpiStream table display numbers stdWorld rpiWorld sym
    factoriesBySymbol).getD .blank

def missingSymbol (world : World lob) (bySym : Factories) : View → Bool
  | .mergedCanonical c => c = "" || (world.mergedSwapFor table c).isNone
  | .symbol s => s ≠ "" && !bySym.any (fun entry => eqIgnoreAsciiCase entry.1 s)
  | .diff s => s = "" || !rpiDepthPairInKeys table (bySym.map Prod.fst) s

structure Frame where
  tab : Nat
  viewTitle : String
  missing : Bool
  snapshot : Snapshot

/-- The worlds that a frame meets: when it asks for the view, and when it reads. -/
structure Moments (lob : Lob P Q) where
  asked : World lob
  read : World lob
  std : Nat → World lob
  rpi : Nat → World lob

/-- One turn of the loop in `run_tui`, up to the drawing. -/
def drawFrame (symbolOrder : List String) (bySym : Factories) (moments : Moments lob)
    (tab : Nat) : Frame :=
  let strip := tabStrip table symbolOrder
  let tab := clampTab strip.length tab
  let view := viewForTab tab (strip.map Prod.snd)
  let viewTitle := ((strip.map Prod.fst)[tab]?).getD "?"
  let missing := missingSymbol table moments.asked bySym view
  let snapshot := match view with
    | .diff sym => snapshotDiff table display numbers moments.std moments.rpi sym bySym
    | view => snapshotLadder table display moments.read bySym view
  { tab, viewTitle, missing, snapshot }

end Code

/-! ### The tab after keys -/

def Key.quits : Key → Bool
  | .char c => c = 'q'
  | .esc => true
  | _ => false

def Key.move : Key → Int
  | .right | .tab => 1
  | .left => -1
  | _ => 0

theorem pressKey_move {labels tab : Nat} (inside : tab < labels) {key : Key}
    (stays : key.quits = false) :
    ∃ next < labels, pressKey labels tab key = some next ∧
      (next : Int) = (tab + key.move) % labels := by
  have some : max labels 1 = labels := by omega
  have here : (tab : Int) % labels = tab := Int.emod_eq_of_lt (by omega) (by omega)
  cases key with
  | char c =>
    refine ⟨tab, inside, if_neg (by simpa [Key.quits] using stays), ?_⟩
    simp [Key.move, here]
  | esc => cases stays
  | right | tab =>
    refine ⟨(tab + 1) % labels, Nat.mod_lt _ (by omega), by rw [pressKey, some], ?_⟩
    rw [Key.move, Int.natCast_mod]
    rfl
  | left =>
    by_cases first : tab = 0
    · subst first
      refine ⟨labels - 1, by omega, rfl, ?_⟩
      rw [Key.move, ← Int.add_emod_right, Int.emod_eq_of_lt] <;> omega
    · refine ⟨tab - 1, by omega, by rw [pressKey, if_neg first], ?_⟩
      rw [Key.move, Int.emod_eq_of_lt] <;> omega
  | other =>
    refine ⟨tab, inside, rfl, ?_⟩
    simp [Key.move, here]

theorem clampTab_inside {labels tab : Nat} (inside : tab < labels) : clampTab labels tab = tab :=
  if_neg (Nat.not_le.mpr inside)

/-- By induction on the keys: each moves the tab around the strip. -/
theorem tabAfter_move {labels : Nat} (some : 0 < labels) {keys : List Key}
    (stays : ∀ key ∈ keys, key.quits = false) :
    ∃ tab < labels, tabAfter labels keys = .some tab ∧
      (tab : Int) = (keys.map Key.move).sum % labels := by
  induction keys using List.reverseRecOn with
  | nil => exact ⟨0, some, rfl, by simp⟩
  | append_singleton before key ih =>
    obtain ⟨tab, inside, reached, moved⟩ := ih (fun k member => stays k (by simp [member]))
    obtain ⟨next, within, pressed, turned⟩ := pressKey_move inside (stays key (by simp))
    refine ⟨next, within, ?_, ?_⟩
    · rw [tabAfter] at reached
      rw [tabAfter, List.foldlM_append, reached]
      simp [clampTab_inside inside, pressed]
    · rw [turned, moved, Int.emod_add_emod]
      simp

/-! ### Names without case -/

section Names

variable {table : CaseTable}

/-- The symbol is upper case already. -/
def Fixed (table : CaseTable) (source : BookSource) : Prop :=
  ∀ c ∈ source.symbol.toList, table.upper c = [c]

/-- Case is not needed to tell the stream ids of sources apart. -/
theorem streamId_folded {s t : BookSource} (fixed : Fixed table s) (fixed' : Fixed table t)
    (same : toAsciiLowercase s.streamId = toAsciiLowercase t.streamId) : s = t := by
  rw [lower_eq_iff] at same
  have read : ∀ source : BookSource, Fixed table source →
      splitOnce ':' (toAsciiUppercase source.streamId).toList =
        some (source.provider.label.toList.map Char.toUpper, source.symbol.toList) := by
    intro source fixed
    have colon : ':' ∉ source.provider.label.toList.map Char.toUpper := by
      cases source.provider <;> decide
    have kept : source.symbol.toList.map Char.toUpper = source.symbol.toList := by
      rw [List.map_congr_left (fun c member => CaseTable.toUpper_fixed (fixed c member)),
        List.map_id']
    rw [toAsciiUppercase, String.toList_ofList, BookSource.streamId_toList, List.map_append,
      List.map_cons, kept]
    exact splitOnce_append colon _
  have parts := (read s fixed).symm.trans
    ((congrArg (fun id : String => splitOnce ':' id.toList) same).trans (read t fixed'))
  rw [Option.some.injEq, Prod.mk.injEq, String.toList_inj] at parts
  obtain ⟨labels, symbols⟩ := parts
  have told : ∀ p q : Provider,
      p.label.toList.map Char.toUpper = q.label.toList.map Char.toUpper → p = q := by
    intro p q
    cases p <;> cases q <;> decide
  obtain ⟨p, x⟩ := s
  obtain ⟨q, y⟩ := t
  exact BookSource.mk.injEq .. ▸ ⟨told p q labels, symbols⟩

theorem upper_streamId_folded {source : BookSource} (fixed : Fixed table source) :
    toAsciiLowercase (table.toUppercase source.streamId) = toAsciiLowercase source.streamId := by
  have label : source.provider.label.toList.flatMap table.upper =
      source.provider.label.toList.map Char.toUpper := by
    have ascii : ∀ c ∈ source.provider.label.toList, c.toNat < 128 := by
      cases source.provider <;> exact ascii_of_all (by decide)
    rw [List.flatMap_congr (fun c member => table.ascii c (ascii c member)), List.map_eq_flatMap]
  have spelled : (table.toUppercase source.streamId).toList =
      source.provider.label.toList.map Char.toUpper ++ ':' :: source.symbol.toList := by
    rw [CaseTable.toUppercase_toList, BookSource.streamId_toList, List.flatMap_append, label,
      List.flatMap_cons, CaseTable.upper_fixed fixed, table.ascii ':' (by decide)]
    rfl
  rw [lower_eq_iff, toAsciiUppercase, toAsciiUppercase, spelled, BookSource.streamId_toList]
  have twice : Char.toUpper ∘ Char.toUpper = Char.toUpper := funext toUpper_idem
  rw [List.map_append, List.map_append, List.map_map, twice]

/-- What a hash map of factories lists, in some order. -/
def Lists (factories : Factories) (world : World lob) : Prop :=
  ∀ id factory, (id, factory) ∈ factories ↔ world.inner.factories.get id = some factory

variable {sources : List BookSource} {state : StreamState lob}

theorem canonical_new {source : BookSource} (canonical : Canonical table source.symbol) :
    BookSource.new table source.provider source.symbol = source := by
  rw [BookSource.new, canonical.trim_eq, canonical.toUppercase_eq]

theorem source_of_factory (wired : ∀ s ∈ sources, s.provider ≠ .other)
    (canonical : ∀ s ∈ sources, Canonical table s.symbol)
    (live : StreamState.Live table sources state) {id : String} {factory : Nat}
    (held : state.world.inner.factories.get id = some factory) :
    ∃ s ∈ sources, s.streamId = id := by
  obtain ⟨_, job, member, named⟩ := live.book_of_factory held
  have listed := (jobs_streamIds table wired).mem_iff.mp (List.mem_map_of_mem member)
  rw [named] at listed
  obtain ⟨s, inside, same⟩ := List.mem_map.mp listed
  exact ⟨s, inside, by rw [← same, canonical_new (canonical s inside)]⟩

/-- The factory found for a name, whatever its case and the order of the map. -/
theorem find_factory (known : ∀ id factory, state.world.inner.factories.get id = some factory →
      ∃ s, Fixed table s ∧ s.streamId = id)
    {factories : Factories} (lists : Lists factories state.world) {target : BookSource}
    (fixed : Fixed table target) {name : String}
    (folded : toAsciiLowercase name = toAsciiLowercase target.streamId) :
    factories.find? (fun entry => eqIgnoreAsciiCase entry.1 name) =
      (state.world.inner.factories.get target.streamId).map (target.streamId, ·) := by
  have only : ∀ entry ∈ factories, eqIgnoreAsciiCase entry.1 name = true →
      entry.1 = target.streamId := by
    rintro ⟨id, factory⟩ listed same
    obtain ⟨s, upper, rfl⟩ := known id factory ((lists id factory).mp listed)
    rw [streamId_folded upper fixed ((eqIgnoreAsciiCase_iff.mp same).trans folded)]
  cases held : state.world.inner.factories.get target.streamId with
  | none =>
    rw [Option.map_none, List.find?_eq_none]
    rintro ⟨id, factory⟩ listed same
    obtain rfl : id = target.streamId := only _ listed same
    rw [(lists _ _).mp listed] at held
    cases held
  | some factory =>
    have there : eqIgnoreAsciiCase target.streamId name = true :=
      eqIgnoreAsciiCase_iff.mpr folded.symm
    cases found : factories.find? (fun entry => eqIgnoreAsciiCase entry.1 name) with
    | none =>
      have absent := List.find?_eq_none.mp found (target.streamId, factory)
        ((lists _ _).mpr held)
      exact absurd there absent
    | some entry =>
      obtain ⟨id, other⟩ := entry
      have listed := List.mem_of_find?_eq_some found
      have hit := List.find?_some found
      have same : id = target.streamId := only (id, other) listed hit
      subst same
      rw [(lists _ _).mp listed] at held
      rw [← Option.some.inj held, Option.map_some]

theorem any_factory (known : ∀ id factory, state.world.inner.factories.get id = some factory →
      ∃ s, Fixed table s ∧ s.streamId = id)
    {factories : Factories} (lists : Lists factories state.world) {target : BookSource}
    (fixed : Fixed table target) :
    factories.any (fun entry => eqIgnoreAsciiCase entry.1 target.streamId) =
      (state.world.inner.factories.get target.streamId).isSome := by
  rw [← List.isSome_find?, find_factory known lists fixed rfl, Option.isSome_map]

theorem rpiDepthPairInKeys_eq (table : CaseTable) (factories : Factories) (instrument : String) :
    rpiDepthPairInKeys table (factories.map Prod.fst) instrument =
      (hubHasSymbol factories (usdmStdStreamId table (table.toUppercase instrument)) &&
        hubHasSymbol factories (usdmRpiStreamId table (table.toUppercase instrument))) := by
  have each : ∀ key, ((factories.map Prod.fst).map toAsciiUppercase).contains
      (toAsciiUppercase key) = hubHasSymbol factories key := by
    intro key
    rw [Bool.eq_iff_iff, List.contains_iff_mem, hubHasSymbol, List.any_eq_true]
    simp only [List.map_map, List.mem_map, Function.comp_apply, eqIgnoreAsciiCase_iff,
      lower_eq_iff]
  simp only [rpiDepthPairInKeys, each]

end Names

/-! ### What is shown -/

variable (display : BookDisplay lob)

/-- A book as the screen shows it. -/
def BookDisplay.shown (book : lob.Book) : Snapshot where
  bookId := UInt64.ofNat (lob.updateId book)
  fp := fnv1a64Prefix (display.text book) 4096
  bids := Token.texts (display.bids book)
  asks := Token.texts (display.asks book)

theorem snapshot_shown (book : lob.Book) : display.snapshot book = display.shown book := by
  have read := parse_book_text (UInt64.ofNat (lob.updateId book)) (display.bids book)
    (display.asks book)
  rw [BookDisplay.snapshot, BookDisplay.text, read]
  rfl

/-- A book without the levels of another. -/
def BookDisplay.difference (numbers : DiffNumbers K) (std rpi : lob.Book) : Snapshot :=
  let std := display.shown std
  let rpi := display.shown rpi
  let diff left right :=
    diffQtyLevels numbers.f64 numbers.tiny (numbers.order left right) left right false
  { bookId := std.bookId + rpi.bookId
    fp := fnv1a64Prefix ("std−rpi|" ++ hex16 std.fp ++ "|" ++ hex16 rpi.fp) 256
    bids := diff rpi.bids std.bids
    asks := diff rpi.asks std.asks }

/-- A frame lists the factories at `0`, asks at `1` and reads from `2` on; the second leg of a
difference is read behind all attempts at the first. -/
def momentsOf (state : Nat → StreamState lob) : Moments lob where
  asked := (state 1).world
  read := (state 2).world
  std := fun attempt => (state (2 + attempt)).world
  rpi := fun attempt => (state (2 + BOOK_ENTER_RETRIES + attempt)).world

/-- What a frame is to show on a tab, and when it is to say that there is no book. -/
def ShowsTab (table : CaseTable) (sources : List BookSource) (numbers : DiffNumbers K)
    [AddCommMonoid Q] (state : Nat → StreamState lob) (frame : Frame) : TabKind → Prop
  | .mergedCanon c =>
    (frame.missing = true ↔ (state 1).registeredFor table sources c = ∅) ∧
      ((state 2).registeredFor table sources c = ∅ ∧ frame.snapshot = .blank ∨
        ∃ book, (state 2).SumsUp ((state 2).registeredFor table sources c) book ∧
          frame.snapshot = display.shown book)
  | .sym id =>
    (frame.missing = true ↔ (state 0).world.bookFor id = none) ∧
      ((state 0).world.bookFor id = none ∧ frame.snapshot = .blank ∨
        ∃ book, (state 2).world.bookFor id = some book ∧ frame.snapshot = display.shown book)
  | .diff c =>
    let unlisted := (state 0).world.bookFor (usdmStdStreamId table c) = none ∨
      (state 0).world.bookFor (usdmRpiStreamId table c) = none
    (frame.missing = true ↔ unlisted) ∧
      (unlisted ∧ frame.snapshot = .blank ∨
        ∃ std rpi, (state 2).world.bookFor (usdmStdStreamId table c) = some std ∧
          (state (2 + BOOK_ENTER_RETRIES)).world.bookFor (usdmRpiStreamId table c) = some rpi ∧
          frame.snapshot = display.difference numbers std rpi)

section Run

variable {table : CaseTable} {sources : List BookSource} {state : Nat → StreamState lob}
  {factories : Factories} {target : BookSource}

/-- The states that a frame meets: each is live, and what is registered stays. -/
structure Passes (table : CaseTable) (sources : List BookSource) (state : Nat → StreamState lob) :
    Prop where
  canonical : ∀ s ∈ sources, Canonical table s.symbol
  wired : ∀ s ∈ sources, s.provider ≠ .other
  live : ∀ n, StreamState.Live table sources (state n)
  kept : ∀ n id factory, (state 0).world.inner.factories.get id = some factory →
    (state n).world.inner.factories.get id = some factory

theorem Passes.known (passes : Passes table sources state) :
    ∀ id factory, (state 0).world.inner.factories.get id = some factory →
      ∃ s, Fixed table s ∧ s.streamId = id := by
  intro id factory held
  obtain ⟨s, inside, same⟩ := source_of_factory passes.wired passes.canonical (passes.live 0) held
  exact ⟨s, (passes.canonical s inside).upper, same⟩

/-- A stream that is listed has a book, then and later. -/
theorem Passes.listed (passes : Passes table sources state) {id : String} {factory : Nat}
    (held : (state 0).world.inner.factories.get id = some factory) (n : Nat) :
    ∃ book, (state n).world.published factory = some book ∧
      (state n).world.bookFor id = some book :=
  ((passes.live n).book_of_factory (passes.kept n id factory held)).1

theorem Passes.unlisted_iff (passes : Passes table sources state) (id : String) :
    (state 0).world.bookFor id = none ↔ (state 0).world.inner.factories.get id = none := by
  cases held : (state 0).world.inner.factories.get id with
  | none => simp [World.bookFor, held]
  | some factory =>
    obtain ⟨book, _, current⟩ := passes.listed held 0
    simp [current]

theorem Passes.has_iff (passes : Passes table sources state)
    (lists : Lists factories (state 0).world) (fixed : Fixed table target) :
    hubHasSymbol factories target.streamId = true ↔
      (state 0).world.bookFor target.streamId ≠ none := by
  rw [hubHasSymbol, any_factory passes.known lists fixed, Option.isSome_iff_ne_none, Ne, Ne,
    passes.unlisted_iff]

/-- A leg as it is read. -/
theorem Passes.ladder (passes : Passes table sources state)
    (lists : Lists factories (state 0).world) (fixed : Fixed table target) :
    let shown := snapshotLadder table display (state 2).world factories (.symbol target.streamId)
    (state 0).world.bookFor target.streamId = none ∧ shown = .blank ∨
      ∃ book, (state 2).world.bookFor target.streamId = some book ∧
        shown = display.shown book := by
  have found := find_factory passes.known lists fixed (upper_streamId_folded fixed)
  cases held : (state 0).world.inner.factories.get target.streamId with
  | none =>
    rw [held, Option.map_none] at found
    refine .inl ⟨(passes.unlisted_iff _).mpr held, ?_⟩
    simp only [snapshotLadder, found]
  | some factory =>
    rw [held, Option.map_some] at found
    obtain ⟨book, alive, current⟩ := passes.listed held 2
    refine .inr ⟨book, current, ?_⟩
    simp only [snapshotLadder, found, alive, snapshot_shown]

/-- No attempt at a listed leg fails, so the first is taken. -/
theorem Passes.attempts (passes : Passes table sources state)
    (lists : Lists factories (state 0).world) (fixed : Fixed table target) (start : Nat)
    (listed : (state 0).world.bookFor target.streamId ≠ none) :
    ∃ book, (state start).world.bookFor target.streamId = some book ∧
      readSymbolBookWithRetry table display (fun attempt => (state (start + attempt)).world)
        target.streamId factories = display.shown book := by
  have found := find_factory passes.known lists fixed (upper_streamId_folded fixed)
  rw [Ne, passes.unlisted_iff, ← Ne, Option.ne_none_iff_exists'] at listed
  obtain ⟨factory, held⟩ := listed
  obtain ⟨book, alive, current⟩ := passes.listed held start
  rw [held, Option.map_some] at found
  refine ⟨book, current, ?_⟩
  simp only [readSymbolBookWithRetry, cloneFactoryForSymbol, found, Option.map_some,
    BOOK_ENTER_RETRIES, List.range_succ_eq_map, List.findSome?_cons, Nat.add_zero, alive,
    snapshot_shown, Option.getD_some]

/-! Each kind of tab -/

/-- No source is registered under the empty name. -/
theorem Passes.unnamed (passes : Passes table sources state) (now : StreamState lob) :
    now.registeredFor table sources "" = ∅ := by
  rw [StreamState.registeredFor, List.toFinset_eq_empty_iff, List.map_eq_nil_iff,
    List.filter_eq_nil_iff]
  intro job member named
  have listed := (jobs_sources table passes.wired).mem_iff.mp (List.mem_map_of_mem member)
  obtain ⟨s, inside, made⟩ := List.mem_map.mp listed
  have canonical := passes.canonical s inside
  rw [canonical_new canonical] at made
  have symbol : s.symbol = "" := by
    rw [← canonical.toUppercase_eq]
    have same := (of_decide_eq_true named).2
    rwa [Job.instrument, ← made, BookSource.canonicalInstrument] at same
  exact canonical.shown (by rw [symbol]; rfl)

variable (numbers : DiffNumbers K)

variable (factories) in
theorem Passes.merged [AddCommMonoid Q] (passes : Passes table sources state)
    (field : lob.UpdateIdField) (merges : lob.MergesLevels) (c : String) :
    let shown := snapshotLadder table display (state 2).world factories (.mergedCanonical c)
    (missingSymbol table (state 1).world factories (.mergedCanonical c) = true ↔
        (state 1).registeredFor table sources c = ∅) ∧
      ((state 2).registeredFor table sources c = ∅ ∧ shown = .blank ∨
        ∃ book, (state 2).SumsUp ((state 2).registeredFor table sources c) book ∧
          shown = display.shown book) := by
  constructor
  · have lane : (state 1).world.mergedSwapFor table c = none ↔
        (state 1).registeredFor table sources c = ∅ := by
      refine ⟨fun vacant => ?_, (passes.live 1).lane_none⟩
      by_contra present
      obtain ⟨swap, held, _⟩ := (passes.live 1).lane_some field merges
        (Finset.nonempty_iff_ne_empty.mpr present)
      rw [vacant] at held
      cases held
    have unnamed : c = "" → (state 1).registeredFor table sources c = ∅ := by
      rintro rfl
      exact passes.unnamed (state 1)
    simp only [missingSymbol, Bool.or_eq_true, decide_eq_true_iff, Option.isNone_iff_eq_none, lane]
    exact ⟨fun missing => missing.elim unnamed id, .inr⟩
  · rcases Finset.eq_empty_or_nonempty ((state 2).registeredFor table sources c) with absent | present
    · refine .inl ⟨absent, ?_⟩
      simp only [snapshotLadder, (passes.live 2).lane_none absent]
    · obtain ⟨swap, held, sums⟩ := (passes.live 2).lane_some field merges present
      refine .inr ⟨_, sums, ?_⟩
      simp only [snapshotLadder, held, snapshot_shown]

theorem Passes.leg (passes : Passes table sources state)
    (lists : Lists factories (state 0).world) (fixed : Fixed table target) :
    missingSymbol table (state 1).world factories (.symbol target.streamId) = true ↔
      (state 0).world.bookFor target.streamId = none := by
  have has := passes.has_iff lists fixed
  have named : target.streamId ≠ "" := by
    intro empty
    have spelled := congrArg String.toList empty
    rw [BookSource.streamId_toList] at spelled
    simp at spelled
  rw [hubHasSymbol] at has
  simp only [missingSymbol, named, ne_eq, not_false_eq_true, decide_true, Bool.true_and,
    Bool.not_eq_true', ← Bool.not_eq_true, has, not_not]

theorem usdmStd_source (c : String) : usdmStdStreamId table c =
    (BookSource.mk .binanceUsdM (table.toUppercase c)).streamId := by
  rw [usdmStdStreamId, BookSource.streamId]
  rfl

theorem usdmRpi_source (c : String) : usdmRpiStreamId table c =
    (BookSource.mk .binanceUsdM (RPI_PREFIX ++ table.toUppercase c)).streamId := by
  rw [usdmRpiStreamId, BookSource.streamId, String.append_assoc]
  rfl

theorem legs_fixed (lawful : ∀ c, table.Tame c) (c : String) :
    Fixed table ⟨.binanceUsdM, table.toUppercase c⟩ ∧
      Fixed table ⟨.binanceUsdM, RPI_PREFIX ++ table.toUppercase c⟩ := by
  have upper : Fixed table ⟨.binanceUsdM, table.toUppercase c⟩ := by
    intro d member
    rw [CaseTable.toUppercase_toList] at member
    exact CaseTable.fixed_upper (fun c _ => lawful c) d member
  refine ⟨upper, fun d member => ?_⟩
  rw [String.toList_append, List.mem_append] at member
  rcases member with overlay | symbol
  · have spelled : RPI_PREFIX.toList = ['R', 'P', 'I', ':'] := rfl
    simp only [spelled, List.mem_cons, List.not_mem_nil, or_false] at overlay
    rcases overlay with rfl | rfl | rfl | rfl <;> exact table.ascii _ (by decide)
  · exact upper d symbol

theorem Passes.no_leg (passes : Passes table sources state) :
    (state 0).world.bookFor (usdmStdStreamId table "") = none := by
  rw [passes.unlisted_iff, ← Option.not_isSome_iff_eq_none]
  intro listed
  obtain ⟨factory, held⟩ := Option.isSome_iff_exists.mp listed
  obtain ⟨s, inside, same⟩ := source_of_factory passes.wired passes.canonical (passes.live 0) held
  rw [usdmStd_source] at same
  have symbol := congrArg BookSource.symbol (BookSource.streamId_injective same)
  exact (passes.canonical s inside).shown (by rw [symbol]; rfl)

theorem Passes.legs (passes : Passes table sources state) (lawful : ∀ c, table.Tame c)
    (lists : Lists factories (state 0).world) (c : String) :
    let shown := snapshotDiff table display numbers (momentsOf state).std (momentsOf state).rpi c
      factories
    let unlisted := (state 0).world.bookFor (usdmStdStreamId table c) = none ∨
      (state 0).world.bookFor (usdmRpiStreamId table c) = none
    (missingSymbol table (state 1).world factories (.diff c) = true ↔ unlisted) ∧
      (unlisted ∧ shown = .blank ∨
        ∃ std rpi, (state 2).world.bookFor (usdmStdStreamId table c) = some std ∧
          (state (2 + BOOK_ENTER_RETRIES)).world.bookFor (usdmRpiStreamId table c) = some rpi ∧
          shown = display.difference numbers std rpi) := by
  have upper : usdmStdStreamId table (table.toUppercase c) = usdmStdStreamId table c ∧
      usdmRpiStreamId table (table.toUppercase c) = usdmRpiStreamId table c := by
    rw [usdmStdStreamId, usdmRpiStreamId, CaseTable.toUppercase_idem lawful]
    exact ⟨rfl, rfl⟩
  obtain ⟨stdFixed, rpiFixed⟩ := legs_fixed lawful c
  have hasStd := passes.has_iff lists stdFixed
  have hasRpi := passes.has_iff lists rpiFixed
  have stdRead := passes.attempts display lists stdFixed 2
  have rpiRead := passes.attempts display lists rpiFixed (2 + BOOK_ENTER_RETRIES)
  rw [← usdmStd_source] at hasStd stdRead
  rw [← usdmRpi_source] at hasRpi rpiRead
  have unnamed : c = "" → (state 0).world.bookFor (usdmStdStreamId table c) = none := by
    rintro rfl
    exact passes.no_leg
  refine ⟨?_, ?_⟩
  · simp only [missingSymbol, rpiDepthPairInKeys_eq, upper, Bool.or_eq_true, decide_eq_true_iff,
      Bool.not_eq_true', ← Bool.not_eq_true, Bool.and_eq_true, hasStd, hasRpi, not_and_or, ne_eq,
      not_not]
    exact ⟨fun missing => missing.elim (fun empty => .inl (unnamed empty)) id, .inr⟩
  · by_cases listed : (state 0).world.bookFor (usdmStdStreamId table c) ≠ none ∧
        (state 0).world.bookFor (usdmRpiStreamId table c) ≠ none
    · obtain ⟨std, stdHeld, stdShown⟩ := stdRead listed.1
      obtain ⟨rpi, rpiHeld, rpiShown⟩ := rpiRead listed.2
      refine .inr ⟨std, rpi, stdHeld, rpiHeld, ?_⟩
      simp only [snapshotDiff, trySnapshotStdBookMinusRpiStream, upper, hasStd.mpr listed.1,
        hasRpi.mpr listed.2, Bool.not_true, Bool.or_self, Bool.false_eq_true, if_false, momentsOf,
        stdShown, rpiShown, Option.getD_some, BookDisplay.difference]
    · refine .inl ⟨by simpa only [not_and_or, ne_eq, not_not] using listed, ?_⟩
      rw [← hasStd, ← hasRpi, ← Bool.and_eq_true, Bool.not_eq_true] at listed
      have blank : (!hubHasSymbol factories (usdmStdStreamId table c) ||
          !hubHasSymbol factories (usdmRpiStreamId table c)) = true := by
        rw [← Bool.not_and, listed]
        rfl
      simp only [snapshotDiff, trySnapshotStdBookMinusRpiStream, upper, blank, if_true,
        Option.getD_none]

end Run

theorem sym_mem_tabStrip {table : CaseTable} {streamOrder : List String} {label id : String}
    (member : (label, .sym id) ∈ tabStrip table streamOrder) : id ∈ streamOrder := by
  simp only [tabStrip, List.mem_flatMap, List.mem_cons, List.mem_append, List.mem_map,
    List.mem_filter, Prod.mk.injEq, reduceCtorEq, and_false, false_or, List.not_mem_nil,
    or_false] at member
  obtain ⟨_, _, s, ⟨listed, _⟩, _, same⟩ := member
  cases same
  exact listed

def bareDisplay : BookDisplay (Lob.levelBooks Nat Int) := ⟨fun _ => [], fun _ => []⟩

def wholeNumbers : DiffNumbers Int := ⟨.whole, 0, fun _ _ => []⟩

def standardBuilt : List (StreamOp (Lob.levelBooks Nat Int)) :=
  [.build ⟨.binanceUsdM, 0, "BTCUSDT"⟩ (some (World.bidBook 4 100 2))]

end Trolly.Tui
