import Trolly.Lib.Keyed
import Trolly.Tui.Curves
import Mathlib.Algebra.Order.Group.Abs
import Mathlib.Data.List.Dedup

/-! The delta chart of a standard and an RPI ladder in exact arithmetic. The differences are
cut at the lowest prices before either side takes what is nearest the touch: on the asks the
cut is the right one, on the bids it takes the best levels away. -/
namespace Trolly.Tui

open Rust Nearest Keyed

universe u

variable {K : Type u} [AddCommGroup K] [LinearOrder K]

section Code

variable (f64 : F64Text K)

def levelsQtyMap (levels : List TextLevel) : Map String K :=
  levels.foldl
    (fun m (p, qs) =>
      match f64.parse qs with
      | some (.finite q) => m.insert p ((m.get p).getD 0 + q)
      | _ => m)
    .empty

/-- `order` visits the set of the keys of both maps. -/
def KeyOrder (leftSide rightSide : List TextLevel) (order : List String) : Prop :=
  order.Nodup ∧ ∀ key, key ∈ order ↔
    ((levelsQtyMap f64 leftSide).get key).isSome ∨ ((levelsQtyMap f64 rightSide).get key).isSome

def MAX_LEVELS : Nat := 2048

/-- Right minus left at each price; `tiny` is `1e-12`. Exact differences are always finite. -/
def diffQtyLevels (tiny : K) (order : List String) (leftSide rightSide : List TextLevel)
    (omitZeroDelta : Bool) : List TextLevel :=
  let bm := levelsQtyMap f64 leftSide
  let sm := levelsQtyMap f64 rightSide
  let pairs := order.filterMap fun p =>
    let d := (sm.get p).getD 0 - (bm.get p).getD 0
    if omitZeroDelta ∧ |d| < tiny then none
    else
      match f64.parse p with
      | some (.finite pf) => some (pf, p, d)
      | _ => none
  ((ascending Prod.fst pairs).take MAX_LEVELS).map (fun pair => (pair.2.1, f64.display pair.2.2))

def bidDeltaLineTopN (levels : List TextLevel) (maxLevels : Nat) : List (K × K) :=
  let v := parseSignedLevelPairs f64 levels
  if v.isEmpty then []
  else ascending Prod.fst ((descending Prod.fst v).take maxLevels)

def askDeltaLineTopN (levels : List TextLevel) (maxLevels : Nat) : List (K × K) :=
  let v := parseSignedLevelPairs f64 levels
  if v.isEmpty then []
  else (ascending Prod.fst v).take maxLevels

end Code

/-! ### What the chart is for -/

section Spec

variable (f64 : F64Text K)

/-- The quantity that a ladder holds at a price, zero where it has no such level. -/
def quantityAt (levels : List TextLevel) (p : K) : K :=
  ((levels.filter (fun row => f64.number row.1 = some p)).filterMap
    (fun row => f64.number row.2)).sum

/-- The prices of two ladders, each once. -/
def unionPrices (rpi std : List TextLevel) : List K :=
  ((rpi ++ std).filterMap (fun row => f64.number row.1)).dedup

/-- The prices of two ladders with the standard quantity less the RPI quantity. -/
def unionDeltas (rpi std : List TextLevel) : List (K × K) :=
  (unionPrices f64 rpi std).map
    (fun p => (p, quantityAt f64 std p - quantityAt f64 rpi p))

/-- Rows of finite numbers, with one text for a price. -/
structure ExactLadders (rpi std : List TextLevel) : Prop where
  price : ∀ row ∈ rpi ++ std, (f64.number row.1).isSome
  qty : ∀ row ∈ rpi ++ std, (f64.number row.2).isSome
  oneText : ∀ a ∈ rpi ++ std, ∀ b ∈ rpi ++ std, f64.number a.1 = f64.number b.1 → a.1 = b.1

end Spec

/-! ### The differences before the cut -/

variable {f64 : F64Text K}

omit [LinearOrder K] in
/-- A row whose quantity is a number adds to what its text holds, any other row is skipped. -/
theorem levelsQtyMap_snoc (levels : List TextLevel) (row : TextLevel) :
    levelsQtyMap f64 (levels ++ [row]) =
      (f64.number row.2).elim (levelsQtyMap f64 levels) (fun q =>
        (levelsQtyMap f64 levels).insert row.1
          (((levelsQtyMap f64 levels).get row.1).getD 0 + q)) := by
  rw [levelsQtyMap, List.foldl_append]
  cases read : f64.parse row.2 with
  | none => simp [F64Text.number, read, levelsQtyMap]
  | some q => cases q <;> simp [F64Text.number, read, levelsQtyMap]

omit [LinearOrder K] in
theorem levelsQtyMap_get (levels : List TextLevel) (key : String) :
    ((levelsQtyMap f64 levels).get key).getD 0 =
        ((levels.filter (fun row => row.1 = key)).filterMap (fun row => f64.number row.2)).sum ∧
      (((levelsQtyMap f64 levels).get key).isSome ↔
        ∃ row ∈ levels, row.1 = key ∧ (f64.number row.2).isSome) := by
  induction levels using List.reverseRecOn with
  | nil => simp [levelsQtyMap]
  | append_singleton levels row ih =>
    obtain ⟨p, qs⟩ := row
    obtain ⟨value, keys⟩ := ih
    rw [levelsQtyMap_snoc]
    cases read : f64.number qs with
    | none =>
      constructor
      · by_cases own : p = key <;> simp [own, read, value]
      · simp [keys, read]
    | some q =>
      by_cases own : p = key
      · subst own
        simp [read, value]
      · have other : key ≠ p := fun same => own same.symm
        simp only [Option.elim_some, Map.get_insert_of_ne _ other]
        constructor
        · simp [own, value]
        · simp [keys, own]

omit [AddCommGroup K] [LinearOrder K] in
theorem parseSignedLevelPairs_eq (levels : List TextLevel) :
    parseSignedLevelPairs f64 levels = levels.filterMap (fun row =>
      (f64.number row.1).bind (fun p => (f64.number row.2).map (p, ·))) := by
  refine List.filterMap_congr (fun (ps, qs) _ => ?_)
  cases price : f64.parse ps with
  | none => simp [F64Text.number, price]
  | some p =>
    cases qty : f64.parse qs with
    | none => cases p <;> simp [F64Text.number, price, qty]
    | some q => cases p <;> cases q <;> simp [F64Text.number, price, qty]

omit [AddCommGroup K] [LinearOrder K] in
/-- What `diffQtyLevels` writes is read back. -/
theorem parseSignedLevelPairs_written {entries : List (K × String × K)}
    (priced : ∀ entry ∈ entries, f64.number entry.2.1 = some entry.1) :
    parseSignedLevelPairs f64
        (entries.map (fun pair => (pair.2.1, f64.display pair.2.2))) =
      entries.map (fun entry => (entry.1, entry.2.2)) := by
  rw [parseSignedLevelPairs_eq]
  induction entries with
  | nil => rfl
  | cons entry rest ih =>
    have read := priced entry (.head rest)
    have later := ih (fun other member => priced other (.tail entry member))
    simp only [List.map_cons, List.filterMap_cons, read, F64Text.number_display, Option.bind_some,
      Option.map_some, later]

section Union

variable {rpi std : List TextLevel} {order : List String} (exact : ExactLadders f64 rpi std)
  (visits : KeyOrder f64 rpi std order)

include exact visits

omit [LinearOrder K] in
theorem mem_order_iff (key : String) : key ∈ order ↔ ∃ row ∈ rpi ++ std, row.1 = key := by
  rw [visits.2, (levelsQtyMap_get rpi key).2, (levelsQtyMap_get std key).2]
  constructor
  · rintro (⟨row, member, same, _⟩ | ⟨row, member, same, _⟩)
    · exact ⟨row, List.mem_append_left _ member, same⟩
    · exact ⟨row, List.mem_append_right _ member, same⟩
  · rintro ⟨row, member, same⟩
    have number := exact.qty row member
    exact (List.mem_append.mp member).imp (fun inside => ⟨row, inside, same, number⟩)
      (fun inside => ⟨row, inside, same, number⟩)

/-- The maps go by the text of a price, which stands for the price. -/
theorem getD_eq_quantityAt {levels : List TextLevel} (within : ∀ row ∈ levels, row ∈ rpi ++ std)
    {key : String} (visited : key ∈ order) {p : K} (price : f64.number key = some p) :
    ((levelsQtyMap f64 levels).get key).getD 0 = quantityAt f64 levels p := by
  obtain ⟨named, listed, rfl⟩ := (mem_order_iff exact visits key).mp visited
  have same : levels.filter (fun row => row.1 = named.1) =
      levels.filter (fun row => f64.number row.1 = some p) := by
    refine List.filter_congr (fun row member => ?_)
    refine decide_eq_decide.mpr ⟨fun text => text ▸ price, fun value => ?_⟩
    exact exact.oneText row (within row member) named listed (value.trans price.symm)
  rw [(levelsQtyMap_get levels named.1).1, same, quantityAt]

theorem prices_perm : (order.filterMap f64.number).Perm (unionPrices f64 rpi std) := by
  have nodup : (order.filterMap f64.number).Nodup := by
    refine List.pairwise_filterMap.mpr (visits.1.imp_of_mem ?_)
    intro a b first second apart p left q right same
    obtain ⟨row, listed, rfl⟩ := (mem_order_iff exact visits a).mp first
    obtain ⟨row', listed', rfl⟩ := (mem_order_iff exact visits b).mp second
    exact apart (exact.oneText row listed row' listed' (by rw [left, right, same]))
  refine (List.perm_ext_iff_of_nodup nodup (List.nodup_dedup _)).mpr (fun p => ?_)
  rw [List.mem_dedup, List.mem_filterMap, List.mem_filterMap]
  constructor
  · rintro ⟨key, visited, price⟩
    obtain ⟨row, listed, rfl⟩ := (mem_order_iff exact visits key).mp visited
    exact ⟨row, listed, price⟩
  · rintro ⟨row, listed, price⟩
    exact ⟨row.1, (mem_order_iff exact visits row.1).mpr ⟨row, listed, rfl⟩, price⟩

/-- The difference at the price that a text spells. -/
def differenceAt (f64 : F64Text K) (rpi std : List TextLevel) (key : String) :
    Option (K × String × K) :=
  (f64.number key).map (fun p => (p, key, quantityAt f64 std p - quantityAt f64 rpi p))

/-- By price, without the quantities of the maps. -/
theorem diffQtyLevels_eq (tiny : K) :
    diffQtyLevels f64 tiny order rpi std false =
      ((ascending Prod.fst (order.filterMap (differenceAt f64 rpi std))).take MAX_LEVELS).map
        (fun pair => (pair.2.1, f64.display pair.2.2)) := by
  unfold diffQtyLevels
  refine congrArg (fun pairs => ((ascending Prod.fst pairs).take MAX_LEVELS).map _)
    (List.filterMap_congr (fun key visited => ?_))
  have price : f64.number key = match f64.parse key with
      | some (.finite x) => some x
      | _ => none := rfl
  cases read : f64.parse key with
  | none => simp [differenceAt, price, read]
  | some value =>
    cases value with
    | finite p =>
      rw [read] at price
      have left := getD_eq_quantityAt exact visits
        (fun row => List.mem_append_left std) visited price
      have right := getD_eq_quantityAt exact visits
        (fun row => List.mem_append_right rpi) visited price
      simp [differenceAt, price, left, right]
    | _ => simp [differenceAt, price, read]

/-- What either side of the chart is handed: the lowest prices, up to the cap. -/
theorem parsed_differences (tiny : K) :
    ∃ deltas, deltas.Perm (unionDeltas f64 rpi std) ∧
      parseSignedLevelPairs f64 (diffQtyLevels f64 tiny order rpi std false) =
        (ascending Prod.fst deltas).take MAX_LEVELS := by
  let entries := order.filterMap (differenceAt f64 rpi std)
  let point := fun entry : K × String × K => (entry.1, entry.2.2)
  refine ⟨entries.map point, ?_, ?_⟩
  · have prices : entries.map point = (order.filterMap f64.number).map
        (fun p => (p, quantityAt f64 std p - quantityAt f64 rpi p)) := by
      rw [List.map_filterMap, List.map_filterMap]
      refine List.filterMap_congr (fun key _ => ?_)
      simp [differenceAt, point, Function.comp_def]
    rw [prices]
    exact (prices_perm exact visits).map _
  · have priced : ∀ entry ∈ (ascending Prod.fst entries).take MAX_LEVELS,
        f64.number entry.2.1 = some entry.1 := by
      intro entry member
      have inside := (ascending_perm _ _).mem_iff.mp (List.mem_of_mem_take member)
      obtain ⟨key, _, made⟩ := List.mem_filterMap.mp inside
      obtain ⟨p, price, rfl⟩ := Option.map_eq_some_iff.mp made
      exact price
    have sorted : (ascending Prod.fst entries).map point =
        ascending Prod.fst (entries.map point) :=
      List.map_mergeSort (fun _ _ _ _ => rfl)
    rw [diffQtyLevels_eq exact visits, parseSignedLevelPairs_written priced, ← sorted,
      List.map_take]

end Union

/-! ### Either side of the chart -/

omit [AddCommGroup K] in
theorem bidDeltaLineTopN_eq (levels : List TextLevel) (maxLevels : Nat) :
    bidDeltaLineTopN f64 levels maxLevels =
      ascending Prod.fst
        ((descending Prod.fst (parseSignedLevelPairs f64 levels)).take maxLevels) := by
  rw [bidDeltaLineTopN]
  by_cases none : (parseSignedLevelPairs f64 levels).isEmpty = true
  · rw [if_pos none, List.isEmpty_iff.mp none]
    simp [ascending, descending]
  · rw [if_neg none]

omit [AddCommGroup K] in
theorem askDeltaLineTopN_eq (levels : List TextLevel) (maxLevels : Nat) :
    askDeltaLineTopN f64 levels maxLevels =
      (ascending Prod.fst (parseSignedLevelPairs f64 levels)).take maxLevels := by
  rw [askDeltaLineTopN]
  by_cases none : (parseSignedLevelPairs f64 levels).isEmpty = true
  · rw [if_pos none, List.isEmpty_iff.mp none]
    simp [ascending]
  · rw [if_neg none]

theorem unionDeltas_distinct (rpi std : List TextLevel) :
    ((unionDeltas f64 rpi std).map Prod.fst).Nodup := by
  rw [unionDeltas, List.map_map]
  have same : (Prod.fst ∘ fun p => (p, quantityAt f64 std p - quantityAt f64 rpi p)) = id := rfl
  rw [same, List.map_id]
  exact List.nodup_dedup _

section Reordered

variable {rpi std : List TextLevel} {deltas : List (K × K)}
  (perm : deltas.Perm (unionDeltas f64 rpi std))

include perm

theorem distinct_of_perm : (deltas.map Prod.fst).Nodup :=
  (perm.map Prod.fst).nodup_iff.mpr (unionDeltas_distinct rpi std)

theorem length_of_perm : deltas.length = (unionPrices f64 rpi std).length := by
  rw [perm.length_eq, unionDeltas, List.length_map]

end Reordered

/-- The bids of the chart are the ones nearest the touch. -/
def BidsNearest (f64 : F64Text K) (tiny : K) (order : List String) (rpi std : List TextLevel)
    (maxLevels : Nat) : Prop :=
  Greatest Prod.fst maxLevels (unionDeltas f64 rpi std)
    (bidDeltaLineTopN f64 (diffQtyLevels f64 tiny order rpi std false) maxLevels)

/-- The asks of the chart are the ones nearest the touch. -/
def AsksNearest (f64 : F64Text K) (tiny : K) (order : List String) (rpi std : List TextLevel)
    (maxLevels : Nat) : Prop :=
  Least Prod.fst maxLevels (unionDeltas f64 rpi std)
    (askDeltaLineTopN f64 (diffQtyLevels f64 tiny order rpi std false) maxLevels)

section Sides

variable {rpi std : List TextLevel} {order : List String} (exact : ExactLadders f64 rpi std)
  (visits : KeyOrder f64 rpi std order) (tiny : K) {maxLevels : Nat}

include exact visits

theorem asks_nearest (capped : maxLevels ≤ MAX_LEVELS) :
    AsksNearest f64 tiny order rpi std maxLevels := by
  obtain ⟨deltas, perm, parsed⟩ := parsed_differences exact visits tiny
  have distinct := distinct_of_perm perm
  rw [AsksNearest, askDeltaLineTopN_eq, parsed, take_ascending_take distinct capped]
  exact (least_take Prod.fst distinct maxLevels).congr perm

/-- With more prices than the cap, whatever is shown is from below the cut. -/
theorem bids_cut_off (some : 0 < maxLevels)
    (cut : MAX_LEVELS < (unionPrices f64 rpi std).length) :
    ¬BidsNearest f64 tiny order rpi std maxLevels := by
  obtain ⟨deltas, perm, parsed⟩ := parsed_differences exact visits tiny
  have distinct := distinct_of_perm perm
  have size := length_of_perm perm
  have within : ∀ level ∈ ascending Prod.fst
      ((descending Prod.fst ((ascending Prod.fst deltas).take MAX_LEVELS)).take maxLevels),
      level ∈ (ascending Prod.fst deltas).take MAX_LEVELS := by
    intro level member
    have taken := (ascending_perm _ _).mem_iff.mp member
    exact (descending_perm _ _).mem_iff.mp (List.mem_of_mem_take taken)
  rw [BidsNearest, bidDeltaLineTopN_eq, parsed]
  intro greatest
  exact not_greatest_of_cut distinct (size ▸ cut) some within (greatest.congr perm.symm)

/-- Up to the cap nothing is cut. -/
theorem bids_nearest (fits : (unionPrices f64 rpi std).length ≤ MAX_LEVELS) :
    BidsNearest f64 tiny order rpi std maxLevels := by
  obtain ⟨deltas, perm, parsed⟩ := parsed_differences exact visits tiny
  have same : (ascending Prod.fst deltas).Perm (unionDeltas f64 rpi std) :=
    (ascending_perm Prod.fst deltas).trans perm
  have size : (ascending Prod.fst deltas).length = (unionPrices f64 rpi std).length :=
    length_of_perm same
  have whole : (ascending Prod.fst deltas).take MAX_LEVELS = ascending Prod.fst deltas :=
    List.take_of_length_le (size ▸ fits)
  rw [BidsNearest, bidDeltaLineTopN_eq, parsed, whole]
  exact (greatest_take Prod.fst (distinct_of_perm same) maxLevels).congr same

/-- The cut at the lowest prices spares the bids only where there is nothing to cut. -/
theorem bids_nearest_iff :
    BidsNearest f64 tiny order rpi std maxLevels ↔
      (unionPrices f64 rpi std).length ≤ MAX_LEVELS ∨ maxLevels = 0 := by
  constructor
  · intro nearest
    by_contra out
    rw [not_or, not_le] at out
    exact bids_cut_off exact visits tiny (Nat.pos_of_ne_zero out.2) out.1 nearest
  · rintro (fits | rfl)
    · exact bids_nearest exact visits tiny fits
    · have nothing : ascending Prod.fst ([] : List (K × K)) = [] :=
        ascending_of_sorted List.Pairwise.nil
      rw [BidsNearest, bidDeltaLineTopN_eq, List.take_zero, nothing]
      exact ⟨.nil, nofun, (Nat.zero_min _).symm, nofun⟩

end Sides

/-- For all ladders and up to 2048 levels: the chart shows the levels nearest the touch on both
sides exactly when the bids have at most 2048 prices. -/
theorem delta_chart_iff {rpiBids stdBids rpiAsks stdAsks : List TextLevel}
    {bidOrder askOrder : List String} (bids : ExactLadders f64 rpiBids stdBids)
    (asks : ExactLadders f64 rpiAsks stdAsks) (bidVisits : KeyOrder f64 rpiBids stdBids bidOrder)
    (askVisits : KeyOrder f64 rpiAsks stdAsks askOrder) (tiny : K) {maxLevels : Nat}
    (capped : maxLevels ≤ MAX_LEVELS) :
    BidsNearest f64 tiny bidOrder rpiBids stdBids maxLevels ∧
        AsksNearest f64 tiny askOrder rpiAsks stdAsks maxLevels ↔
      (unionPrices f64 rpiBids stdBids).length ≤ MAX_LEVELS ∨ maxLevels = 0 := by
  rw [bids_nearest_iff bids bidVisits tiny,
    and_iff_left (asks_nearest asks askVisits tiny capped)]

/-! ### Ladders of any depth -/

def wholeText (n : Nat) : String := F64Text.whole.display n

/-- One unit at each of the prices from zero on. -/
def countingLadder (levels : Nat) : List TextLevel :=
  (List.range levels).map (fun n => (wholeText n, "1"))

theorem number_wholeText (n : Nat) : F64Text.whole.number (wholeText n) = some (n : Int) :=
  F64Text.whole.number_display n

theorem wholeText_injective : Function.Injective wholeText := by
  intro a b same
  have read := number_wholeText a
  rw [same, number_wholeText b] at read
  exact (Int.ofNat.inj (Option.some.inj read)).symm

theorem mem_countingLadder {levels : Nat} {row : TextLevel} (listed : row ∈ countingLadder levels) :
    ∃ n < levels, row = (wholeText n, "1") := by
  obtain ⟨n, inside, rfl⟩ := List.mem_map.mp listed
  exact ⟨n, List.mem_range.mp inside, rfl⟩

theorem number_one : F64Text.whole.number "1" = some 1 := by decide

theorem countingLadder_exact (levels : Nat) :
    ExactLadders F64Text.whole [] (countingLadder levels) := by
  refine ⟨?_, ?_, ?_⟩
  · intro row listed
    obtain ⟨n, _, rfl⟩ := mem_countingLadder listed
    simp [number_wholeText]
  · intro row listed
    obtain ⟨n, _, rfl⟩ := mem_countingLadder listed
    simp [number_one]
  · intro row listed row' listed' same
    obtain ⟨n, _, rfl⟩ := mem_countingLadder listed
    obtain ⟨m, _, rfl⟩ := mem_countingLadder listed'
    simp only [number_wholeText, Option.some.injEq] at same
    rw [Int.ofNat.inj same]

theorem countingLadder_order (levels : Nat) :
    KeyOrder F64Text.whole [] (countingLadder levels) ((List.range levels).map wholeText) := by
  refine ⟨List.nodup_range.map wholeText_injective, fun key => ?_⟩
  rw [(levelsQtyMap_get [] key).2, (levelsQtyMap_get (countingLadder levels) key).2, List.mem_map]
  constructor
  · rintro ⟨n, inside, rfl⟩
    exact Or.inr ⟨(wholeText n, "1"), List.mem_map.mpr ⟨n, inside, rfl⟩, rfl, by simp [number_one]⟩
  · rintro (⟨row, listed, _⟩ | ⟨row, listed, same, _⟩)
    · exact nomatch listed
    · obtain ⟨n, inside, rfl⟩ := mem_countingLadder listed
      exact ⟨n, List.mem_range.mpr inside, same⟩

theorem length_unionPrices (levels : Nat) :
    (unionPrices F64Text.whole [] (countingLadder levels)).length = levels := by
  have prices : (countingLadder levels).filterMap (fun row => F64Text.whole.number row.1) =
      (List.range levels).map (fun n : Nat => (n : Int)) := by
    simp only [countingLadder, List.filterMap_map, Function.comp_def, number_wholeText]
    exact congrFun List.filterMap_eq_map _
  have distinct : ((List.range levels).map (fun n : Nat => (n : Int))).Nodup :=
    List.nodup_range.map (fun _ _ => Int.ofNat.inj)
  rw [unionPrices, List.nil_append, prices, distinct.dedup, List.length_map, List.length_range]

omit [LinearOrder K] in
/-- Where all rows are numbers, the keys of both maps are the prices of the rows. -/
theorem ExactLadders.keyOrder {rpi std : List TextLevel}
    (exact : ExactLadders f64 rpi std) :
    KeyOrder f64 rpi std ((rpi ++ std).map Prod.fst).dedup := by
  have keys : ∀ levels ⊆ rpi ++ std, ∀ key,
      ((levelsQtyMap f64 levels).get key).isSome ↔ ∃ row ∈ levels, row.1 = key := by
    intro levels within key
    rw [(levelsQtyMap_get levels key).2]
    exact ⟨fun ⟨row, listed, same, _⟩ => ⟨row, listed, same⟩,
      fun ⟨row, listed, same⟩ => ⟨row, listed, same, exact.qty row (within listed)⟩⟩
  refine ⟨List.nodup_dedup _, fun key => ?_⟩
  rw [keys rpi (List.subset_append_left _ _), keys std (List.subset_append_right _ _),
    List.mem_dedup, List.mem_map]
  simp only [List.mem_append, or_and_right, exists_or]

def overlappingBids : List TextLevel × List TextLevel :=
  ([("101", "3"), ("100", "1")], [("101", "4"), ("100", "1"), ("99", "2")])

def overlappingAsks : List TextLevel × List TextLevel :=
  ([("102", "5")], [("102", "2"), ("104", "7")])

/-- Two of three bids, of which the better one and the next are also in the RPI book. -/
theorem delta_chart_overlapping :
    unionDeltas F64Text.whole overlappingBids.1 overlappingBids.2 =
      [(101, 1), (100, 0), (99, 2)] ∧
    BidsNearest F64Text.whole 1
      ((overlappingBids.1 ++ overlappingBids.2).map Prod.fst).dedup overlappingBids.1
      overlappingBids.2 2 ∧
    AsksNearest F64Text.whole 1
      ((overlappingAsks.1 ++ overlappingAsks.2).map Prod.fst).dedup overlappingAsks.1
      overlappingAsks.2 2 := by
  have bids : ExactLadders F64Text.whole overlappingBids.1 overlappingBids.2 :=
    ⟨by decide, by decide, by decide +kernel⟩
  have asks : ExactLadders F64Text.whole overlappingAsks.1 overlappingAsks.2 :=
    ⟨by decide, by decide, by decide +kernel⟩
  exact ⟨by decide +kernel, (delta_chart_iff bids asks bids.keyOrder asks.keyOrder 1
    (by decide)).mpr (.inl (by decide +kernel))⟩

/-- With 2049 bids the best one is not on the chart. -/
theorem best_bid_cut_off :
    ExactLadders F64Text.whole [] (countingLadder 2049) ∧
    KeyOrder F64Text.whole [] (countingLadder 2049) ((List.range 2049).map wholeText) ∧
    ¬BidsNearest F64Text.whole 1 ((List.range 2049).map wholeText) [] (countingLadder 2049) 1 := by
  have exact := countingLadder_exact 2049
  have visits := countingLadder_order 2049
  refine ⟨exact, visits, fun nearest => ?_⟩
  have cut := (bids_nearest_iff exact visits 1).mp nearest
  rw [length_unionPrices, MAX_LEVELS] at cut
  omega

end Trolly.Tui
