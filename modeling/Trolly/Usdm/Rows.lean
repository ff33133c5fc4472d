import Trolly.Lib.Traversal
import Trolly.Usdm.Outbound

/-! The rows of a message and what the parser makes of them. An `ACCOUNT_UPDATE` stands or
falls with each of its rows; a `MARGIN_CALL` drops the rows that do not deserialize, and a
payload in the shape of an ack drops all it carries. -/
namespace Trolly.Usdm

open SerdeJson Trolly.Stream Traversal

/-! The rows a payload carries under its event, and what stands for them among the updates. -/

def eventOf (payload : Value) : Option String := (payload.get "e").bind Value.asStr

def accountRows (payload : Value) (field : String) : List Value :=
  if eventOf payload = some "ACCOUNT_UPDATE" then
    ((payload.get "a").map (rowsOf · field)).getD []
  else []

def marginRows (payload : Value) : List Value :=
  if eventOf payload = some "MARGIN_CALL" then rowsOf payload "p" else []

def UsdmExecUpdate.balance : UsdmExecUpdate → Option BalanceChange
  | balanceChange balance => some balance
  | _ => none

def UsdmExecUpdate.position : UsdmExecUpdate → Option PositionChange
  | positionChange position => some position
  | _ => none

def UsdmExecUpdate.legs : UsdmExecUpdate → List MarginCallPosition
  | marginCall call => call.positions
  | _ => []

def strField (row : Value) (field : String) : Option String := (row.get field).bind Value.asStr

/-- The symbol of a margin-call row, which is an object or an array that starts with it. -/
def legSymbol : Value → Option String
  | .object fields => (fields.lookup "s").bind Value.asStr
  | .array items => items[0]?.bind Value.asStr
  | _ => none

/-- Every row is represented exactly once, in payload order, under its own asset or symbol. -/
structure RowsKept (payload : Value) (updates : List UsdmExecUpdate) : Prop where
  balances : List.Forall₂ (fun row balance => strField row "a" = some balance.asset)
    (accountRows payload "B") (updates.filterMap UsdmExecUpdate.balance)
  positions : List.Forall₂ (fun row position => strField row "s" = some position.symbol)
    (accountRows payload "P") (updates.filterMap UsdmExecUpdate.position)
  legs : List.Forall₂ (fun row leg => legSymbol row = some leg.symbol)
    (marginRows payload) (updates.flatMap UsdmExecUpdate.legs)

/-! Which margin-call rows deserialize. -/

/-- The fields of `MarginCallPositionRaw` that may be absent, in declaration order. -/
def defaultedFields : List String := ["ps", "pa", "mt", "iw", "mp", "up", "mm"]

/-- An object with a string under `s` and nothing but strings under the other names, or an
array of one to eight strings. -/
def LegibleLeg : Value → Prop
  | .object fields => (∃ symbol, fields.lookup "s" = some (.string symbol)) ∧
      ∀ field ∈ defaultedFields, ∀ v, fields.lookup field = some v → v.asStr.isSome
  | .array items => items ≠ [] ∧ items.length ≤ 8 ∧ ∀ item ∈ items, item.asStr.isSome
  | _ => False

theorem marginCallPosition_symbol {row : Value} {leg : MarginCallPosition}
    (read : marginCallPositionFromValue row = some leg) : legSymbol row = some leg.symbol := by
  unfold marginCallPositionFromValue at read
  cases row with
  | object fields =>
    simp only [Option.bind_eq_bind, Option.bind_eq_some_iff] at read
    obtain ⟨symbol, found, _, _, _, _, _, _, _, _, _, _, _, _, _, _, built⟩ := read
    cases built
    exact Option.bind_eq_some_iff.mpr found
  | array items =>
    simp only [Option.bind_eq_bind] at read
    split at read
    · simp only [Option.bind_eq_some_iff] at read
      obtain ⟨symbol, found, _, _, _, _, _, _, _, _, _, _, _, _, _, _, built⟩ := read
      cases built
      exact Option.bind_eq_some_iff.mpr found
    · cases read
  | _ => cases read

theorem defaultedStr_isSome_iff (found : Option Value) :
    (defaultedStr found).isSome ↔ ∀ v, found = some v → v.asStr.isSome := by
  cases found <;> simp [defaultedStr]

theorem arrayStrings_iff {items : List Value} (short : items.length ≤ 8) :
    (∀ item ∈ items, item.asStr.isSome) ↔
      ∀ i ∈ [0, 1, 2, 3, 4, 5, 6, 7], (defaultedStr items[i]?).isSome := by
  constructor
  · intro strings i _
    rw [defaultedStr_isSome_iff]
    exact fun v found => strings v (List.mem_of_getElem? found)
  · intro strings item member
    obtain ⟨i, bound, found⟩ := List.mem_iff_getElem.mp member
    have here := strings i (by simp only [List.mem_cons]; omega)
    rw [defaultedStr_isSome_iff] at here
    exact here item (found ▸ List.getElem?_eq_getElem bound)

theorem marginCallPosition_isSome_iff (row : Value) :
    (marginCallPositionFromValue row).isSome ↔ LegibleLeg row := by
  cases row with
  | object fields =>
    have each : (∀ field ∈ defaultedFields, (defaultedStr (fields.lookup field)).isSome) ↔
        ∀ field ∈ defaultedFields, ∀ v, fields.lookup field = some v → v.asStr.isSome :=
      forall₂_congr (fun field _ => defaultedStr_isSome_iff (fields.lookup field))
    have named : ((fields.lookup "s").bind Value.asStr).isSome ↔
        ∃ symbol, fields.lookup "s" = some (.string symbol) := by
      cases fields.lookup "s" with
      | none => simp
      | some v => cases v <;> simp [Value.asStr]
    rw [LegibleLeg, ← each, ← named]
    simp only [marginCallPositionFromValue, Option.bind_eq_bind, Option.isSome_bind,
      Option.any_eq_true, Option.isSome_some, and_true, exists_and_right,
      ← Option.isSome_iff_exists, defaultedFields, List.forall_mem_cons]
    simp
  | array items =>
    by_cases short : items.length ≤ 8
    · have first : ((items[0]?).bind Value.asStr).isSome ↔
          items ≠ [] ∧ (defaultedStr items[0]?).isSome := by
        cases items <;> simp [defaultedStr]
      rw [LegibleLeg, arrayStrings_iff short]
      simp only [marginCallPositionFromValue, if_pos short, Option.bind_eq_bind, Option.isSome_bind,
        Option.any_eq_true, Option.isSome_some, and_true, exists_and_right,
        ← Option.isSome_iff_exists, List.forall_mem_cons] at first ⊢
      simp [first, short, and_assoc]
    · simp [marginCallPositionFromValue, LegibleLeg, short]
  | _ => simp [marginCallPositionFromValue, LegibleLeg]

/-! What a parse that succeeds has read. -/

section Parse

variable {JsonError : Type}

theorem balanceRows_kept {eventTime : UInt64} {reason : String} {rows : List Value}
    {updates : List UsdmExecUpdate}
    (parsed : rows.mapM (@parseBalanceRow JsonError eventTime reason) = .ok updates) :
    List.Forall₂ (fun row balance => strField row "a" = some balance.asset) rows
        (updates.filterMap UsdmExecUpdate.balance) ∧
      updates.filterMap UsdmExecUpdate.position = [] ∧
        updates.flatMap UsdmExecUpdate.legs = [] := by
  have each := mapM_ok parsed
  clear parsed
  induction each with
  | nil => exact ⟨.nil, rfl, rfl⟩
  | cons read _ ih =>
    obtain ⟨balance, rfl, asset⟩ := parseBalanceRow_ok read
    exact ⟨.cons asset ih.1, ih.2.1, ih.2.2⟩

theorem positionRows_kept {eventTime : UInt64} {reason : String} {rows : List Value}
    {updates : List UsdmExecUpdate}
    (parsed : rows.mapM (@parsePositionRow JsonError eventTime reason) = .ok updates) :
    List.Forall₂ (fun row position => strField row "s" = some position.symbol) rows
        (updates.filterMap UsdmExecUpdate.position) ∧
      updates.filterMap UsdmExecUpdate.balance = [] ∧ updates.flatMap UsdmExecUpdate.legs = [] := by
  have each := mapM_ok parsed
  clear parsed
  induction each with
  | nil => exact ⟨.nil, rfl, rfl⟩
  | cons read _ ih =>
    obtain ⟨position, rfl, symbol⟩ := parsePositionRow_ok read
    exact ⟨.cons symbol ih.1, ih.2.1, ih.2.2⟩

theorem parseAccountUpdate_kept {payload : Value} {updates : List UsdmExecUpdate}
    (kind : eventOf payload = some "ACCOUNT_UPDATE")
    (parsed : @parseAccountUpdate JsonError payload = .ok updates) : RowsKept payload updates := by
  obtain ⟨account, eventTime, balances, positions, found, balanceRows, positionRows, rfl⟩ :=
    parseAccountUpdate_ok parsed
  obtain ⟨assets, noPosition, noLeg⟩ := balanceRows_kept balanceRows
  obtain ⟨symbols, noBalance, noLeg'⟩ := positionRows_kept positionRows
  constructor
  · simpa [accountRows, kind, found, noBalance] using assets
  · simpa [accountRows, kind, found, noPosition] using symbols
  · simp [marginRows, kind, noLeg, noLeg']

theorem parseMarginCall_positions {payload : Value} {call : MarginCall}
    (parsed : @parseMarginCall JsonError payload = .ok call) :
    call.positions = (rowsOf payload "p").filterMap marginCallPositionFromValue := by
  simp only [parseMarginCall, bind, Except.bind, pure, Except.pure] at parsed
  split at parsed
  · cases parsed
  · cases parsed
    rfl

/-- A payload all of whose rows the parser reads: it is not in the shape of an ack while it
carries any, and each margin-call row deserializes. -/
def Legible (payload : Value) : Prop :=
  (isAck payload = true →
    accountRows payload "B" = [] ∧ accountRows payload "P" = [] ∧ marginRows payload = []) ∧
  ∀ row ∈ marginRows payload, LegibleLeg row

theorem parsePayload_kept_iff {payload : Value} {updates : List UsdmExecUpdate}
    (parsed : @parsePayload JsonError payload = .ok updates) :
    RowsKept payload updates ↔ Legible payload := by
  rcases parsePayload_ok parsed with ⟨ack, rfl⟩ | ⟨noAck, account | margin | other⟩
  · constructor
    · intro kept
      have legs := List.forall₂_nil_right_iff.mp kept.legs
      refine ⟨fun _ => ⟨List.forall₂_nil_right_iff.mp kept.balances,
        List.forall₂_nil_right_iff.mp kept.positions, legs⟩, ?_⟩
      simp [legs]
    · intro legible
      obtain ⟨balances, positions, legs⟩ := legible.1 ack
      exact ⟨balances ▸ .nil, positions ▸ .nil, legs ▸ .nil⟩
  · have noRows : marginRows payload = [] := by simp [marginRows, eventOf, account.1]
    have kept := parseAccountUpdate_kept account.1 account.2
    simp [kept, Legible, noAck, noRows]
  · obtain ⟨kind, call, read, rfl⟩ := margin
    have rows : marginRows payload = rowsOf payload "p" := by simp [marginRows, eventOf, kind]
    have noRows : ∀ field, accountRows payload field = [] := by simp [accountRows, eventOf, kind]
    have legs : List.Forall₂ (fun row (leg : MarginCallPosition) => legSymbol row = some leg.symbol)
        (marginRows payload) call.positions ↔ ∀ row ∈ marginRows payload, LegibleLeg row := by
      rw [parseMarginCall_positions read, ← rows,
        filterMap_forall₂_iff (fun _ _ => marginCallPosition_symbol)]
      exact forall₂_congr (fun row _ => marginCallPosition_isSome_iff row)
    constructor
    · intro kept
      exact ⟨by simp [noAck], legs.mp (by simpa [UsdmExecUpdate.legs] using kept.legs)⟩
    · intro legible
      refine ⟨noRows _ ▸ .nil, noRows _ ▸ .nil, ?_⟩
      simpa [UsdmExecUpdate.legs] using legs.mpr legible.2
  · obtain ⟨noAccount, noMargin, silent⟩ := other
    have noRows : ∀ field, accountRows payload field = [] := by simp [accountRows, eventOf, noAccount]
    have noLegs : marginRows payload = [] := by simp [marginRows, eventOf, noMargin]
    have legible : Legible payload := by simp [Legible, noRows, noLegs]
    refine iff_of_true ?_ legible
    rcases silent with rfl | ⟨order, rfl⟩ <;>
      exact ⟨noRows _ ▸ .nil, noRows _ ▸ .nil, noLegs ▸ .nil⟩

/-- A message that parses keeps every row it carries exactly when its payload is legible. -/
theorem rows_kept_iff (fromStr : String → Except JsonError Value) {msg : Message}
    {updates : List UsdmExecUpdate} (parsed : parseUserEvents fromStr msg = .ok updates) :
    ∃ text root, msg = .text text ∧ fromStr text = .ok root ∧
      (RowsKept (unwrapCombinedEnvelope root) updates ↔
        Legible (unwrapCombinedEnvelope root)) := by
  unfold parseUserEvents at parsed
  split at parsed
  · rename_i text
    split at parsed
    · rename_i root read
      exact ⟨text, root, rfl, read, parsePayload_kept_iff parsed⟩
    · cases parsed
  · cases parsed

end Parse

/-! A margin call on two legs, the second with a numeric amount. -/

def twoLegsText : String :=
  "\x7b\"e\":\"MARGIN_CALL\",\"E\":1,\"cw\":\"3\",\"p\":[" ++
    "\x7b\"s\":\"ETHUSDT\",\"ps\":\"LONG\"\x7d,\x7b\"s\":\"BTCUSDT\",\"pa\":5\x7d]\x7d"

def twoLegsPayload : Value :=
  .object [("e", .string "MARGIN_CALL"), ("E", .number (.posInt 1)), ("cw", .string "3"),
    ("p", .array [.object [("s", .string "ETHUSDT"), ("ps", .string "LONG")],
      .object [("s", .string "BTCUSDT"), ("pa", .number (.posInt 5))]])]

def twoLegsFromStr (text : String) : Except Unit Value :=
  if text = twoLegsText then .ok twoLegsPayload else .error ()

def twoLegsCall : MarginCall :=
  ⟨1, "3", [⟨"ETHUSDT", "LONG", "", "", "", "", "", ""⟩]⟩

theorem twoLegs_parsed :
    parseUserEvents twoLegsFromStr (.text twoLegsText) = .ok [.marginCall twoLegsCall] := by
  rfl

/-- The second leg is gone, and the message is no error. -/
theorem margin_leg_dropped :
    parseUserEvents twoLegsFromStr (.text twoLegsText) = .ok [.marginCall twoLegsCall] ∧
      ¬ RowsKept (unwrapCombinedEnvelope twoLegsPayload) [.marginCall twoLegsCall] := by
  refine ⟨twoLegs_parsed, fun kept => ?_⟩
  have lengths := kept.legs.length_eq
  revert lengths
  decide

theorem rows_kept_twoLegs :
    ∃ text root, Message.text twoLegsText = .text text ∧ twoLegsFromStr text = .ok root ∧
      (RowsKept (unwrapCombinedEnvelope root) [.marginCall twoLegsCall] ↔
        Legible (unwrapCombinedEnvelope root)) :=
  rows_kept_iff twoLegsFromStr twoLegs_parsed

end Trolly.Usdm
