import Trolly.Spot.Hub
import Trolly.Std.Casing

/-! The account route in the list of subscribed symbols. The symbols are upper-cased before the
route, a lower-case word, is looked for among them, so the list never seems to name it. -/
namespace Trolly.Spot

open Rust

variable {table : CaseTable}

/-- `ACCOUNT_ROUTE_ID` in upper case. -/
def ACCOUNT_ROUTE_UPPER : String := "__ACCOUNT__"

theorem account_route_ascii : ∀ c ∈ ACCOUNT_ROUTE_ID.toList, c.toNat < 128 :=
  ascii_of_all (by decide)

theorem upper_account_route (table : CaseTable) :
    table.toUppercase ACCOUNT_ROUTE_ID = ACCOUNT_ROUTE_UPPER := by
  rw [table.toUppercase_ascii account_route_ascii]
  decide

/-- An upper-cased text has no lower-case letter, and the account route has one. -/
theorem toUppercase_ne_account_route (lawful : ∀ c, table.Tame c) (s : String) :
    table.toUppercase s ≠ ACCOUNT_ROUTE_ID := by
  intro same
  have letter : 'a' ∈ s.toList.flatMap table.upper := by
    rw [← table.toUppercase_toList, same]
    decide
  have fixed := CaseTable.fixed_upper (fun c _ => lawful c) 'a' letter
  rw [table.ascii 'a' (by decide)] at fixed
  exact absurd fixed (by decide)

theorem account_route_not_upper (lawful : ∀ c, table.Tame c) (symbols : List String) :
    ACCOUNT_ROUTE_ID ∉ symbols.map table.toUppercase := by
  intro member
  obtain ⟨s, _, same⟩ := List.mem_map.mp member
  exact toUppercase_ne_account_route lawful s same

theorem execSubscriptionSymbols_eq (lawful : ∀ c, table.Tame c) (symbols : List String) :
    execSubscriptionSymbols table symbols =
      symbols.map table.toUppercase ++ [ACCOUNT_ROUTE_ID] := by
  refine if_neg ?_
  rw [List.any_beq', List.contains_iff_mem]
  exact account_route_not_upper lawful symbols

/-- A second application upper-cases the route of the first and appends another. -/
theorem execSubscriptionSymbols_twice (lawful : ∀ c, table.Tame c) (symbols : List String) :
    execSubscriptionSymbols table (execSubscriptionSymbols table symbols) =
      (symbols.map table.toUppercase).map table.toUppercase ++
        [ACCOUNT_ROUTE_UPPER, ACCOUNT_ROUTE_ID] := by
  rw [execSubscriptionSymbols_eq lawful, execSubscriptionSymbols_eq lawful, List.map_append,
    List.map_singleton, upper_account_route, List.append_assoc, List.singleton_append]

/-- The account route up to letter case. -/
def AccountLike (table : CaseTable) (route : String) : Prop :=
  table.toUppercase route = table.toUppercase ACCOUNT_ROUTE_ID

/-- What extending a list by the account route should be. -/
structure RouteKept (table : CaseTable) (symbols : List String) : Prop where
  appended : execSubscriptionSymbols table symbols =
      symbols.map table.toUppercase ++ [ACCOUNT_ROUTE_ID] ↔ ACCOUNT_ROUTE_ID ∉ symbols
  once : symbols.count ACCOUNT_ROUTE_ID ≤ 1 →
    (execSubscriptionSymbols table symbols).count ACCOUNT_ROUTE_ID = 1
  alone : ∀ route ∈ execSubscriptionSymbols table symbols, AccountLike table route →
    route ≠ ACCOUNT_ROUTE_ID → route ∈ symbols
  idempotent : execSubscriptionSymbols table (execSubscriptionSymbols table symbols) =
    execSubscriptionSymbols table symbols

/-- Every application makes the list longer, so none is undone by the next. -/
theorem account_route_never_kept (lawful : ∀ c, table.Tame c) (symbols : List String) :
    ¬RouteKept table symbols := by
  intro kept
  have longer := congrArg List.length kept.idempotent
  rw [execSubscriptionSymbols_twice lawful, execSubscriptionSymbols_eq lawful] at longer
  simp only [List.length_append, List.length_map, List.length_cons, List.length_nil] at longer
  omega

theorem account_route_never_kept_ascii :
    ¬RouteKept CaseTable.asciiOnly ["btcusdt", ACCOUNT_ROUTE_ID] :=
  account_route_never_kept CaseTable.asciiOnly_tame ["btcusdt", ACCOUNT_ROUTE_ID]

theorem account_route_doubled :
    execSubscriptionSymbols CaseTable.asciiOnly ["btcusdt"] = ["BTCUSDT", "__account__"] ∧
    execSubscriptionSymbols CaseTable.asciiOnly ["BTCUSDT", "__account__"] =
      ["BTCUSDT", "__ACCOUNT__", "__account__"] ∧
    ¬RouteKept CaseTable.asciiOnly ["btcusdt"] ∧
    ¬RouteKept CaseTable.asciiOnly ["BTCUSDT", "__account__"] := by
  have first : execSubscriptionSymbols CaseTable.asciiOnly ["btcusdt"] =
      ["BTCUSDT", "__account__"] := by decide
  have second : execSubscriptionSymbols CaseTable.asciiOnly ["BTCUSDT", "__account__"] =
      ["BTCUSDT", "__ACCOUNT__", "__account__"] := by decide
  refine ⟨first, second, ?_, ?_⟩
  · intro kept
    have same := kept.idempotent
    rw [first, second] at same
    exact absurd same (by decide)
  · intro kept
    have like : AccountLike CaseTable.asciiOnly "__ACCOUNT__" := by
      rw [AccountLike]
      decide
    have listed := kept.alone "__ACCOUNT__" (by rw [second]; decide) like (by decide)
    exact absurd listed (by decide)

end Trolly.Spot
