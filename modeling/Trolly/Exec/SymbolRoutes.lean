import Trolly.Exec.Crates
import Trolly.Spot.Hub
import Trolly.Std.Casing
import Trolly.Usdm.Outbound
import Trolly.Usdm.Reachable

/-! The name of a symbol on its two ways through a crate: the one its orders are sent under,
and the one its user-data updates are routed by. -/
namespace Trolly.Exec

open Keyed SortedMap Strategy

section Egress

variable {Request Response : Type} (api : OrderApi Request Response) (client : OrderClient)
  (exchange : Exchange)

/-- Every command for the symbol that the egress accepts is posted, at whatever time, with the
upper-cased symbol among its signed parameters. -/
def SentUpperCased (symbol : String) : Prop :=
  ∀ order : OrderCommand, order.symbol = symbol → ∀ request,
    api.placeOrderFromOutbound (.orderRequest order) = .ok request → ∀ now,
      ∃ post params, orderPost api client exchange now request = .ok post ∧
        post.body = signedParamsPayload params ∧
        ("symbol", Rust.toAsciiUppercase symbol) ∈ params.entries

variable {api client exchange}

theorem orderPost_carries {request : Request} {params : Params} {entry : String × String}
    (built : api.buildOrderParams request = .ok params) (carried : entry ∈ params.entries)
    (own : entry.1 ≠ "timestamp" ∧ entry.1 ≠ "signature") (now : UInt64) :
    ∃ post params, orderPost api client exchange now request = .ok post ∧
      post.body = signedParamsPayload params ∧ entry ∈ params.entries := by
  let signed := signFormParams exchange.hmac client.credentials.secretKey now params
  refine ⟨⟨trimEndSlashes client.baseUrl ++ api.path, client.credentials.apiKey,
    signedParamsPayload signed⟩, signed, ?_, rfl, ?_⟩
  · rw [orderPost, buildSignedFormParams, built]
    rfl
  · exact mem_insertEntry_of_ne own.2 (mem_insertEntry_of_ne own.1 carried)

end Egress

section Crates

variable {UsdmResponse SpotResponse : Type} (usdm : ResponseFormat UsdmResponse)
  (spot : ResponseFormat SpotResponse) (client : OrderClient) (exchange : Exchange)

theorem usdm_sentUpperCased (symbol : String) :
    SentUpperCased (Usdm.orderApi usdm) client exchange symbol := by
  rintro order rfl request accepted now
  have converted := Usdm.converted accepted
  obtain ⟨params, built⟩ := Usdm.buildOrderParams_converted converted
  refine orderPost_carries built ?_ ⟨by simp, by simp⟩ now
  rw [(Usdm.buildOrderParams_eq built).2, Usdm.paramEntries_converted converted]
  simp [Usdm.commandEntries]

theorem spot_sentUpperCased (symbol : String) :
    SentUpperCased (Spot.orderApi spot) client exchange symbol := by
  rintro order rfl request accepted now
  obtain ⟨params, built⟩ := spot_buildable spot _ _ accepted
  refine orderPost_carries built ?_ ⟨by simp, by simp⟩ now
  simp only [Spot.orderApi, Spot.placeOrderFromOutbound, bind_ok_iff, mapError_ok_iff] at accepted
  obtain ⟨side, -, timeInForce, -, made⟩ := accepted
  cases made
  rw [(Spot.buildOrderParams_eq built).2]
  simp [Spot.paramEntries, Rust.toAsciiUppercase_idem]

end Crates

/-! What the hubs deliver. -/

theorem upper_not_account (symbol : String) : Rust.toAsciiUppercase symbol ≠ "__account__" := by
  intro same
  have again := Rust.toAsciiUppercase_idem symbol
  rw [same] at again
  revert again
  decide

section Hubs

variable (symbols : List String)

/-- Every update for the symbol, at any time, reaches a handler that keeps it. -/
def UsdmDelivers (outbound : Option (Stream.UnboundedSender Usdm.UsdmExecUpdate))
    (symbol : String) : Prop :=
  ∀ (log : List Usdm.UsdmExecUpdate) (update : Usdm.UsdmExecUpdate), update.routingId = symbol →
    ((Usdm.UsdmHub.buildMultiplexor symbols outbound).routeAll log).accepts update = true

def SpotDelivers [Rust.Build] (table : Rust.CaseTable) (ctx : Spot.SpotExecContext)
    (symbol : String) : Prop :=
  ∀ (log : List Spot.SpotUserEvent) (event : Spot.SpotUserEvent), event.routeId = symbol →
    ((log.foldl Spot.SpotHub.routeEvent
      (Spot.SpotHub.buildMultiplexor table symbols ctx)).writers.get event.routeId).any
        (·.takes event) = true

theorem usdmDelivers_iff (outbound : Option (Stream.UnboundedSender Usdm.UsdmExecUpdate))
    {symbol : String} (other : symbol ≠ "__account__") :
    UsdmDelivers symbols outbound symbol ↔ symbol ∈ symbols := by
  have accepts : ∀ log (update : Usdm.UsdmExecUpdate), update.routingId = symbol →
      ((Usdm.UsdmHub.buildMultiplexor symbols outbound).routeAll log).accepts update =
        decide (symbol ∈ symbols) := by
    rintro log update rfl
    have kind : update.isAccountKind = false := by
      cases update <;> first | rfl | exact absurd rfl other
    have wired : Usdm.Wired symbols (Usdm.UsdmHub.reached symbols outbound log) :=
      Usdm.UsdmHub.reached_wired outbound log
    rw [Usdm.UsdmHub.reached] at wired
    rw [Usdm.UsdmHub.buildMultiplexor, Usdm.UsdmHub.accepts_symbolKind wired kind]
    exact decide_eq_decide.mpr (and_iff_left other)
  constructor
  · intro delivers
    let row : Usdm.UsdmExecUpdate := .positionChange ⟨0, "", symbol, "", "", "", "", "", ""⟩
    have kept := delivers [] row rfl
    rw [accepts [] row rfl] at kept
    exact of_decide_eq_true kept
  · intro listed log update same
    rw [accepts log update same, decide_eq_true listed]

theorem spot_writers [Rust.Build] (hub : Spot.SpotHub) (log : List Spot.SpotUserEvent) :
    (log.foldl Spot.SpotHub.routeEvent hub).writers = hub.writers := by
  induction log generalizing hub with
  | nil => rfl
  | cons event rest ih => rw [List.foldl_cons, ih, hub.routeEvent_writers]

theorem spotDelivers [Rust.Build] (table : Rust.CaseTable) (ctx : Spot.SpotExecContext)
    {symbol : String}
    (listed : symbol ∈ symbols.map table.toUppercase) (other : symbol ≠ "__account__") :
    SpotDelivers symbols table ctx symbol := by
  rintro log event rfl
  have subscribed : event.routeId ∈ Spot.execSubscriptionSymbols table symbols := by
    simp only [Spot.execSubscriptionSymbols]
    split
    · exact listed
    · exact List.mem_append_left _ listed
  have found : (Spot.SpotHub.buildMultiplexor table symbols ctx).writers.get event.routeId =
      some (.new event.routeId) := by
    rw [Spot.SpotHub.buildMultiplexor, Stream.MonitorMultiplexor.fromWriters,
      Map.get_foldl_insert, if_pos subscribed]
  have accepts : (Spot.SpotExecHandler.new event.routeId).accepts event = true := by
    have route : decide (event.routeId = Spot.ACCOUNT_ROUTE_ID) = false := decide_eq_false other
    cases event with
    | executionReport report => exact congrArg (!·) route
    | listStatus status => exact congrArg (!·) route
    | _ => exact absurd rfl other
  rw [spot_writers, found, Option.any_some, Spot.SpotExecHandler.takes, accepts, Bool.and_true]
  exact decide_eq_true rfl

end Hubs

section Identity

variable {UsdmResponse SpotResponse : Type} (usdm : ResponseFormat UsdmResponse)
  (spot : ResponseFormat SpotResponse) (client : OrderClient) (exchange : Exchange)
  (outbound : Option (Stream.UnboundedSender Usdm.UsdmExecUpdate)) (table : Rust.CaseTable)
  (ctx : Spot.SpotExecContext)

/-- Orders for a listed symbol go out, and its updates come in, under its upper case. -/
structure SymbolsAgree {Request Response : Type} (api : OrderApi Request Response)
    (client : OrderClient) (exchange : Exchange) (delivers : String → Prop)
    (symbols : List String) : Prop where
  sent : ∀ symbol ∈ symbols, SentUpperCased api client exchange symbol
  delivered : ∀ symbol ∈ symbols, delivers (Rust.toAsciiUppercase symbol)

/-- On lists of ASCII symbols the spot crate's egress and hub always agree, and those of the
USD-M crate exactly when the list has the upper case of each of its symbols. -/
theorem symbols_agree_iff [Rust.Build] {symbols : List String}
    (ascii : ∀ symbol ∈ symbols, ∀ c ∈ symbol.toList, c.toNat < 128) :
    (SymbolsAgree (Usdm.orderApi usdm) client exchange (UsdmDelivers symbols outbound) symbols ↔
        ∀ symbol ∈ symbols, Rust.toAsciiUppercase symbol ∈ symbols) ∧
      SymbolsAgree (Spot.orderApi spot) client exchange (SpotDelivers symbols table ctx)
        symbols := by
  have delivers : ∀ symbol, UsdmDelivers symbols outbound (Rust.toAsciiUppercase symbol) ↔
      Rust.toAsciiUppercase symbol ∈ symbols :=
    fun symbol => usdmDelivers_iff symbols outbound (upper_not_account symbol)
  refine ⟨⟨fun agree symbol listed => ?_, fun closed => ⟨?_, ?_⟩⟩, ⟨?_, ?_⟩⟩
  · exact (delivers symbol).mp (agree.delivered symbol listed)
  · exact fun symbol _ => usdm_sentUpperCased usdm client exchange symbol
  · exact fun symbol listed => (delivers symbol).mpr (closed symbol listed)
  · exact fun symbol _ => spot_sentUpperCased spot client exchange symbol
  · intro symbol listed
    have route := List.mem_map_of_mem (f := table.toUppercase) listed
    rw [Rust.CaseTable.toUppercase_ascii table (ascii symbol listed)] at route
    exact spotDelivers symbols table ctx route (upper_not_account symbol)

end Identity

/-- A hub built from a lower-case list has no handler for the fills of the orders it names. -/
theorem lower_case_undelivered :
    Usdm.placeOrderFromOutbound (marketOrder "1") =
        .ok ⟨"BTCUSDT", .buy, .market, "1", none, none, none, none⟩ ∧
      ¬SymbolsAgree (Usdm.orderApi apiErrors) ⟨⟨"key", "secret"⟩, "https://fapi.binance.com"⟩
        rejecting (UsdmDelivers ["btcusdt"] none) ["btcusdt"] := by
  refine ⟨rfl, fun agree => ?_⟩
  have delivered := agree.delivered "btcusdt" (.head _)
  rw [usdmDelivers_iff ["btcusdt"] none (upper_not_account "btcusdt")] at delivered
  revert delivered
  decide

theorem mixed_ascii :
    ∀ symbol ∈ ["BTCUSDT", "ethusdt"], ∀ c ∈ symbol.toList, c.toNat < 128 := by
  rw [List.forall_mem_cons, List.forall_mem_singleton]
  exact ⟨Rust.ascii_of_all (by decide), Rust.ascii_of_all (by decide)⟩

theorem symbols_agree_mixed :
    (SymbolsAgree (Usdm.orderApi apiErrors) ⟨⟨"key", "secret"⟩, "https://fapi.binance.com"⟩
        rejecting (UsdmDelivers ["BTCUSDT", "ethusdt"] none) ["BTCUSDT", "ethusdt"] ↔
      ∀ symbol ∈ ["BTCUSDT", "ethusdt"],
        Rust.toAsciiUppercase symbol ∈ ["BTCUSDT", "ethusdt"]) ∧
    SymbolsAgree (Spot.orderApi apiErrors) ⟨⟨"key", "secret"⟩, "https://api.binance.com"⟩
      rejecting (@SpotDelivers ["BTCUSDT", "ethusdt"] .release .asciiOnly
        ⟨⟨true, []⟩, some .default⟩) ["BTCUSDT", "ethusdt"] :=
  letI : Rust.Build := .release
  ⟨(symbols_agree_iff apiErrors apiErrors _ _ none .asciiOnly ⟨⟨true, []⟩, some .default⟩
      mixed_ascii).1,
    (symbols_agree_iff apiErrors apiErrors _ _ none .asciiOnly ⟨⟨true, []⟩, some .default⟩
      mixed_ascii).2⟩

end Trolly.Exec
