import Trolly.Lib.Utf8
import Trolly.Monitor.Lob
import Trolly.Stream.Multiplexor
import Trolly.Std.Text

/-! Depth streams of the USD-M venue: the stream subscribed for a symbol, and the symbol that
an update of that stream is routed by. -/
namespace Trolly.Monitor

open Trolly.Stream Keyed

variable {P Q : Type}

def RPI_PREFIX : String := "RPI:"

def stripRpi (symbol : String) : String × Bool :=
  match Rust.stripPrefix RPI_PREFIX.toList symbol.toList with
  | some raw => (String.ofList raw, true)
  | none => (symbol, false)

namespace BinanceUsdM

def streamName (case : Rust.Lowercase) (symbol : String) : String :=
  let (raw, rpi) := stripRpi symbol
  if rpi then case.lower raw ++ "@rpiDepth@500ms" else case.lower raw ++ "@depth"

def subscribeText (params : List String) : String :=
  "\x7b\"method\": \"SUBSCRIBE\", \"params\": " ++ String.ofList (Rust.debugTexts params) ++
    ", \"id\": 1\x7d"

def wsSubscriptions (case : Rust.Lowercase) (symbols : List String) : List String :=
  let subscribe := subscribeText (symbols.map (streamName case))
  if symbols.any (fun symbol => (stripRpi symbol).2) then
    ["\x7b\"method\":\"SET_PROPERTY\",\"params\":[\"combined\",true],\"id\":0\x7d", subscribe]
  else [subscribe]

end BinanceUsdM

/-- How `serde` reads a depth payload: as an envelope with its stream, as a bare update, and
as a response, of which the result is kept. -/
structure DepthFormat (P Q : Type) where
  envelope : List UInt8 → Option (String × DepthUpdate P Q)
  update : List UInt8 → Option (DepthUpdate P Q)
  nullResponse : List UInt8 → Option (Option String)

def parseDepthBytes (format : DepthFormat P Q) (data : List UInt8) :
    Except String (Option (DepthUpdate P Q)) :=
  match format.envelope data with
  | some (stream, update) =>
    if Rust.contains stream.toList "rpiDepth".toList then
      .ok (some { update with symbol := RPI_PREFIX ++ update.symbol })
    else .ok (some update)
  | none =>
    match format.update data with
    | some update => .ok (some update)
    | none =>
      match format.nullResponse data with
      | some none => .ok none
      | _ => .error ("unexpected depth message: " ++ String.ofList (Utf8.decode data))

def intoData : Message → List UInt8
  | .text payload => Utf8.bytes payload
  | .binary payload | .ping payload | .pong payload | .frame payload => payload
  | .close => []

/-- An order book's handler: how it parses and routes, for any way of applying an update. -/
def depthHandler {H Ctx : Type} (format : DepthFormat P Q)
    (handleUpdate : H → Ctx → DepthUpdate P Q → H × Ctx) :
    EventHandler H Ctx (DepthUpdate P Q) String where
  toId := DepthUpdate.symbol
  handleUpdate := handleUpdate
  parseUpdate := fun message => parseDepthBytes format (intoData message)

/-- The symbol that the exchange puts in the updates of a stream. -/
def exchangeSymbol (stream : String) : String :=
  Rust.toAsciiUppercase (String.ofList (stream.toList.takeWhile (· ≠ '@')))

def isSymbolChar (c : Char) : Bool := c.isUpper || c.isDigit || c == '_' || c == ':'

/-- An upper-case symbol over letters, digits, `_` and `:`. -/
def IsSymbol (symbol : String) : Prop := symbol.toList.all isSymbolChar = true

/-- The texts between double quotes. -/
def quoted (text : List Char) : List String :=
  let rec inside : List (List Char) → List String
    | _ :: text :: rest => String.ofList text :: inside rest
    | _ => []
  inside (text.splitOn '\x22')

theorem isSymbolChar_spec {c : Char} (listed : isSymbolChar c = true) :
    c.toNat < 128 ∧ c.toLower.toUpper = c ∧ c.toLower ≠ '@' ∧ c.toLower ≠ 'D' ∧
      c.toLower ≠ '\x22' ∧ Rust.escapeDebug c.toLower = [c.toLower] := by
  have table : ∀ n < 128, isSymbolChar (Char.ofNat n) = true →
      (Char.ofNat n).toLower.toUpper = Char.ofNat n ∧ (Char.ofNat n).toLower ≠ '@' ∧
        (Char.ofNat n).toLower ≠ 'D' ∧ (Char.ofNat n).toLower ≠ '\x22' ∧
        Rust.escapeDebug (Char.ofNat n).toLower = [(Char.ofNat n).toLower] := by decide
  have bound : c.toNat < 128 := by
    simp only [isSymbolChar, Bool.or_eq_true, beq_iff_eq] at listed
    rcases listed with ((upper | digit) | rfl) | rfl
    · have alpha : c.isAlpha = true := Bool.or_eq_true_iff.2 (.inl upper)
      exact Utf8.toNat_lt_of_isAlphanum (Bool.or_eq_true_iff.2 (.inl alpha))
    · exact Utf8.toNat_lt_of_isAlphanum (Bool.or_eq_true_iff.2 (.inr digit))
    · decide
    · decide
  have found := table c.toNat bound
  rw [Char.ofNat_toNat] at found
  exact ⟨bound, found listed⟩

theorem stripRpi_cases (symbol : String) :
    (∃ raw, stripRpi symbol = (raw, true) ∧ symbol = RPI_PREFIX ++ raw) ∨
      stripRpi symbol = (symbol, false) := by
  unfold stripRpi Rust.stripPrefix
  split
  · rename_i raw stripped
    split_ifs at stripped with starts
    cases stripped
    obtain ⟨rest, split⟩ := List.isPrefixOf_iff_prefix.1 starts
    refine .inl ⟨_, rfl, ?_⟩
    rw [← split, List.drop_left, ← String.toList_inj, String.toList_append, String.toList_ofList,
      split]
  · exact .inr rfl

theorem isSymbol_raw {raw : String} (isSymbol : IsSymbol (RPI_PREFIX ++ raw)) : IsSymbol raw := by
  rw [IsSymbol, String.toList_append, List.all_append, Bool.and_eq_true] at isSymbol
  exact isSymbol.2

section Names

variable (case : Rust.Lowercase) {symbol raw : String}

theorem lower_symbol (isSymbol : IsSymbol raw) :
    (case.lower raw).toList = raw.toList.map Char.toLower := by
  have each := List.all_eq_true.1 isSymbol
  rw [case.ascii raw (fun c member => (isSymbolChar_spec (each c member)).1),
    Rust.toAsciiLowercase, String.toList_ofList]

theorem mem_lower {c : Char} (isSymbol : IsSymbol raw) (member : c ∈ (case.lower raw).toList) :
    c ≠ '@' ∧ c ≠ 'D' ∧ c ≠ '\x22' ∧ Rust.escapeDebug c = [c] := by
  rw [lower_symbol case isSymbol, List.mem_map] at member
  obtain ⟨upper, listed, rfl⟩ := member
  exact (isSymbolChar_spec (List.all_eq_true.1 isSymbol upper listed)).2.2

/-- The exchange names the updates of a stream after the symbol it was made from. -/
theorem exchangeSymbol_lower (isSymbol : IsSymbol raw) (suffix : String) :
    exchangeSymbol (case.lower raw ++ ("@" ++ suffix)) = raw := by
  have before : ∀ c ∈ (case.lower raw).toList, decide (c ≠ '@') = true :=
    fun c member => decide_eq_true (mem_lower case isSymbol member).1
  have stop : ("@" ++ suffix).toList.takeWhile (fun c => decide (c ≠ '@')) = [] := by
    rw [String.toList_append]
    rfl
  have back : ∀ c ∈ raw.toList, (Char.toUpper ∘ Char.toLower) c = id c :=
    fun c member => (isSymbolChar_spec (List.all_eq_true.1 isSymbol c member)).2.1
  rw [exchangeSymbol, String.toList_append, List.takeWhile_append_of_pos before, stop,
    List.append_nil, lower_symbol case isSymbol, Rust.toAsciiUppercase, String.toList_ofList,
    List.map_map, List.map_congr_left back, List.map_id, String.ofList_toList]

def routed (stream : String) : String :=
  if Rust.contains stream.toList "rpiDepth".toList then RPI_PREFIX ++ exchangeSymbol stream
  else exchangeSymbol stream

theorem routed_streamName (isSymbol : IsSymbol symbol) :
    routed (BinanceUsdM.streamName case symbol) = symbol := by
  unfold BinanceUsdM.streamName
  rcases stripRpi_cases symbol with ⟨raw, stripped, rfl⟩ | stripped
  · have rawSymbol := isSymbol_raw isSymbol
    have marked : Rust.contains (case.lower raw ++ "@rpiDepth@500ms").toList "rpiDepth".toList :=
      decide_eq_true ⟨(case.lower raw).toList ++ ['@'], "@500ms".toList, by
        rw [String.toList_append, List.append_assoc, List.append_assoc]
        rfl⟩
    simp only [stripped, if_true, routed, marked]
    rw [show "@rpiDepth@500ms" = "@" ++ "rpiDepth@500ms" from rfl,
      exchangeSymbol_lower case rawSymbol]
  · have unmarked :
        Rust.contains (case.lower symbol ++ "@depth").toList "rpiDepth".toList = false := by
      refine decide_eq_false (fun inside => ?_)
      have letter : 'D' ∈ (case.lower symbol ++ "@depth").toList := inside.subset (by decide)
      rw [String.toList_append, List.mem_append] at letter
      rcases letter with lowered | suffix
      · exact (mem_lower case isSymbol lowered).2.1 rfl
      · exact absurd suffix (by decide)
    simp only [stripped, Bool.false_eq_true, if_false, routed, unmarked]
    rw [show "@depth" = "@" ++ "depth" from rfl, exchangeSymbol_lower case isSymbol]

theorem streamNames_nodup {symbols : List String} (distinct : symbols.Nodup)
    (symbolic : ∀ symbol ∈ symbols, IsSymbol symbol) :
    (symbols.map (BinanceUsdM.streamName case)).Nodup := by
  refine distinct.map_on (fun x listed y listed' same => ?_)
  rw [← routed_streamName case (symbolic x listed), same,
    routed_streamName case (symbolic y listed')]

theorem debugText_clean {text : String}
    (clean : ∀ c ∈ text.toList, c ≠ '\x22' ∧ Rust.escapeDebug c = [c]) :
    '\x22' ∉ text.toList ∧ Rust.debugText text = '\x22' :: text.toList ++ ['\x22'] := by
  refine ⟨fun member => (clean _ member).1 rfl, ?_⟩
  rw [Rust.debugText, List.flatMap_congr (fun c member => (clean c member).2),
    List.flatMap_singleton']

/-- A lower-case symbol is quoted as it stands, with a suffix that is. -/
theorem debugText_lower (isSymbol : IsSymbol raw) {suffix : String}
    (clean : suffix.toList.all (fun c => c ≠ '\x22' ∧ Rust.escapeDebug c = [c]) = true) :
    '\x22' ∉ (case.lower raw ++ suffix).toList ∧ Rust.debugText (case.lower raw ++ suffix) =
      '\x22' :: (case.lower raw ++ suffix).toList ++ ['\x22'] := by
  refine debugText_clean (fun c member => ?_)
  rw [String.toList_append, List.mem_append] at member
  rcases member with lowered | behind
  · exact (mem_lower case isSymbol lowered).2.2
  · exact of_decide_eq_true (List.all_eq_true.1 clean c behind)

theorem debugText_streamName (isSymbol : IsSymbol symbol) :
    '\x22' ∉ (BinanceUsdM.streamName case symbol).toList ∧
      Rust.debugText (BinanceUsdM.streamName case symbol) =
        '\x22' :: (BinanceUsdM.streamName case symbol).toList ++ ['\x22'] := by
  unfold BinanceUsdM.streamName
  rcases stripRpi_cases symbol with ⟨raw, stripped, rfl⟩ | stripped
  · simp only [stripped, if_true]
    exact debugText_lower case (isSymbol_raw isSymbol) (by decide)
  · simp only [stripped, Bool.false_eq_true, if_false]
    exact debugText_lower case isSymbol (by decide)

end Names

theorem quoted_cons {front text : List Char} (noQuote : '\x22' ∉ front) (inside : '\x22' ∉ text)
    (rest : List Char) :
    quoted (front ++ '\x22' :: (text ++ '\x22' :: rest)) = String.ofList text :: quoted rest := by
  rw [quoted, List.splitOn_append_cons_self_of_not_mem noQuote,
    List.splitOn_append_cons_self_of_not_mem inside, quoted.inside, quoted]

def subscribeEnd : List Char := ']' :: ", \"id\": 1\x7d".toList

theorem quoted_subscribeEnd {front : List Char} (noQuote : '\x22' ∉ front) :
    quoted (front ++ subscribeEnd) = ["id"] := by
  have split : subscribeEnd =
      "], ".toList ++ '\x22' :: ("id".toList ++ '\x22' :: ": 1\x7d".toList) := rfl
  rw [split, ← List.append_assoc, quoted_cons (by simp [noQuote]) (by decide)]
  rfl

theorem quoted_names (names : List String)
    (clean : ∀ name ∈ names, '\x22' ∉ name.toList ∧
      Rust.debugText name = '\x22' :: name.toList ++ ['\x22'])
    (front : List Char) (noQuote : '\x22' ∉ front) :
    quoted (front ++ ([',', ' '].intercalate (names.map Rust.debugText) ++ subscribeEnd)) =
      names ++ ["id"] := by
  induction names generalizing front with
  | nil => exact quoted_subscribeEnd noQuote
  | cons name rest ih =>
    obtain ⟨⟨free, text⟩, later⟩ := List.forall_mem_cons.1 clean
    have first : ∀ tail, quoted (front ++ (Rust.debugText name ++ tail)) = name :: quoted tail := by
      intro tail
      have shape : Rust.debugText name ++ tail = '\x22' :: (name.toList ++ '\x22' :: tail) := by
        simp [text]
      rw [shape, quoted_cons noQuote free, String.ofList_toList]
    cases rest with
    | nil =>
      rw [List.map_singleton, List.intercalate_singleton, first]
      exact congrArg (name :: ·) (quoted_subscribeEnd (List.not_mem_nil))
    | cons next rest =>
      rw [List.map_cons, List.map_cons, List.intercalate_cons_cons, List.append_assoc,
        List.append_assoc, first, ← List.map_cons, ih later _ (by decide)]
      rfl

theorem subscribeText_toList (names : List String) :
    (BinanceUsdM.subscribeText names).toList =
      ['\x7b'] ++ '\x22' :: ("method".toList ++ '\x22' :: (": ".toList ++ '\x22' ::
        ("SUBSCRIBE".toList ++ '\x22' :: (", ".toList ++ '\x22' :: ("params".toList ++ '\x22' ::
          (": [".toList ++ ([',', ' '].intercalate (names.map Rust.debugText) ++
            subscribeEnd))))))) := by
  have opening : "\x7b\"method\": \"SUBSCRIBE\", \"params\": ".toList ++ ['['] =
      '\x7b' :: '\x22' :: ("method".toList ++ '\x22' :: (": ".toList ++ '\x22' ::
        ("SUBSCRIBE".toList ++ '\x22' :: (", ".toList ++ '\x22' :: ("params".toList ++ '\x22' ::
          ": [".toList))))) := by decide
  have shape : (BinanceUsdM.subscribeText names).toList =
      ("\x7b\"method\": \"SUBSCRIBE\", \"params\": ".toList ++ ['[']) ++
        ([',', ' '].intercalate (names.map Rust.debugText) ++ subscribeEnd) := by
    unfold BinanceUsdM.subscribeText subscribeEnd Rust.debugTexts
    rw [String.toList_append, String.toList_append, String.toList_ofList]
    simp
  rw [shape, opening]
  simp only [List.append_assoc, List.cons_append, List.nil_append]

theorem quoted_subscribeText {names : List String}
    (clean : ∀ name ∈ names, '\x22' ∉ name.toList ∧
      Rust.debugText name = '\x22' :: name.toList ++ ['\x22']) :
    quoted (BinanceUsdM.subscribeText names).toList =
      ["method", "SUBSCRIBE", "params"] ++ names ++ ["id"] := by
  rw [subscribeText_toList, quoted_cons (by decide) (by decide), quoted_cons (by decide) (by decide),
    quoted_cons (by decide) (by decide), quoted_names names clean _ (by decide)]
  simp

/-- The last message subscribes to exactly the streams of the symbols. -/
theorem wsSubscriptions_names (case : Rust.Lowercase) {symbols : List String}
    (symbolic : ∀ symbol ∈ symbols, IsSymbol symbol) :
    ∃ subscribe, (BinanceUsdM.wsSubscriptions case symbols).getLast? = some subscribe ∧
      quoted subscribe.toList = ["method", "SUBSCRIBE", "params"] ++
        symbols.map (BinanceUsdM.streamName case) ++ ["id"] := by
  refine ⟨BinanceUsdM.subscribeText (symbols.map (BinanceUsdM.streamName case)), ?_, ?_⟩
  · unfold BinanceUsdM.wsSubscriptions
    split_ifs <;> rfl
  · refine quoted_subscribeText (List.forall_mem_map.2 (fun symbol listed => ?_))
    exact debugText_streamName case (symbolic symbol listed)

theorem parse_streamName (case : Rust.Lowercase) (format : DepthFormat P Q) {symbol : String}
    (isSymbol : IsSymbol symbol) {data : List UInt8} {update : DepthUpdate P Q}
    (arrives : format.envelope data = some (BinanceUsdM.streamName case symbol, update))
    (named : update.symbol = exchangeSymbol (BinanceUsdM.streamName case symbol)) :
    parseDepthBytes format data = .ok (some { update with symbol := symbol }) := by
  have target := routed_streamName case isSymbol
  unfold routed at target
  simp only [parseDepthBytes, arrives]
  split_ifs at target ⊢ with marked
  · rw [named, target]
  · rw [← target, ← named]

/-- Streams of distinct symbols are distinct, and what arrives on a symbol's stream is parsed,
routed and applied for that symbol alone. -/
theorem depth_streams_route (case : Rust.Lowercase) (format : DepthFormat P Q)
    {H Ctx : Type} (handleUpdate : H → Ctx → DepthUpdate P Q → H × Ctx) (symbols : List String)
    (distinct : symbols.Nodup) (symbolic : ∀ symbol ∈ symbols, IsSymbol symbol) :
    (∃ subscribe, (BinanceUsdM.wsSubscriptions case symbols).getLast? = some subscribe ∧
      quoted subscribe.toList = ["method", "SUBSCRIBE", "params"] ++
        symbols.map (BinanceUsdM.streamName case) ++ ["id"]) ∧
    (symbols.map (BinanceUsdM.streamName case)).Nodup ∧
    ∀ symbol ∈ symbols, ∀ data update,
      format.envelope data = some (BinanceUsdM.streamName case symbol, update) →
      update.symbol = exchangeSymbol (BinanceUsdM.streamName case symbol) →
      ∃ parsed, parseDepthBytes format data = .ok (some parsed) ∧
        (depthHandler format handleUpdate).toId parsed = symbol ∧
        ∀ (hub : MonitorMultiplexor H Ctx) payload, intoData (.text payload) = data →
          (hub.ingestMessage (depthHandler format handleUpdate) (.text payload)).writers.get symbol =
            (hub.writers.get symbol).map (fun writer => (handleUpdate writer hub.ctx parsed).1) ∧
          ∀ other ≠ symbol,
            (hub.ingestMessage (depthHandler format handleUpdate) (.text payload)).writers.get other =
              hub.writers.get other := by
  refine ⟨wsSubscriptions_names case symbolic, streamNames_nodup case distinct symbolic, ?_⟩
  intro symbol listed data update arrives named
  have parsed := parse_streamName case format (symbolic symbol listed) arrives named
  refine ⟨_, parsed, rfl, ?_⟩
  rintro hub payload rfl
  have ingested : hub.ingestMessage (depthHandler format handleUpdate) (.text payload) =
      hub.deliver (depthHandler format handleUpdate).toUpdateHandler
        { update with symbol := symbol } := by
    have read : (depthHandler format handleUpdate).parseUpdate (.text payload) =
        .ok (some { update with symbol := symbol }) := parsed
    simp only [MonitorMultiplexor.ingestMessage, Message.isText, if_true, read]
  rw [ingested]
  exact ⟨hub.deliver_writer _ _, fun other different => hub.deliver_other _ _ different⟩

def rpiPayload : String :=
  "\x7b\"stream\":\"btcusdt@rpiDepth@500ms\",\"data\":\x7b\"e\":\"depthUpdate\",\"E\":1,\"T\":1," ++
    "\"s\":\"BTCUSDT\",\"U\":5,\"u\":7,\"pu\":4,\"b\":[],\"a\":[]\x7d\x7d"

def rpiUpdate : DepthUpdate Nat Nat := ⟨"BTCUSDT", 1, 5, 7, some 4, [], []⟩

def rpiFormat : DepthFormat Nat Nat where
  envelope := fun data =>
    if data = Utf8.bytes rpiPayload then some ("btcusdt@rpiDepth@500ms", rpiUpdate) else none
  update := fun _ => none
  nullResponse := fun _ => none

def recording : List Nat → Unit → DepthUpdate Nat Nat → List Nat × Unit :=
  fun log ctx update => (log ++ [update.lastUpdateId], ctx)

def twoLogs : MonitorMultiplexor (List Nat) Unit :=
  ⟨(Map.empty.insert "BTCUSDT" []).insert "RPI:BTCUSDT" [], ()⟩

/-- An overlay update goes to the overlay's handler and not to the standard one. -/
theorem depth_streams_route_rpi :
    let writers :=
      (twoLogs.ingestMessage (depthHandler rpiFormat recording) (.text rpiPayload)).writers
    writers.get "RPI:BTCUSDT" = some [7] ∧ writers.get "BTCUSDT" = some [] := by
  have named : ∀ symbol ∈ ["BTCUSDT", "RPI:BTCUSDT"], IsSymbol symbol := by
    unfold IsSymbol
    decide
  have stream : BinanceUsdM.streamName Rust.Lowercase.asciiOnly "RPI:BTCUSDT" =
      "btcusdt@rpiDepth@500ms" := by decide
  have read : rpiFormat.envelope (Utf8.bytes rpiPayload) =
      some (BinanceUsdM.streamName Rust.Lowercase.asciiOnly "RPI:BTCUSDT", rpiUpdate) := by
    rw [stream]
    simp [rpiFormat]
  obtain ⟨parsed, accepted, -, reaches⟩ :=
    (depth_streams_route Rust.Lowercase.asciiOnly rpiFormat recording ["BTCUSDT", "RPI:BTCUSDT"]
      (by decide) named).2.2 "RPI:BTCUSDT" (by decide) _ rpiUpdate read (by decide)
  obtain ⟨own, others⟩ := reaches twoLogs rpiPayload rfl
  have standard := others "BTCUSDT" (by decide)
  simp only [parseDepthBytes, read, stream] at accepted
  cases accepted
  dsimp only
  rw [own, standard]
  exact ⟨rfl, rfl⟩

end Trolly.Monitor
