import Trolly.Monitor.DepthPipelines
import Trolly.Monitor.DepthStreams
import Trolly.Stream.Session

/-! The echo pipeline, from the text of its symbols to the lines it prints. There is no book and
no server; one line is printed for each update of a listed symbol. -/
namespace Trolly.Monitor

open Keyed PartialRun Trolly.Stream

variable {P Q E : Type}

def Binance.wsSubscriptions (case : Rust.Lowercase) (symbols : List String) : List String :=
  [BinanceUsdM.subscribeText (symbols.map (fun symbol => case.lower symbol ++ "@depth"))]

def Stub.wsSubscriptions (case : Rust.Lowercase) (symbols : List String) : List String :=
  [BinanceUsdM.subscribeText (symbols.map (fun symbol => case.lower symbol ++ "@depth"))]

/-- The venue of a provider; `other` has none. -/
def Provider.wsSubscriptions (case : Rust.Lowercase) : Provider → List String → List String
  | .binance => Binance.wsSubscriptions case
  | .binanceUsdM => BinanceUsdM.wsSubscriptions case
  | .stub => Stub.wsSubscriptions case
  | .other => fun _ => []

/-- The stream of a symbol at the venue of a provider. -/
def Provider.streamName (case : Rust.Lowercase) : Provider → String → String
  | .binanceUsdM => BinanceUsdM.streamName case
  | _ => fun symbol => case.lower symbol ++ "@depth"

/-- The streams that a frame subscribes to, read back from its text. -/
def streamsOf : Outgoing → List String
  | .text frame =>
    match quoted frame.toList with
    | "method" :: "SUBSCRIBE" :: "params" :: names => names.dropLast
    | _ => []
  | .close => []

theorem streamsOf_subscribeText {names : List String}
    (clean : ∀ name ∈ names, '\x22' ∉ name.toList ∧
      Rust.debugText name = '\x22' :: name.toList ++ ['\x22']) :
    streamsOf (.text (BinanceUsdM.subscribeText names)) = names := by
  simp only [streamsOf, quoted_subscribeText clean, List.cons_append, List.nil_append,
    List.dropLast_concat]

/-- The frames of a provider name exactly the streams of the symbols. -/
theorem wsSubscriptions_streams (case : Rust.Lowercase) {provider : Provider}
    (wired : provider ≠ .other) {symbols : List String}
    (symbolic : ∀ symbol ∈ symbols, IsSymbol symbol) :
    ((provider.wsSubscriptions case symbols).map Outgoing.text).flatMap streamsOf =
      symbols.map (provider.streamName case) := by
  have depth : streamsOf (.text (BinanceUsdM.subscribeText
      (symbols.map (fun symbol => case.lower symbol ++ "@depth")))) =
        symbols.map (fun symbol => case.lower symbol ++ "@depth") :=
    streamsOf_subscribeText (List.forall_mem_map.2 (fun symbol listed =>
      debugText_lower case (symbolic symbol listed) (by decide)))
  have combined : streamsOf (.text
      "\x7b\"method\":\"SET_PROPERTY\",\"params\":[\"combined\",true],\"id\":0\x7d") = [] := by
    decide +kernel
  cases provider with
  | other => exact absurd rfl wired
  | binance => exact (List.flatMap_singleton _ _).trans depth
  | stub => exact (List.flatMap_singleton _ _).trans depth
  | binanceUsdM =>
    have named : streamsOf (.text (BinanceUsdM.subscribeText
        (symbols.map (BinanceUsdM.streamName case)))) =
          symbols.map (BinanceUsdM.streamName case) :=
      streamsOf_subscribeText (List.forall_mem_map.2 (fun symbol listed =>
        debugText_streamName case (symbolic symbol listed)))
    simp only [Provider.wsSubscriptions, BinanceUsdM.wsSubscriptions, Provider.streamName]
    split_ifs
    · simp [combined, named]
    · simp [named]

namespace EchoDepth

def decimal (n : Nat) : String := String.ofList (Rust.natToChars n)

/-- An optional id under `{:?}`. -/
def debugId : Option Nat → String
  | none => "None"
  | some n => "Some(" ++ decimal n ++ ")"

def line (update : DepthUpdate P Q) : String :=
  update.symbol ++ " first=" ++ decimal update.firstUpdateId ++ " last=" ++
    decimal update.lastUpdateId ++ " prev=" ++ debugId update.previousUpdateId ++ " bids=" ++
    decimal update.bids.length ++ " asks=" ++ decimal update.asks.length

/-- The handlers keep nothing; what they share is what was printed. The lines that the log layer
writes to the same output are left out. -/
def handler (format : DepthFormat P Q) :
    EventHandler Unit (List String) (DepthUpdate P Q) String :=
  depthHandler format (fun self printed update => (self, printed ++ [line update]))

def built (handlers : List String) : MonitorMultiplexor Unit (List String) :=
  .fromWriters (handlers.foldl (fun writers id => writers.insert id ()) .empty) []

/-- `stream_depth_echo`; nothing is streamed for `other`. -/
def runEcho (table : Rust.CaseTable) (case : Rust.Lowercase) (format : DepthFormat P Q)
    (provider : Provider) (symbols : String) (signals : List (Signal E)) :
    Option (Session Unit (List String)) :=
  (streamDepthEcho table provider symbols).bind fun streaming =>
    run (Session.step (handler format) (built streaming.handlers))
      (.start (provider.wsSubscriptions case streaming.subscribed)) signals

/-- The update of a frame, if it has one. -/
def updateOf (format : DepthFormat P Q) (msg : Message) : Option (DepthUpdate P Q) :=
  if msg.isText then (parseDepthBytes format (intoData msg)).toOption.join else none

theorem built_get (handlers : List String) (id : String) :
    (built handlers).writers.get id = if id ∈ handlers then some () else none := by
  rw [built, MonitorMultiplexor.fromWriters, Map.get_foldl_insert, Map.get_empty]

/-- What a message does to a hub whose writers are the listed ones. -/
theorem ingest_prints (format : DepthFormat P Q) (handlers : List String) (printed : List String)
    (msg : Message) :
    (⟨(built handlers).writers, printed⟩ : MonitorMultiplexor Unit (List String)).ingestMessage
        (handler format) msg =
      ⟨(built handlers).writers, printed ++
        (((updateOf format msg).toList.filter (·.symbol ∈ handlers)).map line)⟩ := by
  by_cases text : msg.isText
  · rw [MonitorMultiplexor.ingestMessage, if_pos text, updateOf, if_pos text]
    rcases parsed : parseDepthBytes format (intoData msg) with error | (_ | update)
    · simp [handler, depthHandler, parsed, Except.toOption]
    · simp [handler, depthHandler, parsed, Except.toOption]
    · have found := built_get handlers update.symbol
      by_cases listed : update.symbol ∈ handlers
      · rw [if_pos listed] at found
        simp [handler, depthHandler, parsed, Except.toOption, listed, MonitorMultiplexor.deliver,
          found, Map.insert_get _ found]
      · rw [if_neg listed] at found
        simp [handler, depthHandler, parsed, Except.toOption, listed, MonitorMultiplexor.deliver,
          found]
  · rw [MonitorMultiplexor.ingestMessage, if_neg text, updateOf, if_neg text]
    simp

theorem ingest_all_prints (format : DepthFormat P Q) (handlers : List String)
    (printed : List String) (msgs : List Message) :
    (msgs.foldl (MonitorMultiplexor.ingestMessage (handler format))
        ⟨(built handlers).writers, printed⟩).ctx =
      printed ++ ((msgs.filterMap (updateOf format)).filter (·.symbol ∈ handlers)).map line := by
  induction msgs generalizing printed with
  | nil => simp
  | cons msg rest ih =>
    rw [List.foldl_cons, ingest_prints, ih]
    cases read : updateOf format msg <;> simp [read, List.filter_cons]
    split <;> simp

def printed (session : Session Unit (List String)) : List String :=
  (session.hub.map MonitorMultiplexor.ctx).getD []

theorem updateOf_rpi : updateOf rpiFormat (.text rpiPayload) =
    some { rpiUpdate with symbol := "RPI:BTCUSDT" } := by
  have read : rpiFormat.envelope (intoData (.text rpiPayload)) =
      some ("btcusdt@rpiDepth@500ms", rpiUpdate) := by
    simp [rpiFormat, intoData]
  have marked : Rust.contains "btcusdt@rpiDepth@500ms".toList "rpiDepth".toList = true := by decide
  have text : (Message.text rpiPayload).isText = true := rfl
  rw [updateOf, if_pos text, parseDepthBytes, read]
  simp only [marked, if_true]
  rfl

end EchoDepth

end Trolly.Monitor
