import Trolly.Exec.Auth
import Trolly.Strategy.Messages

/-! Order placement, as the spot and the USD-M crate share it: one signed POST for each order,
and the executor that drains the orders queued by an egress. What differs between the crates
is an `OrderApi`. -/
namespace Trolly.Exec

open Strategy

/-- `invalidPositionSide` occurs in the USD-M crate only. -/
inductive OrderBuilderError where
  | invalidSide (value : String)
  | invalidTimeInForce (value : String)
  | invalidPositionSide (value : String)
  | limitRequiresPrice
  | marketWithPrice
  deriving DecidableEq

inductive OrderSide where
  | buy
  | sell
  deriving DecidableEq

def OrderSide.asStr : OrderSide → String
  | buy => "BUY"
  | sell => "SELL"

def OrderSide.parse (value : String) : Except OrderBuilderError OrderSide :=
  match Rust.toAsciiUppercase value with
  | "BUY" => .ok .buy
  | "SELL" => .ok .sell
  | other => .error (.invalidSide other)

theorem OrderSide.parse_ok {value : String} {side : OrderSide}
    (read : OrderSide.parse value = .ok side) : Rust.toAsciiUppercase value = side.asStr := by
  unfold OrderSide.parse at read
  split at read <;> cases read <;> assumption

inductive OrderType where
  | market
  | limit
  deriving DecidableEq

def OrderType.asStr : OrderType → String
  | market => "MARKET"
  | limit => "LIMIT"

structure ApiCredentials where
  apiKey : String
  secretKey : String

structure HttpResponse where
  status : UInt16
  body : String

inductive TransportError where
  | http (message : String)

inductive PlaceOrderError where
  | builder (error : OrderBuilderError)
  | transport (error : TransportError)
  | api (code : Int64) (msg : String)
  | unexpectedStatus (status : UInt16) (body : String)
  | parse (message : String)

/-- How a crate's `serde` types read a response body: the acknowledgement, or the code and
message of an error. -/
structure ResponseFormat (Response : Type) where
  acknowledgement : String → Except String Response
  apiError : String → Option (Int64 × String)

def parsePlaceOrderResponse {Response : Type} (format : ResponseFormat Response)
    (response : HttpResponse) : Except PlaceOrderError Response :=
  if response.status = 200 then (format.acknowledgement response.body).mapError .parse
  else
    match format.apiError response.body with
    | some (code, msg) => .error (.api code msg)
    | none => .error (.unexpectedStatus response.status response.body)

structure FormPost where
  url : String
  apiKey : String
  body : String
  deriving DecidableEq

inductive EgressError where
  | builder (error : OrderBuilderError)
  | unsupported (what : String)
  | channelClosed
  deriving DecidableEq

/-- The parts of a crate that its client and its egress use. -/
structure OrderApi (Request Response : Type) where
  path : String
  buildOrderParams : Request → Except OrderBuilderError Params
  format : ResponseFormat Response
  placeOrderFromOutbound : OutboundMessage → Except EgressError Request

structure OrderClient where
  credentials : ApiCredentials
  baseUrl : String

/-- What the placements find outside: HMAC-SHA256, the clock at each placement, and the
answer to each post. -/
structure Exchange where
  hmac : Hmac
  clock : Nat → UInt64
  answers : Nat → Except TransportError HttpResponse

def trimEndSlashes (url : String) : String := String.ofList (url.toList.rdropWhile (· == '/'))

section Executor

variable {Request Response : Type} (api : OrderApi Request Response) (client : OrderClient)
  (exchange : Exchange)

def buildSignedFormParams (secretKey : String) (now : UInt64) (request : Request) :
    Except OrderBuilderError Params :=
  (api.buildOrderParams request).map (signFormParams exchange.hmac secretKey now)

def orderPost (now : UInt64) (request : Request) : Except OrderBuilderError FormPost :=
  (buildSignedFormParams api exchange client.credentials.secretKey now request).map
    (fun params => ⟨trimEndSlashes client.baseUrl ++ api.path, client.credentials.apiKey,
      signedParamsPayload params⟩)

def readAnswer : Except TransportError HttpResponse → Except PlaceOrderError Response
  | .error error => .error (.transport error)
  | .ok response => parsePlaceOrderResponse api.format response

/-- The post that `place_order` makes, if it gets that far, and its outcome. -/
def placeOrder (call : Nat) (request : Request) :
    Option FormPost × Except PlaceOrderError Response :=
  match orderPost api client exchange (exchange.clock call) request with
  | .error error => (none, .error (.builder error))
  | .ok post => (some post, readAnswer api (exchange.answers call))

/-- What `?` after a placement makes the executor return. -/
def propagated : Except PlaceOrderError Response → Option (Except PlaceOrderError Unit)
  | .error error => some (.error error)
  | .ok _ => none

/-- The channel between an egress and its executor, and how far the executor has come.
Once it has returned, its receiver is gone. -/
structure Pipeline (Request : Type) where
  queue : List Request
  posts : List FormPost
  calls : Nat
  result : Option (Except PlaceOrderError Unit)

def Pipeline.start : Pipeline Request := ⟨[], [], 0, none⟩

def Pipeline.dispatch (s : Pipeline Request) (message : OutboundMessage) :
    Pipeline Request × Except EgressError Unit :=
  match api.placeOrderFromOutbound message with
  | .error error => (s, .error error)
  | .ok request =>
    if s.result.isSome then (s, .error .channelClosed)
    else ({ s with queue := s.queue ++ [request] }, .ok ())

/-- One turn of the loop in `run_order_executor`; with an empty queue it waits. -/
def Pipeline.turn (s : Pipeline Request) : Pipeline Request :=
  match s.result, s.queue with
  | none, request :: rest =>
    let (post, outcome) := placeOrder api client exchange s.calls request
    { queue := rest
      posts := s.posts ++ post.toList
      calls := s.calls + 1
      result := propagated outcome }
  | _, _ => s

/-- The rest of `run_order_executor` once every egress is gone. -/
def Pipeline.drain (s : Pipeline Request) : Pipeline Request :=
  let last := (turn api client exchange)^[s.queue.length] s
  { last with result := some (last.result.getD (.ok ())) }

/-- Egress and executor are two tasks; a dispatch during a post is one before it. -/
inductive Action where
  | dispatch (message : OutboundMessage)
  | turn

def Pipeline.step (s : Pipeline Request) : Action → Pipeline Request
  | .dispatch message => (s.dispatch api message).1
  | .turn => s.turn api client exchange

def Pipeline.run (s : Pipeline Request) (actions : List Action) : Pipeline Request :=
  actions.foldl (step api client exchange) s

/-- The request that a dispatch enqueues, when it returns `Ok`. -/
def Pipeline.taken (s : Pipeline Request) : Action → Option Request
  | .dispatch message =>
    match (s.dispatch api message).2 with
    | .ok () => (api.placeOrderFromOutbound message).toOption
    | .error _ => none
  | .turn => none

def Pipeline.enqueued (s : Pipeline Request) : List Action → List Request
  | [] => []
  | action :: rest =>
    (s.taken api action).toList ++ enqueued (s.step api client exchange action) rest

end Executor

section Results

variable {ε ε' α β : Type}

theorem bind_ok_iff {first : Except ε α} {next : α → Except ε β} {b : β} :
    (first >>= next) = .ok b ↔ ∃ a, first = .ok a ∧ next a = .ok b := by
  cases first <;> simp [bind, Except.bind]

theorem mapError_ok_iff {wrap : ε → ε'} {first : Except ε α} {a : α} :
    first.mapError wrap = .ok a ↔ first = .ok a := by
  cases first <;> simp [Except.mapError]

end Results

end Trolly.Exec
