import Trolly.Lib.Keyed

/-! The shared stream ingress: websocket messages, event handlers and the multiplexor
that routes a parsed update to the handler of its id. Handlers of one multiplexor share
a context (an account behind a mutex, an outbound channel); it is passed explicitly. -/
namespace Trolly.Stream

open Keyed

inductive Message where
  | text (payload : String)
  | binary (payload : List UInt8)
  | ping (payload : List UInt8)
  | pong (payload : List UInt8)
  | close
  | frame (payload : List UInt8)

def Message.isText : Message → Bool
  | text _ => true
  | _ => false

/-- An unbounded channel: sending to a dropped receiver fails and leaves the queue alone. -/
structure UnboundedSender (α : Type) where
  receiverAlive : Bool
  queue : List α

def UnboundedSender.send {α : Type} (tx : UnboundedSender α) (a : α) : UnboundedSender α :=
  if tx.receiverAlive then { tx with queue := tx.queue ++ [a] } else tx

/-- The methods of the trait `EventHandler` that route and apply a parsed update.
Every caller logs an error of `handle_update` and goes on, so only the state is kept. -/
structure UpdateHandler (H Ctx Update : Type) where
  toId : Update → String
  handleUpdate : H → Ctx → Update → H × Ctx

/-- The trait `EventHandler`, for handlers `H` over a shared context `Ctx`. -/
structure EventHandler (H Ctx Update Error : Type) extends UpdateHandler H Ctx Update where
  parseUpdate : Message → Except Error (Option Update)

@[ext] structure MonitorMultiplexor (H Ctx : Type) where
  writers : Map String H
  ctx : Ctx

namespace MonitorMultiplexor

variable {H Ctx Update Error : Type}

def fromWriters (writers : Map String H) (ctx : Ctx) : MonitorMultiplexor H Ctx := ⟨writers, ctx⟩

/-- Hand an update to the writer of its id; without one it is logged and dropped. -/
def deliver (handler : UpdateHandler H Ctx Update) (hub : MonitorMultiplexor H Ctx)
    (update : Update) : MonitorMultiplexor H Ctx :=
  let id := handler.toId update
  match hub.writers.get id with
  | none => hub
  | some writer =>
    let (writer, ctx) := handler.handleUpdate writer hub.ctx update
    ⟨hub.writers.insert id writer, ctx⟩

def ingestMessage (handler : EventHandler H Ctx Update Error) (hub : MonitorMultiplexor H Ctx)
    (msg : Message) : MonitorMultiplexor H Ctx :=
  if msg.isText then
    match handler.parseUpdate msg with
    | .ok (some update) => hub.deliver handler.toUpdateHandler update
    | .ok none => hub
    | .error _ => hub
  else hub

theorem deliver_missing (handler : UpdateHandler H Ctx Update)
    (hub : MonitorMultiplexor H Ctx) (update : Update)
    (missing : hub.writers.get (handler.toId update) = none) : hub.deliver handler update = hub := by
  simp only [deliver, missing]

theorem deliver_found (handler : UpdateHandler H Ctx Update)
    (hub : MonitorMultiplexor H Ctx) (update : Update) {writer : H}
    (found : hub.writers.get (handler.toId update) = some writer) :
    hub.deliver handler update =
      ⟨hub.writers.insert (handler.toId update) (handler.handleUpdate writer hub.ctx update).1,
        (handler.handleUpdate writer hub.ctx update).2⟩ := by
  simp only [deliver, found]

theorem deliver_other (handler : UpdateHandler H Ctx Update)
    (hub : MonitorMultiplexor H Ctx) (update : Update) {id : String}
    (other : id ≠ handler.toId update) :
    (hub.deliver handler update).writers.get id = hub.writers.get id := by
  cases target : hub.writers.get (handler.toId update) with
  | none => rw [deliver_missing handler hub update target]
  | some writer =>
    rw [deliver_found handler hub update target]
    exact Map.get_insert_of_ne _ other _

theorem deliver_writer (handler : UpdateHandler H Ctx Update)
    (hub : MonitorMultiplexor H Ctx) (update : Update) :
    (hub.deliver handler update).writers.get (handler.toId update) =
      (hub.writers.get (handler.toId update)).map
        (fun writer => (handler.handleUpdate writer hub.ctx update).1) := by
  cases target : hub.writers.get (handler.toId update) with
  | none => rw [deliver_missing handler hub update target, target, Option.map_none]
  | some writer => rw [deliver_found handler hub update target]; simp

end MonitorMultiplexor

end Trolly.Stream
