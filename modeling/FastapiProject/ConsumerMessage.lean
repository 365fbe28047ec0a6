import FastapiProject.PythonJson

set_option autoImplicit false

/-!
# `_process_message` and the handler registry

`rmq/consumer.py`, lines 28 to 127. The message is settled through its delivery: what
was tried on it, what went out on the wire, and the channel it came in on.
-/
namespace FastapiProject.ConsumerMessage
open PythonExceptions PythonJson

inductive Settlement where
  | ack
  | nack (requeue : Bool)
  | reject (requeue : Bool)
  deriving DecidableEq, Repr

/-- `lost`: the broker has closed the channel and the client has not noticed yet. -/
inductive ChannelState where
  | opened
  | lost
  | closed
  deriving DecidableEq, Repr

structure Delivery where
  channel : ChannelState
  processed : Bool := false
  attempts : List Settlement := []
  sent : List Settlement := []
  deriving DecidableEq, Repr

/-- `message.ack()`, `message.nack(..)` and `message.reject(..)` of aio_pika. -/
def settle (s : Settlement) (d : Delivery) : Except Exn Unit × Delivery :=
  let tried := { d with attempts := d.attempts ++ [s] }
  if d.processed = true then (.error .messageProcessError, tried)
  else if d.channel = .closed then (.error .channelInvalidState, tried)
  else (.ok (), { tried with processed := true, sent := d.sent ++ [s] })

/-- A settlement inside an exception: its own failure replaces the exception. -/
def settleThenRaise (s : Settlement) (e : Exn) (d : Delivery) : Except Exn Unit × Delivery :=
  match settle s d with
  | (.ok (), d) => (.error e, d)
  | (.error e', d) => (.error e', d)

/-- `async with message.process(requeue=requeue)`: every exit of the block settles. On a
closed channel aio_pika skips the `reject`, which is noted here as tried and refused. -/
def process (requeue : Bool) (block : Delivery → Except Exn Unit × Delivery) (d : Delivery) :
    Except Exn Unit × Delivery :=
  match block d with
  | (.ok (), d) => settle .ack d
  | (.error e, d) => settleThenRaise (.reject requeue) e d

section Registry
variable {H : Type}

abbrev Handlers (H : Type) := List (Str × H)

def registerHandler (handlers : Handlers H) (eventType : Str) (fn : H) : Handlers H :=
  dictSet handlers eventType fn

/-- `_handlers.get(event_type)`: every key is a string, and a list or a dict cannot be
looked up at all. -/
def handlersGet (handlers : Handlers H) : Json → Except Exn (Option H)
  | .str s => .ok (dictGet handlers s)
  | .array _ | .object _ => .error .typeError
  | .null | .bool _ | .int _ | .float _ => .ok none

def defaultEventType : Json := .str (ofString "")

def eventTypeOf (entries : List (Str × Json)) : Json :=
  (dictGet entries (ofString "event_type")).getD defaultEventType

def bodyEventType : Json → Except Exn Json
  | .object entries => .ok (eventTypeOf entries)
  | _ => .error .attributeError

def loadsBody (depth : ℕ) (raw : ByteArray) : Except Exn Json := do loads depth (← decode raw)

/-- The block up to the handler; `none` is one of the two early returns. -/
def route (handlers : Handlers H) (parsed : Except Exn Json) : Except Exn (Option (H × Json)) :=
  match parsed with
  | .error e => if e = .jsonDecodeError ∨ e = .unicodeDecodeError then .ok none else .error e
  | .ok body => do
    let eventType ← bodyEventType body
    match ← handlersGet handlers eventType with
    | none => return none
    | some handler => return some (handler, body)

def executeHandler (outcome : Except Exn Unit) (d : Delivery) : Except Exn Unit × Delivery :=
  match outcome with
  | .ok () => (.ok (), d)
  | .error e => if e.isException = true then settleThenRaise (.nack true) e d else (.error e, d)

def processRouted (run : H → Json → Except Exn Unit) (routed : Except Exn (Option (H × Json))) :
    Delivery → Except Exn Unit × Delivery :=
  process false fun d =>
    match routed with
    | .error e => (.error e, d)
    | .ok none => (.ok (), d)
    | .ok (some (handler, body)) => executeHandler (run handler body) d

def processMessage (depth : ℕ) (handlers : Handlers H) (run : H → Json → Except Exn Unit)
    (raw : ByteArray) : Delivery → Except Exn Unit × Delivery :=
  processRouted run (route handlers (loadsBody depth raw))

end Registry

theorem executeHandler_sent (c : ChannelState) (outcome : Except Exn Unit) (hc : c ≠ .closed) :
    (process false (executeHandler outcome) { channel := c }).2.sent =
      match outcome with
      | .ok () => [.ack]
      | .error e => if e.isException = true then [.nack true] else [.reject false] := by
  cases outcome with
  | ok _ => simp [process, executeHandler, settle, hc]
  | error e =>
    by_cases he : e.isException = true
    · simp [process, executeHandler, settleThenRaise, settle, hc, he]
    · simp [process, executeHandler, settleThenRaise, settle, hc, he]

end FastapiProject.ConsumerMessage
