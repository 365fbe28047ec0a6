import Mathlib.Logic.Function.Basic
import FastapiProject.ConsumerMessage

set_option autoImplicit false

/-!
# Message tasks and the broker

`_process_message` as the tasks of `_active_tasks` run it, beside the broker's view of
each message. Channels are numbered in the order in which they were opened; a delivery
belongs to the channel that it came in on. What the queue iterator still buffers counts
as not yet delivered.
-/
namespace FastapiProject.ConsumerTraffic
open PythonExceptions PythonJson ConsumerMessage

variable {Msg H : Type}

structure Settings where
  rmqMaxConcurrentTasks : ℕ
  rmqPrefetchCount : ℕ
  deriving DecidableEq, Repr

/-- What no run changes: `depth` is the recursion limit of the JSON parser. -/
structure App (Msg H : Type) where
  settings : Settings
  handlers : Handlers H
  depth : ℕ
  body : Msg → ByteArray

def App.route (app : App Msg H) (m : Msg) : Except Exn (Option (H × Json)) :=
  ConsumerMessage.route app.handlers (loadsBody app.depth (app.body m))

inductive Place where
  | unpublished
  | ready (redelivered : Bool)
  | unacked (channel task : ℕ)
  | acked
  | dropped
  deriving DecidableEq, Repr

inductive Stage (H : Type) where
  | waiting
  | handling (handler : H) (body : Json)
  | ended (outcome : Except Exn Unit)

structure MessageTask (Msg H : Type) where
  message : Msg
  channel : ℕ
  stage : Stage H

def Stage.finished : Stage H → Bool
  | .ended _ => true
  | .waiting | .handling _ _ => false

/-- `invoked` and `handled` record the calls of handlers and how they ended. -/
structure Traffic (Msg H : Type) where
  semaphore : Option ℕ
  tasks : List (MessageTask Msg H)
  place : Msg → Place
  channel : ℕ → ChannelState
  current : ℕ
  invoked : List Msg
  handled : List (Msg × Except Exn Unit)

def Traffic.initial : Traffic Msg H := ⟨none, [], fun _ => .unpublished, fun _ => .closed, 0, [], []⟩

inductive TrafficLabel (Msg : Type) where
  | publish (m : Msg)
  | spawnTask (m : Msg)
  | openChannel
  | closeChannel
  | loseChannel
  | noticeLoss
  | acquire (t : ℕ)
  | handlerEnds (t : ℕ) (outcome : Except Exn Unit)
  | cancelWaiting (t : ℕ)

def settledPlace : Settlement → Place
  | .ack => .acked
  | .nack true | .reject true => .ready true
  | .nack false | .reject false => .dropped

namespace Traffic
variable (s : Traffic Msg H)

/-- `_active_tasks` is empty. -/
def idle : Bool := s.tasks.all fun task => task.stage.finished

def setStage (t : ℕ) (task : MessageTask Msg H) (stage : Stage H) : Traffic Msg H :=
  { s with tasks := s.tasks.set t { task with stage := stage } }

def requeued (c : ℕ) (m : Msg) : Place :=
  match s.place m with
  | .unacked c' t => if c' = c then .ready true else .unacked c' t
  | place => place

variable [DecidableEq Msg]

def closing (state : ChannelState) : Traffic Msg H :=
  { s with
    channel := Function.update s.channel s.current state
    place := s.requeued s.current }

def outstanding : ℕ :=
  s.tasks.zipIdx.countP fun entry => s.place entry.1.message = .unacked s.current entry.2

/-- What the broker makes of the settlements sent for task `t`: it knows the delivery
only while its channel is open. -/
def receive (t : ℕ) (task : MessageTask Msg H) (sent : List Settlement) : Msg → Place :=
  match sent with
  | [] => s.place
  | settlement :: _ =>
    if s.channel task.channel = .opened ∧ s.place task.message = .unacked task.channel t then
      Function.update s.place task.message (settledPlace settlement)
    else s.place

/-- The end of `_process_message`: the block is left, and then the semaphore. -/
def endTask (t : ℕ) (task : MessageTask Msg H) (block : Delivery → Except Exn Unit × Delivery) :
    Traffic Msg H :=
  let (outcome, delivery) := process false block { channel := s.channel task.channel }
  { s.setStage t task (.ended outcome) with
    semaphore := s.semaphore.map (· + 1)
    place := s.receive t task delivery.sent }

end Traffic

section Step
variable [DecidableEq Msg] (app : App Msg H)

/-- `_spawn_task`. A message that the iterator yields after its channel was lost is one
that the broker has given to the queue again. -/
def spawnTask (s : Traffic Msg H) (m : Msg) : Option (Traffic Msg H) :=
  let spawned := { s with tasks := s.tasks ++ [⟨m, s.current, .waiting⟩] }
  match s.channel s.current with
  | .opened =>
    match s.place m with
    | .ready _ =>
      if s.outstanding < app.settings.rmqPrefetchCount then
        some { spawned with
          place := Function.update s.place m (.unacked s.current s.tasks.length) }
      else none
    | _ => none
  | .lost | .closed => if s.place m = .unpublished then none else some spawned

/-- A slot of `_get_semaphore()` is free: the block runs up to the handler, or to its end
when there is none to call. -/
def acquire (s : Traffic Msg H) (t : ℕ) (task : MessageTask Msg H) : Option (Traffic Msg H) :=
  match s.semaphore.getD app.settings.rmqMaxConcurrentTasks with
  | 0 => none
  | free + 1 =>
    let s := { s with semaphore := some free }
    match app.route task.message with
    | .ok (some (handler, body)) =>
      some { s.setStage t task (.handling handler body) with
        invoked := s.invoked ++ [task.message] }
    | .ok none => some (s.endTask t task fun d => (.ok (), d))
    | .error e => some (s.endTask t task fun d => (.error e, d))

def Traffic.step (s : Traffic Msg H) : TrafficLabel Msg → Option (Traffic Msg H)
  | .publish m =>
    if s.place m = .unpublished then
      some { s with place := Function.update s.place m (.ready false) }
    else none
  | .spawnTask m => spawnTask app s m
  | .openChannel => some { s with
      current := s.current + 1
      channel := Function.update s.channel (s.current + 1) .opened }
  | .closeChannel => some (s.closing .closed)
  | .loseChannel => if s.channel s.current = .opened then some (s.closing .lost) else none
  | .noticeLoss => if s.channel s.current = .lost then some (s.closing .closed) else none
  | .acquire t => do
    let task ← s.tasks[t]?
    match task.stage with
    | .waiting => acquire app s t task
    | _ => none
  | .handlerEnds t outcome => do
    let task ← s.tasks[t]?
    match task.stage with
    | .handling _ _ => some { s.endTask t task (executeHandler outcome) with
        handled := s.handled ++ [(task.message, outcome)] }
    | _ => none
  | .cancelWaiting t => do
    let task ← s.tasks[t]?
    match task.stage with
    | .waiting => some (s.setStage t task (.ended (.error .cancelledError)))
    | _ => none

end Step

end FastapiProject.ConsumerTraffic
