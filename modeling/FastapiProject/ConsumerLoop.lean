import FastapiProject.ConsumerTraffic
import FastapiProject.HealthChecker
import FastapiProject.MachineRuns

set_option autoImplicit false

/-!
# `rmq_consumer` and the whole consumer

The coroutine stands at one of its awaits and is resumed with what the await gives. An
await raises `CancelledError` only when the task is cancelled there. Leaving
`async with connection`, normally or not, closes the connection and its channel.
-/
namespace FastapiProject.ConsumerLoop
open PythonExceptions MachineRuns ConsumerMessage ConsumerTraffic HealthChecker

variable {Msg H : Type}

/-- The awaits of `rmq_consumer`; `pending` is the exception that is leaving a block. -/
inductive Pc where
  | connecting
  | openingChannel
  | settingQos
  | declaringExchange
  | declaringQueue
  | bindingQueue
  | enteringIterator
  | iterating
  | leavingIterator (pending : Option Exn)
  | leavingConnection (pending : Option Exn)
  | sleeping
  | draining
  | closingConnection
  | ended (e : Exn)
  deriving DecidableEq, Repr

/-- `connection` is `none` before a connection is there, and else its `is_closed`. -/
structure Loop where
  pc : Pc
  connection : Option Bool
  sharedChannel : Option ℕ
  status : RMQStatus
  drained : Bool
  deriving DecidableEq, Repr

def Loop.initial : Loop := ⟨.connecting, none, none, .unknown, false⟩

inductive Reply (Msg : Type) where
  | returned
  | raised (e : Exn)
  | yielded (m : Msg)
  | exhausted

namespace Loop
variable (idle : Bool) (loop : Loop)

def afterDrain : Loop :=
  { loop with
    drained := true
    pc := if loop.connection = some false then .closingConnection else .ended .cancelledError }

def drainTasks : Loop := if idle = true then loop.afterDrain else { loop with pc := .draining }

/-- The `except` clauses in their order; what none of them catches ends the coroutine. -/
def exceptClauses (e : Exn) : Loop :=
  if e = .amqpChannelError then
    { loop with status := .degraded, sharedChannel := none, pc := .sleeping }
  else if e = .amqpConnectionError then { loop with sharedChannel := none, pc := .sleeping }
  else if e = .cancelledError then { loop with sharedChannel := none }.drainTasks idle
  else if e.isException = true then { loop with sharedChannel := none, pc := .sleeping }
  else { loop with pc := .ended e }

/-- An exception at the current await. Inside an `except` clause no sibling catches it. -/
def raise (e : Exn) : Option Loop :=
  match loop.pc with
  | .connecting | .leavingConnection _ => some (loop.exceptClauses idle e)
  | .openingChannel | .settingQos | .declaringExchange | .declaringQueue | .bindingQueue
  | .enteringIterator | .leavingIterator _ => some { loop with pc := .leavingConnection (some e) }
  | .iterating => some { loop with pc := .leavingIterator (some e) }
  | .sleeping | .draining | .closingConnection => some { loop with pc := .ended e }
  | .ended _ => none

/-- The next await, and what the consumer does to its channel and tasks on the way;
`next` is the number of the channel that would be opened. -/
def resume (next : ℕ) : Reply Msg → Option (Loop × Option (TrafficLabel Msg))
  | .returned =>
    match loop.pc with
    | .connecting => some ({ loop with connection := some false, pc := .openingChannel }, none)
    | .openingChannel =>
      some ({ loop with sharedChannel := some next, pc := .settingQos }, some .openChannel)
    | .settingQos => some ({ loop with pc := .declaringExchange }, none)
    | .declaringExchange => some ({ loop with pc := .declaringQueue }, none)
    | .declaringQueue => some ({ loop with pc := .bindingQueue }, none)
    | .bindingQueue => some ({ loop with pc := .enteringIterator }, none)
    | .enteringIterator => some ({ loop with pc := .iterating }, none)
    | .leavingIterator pending => some ({ loop with pc := .leavingConnection pending }, none)
    | .leavingConnection none =>
      some ({ loop with connection := none, pc := .connecting }, some .closeChannel)
    | .leavingConnection (some e) =>
      some ({ loop with connection := some true }.exceptClauses idle e, some .closeChannel)
    | .sleeping => some ({ loop with connection := none, pc := .connecting }, none)
    | .draining => if idle = true then some (loop.afterDrain, none) else none
    | .closingConnection =>
      some ({ loop with connection := some true, pc := .ended .cancelledError }, some .closeChannel)
    | .iterating | .ended _ => none
  | .raised e =>
    if e = .cancelledError then none
    else
      match loop.pc with
      | .leavingConnection _ | .closingConnection =>
        ({ loop with connection := some true }.raise idle e).map (·, some .closeChannel)
      | .draining => none
      | _ => (loop.raise idle e).map (·, none)
  | .yielded m => if loop.pc = .iterating then some (loop, some (.spawnTask m)) else none
  | .exhausted =>
    if loop.pc = .iterating then some ({ loop with pc := .leavingIterator none }, none) else none

/-- `task.cancel()`: `isClosed` is what the connection says of itself when the await that
is interrupted is the one that closes it. -/
def cancel (isClosed : Bool) : Option Loop :=
  match loop.pc with
  | .leavingConnection _ => { loop with connection := some isClosed }.raise idle .cancelledError
  | _ => loop.raise idle .cancelledError

end Loop

structure Consumer (Msg H : Type) where
  loop : Loop
  traffic : Traffic Msg H

def Consumer.initial : Consumer Msg H := ⟨Loop.initial, Traffic.initial⟩

inductive Label (Msg : Type) where
  | resume (reply : Reply Msg)
  | cancel (isClosed : Bool)
  | traffic (l : TrafficLabel Msg)

/-- The awaits at which `connect_robust` restores the channel behind the consumer's back. -/
def Pc.holdsChannel : Pc → Bool
  | .settingQos | .declaringExchange | .declaringQueue | .bindingQueue | .enteringIterator
  | .iterating | .leavingIterator _ => true
  | _ => false

namespace Consumer
variable (s : Consumer Msg H)

def permits : TrafficLabel Msg → Bool
  | .spawnTask _ | .closeChannel => false
  | .openChannel => s.loop.pc.holdsChannel && s.traffic.channel s.traffic.current == .closed
  | _ => true

def resumed (reply : Reply Msg) : Option (Loop × Option (TrafficLabel Msg)) :=
  s.loop.resume s.traffic.idle (s.traffic.current + 1) reply

variable [DecidableEq Msg] (app : App Msg H)

def perform : Option (TrafficLabel Msg) → Option (Traffic Msg H)
  | none => some s.traffic
  | some l => s.traffic.step app l

end Consumer

def step [DecidableEq Msg] (app : App Msg H) (s : Consumer Msg H) :
    Label Msg → Option (Consumer Msg H)
  | .resume reply => do
    let (loop, effect) ← s.resumed reply
    let traffic ← s.perform app effect
    return ⟨loop, traffic⟩
  | .cancel isClosed => do return { s with loop := ← s.loop.cancel s.traffic.idle isClosed }
  | .traffic l =>
    if s.permits l = true then do return { s with traffic := ← s.traffic.step app l } else none

theorem resume_effect {idle : Bool} {loop loop' : Loop} {next : ℕ} {reply : Reply Msg}
    {tl : TrafficLabel Msg} (hr : loop.resume idle next reply = some (loop', some tl)) :
    tl = .openChannel ∨ tl = .closeChannel ∨ loop.pc = .iterating ∧ ∃ m, tl = .spawnTask m := by
  cases reply with
  | returned =>
    simp only [Loop.resume] at hr
    split at hr <;> simp_all
  | raised e =>
    simp only [Loop.resume] at hr
    split at hr
    · cases hr
    · split at hr
      · obtain ⟨_, _, same⟩ := Option.map_eq_some_iff.mp hr
        cases same
        exact .inr (.inl rfl)
      · obtain ⟨_, _, same⟩ := Option.map_eq_some_iff.mp hr
        cases same
        exact .inr (.inl rfl)
      · cases hr
      · obtain ⟨_, _, same⟩ := Option.map_eq_some_iff.mp hr
        cases same
  | yielded m =>
    simp only [Loop.resume] at hr
    split at hr <;> cases hr
    exact .inr (.inr ⟨‹_›, m, rfl⟩)
  | exhausted =>
    simp only [Loop.resume] at hr
    split at hr <;> cases hr

theorem resume_spawn {idle : Bool} {loop loop' : Loop} {next : ℕ} {reply : Reply Msg} {m : Msg}
    (hr : loop.resume idle next reply = some (loop', some (.spawnTask m))) : reply = .yielded m := by
  cases reply with
  | returned =>
    simp only [Loop.resume] at hr
    split at hr <;> simp_all
  | raised e =>
    simp only [Loop.resume] at hr
    split at hr
    · cases hr
    · split at hr
      · obtain ⟨_, _, same⟩ := Option.map_eq_some_iff.mp hr
        cases same
      · obtain ⟨_, _, same⟩ := Option.map_eq_some_iff.mp hr
        cases same
      · cases hr
      · obtain ⟨_, _, same⟩ := Option.map_eq_some_iff.mp hr
        cases same
  | yielded k =>
    simp only [Loop.resume] at hr
    split at hr <;> cases hr
    rfl
  | exhausted =>
    simp only [Loop.resume] at hr
    split at hr <;> cases hr

section Inversion
variable [DecidableEq Msg] {app : App Msg H} {s u : Consumer Msg H} {l : Label Msg}

theorem step_cases (hs : step app s l = some u) :
    (∃ reply effect, l = .resume reply ∧ s.resumed reply = some (u.loop, effect) ∧
      s.perform app effect = some u.traffic) ∨
    (∃ isClosed, l = .cancel isClosed ∧ s.loop.cancel s.traffic.idle isClosed = some u.loop ∧
      u.traffic = s.traffic) ∨
    ∃ tl, l = .traffic tl ∧ s.permits tl = true ∧ s.traffic.step app tl = some u.traffic ∧
      u.loop = s.loop := by
  cases l with
  | resume reply =>
    obtain ⟨⟨loop, effect⟩, resumed, hs⟩ := Option.bind_eq_some_iff.mp hs
    obtain ⟨traffic, performed, hs⟩ := Option.bind_eq_some_iff.mp hs
    cases hs
    exact .inl ⟨reply, effect, rfl, resumed, performed⟩
  | cancel isClosed =>
    obtain ⟨loop, cancelled, hs⟩ := Option.bind_eq_some_iff.mp hs
    cases hs
    exact .inr (.inl ⟨isClosed, rfl, cancelled, rfl⟩)
  | traffic tl =>
    simp only [step] at hs
    split at hs
    · obtain ⟨traffic, moved, hs⟩ := Option.bind_eq_some_iff.mp hs
      cases hs
      exact .inr (.inr ⟨tl, rfl, ‹_›, moved, rfl⟩)
    · cases hs

theorem step_traffic (hs : step app s l = some u) :
    u.traffic = s.traffic ∧ (∀ tl, l ≠ .traffic tl) ∨
    ∃ tl, s.traffic.step app tl = some u.traffic ∧
      ∀ t outcome, tl = .handlerEnds t outcome ↔ l = .traffic (.handlerEnds t outcome) := by
  rcases step_cases hs with ⟨reply, effect, rfl, resumed, performed⟩ | ⟨_, rfl, -, same⟩ |
    ⟨tl, rfl, -, moved, -⟩
  · cases effect with
    | none => exact .inl ⟨(Option.some.inj performed).symm, fun _ => nofun⟩
    | some tl =>
      refine .inr ⟨tl, performed, fun t outcome => ?_⟩
      rcases resume_effect resumed with rfl | rfl | ⟨-, m, rfl⟩ <;> simp
  · exact .inl ⟨same, fun _ => nofun⟩
  · exact .inr ⟨tl, moved, fun t outcome => by simp⟩

end Inversion

section OneHandler

def userCreatedApp : App Unit Unit where
  settings := ⟨50, 10⟩
  handlers := [(PythonJson.ofString "user.created", ())]
  depth := 3
  body _ := "\x7b\"event_type\": \"user.created\"\x7d".toByteArray

def untilHandling : List (Label Unit) :=
  .traffic (.publish ()) :: List.replicate 7 (.resume .returned) ++
    [.resume (.yielded ()), .traffic (.acquire 0)]

example : (execute (step userCreatedApp) Consumer.initial untilHandling).map
    (fun s => (s.loop.pc, s.traffic.place (), s.traffic.invoked)) =
      some (.iterating, .unacked 1 0, [()]) := rfl

end OneHandler

end FastapiProject.ConsumerLoop
