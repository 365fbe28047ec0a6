import FastapiProject.ConsumerShutdown
import FastapiProject.HealthProbes
import FastapiProject.LifespanShutdown

set_option autoImplicit false

/-!
# The shutdown of the whole application

`lifespan` after its `yield`, beside the consumer and the checker as they then are: the
consumer is cancelled and awaited first, with the checker still at work, then the checker,
and then the publisher and the http client are closed.
-/
namespace FastapiProject.ApplicationShutdown
open PythonExceptions MachineRuns ConsumerMessage ConsumerTraffic ConsumerLoop ConsumerShutdown
  LifespanShutdown
open HealthProbes (Checker ProbeLabel)

variable {Msg H : Type}

inductive Phase where
  | serving
  | awaitingConsumer
  | awaitingHealth
  | closingPublisher
  | closingHttpClient
  | exited (outcome : Except Exn Unit)

structure State (Msg H : Type) where
  tasks : HealthProbes.State Msg H
  phase : Phase
  actions : List Action

def initial : State Msg H := ⟨HealthProbes.initial, .serving, []⟩

inductive Label (Msg : Type) where
  | tasks (l : ProbeLabel Msg)
  | shutdown (isClosed : Bool)
  | consumerEnds
  | healthEnds
  | publisherCloses (outcome : Except Exn Unit)
  | httpClientCloses (outcome : Except Exn Unit)

/-- `health_task.cancel()`. A probe over a new connection still has its `finally` clause
before it; no other await of the checker catches the cancellation. -/
def cancelHealth : Checker → Checker
  | .sleeping | .passive _ => .ended .cancelledError
  | .newConnection => .newConnection
  | .ended e => .ended e

namespace State
variable (s : State Msg H)

/-- What the tasks may do by themselves: only `lifespan` cancels them, and a cancelled
probe does not return. -/
def permits : ProbeLabel Msg → Bool
  | .consumer (.cancel _) => false
  | .newConnectionEnds (.ok _) =>
    match s.phase with
    | .serving | .awaitingConsumer => true
    | _ => false
  | _ => true

def afterConsumer (outcome : Except Exn Unit) : State Msg H :=
  match outcome with
  | .ok () =>
    { tasks := { s.tasks with checker := cancelHealth s.tasks.checker }
      phase := .awaitingHealth
      actions := s.actions ++ [.cancel .healthTask, .awaitTask .healthTask] }
  | .error e => { s with phase := .exited (.error e) }

def afterHealth (outcome : Except Exn Unit) : State Msg H :=
  match outcome with
  | .ok () => { s with phase := .closingPublisher, actions := s.actions ++ [.closePublisher] }
  | .error e => { s with phase := .exited (.error e) }

def afterPublisher (outcome : Except Exn Unit) : State Msg H :=
  match outcome with
  | .ok () => { s with phase := .closingHttpClient, actions := s.actions ++ [.acloseHttpClient] }
  | .error e => { s with phase := .exited (.error e) }

end State

section Step
variable [DecidableEq Msg] (app : App Msg H) (s : State Msg H)

/-- `consumer_task.cancel()`, which does nothing to a task that has ended. -/
def cancelConsumer (isClosed : Bool) : State Msg H :=
  { tasks := { s.tasks with
      consumer := (ConsumerLoop.step app s.tasks.consumer (.cancel isClosed)).getD s.tasks.consumer }
    phase := .awaitingConsumer
    actions := s.actions ++ [.cancel .consumerTask, .awaitTask .consumerTask] }

def step : Label Msg → Option (State Msg H)
  | .tasks l =>
    if s.permits l = true then
      (HealthProbes.step app s.tasks l).map fun tasks => { s with tasks := tasks }
    else none
  | .shutdown isClosed =>
    match s.phase with
    | .serving => some (cancelConsumer app s isClosed)
    | _ => none
  | .consumerEnds =>
    match s.phase, s.tasks.consumer.loop.pc with
    | .awaitingConsumer, .ended e => some (s.afterConsumer (awaitCancelled (.finished (.error e))))
    | _, _ => none
  | .healthEnds =>
    match s.phase, s.tasks.checker with
    | .awaitingHealth, .ended e => some (s.afterHealth (awaitCancelled (.finished (.error e))))
    | _, _ => none
  | .publisherCloses outcome =>
    match s.phase with
    | .closingPublisher => some (s.afterPublisher outcome)
    | _ => none
  | .httpClientCloses outcome =>
    match s.phase with
    | .closingHttpClient => some { s with phase := .exited outcome }
    | _ => none

end Step

def consumerActions : List Action := [.cancel .consumerTask, .awaitTask .consumerTask]

def taskActions : List Action := consumerActions ++ [.cancel .healthTask, .awaitTask .healthTask]

section Checker
variable [DecidableEq Msg] {app : App Msg H} {s u : HealthProbes.State Msg H} {l : ProbeLabel Msg}

theorem checker_consumer (hs : HealthProbes.step app s l = some u) (own : ∀ k, l ≠ .consumer k) :
    ∃ channel, u.consumer =
      { s.consumer with loop := { s.consumer.loop with sharedChannel := channel } } := by
  cases l with
  | consumer k => exact absurd rfl (own k)
  | tick isClosed =>
    simp only [HealthProbes.step] at hs
    split at hs
    · cases hs
      refine ⟨s.consumer.loop.sharedChannel, ?_⟩
      unfold HealthProbes.State.probe
      split <;> rfl
    · cases hs
  | passiveEnds outcome =>
    simp only [HealthProbes.step] at hs
    split at hs
    · cases hs
      cases (HealthProbes.probePassive outcome).1 <;> cases (HealthProbes.probePassive outcome).2
      all_goals first
        | exact ⟨s.consumer.loop.sharedChannel, rfl⟩
        | exact ⟨none, rfl⟩
    · cases hs
  | newConnectionEnds outcome =>
    simp only [HealthProbes.step] at hs
    split at hs
    · cases hs
      cases outcome <;> exact ⟨s.consumer.loop.sharedChannel, rfl⟩
    · cases hs

end Checker

inductive ShutdownStep [DecidableEq Msg] (app : App Msg H) (s : State Msg H) :
    Label Msg → State Msg H → Prop where
  | moved {k : ProbeLabel Msg} {tasks : HealthProbes.State Msg H} (permits : s.permits k = true)
      (moves : HealthProbes.step app s.tasks k = some tasks) :
      ShutdownStep app s (.tasks k) { s with tasks := tasks }
  | asked (isClosed : Bool) (serving : s.phase = .serving) :
      ShutdownStep app s (.shutdown isClosed) (cancelConsumer app s isClosed)
  | consumerAwaited {e : Exn} (awaiting : s.phase = .awaitingConsumer)
      (ended : s.tasks.consumer.loop.pc = .ended e) :
      ShutdownStep app s .consumerEnds (s.afterConsumer (awaitCancelled (.finished (.error e))))
  | healthAwaited {e : Exn} (awaiting : s.phase = .awaitingHealth)
      (ended : s.tasks.checker = .ended e) :
      ShutdownStep app s .healthEnds (s.afterHealth (awaitCancelled (.finished (.error e))))
  | publisherClosed (outcome : Except Exn Unit) (closing : s.phase = .closingPublisher) :
      ShutdownStep app s (.publisherCloses outcome) (s.afterPublisher outcome)
  | httpClientClosed (outcome : Except Exn Unit) (closing : s.phase = .closingHttpClient) :
      ShutdownStep app s (.httpClientCloses outcome) { s with phase := .exited outcome }

theorem afterConsumer_tasks (s : State Msg H) (outcome : Except Exn Unit) :
    (s.afterConsumer outcome).tasks.consumer = s.tasks.consumer := by
  cases outcome <;> rfl

theorem afterHealth_tasks (s : State Msg H) (outcome : Except Exn Unit) :
    (s.afterHealth outcome).tasks = s.tasks := by
  cases outcome <;> rfl

theorem afterPublisher_tasks (s : State Msg H) (outcome : Except Exn Unit) :
    (s.afterPublisher outcome).tasks = s.tasks := by
  cases outcome <;> rfl

section Transitions
variable [DecidableEq Msg] {app : App Msg H} {s u : State Msg H} {l : Label Msg}

theorem step_shutdownStep (hs : step app s l = some u) : ShutdownStep app s l u := by
  cases l with
  | tasks k =>
    simp only [step] at hs
    split at hs
    · obtain ⟨tasks, moves, hs⟩ := Option.map_eq_some_iff.mp hs
      subst hs
      exact .moved ‹_› moves
    · cases hs
  | shutdown isClosed =>
    simp only [step] at hs
    split at hs <;> cases hs
    exact .asked isClosed ‹_›
  | consumerEnds =>
    simp only [step] at hs
    split at hs <;> cases hs
    exact .consumerAwaited ‹_› ‹_›
  | healthEnds =>
    simp only [step] at hs
    split at hs <;> cases hs
    exact .healthAwaited ‹_› ‹_›
  | publisherCloses outcome =>
    simp only [step] at hs
    split at hs <;> cases hs
    exact .publisherClosed outcome ‹_›
  | httpClientCloses outcome =>
    simp only [step] at hs
    split at hs <;> cases hs
    exact .httpClientClosed outcome ‹_›

theorem step_consumer (hs : ShutdownStep app s l u) (asked : ∀ b, l ≠ .shutdown b) :
    (∃ k, l = .tasks (.consumer k) ∧ s.permits (.consumer k) = true ∧
      ConsumerLoop.step app s.tasks.consumer k = some u.tasks.consumer) ∨
    ∃ channel, u.tasks.consumer = { s.tasks.consumer with
      loop := { s.tasks.consumer.loop with sharedChannel := channel } } := by
  cases hs with
  | @moved k tasks permits moves =>
    cases k with
    | consumer k =>
      obtain ⟨c, resumed, same⟩ := Option.bind_eq_some_iff.mp moves
      cases same
      exact .inl ⟨k, rfl, permits, resumed⟩
    | tick _ | passiveEnds _ | newConnectionEnds _ =>
      exact .inr (checker_consumer moves (by rintro _ ⟨⟩))
  | asked b _ => exact absurd rfl (asked b)
  | consumerAwaited _ _ => exact .inr ⟨_, afterConsumer_tasks s _⟩
  | healthAwaited _ _ =>
    exact .inr ⟨_, congrArg HealthProbes.State.consumer (afterHealth_tasks s _)⟩
  | publisherClosed _ _ =>
    exact .inr ⟨_, congrArg HealthProbes.State.consumer (afterPublisher_tasks s _)⟩
  | httpClientClosed _ _ => exact .inr ⟨_, rfl⟩

theorem ended_kept {e : Exn} (hs : ShutdownStep app s l u)
    (ended : s.tasks.consumer.loop.pc = .ended e) (asked : ∀ b, l ≠ .shutdown b) :
    u.tasks.consumer.loop.pc = .ended e := by
  rcases step_consumer hs asked with ⟨k, -, -, moved⟩ | ⟨channel, consumer⟩
  · rw [ended_step ended moved]
    exact ended
  · rw [consumer]
    exact ended

theorem serving_step (hs : ShutdownStep app s l u) (serving : u.phase = .serving) :
    s.phase = .serving ∧ u.actions = s.actions ∧ ∀ b, l ≠ .shutdown b := by
  cases hs with
  | moved _ _ => exact ⟨serving, rfl, by rintro _ ⟨⟩⟩
  | asked _ _ | httpClientClosed _ _ => cases serving
  | consumerAwaited _ _ => cases h : awaitCancelled _ <;> rw [h] at serving <;> cases serving
  | healthAwaited _ _ => cases h : awaitCancelled _ <;> rw [h] at serving <;> cases serving
  | publisherClosed outcome _ => cases outcome <;> cases serving

theorem serving_run {ls : List (Label Msg)} (run : Runs (step app) initial ls s)
    (serving : s.phase = .serving) :
    Pc.shuttingDown s.tasks.consumer.loop.pc = false ∧ s.actions = [] := by
  refine run.invariant
    (fun s => s.phase = .serving →
      Pc.shuttingDown s.tasks.consumer.loop.pc = false ∧ s.actions = [])
    (fun _ => ⟨rfl, rfl⟩) ?_ serving
  intro s l u before hs serving
  have moves := step_shutdownStep hs
  obtain ⟨served, same, asked⟩ := serving_step moves serving
  obtain ⟨working, nothing⟩ := before served
  refine ⟨?_, same.trans nothing⟩
  rcases step_consumer moves asked with ⟨k, -, permits, moved⟩ | ⟨channel, consumer⟩
  · refine (astray_step working moved ?_).1
    rintro b rfl
    cases permits
  · rw [consumer]
    exact working

end Transitions

/-- The exit of `lifespan`, after the labels `ls`, is the one `lifespanExit` gives for the
ends of the two tasks and of the closings that have been called. -/
def ExitsAs (ls : List (Label Msg)) (s : State Msg H) (outcome : Except Exn Unit) : Prop :=
  ∃ consumer health close aclose, s.tasks.consumer.loop.pc = .ended consumer ∧
    (.cancel .healthTask ∈ s.actions → s.tasks.checker = .ended health) ∧
    (.closePublisher ∈ s.actions → .publisherCloses close ∈ ls) ∧
    (.acloseHttpClient ∈ s.actions → .httpClientCloses aclose ∈ ls) ∧
    lifespanExit (.finished (.error consumer)) (.finished (.error health)) close aclose =
      (s.actions, outcome)

inductive Reached (ls : List (Label Msg)) (s : State Msg H) : Phase → Prop where
  | serving (done : s.actions = []) : Reached ls s .serving
  | awaitingConsumer (done : s.actions = consumerActions) : Reached ls s .awaitingConsumer
  | awaitingHealth (consumer : s.tasks.consumer.loop.pc = .ended .cancelledError)
      (done : s.actions = taskActions) : Reached ls s .awaitingHealth
  | closingPublisher (consumer : s.tasks.consumer.loop.pc = .ended .cancelledError)
      (checker : s.tasks.checker = .ended .cancelledError)
      (done : s.actions = taskActions ++ [.closePublisher]) : Reached ls s .closingPublisher
  | closingHttpClient (consumer : s.tasks.consumer.loop.pc = .ended .cancelledError)
      (checker : s.tasks.checker = .ended .cancelledError) (closed : .publisherCloses (.ok ()) ∈ ls)
      (done : s.actions = taskActions ++ [.closePublisher, .acloseHttpClient]) :
      Reached ls s .closingHttpClient
  | exited {outcome : Except Exn Unit} (exits : ExitsAs ls s outcome) :
      Reached ls s (.exited outcome)

section Awaited
variable {s : State Msg H}

theorem awaitCancelled_error {e : Exn} (other : e ≠ .cancelledError) :
    awaitCancelled (.finished (.error e)) = .error e := by
  cases e with
  | cancelledError => exact absurd rfl other
  | _ => rfl

theorem reached_consumerAwaited {e : Exn} (done : s.actions = consumerActions)
    (ended : s.tasks.consumer.loop.pc = .ended e) (ls : List (Label Msg)) :
    Reached ls (s.afterConsumer (awaitCancelled (.finished (.error e))))
      (s.afterConsumer (awaitCancelled (.finished (.error e)))).phase := by
  by_cases cancelled : e = .cancelledError
  · subst cancelled
    refine .awaitingHealth ended ?_
    change s.actions ++ _ = _
    rw [done]
    rfl
  · rw [awaitCancelled_error cancelled]
    refine .exited ⟨e, e, .ok (), .ok (), ended, ?_, ?_, ?_, ?_⟩
    · change _ ∈ s.actions → _
      simp [done, consumerActions]
    · change _ ∈ s.actions → _
      simp [done, consumerActions]
    · change _ ∈ s.actions → _
      simp [done, consumerActions]
    · change _ = (s.actions, _)
      rw [done, lifespanExit, cancelTasks, awaitCancelled_error cancelled]
      rfl

theorem reached_healthAwaited {e : Exn}
    (consumer : s.tasks.consumer.loop.pc = .ended .cancelledError)
    (done : s.actions = taskActions) (ended : s.tasks.checker = .ended e) (ls : List (Label Msg)) :
    Reached ls (s.afterHealth (awaitCancelled (.finished (.error e))))
      (s.afterHealth (awaitCancelled (.finished (.error e)))).phase := by
  by_cases cancelled : e = .cancelledError
  · subst cancelled
    refine .closingPublisher consumer ended ?_
    change s.actions ++ _ = _
    rw [done]
  · rw [awaitCancelled_error cancelled]
    refine .exited ⟨.cancelledError, e, .ok (), .ok (), consumer, fun _ => ended, ?_, ?_, ?_⟩
    · change _ ∈ s.actions → _
      simp [done, taskActions, consumerActions]
    · change _ ∈ s.actions → _
      simp [done, taskActions, consumerActions]
    · change _ = (s.actions, _)
      rw [done, lifespanExit, cancelTasks, cancelTasks, awaitCancelled_error cancelled]
      rfl

theorem reached_publisherClosed {ls : List (Label Msg)} {outcome : Except Exn Unit}
    (consumer : s.tasks.consumer.loop.pc = .ended .cancelledError)
    (checker : s.tasks.checker = .ended .cancelledError)
    (done : s.actions = taskActions ++ [.closePublisher]) (closed : .publisherCloses outcome ∈ ls) :
    Reached ls (s.afterPublisher outcome) (s.afterPublisher outcome).phase := by
  cases outcome with
  | ok _ =>
    refine .closingHttpClient consumer checker closed ?_
    change s.actions ++ _ = _
    rw [done]
    rfl
  | error e =>
    refine .exited ⟨.cancelledError, .cancelledError, .error e, .ok (), consumer, fun _ => checker,
      fun _ => closed, ?_, ?_⟩
    · change _ ∈ s.actions → _
      simp [done, taskActions, consumerActions]
    · change _ = (s.actions, _)
      rw [done]
      rfl

end Awaited

section Exits
variable [DecidableEq Msg] {app : App Msg H} {s u : State Msg H} {l : Label Msg}
  {ls : List (Label Msg)}

theorem checker_kept {tasks v : HealthProbes.State Msg H} {k : ProbeLabel Msg} {e : Exn}
    (ended : tasks.checker = .ended e) (hs : HealthProbes.step app tasks k = some v) :
    v.checker = .ended e := by
  cases k with
  | consumer k =>
    obtain ⟨c, -, same⟩ := Option.bind_eq_some_iff.mp hs
    cases same
    exact ended
  | tick _ | passiveEnds _ | newConnectionEnds _ => simp [HealthProbes.step, ended] at hs

theorem reached_moved {k : ProbeLabel Msg} {tasks : HealthProbes.State Msg H}
    (reached : Reached ls s s.phase) (permits : s.permits k = true)
    (moves : HealthProbes.step app s.tasks k = some tasks) :
    Reached (ls ++ [.tasks k]) { s with tasks := tasks } s.phase := by
  have consumer {e : Exn} (ended : s.tasks.consumer.loop.pc = .ended e) :
      tasks.consumer.loop.pc = .ended e :=
    ended_kept (.moved permits moves) ended (by rintro _ ⟨⟩)
  have checker {e : Exn} (ended : s.tasks.checker = .ended e) : tasks.checker = .ended e :=
    checker_kept ended moves
  generalize s.phase = phase at reached
  cases reached with
  | serving done => exact .serving done
  | awaitingConsumer done => exact .awaitingConsumer done
  | awaitingHealth gone done => exact .awaitingHealth (consumer gone) done
  | closingPublisher gone ended done => exact .closingPublisher (consumer gone) (checker ended) done
  | closingHttpClient gone ended closed done =>
    exact .closingHttpClient (consumer gone) (checker ended) (List.mem_append_left _ closed) done
  | exited exits =>
    obtain ⟨e, health, close, aclose, gone, cancelled, closes, acloses, same⟩ := exits
    exact .exited ⟨e, health, close, aclose, consumer gone, fun called => checker (cancelled called),
      fun called => List.mem_append_left _ (closes called),
      fun called => List.mem_append_left _ (acloses called), same⟩

theorem reached_step (reached : Reached ls s s.phase) (hs : ShutdownStep app s l u) :
    Reached (ls ++ [l]) u u.phase := by
  have here : l ∈ ls ++ [l] := List.mem_append_right _ List.mem_cons_self
  cases hs with
  | moved permits moves => exact reached_moved reached permits moves
  | asked isClosed serving =>
    rw [serving] at reached
    cases reached with
    | serving done =>
      refine .awaitingConsumer ?_
      change s.actions ++ _ = _
      rw [done]
      rfl
  | consumerAwaited awaiting ended =>
    rw [awaiting] at reached
    cases reached with
    | awaitingConsumer done => exact reached_consumerAwaited done ended _
  | healthAwaited awaiting ended =>
    rw [awaiting] at reached
    cases reached with
    | awaitingHealth consumer done => exact reached_healthAwaited consumer done ended _
  | publisherClosed outcome closing =>
    rw [closing] at reached
    cases reached with
    | closingPublisher consumer checker done =>
      exact reached_publisherClosed consumer checker done here
  | httpClientClosed outcome closing =>
    rw [closing] at reached
    cases reached with
    | closingHttpClient consumer checker closed done =>
      refine .exited ⟨.cancelledError, .cancelledError, .ok (), outcome, consumer, fun _ => checker,
        fun _ => List.mem_append_left _ closed, fun _ => here, ?_⟩
      change _ = (s.actions, outcome)
      rw [done]
      rfl

/-- Refinement: in every run, whatever the tasks do on the way, `lifespan` exits exactly as
`lifespanExit` says for the ways in which they ended. -/
theorem exits_as_lifespanExit {outcome : Except Exn Unit} (run : Runs (step app) initial ls u)
    (exits : u.phase = .exited outcome) : ExitsAs ls u outcome := by
  have reached : Reached ls u u.phase :=
    run.history (fun ls s => Reached ls s s.phase) (.serving rfl)
      (fun _ _ _ _ reached hs => reached_step reached (step_shutdownStep hs))
  rw [exits] at reached
  cases reached with
  | exited exits => exact exits

end Exits

section Examples

/-- The shutdown of an application that never reached the broker; the publisher's
connection does not close, and the http client stays open. -/
def publisherFails : List (Label Unit) :=
  [.shutdown false, .consumerEnds, .healthEnds, .publisherCloses (.error .amqpConnectionError)]

theorem publisherFails_exits : ∃ u, Runs (step userCreatedApp) initial publisherFails u ∧
    u.phase = .exited (.error .amqpConnectionError) ∧
    ExitsAs publisherFails u (.error .amqpConnectionError) := by
  obtain ⟨u, run, exits⟩ : ∃ u, Runs (step userCreatedApp) initial publisherFails u ∧
      u.phase = .exited (.error .amqpConnectionError) := ⟨_, Runs.of_execute rfl, rfl⟩
  exact ⟨u, run, exits, exits_as_lifespanExit run exits⟩

end Examples

end FastapiProject.ApplicationShutdown
