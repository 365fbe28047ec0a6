import FastapiProject.ApplicationShutdown
import FastapiProject.TrafficProgress

set_option autoImplicit false

/-!
# A shutdown in which nothing fails comes to its end

Each phase of `lifespan` has a rank, and below it stands what the consumer and its tasks
still have to do. The broker, the publishing services and a checker at work leave it alone.
-/
namespace FastapiProject.ShutdownProgress
open PythonExceptions MachineRuns MachineProgress ConsumerMessage ConsumerTraffic
  ConsumerTrafficSteps TrafficProgress ConsumerShutdown LifespanShutdown ApplicationShutdown
open ConsumerLoop hiding Label step
open HealthProbes (Checker ProbeLabel)
open SemaphoreTuning (Books books_step)

variable {Msg H : Type}

def Leaving (s : Consumer Msg H) : Prop := Unwinding s ∨ s.loop.pc = .ended .cancelledError

def ofConsumer : ConsumerLoop.Label Msg → Bool
  | .resume _ => true
  | .traffic l => ofTask l
  | .cancel _ => false

/-- No handler is cut off by a cancellation. -/
def Uncut : ConsumerLoop.Label Msg → Prop
  | .traffic (.handlerEnds _ outcome) => outcome ≠ .error .cancelledError
  | _ => True

def consumerLeft (s : Consumer Msg H) : ℕ := Pc.unwindSteps s.loop.pc + remaining s.traffic

section Leaving
variable [DecidableEq Msg] {app : App Msg H} {s u : Consumer Msg H} {l : ConsumerLoop.Label Msg}

theorem resumed_remaining {reply : Reply Msg} {effect : Option (TrafficLabel Msg)} {loop : Loop}
    {traffic : Traffic Msg H} (unwinding : Unwinding s) (returns : ∀ e, reply ≠ .raised e)
    (resumed : s.resumed reply = some (loop, effect))
    (performed : s.perform app effect = some traffic) :
    remaining traffic ≤ remaining s.traffic := by
  obtain ⟨-, -, effects⟩ := resume_unwinding unwinding returns resumed
  rcases effects with rfl | rfl
  · have same : s.traffic = traffic := Option.some.inj performed
    exact Nat.le_of_eq (congrArg remaining same.symm)
  · have closed : s.traffic.step app .closeChannel = some traffic := performed
    exact remaining_step (step_trafficStep closed) (by rintro _ ⟨⟩)

theorem leaving_step (leaving : Leaving s) (hs : ConsumerLoop.step app s l = some u)
    (calm : quiet l = true) : Leaving u ∧
      consumerLeft u + (if ofConsumer l = true then 1 else 0) ≤ consumerLeft s := by
  unfold consumerLeft
  rcases ConsumerLoop.step_cases hs with ⟨reply, effect, rfl, resumed, performed⟩ | ⟨_, rfl, -, -⟩ |
    ⟨tl, rfl, permits, moved, loop⟩
  · rcases leaving with unwinding | ended
    · have returns : ∀ e, reply ≠ .raised e := by
        rintro e rfl
        cases calm
      have less := resumed_remaining unwinding returns resumed performed
      obtain ⟨next, steps⟩ := unwinding_step unwinding hs calm
      change _ + 1 ≤ _ at steps
      refine ⟨.inl next, ?_⟩
      change _ + 1 ≤ _
      omega
    · cases reply <;> simp [Consumer.resumed, Loop.resume, Loop.raise, ended] at resumed
  · cases calm
  · have less := remaining_step (step_trafficStep moved) (by rintro _ rfl; cases permits)
    rw [loop]
    refine ⟨?_, ?_⟩
    · rcases leaving with unwinding | ended
      · exact .inl (unwinding_step unwinding hs calm).1
      · exact .inr (loop ▸ ended)
    · change _ + (if ofTask tl = true then 1 else 0) ≤ _
      omega

theorem leaving_moves (leaving : Leaving s) (books : Books app s.traffic)
    (cap : 1 ≤ app.settings.rmqMaxConcurrentTasks)
    (going : s.loop.pc ≠ .ended .cancelledError ∨ s.traffic.idle = false) :
    ∃ l u, ConsumerLoop.step app s l = some u ∧ quiet l = true ∧ ofConsumer l = true ∧ Uncut l := by
  cases idle : s.traffic.idle with
  | true =>
    have awake := going.resolve_right (by rw [idle]; rintro ⟨⟩)
    have enabled := returned_enabled app (leaving.resolve_right awake) idle
    obtain ⟨u, moved⟩ := enabled.resolve_left awake
    exact ⟨.resume .returned, u, moved, rfl, rfl, trivial⟩
  | false =>
    obtain ⟨l, traffic, moved, own, returns⟩ := task_moves books cap idle
    have uncut : Uncut (.traffic l) := by
      cases l with
      | handlerEnds t outcome =>
        rw [returns t outcome rfl]
        rintro ⟨⟩
      | _ => exact trivial
    refine ⟨.traffic l, { s with traffic := traffic }, ?_, rfl, own, uncut⟩
    have permits : s.permits l = true := by
      cases l with
      | acquire _ | handlerEnds _ _ => rfl
      | _ => cases own
    simp only [ConsumerLoop.step, permits, ↓reduceIte, moved, Option.bind_eq_bind, Option.bind_some,
      Option.pure_def]

end Leaving

/-- The awaits return, a cancelled probe ends with its cancellation, and so does nothing
else. -/
def Calm (s : State Msg H) (l : Label Msg) (_ : State Msg H) : Prop :=
  match l with
  | .tasks (.consumer l) => quiet l = true
  | .tasks (.passiveEnds (.error e)) => e.isException = true
  | .tasks (.newConnectionEnds (.error e)) => s.phase = .awaitingHealth ∧ e = .cancelledError
  | .publisherCloses outcome | .httpClientCloses outcome => outcome = .ok ()
  | _ => True

/-- A step towards the end of the shutdown, and not one of the broker, of the publishing
services or of the checker at work. -/
def onward : Label Msg → Bool
  | .tasks (.consumer l) => ofConsumer l
  | .tasks (.newConnectionEnds (.error _)) => true
  | .tasks _ | .shutdown _ => false
  | .consumerEnds | .healthEnds | .publisherCloses _ | .httpClientCloses _ => true

inductive Stands (s : State Msg H) : Phase → Prop where
  | awaitingConsumer (alive : ∀ e, s.tasks.checker ≠ .ended e)
      (done : s.actions = consumerActions) : Stands s .awaitingConsumer
  | awaitingHealth (gone : s.tasks.consumer.loop.pc = .ended .cancelledError)
      (checker : s.tasks.checker = .newConnection ∨ s.tasks.checker = .ended .cancelledError)
      (done : s.actions = taskActions) : Stands s .awaitingHealth
  | closingPublisher (gone : s.tasks.consumer.loop.pc = .ended .cancelledError)
      (checker : s.tasks.checker = .ended .cancelledError)
      (done : s.actions = taskActions ++ [.closePublisher]) : Stands s .closingPublisher
  | closingHttpClient (gone : s.tasks.consumer.loop.pc = .ended .cancelledError)
      (checker : s.tasks.checker = .ended .cancelledError)
      (done : s.actions = taskActions ++ [.closePublisher, .acloseHttpClient]) :
    Stands s .closingHttpClient
  | exited (gone : s.tasks.consumer.loop.pc = .ended .cancelledError)
      (checker : s.tasks.checker = .ended .cancelledError)
      (done : s.actions = taskActions ++ [.closePublisher, .acloseHttpClient]) :
    Stands s (.exited (.ok ()))

structure ShutsDown (s : State Msg H) : Prop where
  leaving : Leaving s.tasks.consumer
  stands : Stands s s.phase

def phaseLeft (s : State Msg H) : ℕ :=
  match s.phase with
  | .serving => 7
  | .awaitingConsumer => 6
  | .awaitingHealth => if s.tasks.checker = .newConnection then 4 else 3
  | .closingPublisher => 2
  | .closingHttpClient => 1
  | .exited _ => 0

def left (s : State Msg H) : ℕ := phaseLeft s + consumerLeft s.tasks.consumer

section Phases
variable {s : State Msg H}

theorem ShutsDown.not_serving (inv : ShutsDown s) : s.phase ≠ .serving := by
  obtain ⟨-, stands⟩ := inv
  intro serving
  rw [serving] at stands
  cases stands

theorem ShutsDown.awaiting (inv : ShutsDown s) (working : s.tasks.checker ≠ .newConnection)
    (alive : ∀ e, s.tasks.checker ≠ .ended e) :
    s.phase = .awaitingConsumer ∧ s.actions = consumerActions := by
  obtain ⟨-, stands⟩ := inv
  generalize s.phase = phase at stands
  cases stands with
  | awaitingConsumer _ done => exact ⟨rfl, done⟩
  | awaitingHealth _ checker _ =>
    exact (checker.elim working (alive _)).elim
  | closingPublisher _ checker _ | closingHttpClient _ checker _ | exited _ checker _ =>
    exact (alive _ checker).elim

theorem checker_goes_on {tasks : HealthProbes.State Msg H} (inv : ShutsDown s)
    (awaiting : s.phase = .awaitingConsumer) (done : s.actions = consumerActions)
    (consumer : ∃ channel, tasks.consumer =
      { s.tasks.consumer with loop := { s.tasks.consumer.loop with sharedChannel := channel } })
    (alive : ∀ e, tasks.checker ≠ .ended e) :
    ShutsDown { s with tasks := tasks } ∧ left { s with tasks := tasks } ≤ left s := by
  obtain ⟨channel, consumer⟩ := consumer
  refine ⟨⟨?_, ?_⟩, ?_⟩
  · change Leaving tasks.consumer
    rw [consumer]
    exact inv.leaving
  · change Stands _ s.phase
    rw [awaiting]
    exact .awaitingConsumer alive done
  · unfold left phaseLeft
    dsimp only
    rw [awaiting, consumer]
    exact Nat.le_of_eq rfl

theorem leaving_ended {c : Consumer Msg H} {e : Exn} (leaving : Leaving c)
    (ended : c.loop.pc = .ended e) : e = .cancelledError := by
  rcases leaving with ⟨shutting, -⟩ | cancelled
  · rw [ended] at shutting
    exact of_decide_eq_true shutting
  · rw [ended] at cancelled
    exact Pc.ended.inj cancelled

theorem cancelHealth_alive {checker : Checker} (alive : ∀ e, checker ≠ .ended e) :
    cancelHealth checker = .newConnection ∨ cancelHealth checker = .ended .cancelledError := by
  cases checker with
  | sleeping | passive _ => exact .inr rfl
  | newConnection => exact .inl rfl
  | ended e => exact absurd rfl (alive e)

theorem consumerAwaited_step (inv : ShutsDown s) {e : Exn} (awaiting : s.phase = .awaitingConsumer)
    (ended : s.tasks.consumer.loop.pc = .ended e) :
    ShutsDown (s.afterConsumer (awaitCancelled (.finished (.error e)))) ∧
      left (s.afterConsumer (awaitCancelled (.finished (.error e)))) + 1 ≤ left s := by
  obtain ⟨leaving, stands⟩ := inv
  cases leaving_ended leaving ended
  rw [awaiting] at stands
  cases stands with
  | awaitingConsumer alive done =>
    refine ⟨⟨leaving, .awaitingHealth ended (cancelHealth_alive alive) ?_⟩, ?_⟩
    · change s.actions ++ _ = _
      rw [done]
      rfl
    · have bound : phaseLeft (s.afterConsumer (.ok ())) ≤ 4 := by
        change (if cancelHealth s.tasks.checker = .newConnection then 4 else 3) ≤ 4
        split <;> decide
      have before : phaseLeft s = 6 := by
        rw [phaseLeft, awaiting]
      change phaseLeft (s.afterConsumer (.ok ())) + consumerLeft s.tasks.consumer + 1 ≤
        phaseLeft s + consumerLeft s.tasks.consumer
      omega

theorem healthAwaited_step (inv : ShutsDown s) {e : Exn} (awaiting : s.phase = .awaitingHealth)
    (ended : s.tasks.checker = .ended e) :
    ShutsDown (s.afterHealth (awaitCancelled (.finished (.error e)))) ∧
      left (s.afterHealth (awaitCancelled (.finished (.error e)))) + 1 ≤ left s := by
  obtain ⟨leaving, stands⟩ := inv
  rw [awaiting] at stands
  cases stands with
  | awaitingHealth gone checker done =>
    have cancelled : s.tasks.checker = .ended .cancelledError :=
      checker.resolve_left (by rw [ended]; rintro ⟨⟩)
    rw [ended] at cancelled
    cases cancelled
    have before : phaseLeft s = 3 := by
      rw [phaseLeft, awaiting, ended]
      rfl
    refine ⟨⟨leaving, .closingPublisher gone ended ?_⟩, ?_⟩
    · change s.actions ++ _ = _
      rw [done]
    · change 2 + consumerLeft s.tasks.consumer + 1 ≤ phaseLeft s + consumerLeft s.tasks.consumer
      omega

theorem publisherClosed_step (inv : ShutsDown s) (closing : s.phase = .closingPublisher) :
    ShutsDown (s.afterPublisher (.ok ())) ∧ left (s.afterPublisher (.ok ())) + 1 ≤ left s := by
  obtain ⟨leaving, stands⟩ := inv
  rw [closing] at stands
  cases stands with
  | closingPublisher gone checker done =>
    have before : phaseLeft s = 2 := by
      rw [phaseLeft, closing]
    refine ⟨⟨leaving, .closingHttpClient gone checker ?_⟩, ?_⟩
    · change s.actions ++ _ = _
      rw [done]
      rfl
    · change 1 + consumerLeft s.tasks.consumer + 1 ≤ phaseLeft s + consumerLeft s.tasks.consumer
      omega

theorem httpClientClosed_step (inv : ShutsDown s) (closing : s.phase = .closingHttpClient) :
    ShutsDown { s with phase := .exited (.ok ()) } ∧
      left { s with phase := .exited (.ok ()) } + 1 ≤ left s := by
  obtain ⟨leaving, stands⟩ := inv
  rw [closing] at stands
  cases stands with
  | closingHttpClient gone checker done =>
    have before : phaseLeft s = 1 := by
      rw [phaseLeft, closing]
    refine ⟨⟨leaving, .exited gone checker done⟩, ?_⟩
    change 0 + consumerLeft s.tasks.consumer + 1 ≤ phaseLeft s + consumerLeft s.tasks.consumer
    omega

end Phases

theorem probePassive_calm {outcome : Except Exn Unit}
    (calm : ∀ e, outcome = .error e → e.isException = true) :
    ∃ result, (HealthProbes.probePassive outcome).1 = .ok result := by
  cases outcome with
  | ok _ => exact ⟨_, rfl⟩
  | error e =>
    by_cases channelError : e = .amqpChannelError
    · subst channelError
      exact ⟨_, rfl⟩
    · rw [HealthProbes.probePassive, if_neg channelError, if_pos (calm e rfl)]
      exact ⟨_, rfl⟩

section Steps
variable [DecidableEq Msg] {app : App Msg H} {s u : State Msg H} {l : Label Msg}

theorem consumer_step (inv : ShutsDown s) {k : ConsumerLoop.Label Msg} {c : Consumer Msg H}
    (hs : ConsumerLoop.step app s.tasks.consumer k = some c) (calm : quiet k = true) :
    ShutsDown { s with tasks := { s.tasks with consumer := c } } ∧
      left { s with tasks := { s.tasks with consumer := c } } +
        (if ofConsumer k = true then 1 else 0) ≤ left s := by
  obtain ⟨leaving, stands⟩ := inv
  obtain ⟨next, less⟩ := leaving_step leaving hs calm
  have still (gone : s.tasks.consumer.loop.pc = .ended .cancelledError) :
      c.loop.pc = .ended .cancelledError := by
    rw [ended_step gone hs]
    exact gone
  refine ⟨⟨next, ?_⟩, ?_⟩
  · change Stands _ s.phase
    generalize s.phase = phase at stands
    cases stands with
    | awaitingConsumer alive done => exact .awaitingConsumer alive done
    | awaitingHealth gone checker done => exact .awaitingHealth (still gone) checker done
    | closingPublisher gone checker done => exact .closingPublisher (still gone) checker done
    | closingHttpClient gone checker done => exact .closingHttpClient (still gone) checker done
    | exited gone checker done => exact .exited (still gone) checker done
  · have same : phaseLeft { s with tasks := { s.tasks with consumer := c } } = phaseLeft s := rfl
    unfold left
    rw [same]
    change _ + consumerLeft c + _ ≤ _
    omega

theorem tick_step (inv : ShutsDown s) {isClosed : Bool} {v : HealthProbes.State Msg H}
    (hs : HealthProbes.step app s.tasks (.tick isClosed) = some v) :
    ShutsDown { s with tasks := v } ∧ left { s with tasks := v } ≤ left s := by
  have consumer := checker_consumer hs (by rintro _ ⟨⟩)
  simp only [HealthProbes.step] at hs
  split at hs
  · rename_i sleeping
    cases hs
    obtain ⟨awaiting, done⟩ := inv.awaiting (by rw [sleeping]; rintro ⟨⟩)
      (by rw [sleeping]; rintro _ ⟨⟩)
    refine checker_goes_on inv awaiting done consumer ?_
    unfold HealthProbes.State.probe
    split
    · dsimp only
      split <;> rintro _ ⟨⟩
    · rintro _ ⟨⟩
  · cases hs

theorem passiveEnds_step (inv : ShutsDown s) {outcome : Except Exn Unit}
    {v : HealthProbes.State Msg H} (calm : ∀ e, outcome = .error e → e.isException = true)
    (hs : HealthProbes.step app s.tasks (.passiveEnds outcome) = some v) :
    ShutsDown { s with tasks := v } ∧ left { s with tasks := v } ≤ left s := by
  have consumer := checker_consumer hs (by rintro _ ⟨⟩)
  simp only [HealthProbes.step] at hs
  split at hs
  · rename_i c probing
    obtain ⟨awaiting, done⟩ := inv.awaiting (by rw [probing]; rintro ⟨⟩)
      (by rw [probing]; rintro _ ⟨⟩)
    obtain ⟨result, answered⟩ := probePassive_calm calm
    rw [answered] at hs
    cases hs
    exact checker_goes_on inv awaiting done consumer (by rintro _ ⟨⟩)
  · cases hs

theorem newConnectionEnds_step (inv : ShutsDown s) {outcome : Except Exn HealthChecker.ProbeResult}
    {v : HealthProbes.State Msg H} (permits : s.permits (.newConnectionEnds outcome) = true)
    (calm : ∀ e, outcome = .error e → s.phase = .awaitingHealth ∧ e = .cancelledError)
    (hs : HealthProbes.step app s.tasks (.newConnectionEnds outcome) = some v) :
    ShutsDown { s with tasks := v } ∧ left { s with tasks := v } +
      (if onward (.tasks (.newConnectionEnds outcome) : Label Msg) = true then 1 else 0) ≤ left s := by
  have consumer := checker_consumer hs (by rintro _ ⟨⟩)
  simp only [HealthProbes.step] at hs
  split at hs
  · rename_i probing
    cases hs
    cases outcome with
    | ok result =>
      have awaiting : s.phase = .awaitingConsumer ∧ s.actions = consumerActions := by
        obtain ⟨-, stands⟩ := inv
        unfold State.permits at permits
        generalize s.phase = phase at stands permits
        cases stands with
        | awaitingConsumer _ done => exact ⟨rfl, done⟩
        | _ => cases permits
      exact checker_goes_on inv awaiting.1 awaiting.2 consumer (by rintro _ ⟨⟩)
    | error e =>
      obtain ⟨awaiting, rfl⟩ := calm e rfl
      obtain ⟨leaving, stands⟩ := inv
      rw [awaiting] at stands
      cases stands with
      | awaitingHealth gone _ done =>
        refine ⟨⟨leaving, ?_⟩, ?_⟩
        · change Stands _ s.phase
          rw [awaiting]
          exact .awaitingHealth gone (.inr rfl) done
        · unfold left phaseLeft
          dsimp only
          rw [awaiting, probing]
          exact Nat.le_of_eq (by
            change 3 + consumerLeft s.tasks.consumer + 1 = 4 + consumerLeft s.tasks.consumer
            omega)
  · cases hs

theorem moved_step (inv : ShutsDown s) {k : ProbeLabel Msg} {tasks : HealthProbes.State Msg H}
    (permits : s.permits k = true) (moves : HealthProbes.step app s.tasks k = some tasks)
    (calm : Calm s (.tasks k) { s with tasks := tasks }) :
    ShutsDown { s with tasks := tasks } ∧ left { s with tasks := tasks } +
      (if onward (.tasks k : Label Msg) = true then 1 else 0) ≤ left s := by
  cases k with
  | consumer k =>
    obtain ⟨c, resumed, same⟩ := Option.bind_eq_some_iff.mp moves
    cases same
    exact consumer_step inv resumed calm
  | tick _ => exact tick_step inv moves
  | passiveEnds outcome =>
    refine passiveEnds_step inv ?_ moves
    rintro e rfl
    exact calm
  | newConnectionEnds outcome =>
    refine newConnectionEnds_step inv permits ?_ moves
    rintro e rfl
    exact calm

/-- A calm step keeps the shutdown on its way, and an onward one brings it nearer to its
end. -/
theorem shutsDown_step (inv : ShutsDown s) (hs : ShutdownStep app s l u) (calm : Calm s l u) :
    ShutsDown u ∧ left u + (if onward l = true then 1 else 0) ≤ left s := by
  cases hs with
  | moved permits moves => exact moved_step inv permits moves calm
  | asked _ serving => exact absurd serving inv.not_serving
  | consumerAwaited awaiting ended => exact consumerAwaited_step inv awaiting ended
  | healthAwaited awaiting ended => exact healthAwaited_step inv awaiting ended
  | publisherClosed outcome closing =>
    cases (show outcome = .ok () from calm)
    exact publisherClosed_step inv closing
  | httpClientClosed outcome closing =>
    cases (show outcome = .ok () from calm)
    exact httpClientClosed_step inv closing

end Steps

section Start
variable [DecidableEq Msg] {app : App Msg H} {s u : State Msg H}

theorem cancel_enabled (idle isClosed : Bool) {loop : Loop} (alive : ∀ e, loop.pc ≠ .ended e) :
    ∃ loop', loop.cancel idle isClosed = some loop' := by
  unfold Loop.cancel Loop.raise
  cases pc : loop.pc with
  | ended e => exact absurd pc (alive e)
  | _ => exact ⟨_, rfl⟩

theorem shutdown_start (app : App Msg H) (isClosed : Bool)
    (working : Pc.shuttingDown s.tasks.consumer.loop.pc = false) (nothing : s.actions = [])
    (alive : ∀ e, s.tasks.consumer.loop.pc ≠ .ended e)
    (checking : ∀ e, s.tasks.checker ≠ .ended e) :
    ShutsDown (cancelConsumer app s isClosed) ∧
      left (cancelConsumer app s isClosed) ≤ 10 + remaining s.tasks.consumer.traffic ∧
      (s.tasks.consumer.loop.pc ≠ .sleeping →
        Unwinding (cancelConsumer app s isClosed).tasks.consumer) := by
  obtain ⟨loop, cancelled⟩ := cancel_enabled s.tasks.consumer.traffic.idle isClosed alive
  have moved : ConsumerLoop.step app s.tasks.consumer (.cancel isClosed) =
      some { s.tasks.consumer with loop := loop } := by
    rw [ConsumerLoop.step, cancelled]
    rfl
  have done : (cancelConsumer app s isClosed).actions = consumerActions := by
    change s.actions ++ _ = _
    rw [nothing]
    rfl
  have consumer : (cancelConsumer app s isClosed).tasks.consumer =
      { s.tasks.consumer with loop := loop } := by
    change (ConsumerLoop.step app s.tasks.consumer (.cancel isClosed)).getD s.tasks.consumer = _
    rw [moved]
    rfl
  have stands : Stands (cancelConsumer app s isClosed) .awaitingConsumer :=
    .awaitingConsumer checking done
  have before : left (cancelConsumer app s isClosed) =
      6 + (Pc.unwindSteps loop.pc + remaining s.tasks.consumer.traffic) := by
    change 6 + consumerLeft (cancelConsumer app s isClosed).tasks.consumer = _
    rw [consumer]
    rfl
  rw [before]
  rcases cancel_cases cancelled with ⟨asleep, ended, -⟩ | ⟨-, unwinding, bound⟩ | shutting
  · refine ⟨⟨.inr ?_, stands⟩, ?_, fun awake => absurd asleep awake⟩
    · rw [consumer]
      exact ended
    · rw [ended]
      change 6 + (0 + _) ≤ _
      omega
  · have unwinding : Unwinding (cancelConsumer app s isClosed).tasks.consumer := by
      rw [consumer]
      exact unwinding
    exact ⟨⟨.inl unwinding, stands⟩, by omega, fun _ => unwinding⟩
  · rw [working] at shutting
    cases shutting

end Start

/-- The application has exited by returning: both tasks ended by their cancellation, no
message task is left at work, and everything is released. -/
structure Released (s : State Msg H) : Prop where
  exited : s.phase = .exited (.ok ())
  consumer : s.tasks.consumer.loop.pc = .ended .cancelledError
  checker : s.tasks.checker = .ended .cancelledError
  idle : s.tasks.consumer.traffic.idle = true
  releases : ReleasesEverything s.actions

def CalmOnward (s : State Msg H) (l : Label Msg) (u : State Msg H) : Prop :=
  Calm s l u ∧ onward l = true ∧ ∀ k, l = .tasks (.consumer k) → Uncut k

/-- No task is at work once the consumer has been awaited. -/
def Quiesced (s : State Msg H) : Prop :=
  s.phase = .awaitingConsumer ∨ s.tasks.consumer.traffic.idle = true

section Completion
variable [DecidableEq Msg] {app : App Msg H} {s s' u : State Msg H} {ls : List (Label Msg)}

theorem tasks_move (leaving : Leaving s.tasks.consumer)
    (books : Books app s.tasks.consumer.traffic) (cap : 1 ≤ app.settings.rmqMaxConcurrentTasks)
    (going : s.tasks.consumer.loop.pc ≠ .ended .cancelledError ∨
      s.tasks.consumer.traffic.idle = false) : ∃ l u, step app s l = some u ∧ CalmOnward s l u := by
  obtain ⟨k, c, moved, calm, own, uncut⟩ := leaving_moves leaving books cap going
  refine ⟨.tasks (.consumer k), { s with tasks := { s.tasks with consumer := c } }, ?_, calm, own,
    by rintro _ ⟨⟩; exact uncut⟩
  have permits : s.permits (.consumer k) = true := by
    cases k with
    | resume _ | traffic _ => rfl
    | cancel _ => cases calm
  have tasks : HealthProbes.step app s.tasks (.consumer k) =
      some { s.tasks with consumer := c } := by
    rw [HealthProbes.step, moved]
    rfl
  rw [step, if_pos permits, tasks]
  rfl

theorem halted_released (inv : ShutsDown s) (books : Books app s.tasks.consumer.traffic)
    (cap : 1 ≤ app.settings.rmqMaxConcurrentTasks) (halted : Halted (step app) CalmOnward s) :
    Released s := by
  have still : s.tasks.consumer.loop.pc = .ended .cancelledError ∧
      s.tasks.consumer.traffic.idle = true := by
    by_contra going
    rw [not_and_or, Bool.not_eq_true] at going
    obtain ⟨l, u, moved, holds⟩ := tasks_move inv.leaving books cap going
    exact halted l u moved holds
  obtain ⟨gone, idle⟩ := still
  obtain ⟨leaving, stands⟩ := inv
  generalize standing : s.phase = phase at stands
  cases stands with
  | awaitingConsumer alive done =>
    refine absurd ⟨trivial, rfl, by rintro _ ⟨⟩⟩
      (halted .consumerEnds (s.afterConsumer (awaitCancelled (.finished (.error .cancelledError)))) ?_)
    simp only [step, standing, gone]
  | awaitingHealth _ checker done =>
    rcases checker with probing | ended
    · refine absurd ⟨⟨standing, rfl⟩, rfl, by rintro _ ⟨⟩⟩
        (halted (.tasks (.newConnectionEnds (.error .cancelledError)))
          { s with tasks := s.tasks.probed (.error .cancelledError) } ?_)
      simp only [step, State.permits, ↓reduceIte, HealthProbes.step, probing, Option.map_some]
    · refine absurd ⟨trivial, rfl, by rintro _ ⟨⟩⟩
        (halted .healthEnds (s.afterHealth (awaitCancelled (.finished (.error .cancelledError)))) ?_)
      simp only [step, standing, ended]
  | closingPublisher _ _ _ =>
    refine absurd ⟨rfl, rfl, by rintro _ ⟨⟩⟩
      (halted (.publisherCloses (.ok ())) (s.afterPublisher (.ok ())) ?_)
    simp only [step, standing]
  | closingHttpClient _ _ _ =>
    refine absurd ⟨rfl, rfl, by rintro _ ⟨⟩⟩
      (halted (.httpClientCloses (.ok ())) { s with phase := .exited (.ok ()) } ?_)
    simp only [step, standing]
  | exited _ checker done =>
    refine ⟨standing, gone, checker, idle, taskActions, done, ?_⟩
    intro name
    cases name <;> simp [taskActions, consumerActions]

theorem lowers_left (app : App Msg H) :
    Lowers (step app) (fun s l u => (ShutsDown s ∧ Calm s l u) ∧ onward l = true) left := by
  rintro s l u hs ⟨⟨inv, calm⟩, far⟩
  obtain ⟨-, less⟩ := shutsDown_step inv (step_shutdownStep hs) calm
  rw [if_pos far] at less
  exact less

theorem unwinding_kept (inv : ShutsDown s) (unwinding : Unwinding s.tasks.consumer)
    {l : Label Msg} (hs : ShutdownStep app s l u) (calm : Calm s l u) :
    Unwinding u.tasks.consumer := by
  have asked : ∀ b, l ≠ .shutdown b := by
    rintro b rfl
    cases hs with
    | asked _ serving => exact inv.not_serving serving
  rcases step_consumer hs asked with ⟨k, rfl, -, moved⟩ | ⟨channel, consumer⟩
  · exact (unwinding_step unwinding moved calm).1
  · rw [consumer]
    exact unwinding

omit [DecidableEq Msg] in
theorem quiesced_of_unwinding (inv : ShutsDown s) (unwinding : Unwinding s.tasks.consumer) :
    Quiesced s := by
  obtain ⟨-, stands⟩ := inv
  unfold Quiesced
  generalize s.phase = phase at stands
  cases stands with
  | awaitingConsumer _ _ => exact .inl rfl
  | awaitingHealth gone _ _ | closingPublisher gone _ _ | closingHttpClient gone _ _
  | exited gone _ _ => exact .inr (unwinding.2 (.inr gone)).2

theorem cancelConsumer_traffic (app : App Msg H) (s : State Msg H) (isClosed : Bool) :
    (cancelConsumer app s isClosed).tasks.consumer.traffic = s.tasks.consumer.traffic := by
  change ((ConsumerLoop.step app s.tasks.consumer (.cancel isClosed)).getD s.tasks.consumer).traffic = _
  cases cancelled : ConsumerLoop.step app s.tasks.consumer (.cancel isClosed) with
  | none => rfl
  | some c =>
    rcases ConsumerLoop.step_cases cancelled with ⟨_, _, ⟨⟩, -, -⟩ | ⟨_, -, -, same⟩ | ⟨_, ⟨⟩, -⟩
    exact same

theorem books_run (books : Books app s.tasks.consumer.traffic) (run : Runs (step app) s ls u) :
    Books app u.tasks.consumer.traffic := by
  refine run.invariant (fun s => Books app s.tasks.consumer.traffic) books ?_
  intro s l u books hs
  have moves := step_shutdownStep hs
  by_cases asked : ∃ isClosed, l = .shutdown isClosed
  · obtain ⟨isClosed, rfl⟩ := asked
    cases moves with
    | asked _ _ =>
      rw [cancelConsumer_traffic]
      exact books
  · rcases step_consumer moves (fun b same => asked ⟨b, same⟩) with ⟨k, -, -, moved⟩ | ⟨_, same⟩
    · rcases ConsumerLoop.step_traffic moved with ⟨same, -⟩ | ⟨tl, performed, -⟩
      · rw [same]
        exact books
      · exact books_step books performed
    · rw [same]
      exact books

/-- When the shutdown of an application begins whose two tasks have not ended, and nothing
fails on the way, it comes to its end after finitely many awaits, nothing can keep it from
there, and at the end everything is released. No message task and no handler need be
cancelled for that. If the consumer was not asleep, its message tasks have ended by the
time it has been awaited. -/
theorem shutdown_completes {isClosed : Bool} {before : List (Label Msg)}
    (cap : 1 ≤ app.settings.rmqMaxConcurrentTasks) (start : Runs (step app) initial before s)
    (alive : ∀ e, s.tasks.consumer.loop.pc ≠ .ended e) (checking : ∀ e, s.tasks.checker ≠ .ended e)
    (asked : step app s (.shutdown isClosed) = some s') (run : Along (step app) Calm s' ls u) :
    ls.countP onward ≤ 10 + 2 * s.tasks.consumer.traffic.tasks.length ∧
      (Halted (step app) CalmOnward u → Released u) ∧
      (∃ ms v, Along (step app) CalmOnward u ms v ∧ Released v) ∧
      (s.tasks.consumer.loop.pc ≠ .sleeping → Quiesced u) := by
  have books {v : State Msg H} {ms : List (Label Msg)} (onward : Runs (step app) u ms v) :
      Books app v.tasks.consumer.traffic := by
    have all := start.append ((Along.single asked trivial).append (run.runs.append onward))
    exact books_run ⟨rfl, fun _ => rfl⟩ all
  obtain ⟨serving, rfl⟩ : s.phase = .serving ∧ s' = cancelConsumer app s isClosed := by
    cases step_shutdownStep asked with
    | asked _ serving => exact ⟨serving, rfl⟩
  obtain ⟨working, nothing⟩ := serving_run start serving
  obtain ⟨inv, bound, unwinds⟩ := shutdown_start app isClosed working nothing alive checking
  have keeps (s : State Msg H) (l : Label Msg) (u : State Msg H) (inv : ShutsDown s)
      (hs : step app s l = some u) (calm : Calm s l u) : ShutsDown u :=
    (shutsDown_step inv (step_shutdownStep hs) calm).1
  have last : ShutsDown u := run.invariant ShutsDown inv keeps
  refine ⟨?_, halted_released last (books (.nil u)) cap, ?_, fun awake => ?_⟩
  · have kept : Along (step app) (fun s l u => ShutsDown s ∧ Calm s l u) _ ls u :=
      run.imp_of_invariant ShutsDown inv keeps (fun _ _ _ inv _ calm => ⟨inv, calm⟩)
    have count := countP_le onward
      (fun s l u hs both =>
        Nat.le_of_add_right_le (shutsDown_step both.1 (step_shutdownStep hs) both.2).2)
      (lowers_left app) kept
    have work := remaining_le s.tasks.consumer.traffic
    omega
  · have lowers : Lowers (step app) (fun s l u => ShutsDown s ∧ CalmOnward s l u) left :=
      (lowers_left app).mono fun _ _ _ both => ⟨⟨both.1, both.2.1⟩, both.2.2.1⟩
    obtain ⟨ms, v, onward, halted⟩ := lowers.exists_halted u
    have shuts : ShutsDown v :=
      onward.invariant ShutsDown last (fun s l u inv hs both => keeps s l u inv hs both.2.1)
    have still : Halted (step app) CalmOnward v := fun l w hs holds => halted l w hs ⟨shuts, holds⟩
    exact ⟨ms, v, onward.mono fun _ _ _ both => both.2,
      halted_released shuts (books onward.runs) cap still⟩
  · have both : ShutsDown u ∧ Unwinding u.tasks.consumer :=
      run.invariant (fun s => ShutsDown s ∧ Unwinding s.tasks.consumer) ⟨inv, unwinds awake⟩
        (fun s l u both hs calm =>
          ⟨keeps s l u both.1 hs calm, unwinding_kept both.1 both.2 (step_shutdownStep hs) calm⟩)
    exact quiesced_of_unwinding both.1 both.2

end Completion

section Examples

def busy : List (Label Unit) :=
  untilHandling.map (fun l => .tasks (.consumer l)) ++ [.tasks (.tick false)]

def untilAwaited : List (Label Unit) :=
  duringDrain.map (fun l => .tasks (.consumer l)) ++ [.consumerEnds]

theorem busy_completes : ∃ s s' u, Runs (step userCreatedApp) initial busy s ∧
    step userCreatedApp s (.shutdown false) = some s' ∧
    Along (step userCreatedApp) Calm s' untilAwaited u ∧ u.phase = .awaitingHealth ∧
    Quiesced u ∧ ∃ ms v, Along (step userCreatedApp) CalmOnward u ms v ∧ Released v := by
  obtain ⟨s, s', u, start, pc, checker, asked, run, awaiting⟩ : ∃ s s' u,
      Runs (step userCreatedApp) initial busy s ∧ s.tasks.consumer.loop.pc = .iterating ∧
        s.tasks.checker = .passive 1 ∧ step userCreatedApp s (.shutdown false) = some s' ∧
        Runs (step userCreatedApp) s' untilAwaited u ∧ u.phase = .awaitingHealth :=
    ⟨_, _, _, Runs.of_execute rfl, rfl, rfl, rfl, Runs.of_execute rfl, rfl⟩
  have calm : Along (step userCreatedApp) Calm s' untilAwaited u := by
    refine run.along_of_labels (fun l mem _ _ => ?_)
    simp only [untilAwaited, duringDrain, List.map, List.cons_append, List.nil_append,
      List.mem_cons, List.not_mem_nil, or_false] at mem
    rcases mem with rfl | rfl | rfl | rfl | rfl
    all_goals first
      | exact trivial
      | rfl
  obtain ⟨-, -, onward, quiesced⟩ := shutdown_completes (by decide) start (by rw [pc]; rintro _ ⟨⟩)
    (by rw [checker]; rintro _ ⟨⟩) asked calm
  exact ⟨s, s', u, start, asked, calm, awaiting, quiesced (by rw [pc]; rintro ⟨⟩), onward⟩

end Examples

end FastapiProject.ShutdownProgress
