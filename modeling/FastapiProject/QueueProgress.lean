import FastapiProject.ConsumerFates
import FastapiProject.PublishedMessages
import FastapiProject.TrafficProgress

set_option autoImplicit false

/-!
# The queue is worked off

A consumer that iterates over an open channel settles every message in the end. Only a
handler that raises gives one back to the queue, and nothing bounds how often it does.
-/
namespace FastapiProject.QueueProgress
open PythonExceptions MachineRuns MachineProgress IndexedLists ConsumerMessage ConsumerTraffic
  ConsumerTrafficSteps ConsumerLoop ConsumerInFlight PublishedMessages TrafficProgress
open SemaphoreTuning (Books books_step)

variable {Msg H : Type}

def works : Label Msg → Bool
  | .resume (.yielded _) | .traffic (.acquire _) | .traffic (.handlerEnds _ _) => true
  | _ => false

def fails : Label Msg → Bool
  | .traffic (.handlerEnds _ (.error e)) => e.isException
  | _ => false

/-- The channel stays open, and nothing but the consumer, its tasks and the publishing
services is at work. -/
def Working (_ : Consumer Msg H) (l : Label Msg) (_ : Consumer Msg H) : Prop :=
  works l = true ∨ ∃ m, l = .traffic (.publish m)

def Onward (_ : Consumer Msg H) (l : Label Msg) (_ : Consumer Msg H) : Prop :=
  works l = true ∧ fails l = false

/-- Every message that the broker knows of is settled for good, and no task is at work. -/
def WorkedOff (s : Traffic Msg H) : Prop :=
  s.idle = true ∧ ∀ m, s.place m = .unpublished ∨ s.place m = .acked ∨ s.place m = .dropped

def queued : Place → Bool
  | .unpublished | .ready _ => true
  | .unacked _ _ | .acked | .dropped => false

def waiting (msgs : List Msg) (place : Msg → Place) : ℕ := msgs.countP fun m => queued (place m)

def left (msgs : List Msg) (s : Consumer Msg H) : ℕ :=
  3 * waiting msgs s.traffic.place + remaining s.traffic

structure Iterates (app : App Msg H) (s : Consumer Msg H) : Prop where
  inv : Inv app s.traffic
  tracked : Tracked s.traffic
  books : Books app s.traffic
  iterating : s.loop.pc = .iterating
  isOpen : s.traffic.channel s.traffic.current = .opened

section Waiting
variable [DecidableEq Msg] {app : App Msg H} {s u : Traffic Msg H} {msgs : List Msg} {m : Msg}

theorem waiting_delivered (mem : m ∈ msgs) {place : Msg → Place}
    {redelivered : Bool} (ready : place m = .ready redelivered) (channel task : ℕ) :
    waiting msgs (Function.update place m (.unacked channel task)) < waiting msgs place := by
  refine countP_lt mem (fun k _ holds => ?_) ?_ ?_
  · by_cases same : k = m
    · subst same
      rw [ready]
      rfl
    · rwa [Function.update_of_ne same] at holds
  · rw [ready]
    rfl
  · rw [Function.update_self]
    rfl

theorem waiting_published {place : Msg → Place} (new : place m = .unpublished) :
    waiting msgs (Function.update place m (.ready false)) = waiting msgs place := by
  refine List.countP_congr (fun k _ => ?_)
  by_cases same : k = m
  · subst same
    rw [Function.update_self, new]
    exact Iff.rfl
  · rw [Function.update_of_ne same]

theorem waiting_acquired (msgs : List Msg) {t : ℕ} {task : MessageTask Msg H}
    (hs : acquire app s t task = some u) :
    waiting msgs u.place ≤ waiting msgs s.place := by
  refine List.countP_mono_left (fun m _ holds => ?_)
  rcases ConsumerFates.acquire_place hs m with kept | ⟨-, ⟨-, acked⟩ | ⟨-, dropped⟩⟩
  · rwa [← kept]
  · rw [acked] at holds
    cases holds
  · rw [dropped] at holds
    cases holds

theorem waiting_handled (inv : Inv app s) (nodup : msgs.Nodup) {t : ℕ} {task : MessageTask Msg H}
    {handler : H} {body : PythonJson.Json} (at_t : s.tasks[t]? = some task)
    (handling : task.stage = .handling handler body) (outcome : Except Exn Unit) :
    waiting msgs (s.endTask t task (executeHandler outcome)).place ≤ waiting msgs s.place +
      if queued (handledPlace outcome) = true then 1 else 0 := by
  rw [handled_place inv at_t handling outcome]
  split
  · by_cases back : queued (handledPlace outcome) = true
    · rw [if_pos back]
      refine countP_le_succ nodup task.message (fun k _ other holds => ?_)
      rwa [Function.update_of_ne other] at holds
    · rw [if_neg back]
      refine List.countP_mono_left (fun k _ holds => ?_)
      by_cases same : k = task.message
      · subst same
        rw [Function.update_self] at holds
        exact absurd holds back
      · rwa [Function.update_of_ne same] at holds
  · exact Nat.le_add_right _ _

omit [DecidableEq Msg] in
theorem queued_handledPlace (outcome : Except Exn Unit) (t : ℕ) :
    queued (handledPlace outcome) = fails (.traffic (.handlerEnds t outcome) : Label Msg) := by
  cases outcome with
  | ok _ => rfl
  | error e => cases caught : e.isException <;> simp [handledPlace, fails, queued, caught]

end Waiting

inductive Steady : Label Msg → TrafficLabel Msg → Prop where
  | yielded (m : Msg) : Steady (.resume (.yielded m)) (.spawnTask m)
  | acquires (t : ℕ) : Steady (.traffic (.acquire t)) (.acquire t)
  | handlerEnds (t : ℕ) (outcome : Except Exn Unit) :
    Steady (.traffic (.handlerEnds t outcome)) (.handlerEnds t outcome)
  | publishes (m : Msg) : Steady (.traffic (.publish m)) (.publish m)

section Steps
variable [DecidableEq Msg] {app : App Msg H} {s u : Consumer Msg H} {l : Label Msg}
  {msgs : List Msg}

theorem working_steady (hs : step app s l = some u) (working : Working s l u) :
    ∃ tl, Steady l tl ∧ s.traffic.step app tl = some u.traffic ∧ u.loop = s.loop := by
  rcases step_cases hs with ⟨reply, effect, rfl, resumed, performed⟩ | ⟨_, rfl, -, -⟩ |
    ⟨tl, rfl, -, moved, loop⟩
  · cases reply with
    | yielded m =>
      simp only [Consumer.resumed, Loop.resume] at resumed
      split at resumed
      · obtain ⟨loop, rfl⟩ := Prod.mk.inj (Option.some.inj resumed)
        exact ⟨.spawnTask m, .yielded m, performed, loop.symm⟩
      · cases resumed
    | _ => rcases working with works | ⟨m, ⟨⟩⟩; cases works
  · rcases working with works | ⟨m, ⟨⟩⟩
    cases works
  · cases tl with
    | acquire t => exact ⟨_, .acquires t, moved, loop⟩
    | handlerEnds t outcome => exact ⟨_, .handlerEnds t outcome, moved, loop⟩
    | publish m => exact ⟨_, .publishes m, moved, loop⟩
    | _ => rcases working with works | ⟨m, ⟨⟩⟩; cases works

theorem steady_channel {s u : Traffic Msg H} {tl : TrafficLabel Msg} (steady : Steady l tl)
    (hs : TrafficStep app s tl u) : u.channel = s.channel ∧ u.current = s.current := by
  cases hs with
  | opened => cases steady
  | gone _ closes => (rcases closes with ⟨rfl, -⟩ | ⟨rfl, -⟩ | ⟨rfl, -⟩ <;> cases steady)
  | _ => exact ⟨rfl, rfl⟩

theorem iterates_step (h : Iterates app s) (hs : step app s l = some u) (working : Working s l u) :
    Iterates app u := by
  obtain ⟨tl, steady, moved, loop⟩ := working_steady hs working
  obtain ⟨channel, current⟩ := steady_channel steady (step_trafficStep moved)
  refine ⟨step_inv h.inv hs, step_tracked h.inv h.tracked hs ?_, books_step h.books moved, ?_, ?_⟩
  · rintro t task rfl
    cases steady
  · rw [loop]
    exact h.iterating
  · rw [channel, current]
    exact h.isOpen

structure Covered (app : App Msg H) (msgs : List Msg) (s : Consumer Msg H) : Prop where
  iterates : Iterates app s
  covers : ∀ m, s.traffic.place m ≠ .unpublished → m ∈ msgs

def PublishesIn (msgs : List Msg) (l : Label Msg) : Prop :=
  ∀ m, l = .traffic (.publish m) → m ∈ msgs

theorem covered_step (h : Covered app msgs s) (hs : step app s l = some u) (working : Working s l u)
    (within : PublishesIn msgs l) : Covered app msgs u := by
  refine ⟨iterates_step h.iterates hs working, fun m known => ?_⟩
  rcases step_publishes hs with ⟨same, -⟩ | ⟨tl, moved, publishes⟩
  · rw [same] at known
    exact h.covers m known
  · rw [ne_eq, unpublished_step moved, not_and_or, not_not] at known
    rcases known with known | rfl
    · exact h.covers m known
    · exact within m ((publishes m).mp rfl)

/-- Each step that works takes from what is left, and a handler that raises adds to it. -/
theorem left_step (covered : Covered app msgs s) (nodup : msgs.Nodup) (hs : step app s l = some u)
    (working : Working s l u) : left msgs u + (if works l = true then 1 else 0) ≤
      left msgs s + 3 * if fails l = true then 1 else 0 := by
  obtain ⟨h, covers⟩ := covered
  obtain ⟨tl, steady, moved, -⟩ := working_steady hs working
  unfold left
  cases steady with
  | yielded m =>
    have delivered := spawnTask_step moved
    generalize u.traffic = after at delivered
    cases delivered with
    | delivered isOpen ready _ =>
      have mem := covers m (by rw [ready]; rintro ⟨⟩)
      have less := waiting_delivered mem ready s.traffic.current s.traffic.tasks.length
      have more : total workLeft (s.traffic.tasks ++ [⟨m, s.traffic.current, .waiting⟩]) =
          remaining s.traffic + 2 := total_concat workLeft _ _
      change 3 * waiting msgs (Function.update s.traffic.place m
          (.unacked s.traffic.current s.traffic.tasks.length)) +
        total workLeft (s.traffic.tasks ++ [⟨m, s.traffic.current, .waiting⟩]) + 1 ≤
          3 * waiting msgs s.traffic.place + remaining s.traffic + 3 * 0
      omega
    | yieldedLate notOpen _ => exact absurd h.isOpen notOpen
    | gone _ closes => (rcases closes with ⟨⟨⟩, -⟩ | ⟨⟨⟩, -⟩ | ⟨⟨⟩, -⟩)
  | acquires t =>
    have less := remaining_step (step_trafficStep moved) (by rintro _ ⟨⟩)
    obtain ⟨task, at_t, hs⟩ := Option.bind_eq_some_iff.mp moved
    cases hstage : task.stage with
    | waiting =>
      have kept := waiting_acquired msgs (by simpa [hstage] using hs)
      change _ + 1 ≤ _ at less
      change _ + 1 ≤ _ + 3 * 0
      omega
    | _ => simp [hstage] at hs
  | handlerEnds t outcome =>
    have less := remaining_step (step_trafficStep moved) (by rintro _ ⟨⟩)
    have handled := step_trafficStep moved
    generalize u.traffic = after at handled less
    cases handled with
    | @handled _ task _ _ _ at_t handling =>
      have back := waiting_handled h.inv nodup at_t handling outcome
      have failed : queued (handledPlace outcome) =
          fails (.traffic (.handlerEnds t outcome) : Label Msg) := queued_handledPlace outcome t
      rw [failed] at back
      change _ + 1 ≤ _ at less
      change 3 * waiting msgs (s.traffic.endTask t task (executeHandler outcome)).place + _ + 1 ≤ _
      generalize (if fails _ = true then 1 else 0) = paid at back ⊢
      omega
    | gone _ closes => (rcases closes with ⟨⟨⟩, -⟩ | ⟨⟨⟩, -⟩ | ⟨⟨⟩, -⟩)
  | publishes m =>
    have published := step_trafficStep moved
    generalize u.traffic = after at published
    cases published with
    | published new =>
      have same : waiting msgs (Function.update s.traffic.place m (.ready false)) =
          waiting msgs s.traffic.place := waiting_published new
      change 3 * waiting msgs (Function.update s.traffic.place m (.ready false)) +
        remaining s.traffic + 0 ≤ 3 * waiting msgs s.traffic.place + remaining s.traffic + 3 * 0
      omega
    | gone _ closes => (rcases closes with ⟨⟨⟩, -⟩ | ⟨⟨⟩, -⟩ | ⟨⟨⟩, -⟩)

end Steps

section Completion
variable [DecidableEq Msg] {app : App Msg H} {s u : Consumer Msg H} {msgs : List Msg}
  {before ls : List (Label Msg)}

omit [DecidableEq Msg] in
theorem outstanding_idle (h : Iterates app s) (idle : s.traffic.idle = true) :
    s.traffic.outstanding = 0 := by
  have bound := outstanding_le_onChannel h.inv h.tracked
  have nobody : onChannel s.traffic = 0 := by
    refine List.countP_eq_zero.mpr (fun task mem working => ?_)
    have ended := List.all_eq_true.mp idle task mem
    simp [Unfinished, ended] at working
  omega

/-- While a message waits in the queue or a task has not ended, the consumer goes on. -/
theorem queue_moves (h : Iterates app s) (slots : 1 ≤ app.settings.rmqMaxConcurrentTasks)
    (prefetch : 1 ≤ app.settings.rmqPrefetchCount)
    (going : s.traffic.idle = false ∨ ∃ m redelivered, s.traffic.place m = .ready redelivered) :
    ∃ l u, step app s l = some u ∧ Onward s l u := by
  cases idle : s.traffic.idle with
  | false =>
    obtain ⟨tl, traffic, moved, own, returns⟩ := task_moves h.books slots idle
    have onward : works (.traffic tl : Label Msg) = true ∧ fails (.traffic tl : Label Msg) = false ∧
        s.permits tl = true := by
      cases tl with
      | acquire t => exact ⟨rfl, rfl, rfl⟩
      | handlerEnds t outcome =>
        cases returns t outcome rfl
        exact ⟨rfl, rfl, rfl⟩
      | _ => cases own
    obtain ⟨works, returned, permits⟩ := onward
    refine ⟨.traffic tl, { s with traffic := traffic }, ?_, works, returned⟩
    simp only [step, permits, ↓reduceIte, moved, Option.bind_eq_bind, Option.bind_some,
      Option.pure_def]
  | true =>
    obtain ⟨m, redelivered, ready⟩ := going.resolve_left (by rw [idle]; rintro ⟨⟩)
    have room : s.traffic.outstanding < app.settings.rmqPrefetchCount := by
      rw [outstanding_idle h idle]
      exact prefetch
    obtain ⟨traffic, spawned⟩ : ∃ traffic, spawnTask app s.traffic m = some traffic := by
      unfold spawnTask
      dsimp only
      rw [h.isOpen]
      dsimp only
      rw [ready]
      dsimp only
      rw [if_pos room]
      exact ⟨_, rfl⟩
    have performed : s.traffic.step app (.spawnTask m) = some traffic := spawned
    refine ⟨.resume (.yielded m), ⟨s.loop, traffic⟩, ?_, rfl, rfl⟩
    simp only [step, Consumer.resumed, Loop.resume, h.iterating, ↓reduceIte, Consumer.perform,
      performed, Option.bind_eq_bind, Option.bind_some, Option.pure_def]

theorem halted_workedOff (h : Iterates app s) (slots : 1 ≤ app.settings.rmqMaxConcurrentTasks)
    (prefetch : 1 ≤ app.settings.rmqPrefetchCount) (halted : Halted (step app) Onward s) :
    WorkedOff s.traffic := by
  have still : ¬ (s.traffic.idle = false ∨
      ∃ m redelivered, s.traffic.place m = .ready redelivered) := by
    intro going
    obtain ⟨l, u, moved, onward⟩ := queue_moves h slots prefetch going
    exact halted l u moved onward
  rw [not_or, Bool.not_eq_false] at still
  obtain ⟨idle, nothing⟩ := still
  refine ⟨idle, fun m => ?_⟩
  cases place : s.traffic.place m with
  | unpublished => exact .inl rfl
  | ready redelivered => exact absurd ⟨m, redelivered, place⟩ nothing
  | unacked channel t =>
    obtain ⟨task, at_t, live⟩ := h.tracked m channel t place
    have ended := List.all_eq_true.mp idle task (List.mem_of_getElem? at_t)
    rw [live] at ended
    cases ended
  | acked => exact .inr (.inl rfl)
  | dropped => exact .inr (.inr rfl)

omit [DecidableEq Msg] in
theorem onward_working (s : Consumer Msg H) (l : Label Msg) (u : Consumer Msg H)
    (onward : Onward s l u) : Working s l u ∧ ∀ msgs, PublishesIn msgs l := by
  refine ⟨.inl onward.1, ?_⟩
  rintro msgs m rfl
  cases onward.1

theorem onward_lowers (app : App Msg H) (nodup : msgs.Nodup) :
    Lowers (step app) (fun s l u => Covered app msgs s ∧ Onward s l u) (left msgs) := by
  rintro s l u hs ⟨covered, onward⟩
  have less := left_step covered nodup hs (onward_working s l u onward).1
  rw [onward.1, onward.2] at less
  exact less

omit [DecidableEq Msg] in
theorem left_le (msgs : List Msg) (s : Consumer Msg H) :
    left msgs s ≤ 3 * msgs.length + 2 * s.traffic.tasks.length := by
  have queue : waiting msgs s.traffic.place ≤ msgs.length := List.countP_le_length
  have work := remaining_le s.traffic
  unfold left
  omega

theorem iterates_run (start : Along (step app) CancelledLate Consumer.initial before s)
    (iterating : s.loop.pc = .iterating)
    (isOpen : s.traffic.channel s.traffic.current = .opened) : Iterates app s := by
  have books : Inv app s.traffic ∧ Tracked s.traffic ∧ Books app s.traffic := by
    refine start.invariant
      (fun s => Inv app s.traffic ∧ Tracked s.traffic ∧ Books app s.traffic)
      ⟨inv_initial, by rintro _ _ _ ⟨⟩, rfl, fun _ => rfl⟩ ?_
    intro s l u kept hs late
    obtain ⟨inv, tracked, books⟩ := kept
    refine ⟨step_inv inv hs, step_tracked inv tracked hs late, ?_⟩
    rcases step_traffic hs with ⟨same, -⟩ | ⟨tl, moved, -⟩
    · rw [same]
      exact books
    · exact books_step books moved
  exact ⟨books.1, books.2.1, books.2.2, iterating, isOpen⟩

/-- While the channel stays open the queue is worked off: three steps for each message that
has been published, two for each task there is, and three more for each time that a handler
raises. Where nothing is left to do every message is settled for good, and from everywhere
it can be carried there, with handlers that return. -/
theorem queue_worked_off (slots : 1 ≤ app.settings.rmqMaxConcurrentTasks)
    (prefetch : 1 ≤ app.settings.rmqPrefetchCount)
    (start : Along (step app) CancelledLate Consumer.initial before s)
    (iterating : s.loop.pc = .iterating) (isOpen : s.traffic.channel s.traffic.current = .opened)
    (run : Along (step app) Working s ls u) :
    ls.countP works ≤ 3 * (published (before ++ ls)).length + 2 * s.traffic.tasks.length +
        3 * ls.countP fails ∧
      (Halted (step app) Onward u → WorkedOff u.traffic) ∧
      ∃ ms v, Along (step app) Onward u ms v ∧ WorkedOff v.traffic := by
  let msgs := published (before ++ ls)
  have known : Known msgs u.traffic := known_run (start.runs.append run.runs)
  have covered : Covered app msgs s := by
    refine ⟨iterates_run start iterating isOpen, fun m sent => ?_⟩
    change m ∈ published (before ++ ls)
    rw [published_append]
    exact List.mem_append_left _ (((known_run start.runs).covers m).mp sent)
  have within : ∀ l ∈ ls, PublishesIn msgs l := by
    rintro l mem m rfl
    change m ∈ published (before ++ ls)
    rw [published_append]
    exact List.mem_append_right _ (mem_published mem)
  have along : Along (step app) (fun s l u => Working s l u ∧ PublishesIn msgs l) s ls u :=
    run.and_labels within
  have last : Covered app msgs u :=
    along.invariant (Covered app msgs) covered
      (fun _ _ _ covered hs both => covered_step covered hs both.1 both.2)
  refine ⟨?_, halted_workedOff last.iterates slots prefetch, ?_⟩
  · have kept : Along (step app) (fun s l u => Covered app msgs s ∧ Working s l u) s ls u :=
      along.imp_of_invariant (Covered app msgs) covered
        (fun _ _ _ covered hs both => covered_step covered hs both.1 both.2)
        (fun _ _ _ covered _ both => ⟨covered, both.1⟩)
    have count := countP_le_countP works fails 3
      (fun _ _ _ hs both => left_step both.1 known.nodup hs both.2) kept
    have bound := left_le msgs s
    change _ ≤ 3 * msgs.length + _ + _
    omega
  · obtain ⟨ms, v, onward, halted⟩ := (onward_lowers app known.nodup).exists_halted u
    have final : Covered app msgs v := by
      refine onward.invariant (Covered app msgs) last (fun s l u covered hs both => ?_)
      obtain ⟨working, within⟩ := onward_working s l u both.2
      exact covered_step covered hs working (within msgs)
    have still : Halted (step app) Onward v := fun l w hs onward => halted l w hs ⟨final, onward⟩
    exact ⟨ms, v, onward.mono fun _ _ _ both => both.2,
      halted_workedOff final.iterates slots prefetch still⟩

end Completion

section Examples

def untilIterating : List (Label Unit) :=
  .traffic (.publish ()) :: List.replicate 7 (.resume .returned)

def retried : List (Label Unit) :=
  [.resume (.yielded ()), .traffic (.acquire 0), .traffic (.handlerEnds 0 (.error .runtimeError)),
    .resume (.yielded ()), .traffic (.acquire 1), .traffic (.handlerEnds 1 (.ok ()))]

theorem retried_worked_off : ∃ s u,
    Along (step userCreatedApp) CancelledLate Consumer.initial untilIterating s ∧
      Along (step userCreatedApp) Working s retried u ∧
      retried.countP works ≤ 3 * 1 + 2 * 0 + 3 * retried.countP fails ∧
      ∃ ms v, Along (step userCreatedApp) Onward u ms v ∧ WorkedOff v.traffic := by
  obtain ⟨s, u, start, iterating, isOpen, idle, run⟩ : ∃ s u,
      Runs (step userCreatedApp) Consumer.initial untilIterating s ∧ s.loop.pc = .iterating ∧
        s.traffic.channel s.traffic.current = .opened ∧ s.traffic.tasks.length = 0 ∧
        Runs (step userCreatedApp) s retried u :=
    ⟨_, _, Runs.of_execute rfl, rfl, rfl, rfl, Runs.of_execute rfl⟩
  have late : Along (step userCreatedApp) CancelledLate Consumer.initial untilIterating s := by
    refine start.along_of_labels (fun l mem _ _ t task same => ?_)
    subst same
    simp [untilIterating] at mem
  have working : Along (step userCreatedApp) Working s retried u := by
    refine run.along_of_labels (fun l mem _ _ => .inl ?_)
    simp only [retried, List.mem_cons, List.not_mem_nil, or_false] at mem
    rcases mem with rfl | rfl | rfl | rfl | rfl | rfl <;> rfl
  obtain ⟨bound, -, onward⟩ :=
    queue_worked_off (by decide) (by decide) late iterating isOpen working
  rw [idle] at bound
  exact ⟨s, u, late, working, bound, onward⟩

end Examples

end FastapiProject.QueueProgress
