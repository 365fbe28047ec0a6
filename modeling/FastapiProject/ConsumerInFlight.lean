import FastapiProject.ConsumerLoop
import FastapiProject.ConsumerTrafficSteps

set_option autoImplicit false

/-!
# How many messages are in flight

The broker counts the deliveries of one channel. The tasks of a channel that is gone are
still there when the next channel delivers, and the broker does not know of them.
-/
namespace FastapiProject.ConsumerInFlight
open PythonExceptions PythonJson MachineRuns IndexedLists ConsumerMessage ConsumerTraffic
  ConsumerTrafficSteps ConsumerLoop

variable {Msg H : Type}

section Counts
variable (s : Traffic Msg H)

def Unfinished (task : MessageTask Msg H) : Bool := !task.stage.finished

def onOpenChannel (task : MessageTask Msg H) : Bool :=
  task.channel = s.current ∧ s.channel s.current = .opened

/-- The tasks of `_active_tasks`: a task leaves the set when it ends, and settles its
message on the way. -/
def unfinished : ℕ := s.tasks.countP Unfinished

def leftBehind : ℕ := s.tasks.countP fun task => Unfinished task && !onOpenChannel s task

def onChannel : ℕ := s.tasks.countP fun task => Unfinished task && onOpenChannel s task

theorem unfinished_split : unfinished s = onChannel s + leftBehind s :=
  countP_and_not s.tasks Unfinished (onOpenChannel s)

end Counts

def Bounded (app : App Msg H) (_ : Consumer Msg H) (_ : Label Msg) (u : Consumer Msg H) : Prop :=
  unfinished u.traffic ≤ app.settings.rmqPrefetchCount

/-- Where a message is handed to a new task, the tasks left behind and the deliveries of
the current channel are together fewer than the prefetch count. -/
def FitsPrefetch (app : App Msg H) (s : Consumer Msg H) (l : Label Msg) (_ : Consumer Msg H) : Prop :=
  ∀ m, l = .resume (.yielded m) →
    leftBehind s.traffic + s.traffic.outstanding < app.settings.rmqPrefetchCount

/-- A task that waits for the semaphore is cancelled when its channel is gone, as the
drain does it, and not before. -/
def CancelledLate (s : Consumer Msg H) (l : Label Msg) (_ : Consumer Msg H) : Prop :=
  ∀ t task, l = .traffic (.cancelWaiting t) → s.traffic.tasks[t]? = some task →
    s.traffic.channel task.channel ≠ .opened

def Tracked (s : Traffic Msg H) : Prop :=
  ∀ m c t, s.place m = .unacked c t → ∃ task, s.tasks[t]? = some task ∧ task.stage.finished = false

section Counting
variable {app : App Msg H} {s u : Traffic Msg H}

theorem unfinished_setStage {t : ℕ} {task : MessageTask Msg H} (at_t : s.tasks[t]? = some task)
    (live : task.stage.finished = false) (stage : Stage H)
    (tasks : u.tasks = (s.setStage t task stage).tasks) : unfinished u ≤ unfinished s := by
  have counted := countP_set_add at_t Unfinished { task with stage := stage }
  have one : Unfinished task = true := by rw [Unfinished, live]; rfl
  rw [one, if_pos rfl] at counted
  unfold unfinished
  rw [tasks]
  change (s.tasks.set t { task with stage := stage }).countP Unfinished ≤ _
  split at counted <;> omega

theorem onChannel_le_outstanding (h : Inv app s) : onChannel s ≤ s.outstanding := by
  rw [onChannel, ← countP_zipIdx]
  refine List.countP_mono_left (fun entry mem holds => ?_)
  obtain ⟨task, t⟩ := entry
  have at_t : s.tasks[t]? = some task := List.mem_zipIdx_iff_getElem?.mp mem
  simp only [onOpenChannel, Unfinished, Bool.and_eq_true, Bool.not_eq_eq_eq_not, Bool.not_true,
    decide_eq_true_eq] at holds
  obtain ⟨live, channel, isOpen⟩ := holds
  have place := h.owned t task at_t live (by rwa [channel])
  rw [channel] at place
  exact decide_eq_true place

theorem outstanding_le_onChannel (h : Inv app s) (tracked : Tracked s) :
    s.outstanding ≤ onChannel s := by
  rw [onChannel, ← countP_zipIdx]
  refine List.countP_mono_left (fun entry mem holds => ?_)
  obtain ⟨task, t⟩ := entry
  have at_t : s.tasks[t]? = some task := List.mem_zipIdx_iff_getElem?.mp mem
  have place := of_decide_eq_true holds
  obtain ⟨task', at_t', live⟩ := tracked _ _ _ place
  obtain ⟨task'', at_t'', -, channel⟩ := h.delivered _ _ _ place
  cases at_t.symm.trans at_t'
  cases at_t.symm.trans at_t''
  have isOpen := h.isOpen _ _ _ place
  simp [onOpenChannel, Unfinished, live, channel, isOpen]

end Counting

section Steps
variable [DecidableEq Msg] {app : App Msg H} {s u : Traffic Msg H} {tl : TrafficLabel Msg}

theorem unfinished_step (hs : TrafficStep app s tl u) :
    (∃ m, tl = .spawnTask m ∧ unfinished u = unfinished s + 1) ∨
      (∀ m, tl ≠ .spawnTask m) ∧ unfinished u ≤ unfinished s := by
  have spawned (m : Msg) (place : Msg → Place) : unfinished { s with
      tasks := s.tasks ++ [⟨m, s.current, .waiting⟩], place := place } = unfinished s + 1 := by
    unfold unfinished
    rw [List.countP_append, List.countP_singleton]
    rfl
  cases hs with
  | published _ | opened => exact .inr ⟨by rintro _ ⟨⟩, Nat.le_refl _⟩
  | delivered _ _ _ | yieldedLate _ _ => exact .inl ⟨_, rfl, spawned _ _⟩
  | gone _ closes =>
    refine .inr ⟨fun m hm => ?_, Nat.le_refl _⟩
    rcases closes with ⟨hl, -⟩ | ⟨hl, -⟩ | ⟨hl, -⟩ <;> cases hl.symm.trans hm
  | invoked at_t waiting _ | unrouted at_t waiting _ | cancelled at_t waiting =>
    exact .inr ⟨by rintro _ ⟨⟩, unfinished_setStage at_t (by rw [waiting]; rfl) _ rfl⟩
  | handled at_t handling =>
    exact .inr ⟨by rintro _ ⟨⟩, unfinished_setStage at_t (by rw [handling]; rfl) _ rfl⟩

theorem tracked_endTask (h : Inv app s) (tracked : Tracked s) {t : ℕ} {task : MessageTask Msg H}
    (block : Delivery → Except Exn Unit × Delivery) (at_t : s.tasks[t]? = some task)
    (tasks : u.tasks = (s.endTask t task block).tasks)
    (place : u.place = (s.endTask t task block).place)
    (settles : s.channel task.channel = .opened →
      (process false block { channel := s.channel task.channel }).2.sent ≠ []) : Tracked u := by
  intro m c k hp
  rw [place, endTask_place] at hp
  have before := receive_unacked hp
  obtain ⟨task', at_k, live⟩ := tracked m c k before
  by_cases same : k = t
  · subst same
    obtain ⟨task'', at_k', message, channel⟩ := h.delivered m c k before
    cases at_t.symm.trans at_k'
    subst message channel
    have isOpen := h.isOpen _ _ _ before
    exact absurd hp (receive_settles isOpen before (settles isOpen))
  · refine ⟨task', ?_, live⟩
    rw [tasks, endTask_tasks, setStage_tasks at_t, if_neg same]
    exact at_k

theorem tracked_step (h : Inv app s) (tracked : Tracked s) (hs : TrafficStep app s tl u)
    (late : ∀ t task, tl = .cancelWaiting t → s.tasks[t]? = some task →
      s.channel task.channel ≠ .opened) : Tracked u := by
  cases hs with
  | @published k new =>
    intro m c t hp
    by_cases same : m = k
    · subst same
      cases (Function.update_self m _ s.place).symm.trans hp
    · exact tracked m c t ((Function.update_of_ne same _ _).symm.trans hp)
  | @delivered k _ _ _ _ =>
    intro m c t hp
    by_cases same : m = k
    · subst same
      cases (Function.update_self m _ s.place).symm.trans hp
      exact ⟨_, List.getElem?_concat_length, rfl⟩
    · obtain ⟨task, at_t, live⟩ := tracked m c t ((Function.update_of_ne same _ _).symm.trans hp)
      exact ⟨task, getElem?_concat_old at_t _, live⟩
  | yieldedLate _ _ =>
    intro m c t hp
    obtain ⟨task, at_t, live⟩ := tracked m c t hp
    exact ⟨task, getElem?_concat_old at_t _, live⟩
  | opened => exact tracked
  | gone _ _ => exact fun m c t hp => tracked m c t (requeued_unacked.mp hp).1
  | @invoked t _ task handler body at_t _ _ =>
    intro m c k hp
    obtain ⟨task', at_k, live⟩ := tracked m c k hp
    have found := setStage_tasks (k := k) at_t (.handling handler body)
    by_cases same : k = t
    · rw [if_pos same] at found
      exact ⟨_, found, rfl⟩
    · rw [if_neg same] at found
      exact ⟨task', found.trans at_k, live⟩
  | @unrouted t free task outcome at_t _ _ =>
    refine tracked_endTask h tracked (fun d => (outcome, d)) at_t rfl rfl (fun isOpen => ?_)
    cases outcome <;> simp [process, settleThenRaise, settle, isOpen]
  | @handled t task _ _ outcome at_t _ =>
    refine tracked_endTask h tracked (executeHandler outcome) at_t rfl rfl (fun isOpen => ?_)
    rw [isOpen, executeHandler_sent _ _ (by decide)]
    cases outcome with
    | ok _ => exact List.cons_ne_nil _ _
    | error e => cases he : e.isException <;> simp [he]
  | @cancelled t task at_t _ =>
    intro m c k hp
    obtain ⟨task', at_k, live⟩ := tracked m c k hp
    have other : k ≠ t := by
      rintro rfl
      obtain ⟨task'', at_k', -, channel⟩ := h.delivered m c k hp
      cases at_t.symm.trans at_k'
      exact late k task rfl at_t (channel ▸ h.isOpen m c k hp)
    exact ⟨task', (setStage_tasks at_t _).trans ((if_neg other).trans at_k), live⟩

end Steps

section Runs
variable [DecidableEq Msg] {app : App Msg H} {s u : Consumer Msg H} {l : Label Msg}

theorem step_spawns (hs : step app s l = some u) :
    (u.traffic = s.traffic ∧ ∀ m, l ≠ .resume (.yielded m)) ∨
    ∃ tl, TrafficStep app s.traffic tl u.traffic ∧
      (∀ m, tl = .spawnTask m ↔ l = .resume (.yielded m)) ∧
      ∀ t, tl = .cancelWaiting t → l = .traffic (.cancelWaiting t) := by
  rcases step_cases hs with ⟨reply, effect, rfl, resumed, performed⟩ | ⟨_, rfl, -, same⟩ |
    ⟨tl, rfl, permits, moved, -⟩
  · cases effect with
    | none =>
      refine .inl ⟨(Option.some.inj performed).symm, fun m hm => ?_⟩
      cases hm
      simp only [Consumer.resumed, Loop.resume] at resumed
      split at resumed
      · cases congrArg Prod.snd (Option.some.inj resumed)
      · cases resumed
    | some tl =>
      refine .inr ⟨tl, step_trafficStep performed, fun m => ?_, fun t ht => ?_⟩
      · constructor
        · rintro rfl
          rw [resume_spawn resumed]
        · intro hl
          cases hl
          simp only [Consumer.resumed, Loop.resume] at resumed
          split at resumed
          · exact (Option.some.inj (congrArg Prod.snd (Option.some.inj resumed))).symm
          · cases resumed
      · subst ht
        rcases resume_effect resumed with h | h | ⟨-, _, h⟩ <;> cases h
  · exact .inl ⟨same, by rintro _ ⟨⟩⟩
  · refine .inr ⟨tl, step_trafficStep moved, fun m => ⟨?_, by rintro ⟨⟩⟩, fun t ht => by rw [ht]⟩
    rintro rfl
    cases permits

theorem step_inv (h : Inv app s.traffic) (hs : step app s l = some u) : Inv app u.traffic := by
  rcases step_spawns hs with ⟨same, -⟩ | ⟨tl, moved, -⟩
  · rwa [same]
  · exact inv_step h moved

theorem step_tracked (h : Inv app s.traffic) (tracked : Tracked s.traffic)
    (hs : step app s l = some u) (late : CancelledLate s l u) : Tracked u.traffic := by
  rcases step_spawns hs with ⟨same, -⟩ | ⟨tl, moved, -, cancels⟩
  · rwa [same]
  · exact tracked_step h tracked moved (fun t task ht at_t => late t task (cancels t ht) at_t)

theorem step_bounded (h : Inv app s.traffic)
    (bound : unfinished s.traffic ≤ app.settings.rmqPrefetchCount) (hs : step app s l = some u)
    (fits : FitsPrefetch app s l u) : Bounded app s l u := by
  unfold Bounded
  rcases step_spawns hs with ⟨same, -⟩ | ⟨tl, moved, spawns, -⟩
  · rwa [same]
  · rcases unfinished_step moved with ⟨m, spawn, more⟩ | ⟨-, less⟩
    · have room := fits m ((spawns m).mp spawn)
      have split := unfinished_split s.traffic
      have open_ones := onChannel_le_outstanding h
      omega
    · exact Nat.le_trans less bound

theorem bounded_fits (h : Inv app s.traffic) (tracked : Tracked s.traffic)
    (hs : step app s l = some u) (bound : Bounded app s l u) : FitsPrefetch app s l u := by
  unfold Bounded at bound
  intro m hl
  rcases step_spawns hs with ⟨-, other⟩ | ⟨tl, moved, spawns, -⟩
  · exact absurd hl (other m)
  · rcases unfinished_step moved with ⟨_, -, more⟩ | ⟨other, -⟩
    · have split := unfinished_split s.traffic
      have deliveries := outstanding_le_onChannel h tracked
      omega
    · exact absurd ((spawns m).mpr hl) (other m)

/-- In every run the prefetch count bounds the unfinished tasks when each message is
handed to a task while the tasks left behind and the deliveries of the current channel
are together fewer. Nothing weaker will do, unless waiting tasks are cancelled before
their channel is gone. -/
theorem bounded_iff (ls : List (Label Msg)) (u : Consumer Msg H) :
    (Along (step app) (FitsPrefetch app) Consumer.initial ls u →
      Along (step app) (Bounded app) Consumer.initial ls u) ∧
    (Along (step app) CancelledLate Consumer.initial ls u →
      (Along (step app) (Bounded app) Consumer.initial ls u ↔
        Along (step app) (FitsPrefetch app) Consumer.initial ls u)) := by
  constructor
  · intro fits
    refine fits.imp_of_invariant
      (fun s => Inv app s.traffic ∧ unfinished s.traffic ≤ app.settings.rmqPrefetchCount)
      ⟨inv_initial, Nat.zero_le _⟩ ?_ (fun _ _ _ h hs here => step_bounded h.1 h.2 hs here)
    exact fun _ _ _ h hs here => ⟨step_inv h.1 hs, step_bounded h.1 h.2 hs here⟩
  · intro late
    refine late.along_iff (fun s => Inv app s.traffic ∧ Tracked s.traffic ∧
      unfinished s.traffic ≤ app.settings.rmqPrefetchCount)
      ⟨inv_initial, by rintro _ _ _ ⟨⟩, Nat.zero_le _⟩ ?_ ?_
    · exact fun _ _ _ ⟨inv, tracked, bound⟩ hs late fits =>
        ⟨step_inv inv hs, step_tracked inv tracked hs late, step_bounded inv bound hs fits⟩
    · exact fun _ _ _ ⟨inv, tracked, bound⟩ hs _ =>
        ⟨bounded_fits inv tracked hs, step_bounded inv bound hs⟩

end Runs

section Examples

instance (app : App Msg H) (s : Consumer Msg H) (l : Label Msg) (u : Consumer Msg H) :
    Decidable (Bounded app s l u) :=
  inferInstanceAs (Decidable (unfinished u.traffic ≤ app.settings.rmqPrefetchCount))

instance (app : App Msg H) (s : Consumer Msg H) (l : Label Msg) (u : Consumer Msg H) :
    Decidable (FitsPrefetch app s l u) :=
  match l with
  | .resume (.yielded m) => decidable_of_iff
      (leftBehind s.traffic + s.traffic.outstanding < app.settings.rmqPrefetchCount)
      ⟨fun fits _ _ => fits, fun fits => fits m rfl⟩
  | .resume .returned | .resume (.raised _) | .resume .exhausted | .cancel _ | .traffic _ =>
    isTrue (fun _ => nofun)

instance (s : Consumer Msg H) (l : Label Msg) (u : Consumer Msg H) : Decidable (CancelledLate s l u) :=
  match l with
  | .traffic (.cancelWaiting t) => decidable_of_iff
      (∀ task ∈ s.traffic.tasks[t]?, s.traffic.channel task.channel ≠ .opened)
      ⟨by rintro late _ task ⟨⟩ at_t; exact late task at_t, fun late task at_t => late t task rfl at_t⟩
  | .traffic (.publish _) | .traffic (.spawnTask _) | .traffic .openChannel | .traffic .closeChannel
  | .traffic .loseChannel | .traffic .noticeLoss | .traffic (.acquire _)
  | .traffic (.handlerEnds _ _) | .resume _ | .cancel _ => isTrue (by rintro _ _ ⟨⟩)

def oneAtATime : App Unit Unit := { userCreatedApp with settings := ⟨50, 1⟩ }

/-- The connection is lost and comes back while the handler runs. -/
def untilReconnected : List (Label Unit) :=
  untilHandling ++ [.traffic .loseChannel, .traffic .noticeLoss, .traffic .openChannel]

theorem reconnect_exceeds_prefetch : ¬ ∀ ls u, Runs (step oneAtATime) Consumer.initial ls u →
    Along (step oneAtATime) (Bounded oneAtATime) Consumer.initial ls u := by
  intro h
  have along := h (untilReconnected ++ [.resume (.yielded ())]) _ (Runs.of_execute rfl)
  obtain ⟨w, before, enabled, bound⟩ := along.last
  cases before
  cases enabled
  exact absurd bound (by decide)

/-- The handler ends before its message comes again, and the shutdown cancels the second
task while it waits. -/
def untilCancelledLate : List (Label Unit) :=
  untilReconnected ++ [.traffic (.handlerEnds 0 (.ok ())), .resume (.yielded ()), .cancel false,
    .resume .returned, .resume .returned, .traffic (.cancelWaiting 1)]

theorem oneAtATime_bounded :
    (∃ u, Along (step oneAtATime) (Bounded oneAtATime) Consumer.initial untilHandling u) ∧
    ∃ u, Along (step oneAtATime) (FitsPrefetch oneAtATime) Consumer.initial untilCancelledLate u := by
  constructor
  · obtain ⟨u, fits⟩ : ∃ u,
        Along (step oneAtATime) (FitsPrefetch oneAtATime) Consumer.initial untilHandling u :=
      ⟨_, Along.of_execute rfl⟩
    exact ⟨u, (bounded_iff untilHandling u).1 fits⟩
  · obtain ⟨u, late, bounded⟩ : ∃ u,
        Along (step oneAtATime) CancelledLate Consumer.initial untilCancelledLate u ∧
        Along (step oneAtATime) (Bounded oneAtATime) Consumer.initial untilCancelledLate u :=
      ⟨_, Along.of_execute rfl, Along.of_execute rfl⟩
    exact ⟨u, ((bounded_iff untilCancelledLate u).2 late).mp bounded⟩

end Examples

end FastapiProject.ConsumerInFlight
