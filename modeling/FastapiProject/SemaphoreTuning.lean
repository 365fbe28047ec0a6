import FastapiProject.ConsumerInFlight

set_option autoImplicit false

/-!
# The semaphore beside the prefetch count

The rule of thumb over `_semaphore`, and of the settings: with a semaphore that is no
smaller than the prefetch count, messages never queue up for a slot as long as the broker's
count holds for the tasks.
-/
namespace FastapiProject.SemaphoreTuning
open PythonExceptions PythonJson MachineRuns IndexedLists ConsumerMessage ConsumerTraffic
  ConsumerTrafficSteps ConsumerLoop ConsumerInFlight

variable {Msg H : Type}

def Handling (task : MessageTask Msg H) : Bool :=
  match task.stage with
  | .handling _ _ => true
  | .waiting | .ended _ => false

def handling (s : Traffic Msg H) : ℕ := s.tasks.countP Handling

/-- The free slots of the semaphore, made or not, and the taken ones are all there are. -/
def Books (app : App Msg H) (s : Traffic Msg H) : Prop :=
  s.semaphore.getD app.settings.rmqMaxConcurrentTasks + handling s =
      app.settings.rmqMaxConcurrentTasks ∧ (s.semaphore = none → handling s = 0)

section Books
variable {app : App Msg H} {s u : Traffic Msg H} {t : ℕ} {task : MessageTask Msg H}

theorem handling_setStage (at_t : s.tasks[t]? = some task) (stage : Stage H)
    (tasks : u.tasks = s.tasks.set t { task with stage := stage }) :
    handling u + (if Handling task = true then 1 else 0) =
      handling s + (if Handling { task with stage := stage } = true then 1 else 0) := by
  rw [handling, tasks]
  exact countP_set_add at_t Handling { task with stage := stage }

theorem books_of_same (books : Books app s) (semaphore : u.semaphore = s.semaphore)
    (same : handling u = handling s) : Books app u := by
  unfold Books
  rw [semaphore, same]
  exact books

theorem handling_spawn (s : Traffic Msg H) (m : Msg) (place : Msg → Place) :
    handling { s with tasks := s.tasks ++ [⟨m, s.current, .waiting⟩], place := place } = handling s := by
  rw [handling, countP_concat]
  rfl

theorem books_moved {slots : ℕ} (stage : Stage H) (at_t : s.tasks[t]? = some task)
    (tasks : u.tasks = s.tasks.set t { task with stage := stage }) (made : u.semaphore = some slots)
    (sum : slots + handling s + (if Handling { task with stage := stage } = true then 1 else 0) =
      app.settings.rmqMaxConcurrentTasks + (if Handling task = true then 1 else 0)) : Books app u := by
  have moved := handling_setStage at_t stage tasks
  refine ⟨?_, fun none => nomatch made.symm.trans none⟩
  rw [made, Option.getD_some]
  omega

variable [DecidableEq Msg]

theorem books_acquire (books : Books app s) (at_t : s.tasks[t]? = some task)
    (waiting : task.stage = .waiting) (hs : acquire app s t task = some u) : Books app u := by
  have idle : Handling task = false := by rw [Handling, waiting]
  obtain ⟨sum, -⟩ := books
  unfold acquire at hs
  split at hs
  · cases hs
  · rename_i free slots
    rw [slots] at sum
    split at hs
    · rename_i handler body routed
      cases hs
      have busy : Handling { task with stage := .handling handler body } = true := rfl
      refine books_moved (.handling handler body) at_t rfl rfl ?_
      rw [idle, busy, if_pos rfl, if_neg Bool.false_ne_true]
      omega
    · cases hs
      refine books_moved (.ended _) at_t rfl rfl ?_
      rw [idle, if_neg Bool.false_ne_true]
      change free + 1 + handling s + 0 = _
      omega
    · cases hs
      refine books_moved (.ended _) at_t rfl rfl ?_
      rw [idle, if_neg Bool.false_ne_true]
      change free + 1 + handling s + 0 = _
      omega

theorem books_handled (books : Books app s) (at_t : s.tasks[t]? = some task) {handler : H}
    {body : Json} (running : task.stage = .handling handler body) (outcome : Except Exn Unit) :
    Books app { s.endTask t task (executeHandler outcome) with
      handled := s.handled ++ [(task.message, outcome)] } := by
  have busy : Handling task = true := by rw [Handling, running]
  obtain ⟨sum, unmade⟩ := books
  cases made : s.semaphore with
  | none =>
    have some : 0 < handling s := List.countP_pos_iff.mpr ⟨task, List.mem_of_getElem? at_t, busy⟩
    have nobody := unmade made
    omega
  | some free =>
    rw [made, Option.getD_some] at sum
    have given : s.semaphore.map (· + 1) = some (free + 1) := by
      rw [made]
      rfl
    refine books_moved (.ended _) at_t rfl given ?_
    rw [busy, if_pos rfl]
    change free + 1 + handling s + 0 = _
    omega

theorem books_step (books : Books app s) {l : TrafficLabel Msg} (hs : s.step app l = some u) :
    Books app u := by
  by_cases acquires : ∃ t, l = .acquire t
  · obtain ⟨t, rfl⟩ := acquires
    obtain ⟨task, at_t, hs⟩ := Option.bind_eq_some_iff.mp hs
    cases hstage : task.stage with
    | waiting => exact books_acquire books at_t hstage (by simpa [hstage] using hs)
    | _ => simp [hstage] at hs
  cases step_trafficStep hs with
  | published _ | opened | gone _ _ => exact books_of_same books rfl rfl
  | @delivered m _ _ _ _ => exact books_of_same books rfl (handling_spawn s m _)
  | @yieldedLate m _ _ => exact books_of_same books rfl (handling_spawn s m s.place)
  | invoked _ _ _ | unrouted _ _ _ => exact (acquires ⟨_, rfl⟩).elim
  | handled at_t running => exact books_handled books at_t running _
  | @cancelled t task at_t waiting =>
    have moved := handling_setStage (u := s.setStage t task (.ended (.error .cancelledError)))
      at_t _ rfl
    refine books_of_same books rfl ?_
    simpa [Handling, waiting] using moved

/-- A task gets its slot just when fewer handlers run than there may. -/
theorem acquire_iff (books : Books app s) (at_t : s.tasks[t]? = some task)
    (waiting : task.stage = .waiting) : (∃ u, s.step app (.acquire t) = some u) ↔
      handling s < app.settings.rmqMaxConcurrentTasks := by
  have unfolded : s.step app (.acquire t) = acquire app s t task := by
    simp only [Traffic.step, at_t, Option.bind_eq_bind, Option.bind_some, waiting]
  obtain ⟨sum, -⟩ := books
  rw [unfolded, acquire]
  cases slots : s.semaphore.getD app.settings.rmqMaxConcurrentTasks with
  | zero =>
    refine iff_of_false ?_ (by omega)
    rintro ⟨u, ⟨⟩⟩
  | succ free =>
    refine iff_of_true ?_ (by omega)
    dsimp only
    split <;> exact ⟨_, rfl⟩

end Books

theorem handling_lt_unfinished {s : Traffic Msg H} {t : ℕ} {task : MessageTask Msg H}
    (at_t : s.tasks[t]? = some task) (waiting : task.stage = .waiting) :
    handling s < unfinished s := by
  have split := countP_and_not s.tasks Unfinished Handling
  have running : s.tasks.countP (fun task => Unfinished task && Handling task) = handling s := by
    refine List.countP_congr (fun other _ => ?_)
    unfold Unfinished Handling
    cases other.stage <;> simp [Stage.finished]
  have here : 0 < s.tasks.countP (fun task => Unfinished task && !Handling task) := by
    refine List.countP_pos_iff.mpr ⟨task, List.mem_of_getElem? at_t, ?_⟩
    simp [Unfinished, Handling, waiting, Stage.finished]
  rw [running] at split
  unfold unfinished
  omega

section Runs
variable [DecidableEq Msg] {app : App Msg H} {u : Consumer Msg H}

/-- Where every message is handed to a task within the prefetch count, a semaphore that is no
smaller than it never makes a task wait. -/
theorem semaphore_never_blocks (rule : app.settings.rmqPrefetchCount ≤ app.settings.rmqMaxConcurrentTasks)
    {ls : List (Label Msg)} (fits : Along (step app) (FitsPrefetch app) Consumer.initial ls u)
    {t : ℕ} {task : MessageTask Msg H} (at_t : u.traffic.tasks[t]? = some task)
    (waiting : task.stage = .waiting) : ∃ v, step app u (.traffic (.acquire t)) = some v := by
  obtain ⟨-, bound, books⟩ := fits.invariant
    (fun s => Inv app s.traffic ∧ unfinished s.traffic ≤ app.settings.rmqPrefetchCount ∧
      Books app s.traffic) ⟨inv_initial, Nat.zero_le _, rfl, fun _ => rfl⟩
    (fun s l u ⟨inv, bound, books⟩ hs here => by
      refine ⟨step_inv inv hs, step_bounded inv bound hs here, ?_⟩
      rcases step_traffic hs with ⟨same, -⟩ | ⟨tl, moved, -⟩
      · rwa [same]
      · exact books_step books moved)
  have less := handling_lt_unfinished at_t waiting
  obtain ⟨traffic, acquired⟩ := (acquire_iff books at_t waiting).mpr (by omega)
  refine ⟨{ u with traffic := traffic }, ?_⟩
  simp only [step, Consumer.permits, acquired, ↓reduceIte, Option.bind_eq_bind, Option.bind_some,
    Option.pure_def]

end Runs

section Examples

def threeSlots : App ℕ Unit where
  settings := ⟨3, 3⟩
  handlers := userCreatedApp.handlers
  depth := userCreatedApp.depth
  body _ := userCreatedApp.body ()

/-- Two handlers run when the connection is lost; it comes back with a third message. -/
def untilWaiting : List (Label ℕ) :=
  [.traffic (.publish 0), .traffic (.publish 1), .traffic (.publish 2)] ++
    List.replicate 7 (.resume .returned) ++
    [.resume (.yielded 0), .traffic (.acquire 0), .resume (.yielded 1), .traffic (.acquire 1),
      .traffic .loseChannel, .traffic .noticeLoss, .traffic .openChannel, .resume (.yielded 2)]

theorem third_message_never_waits : ∃ u v,
    Along (step threeSlots) (FitsPrefetch threeSlots) Consumer.initial untilWaiting u ∧
      handling u.traffic = 2 ∧ u.traffic.tasks[2]? = some ⟨2, 2, .waiting⟩ ∧
      step threeSlots u (.traffic (.acquire 2)) = some v := by
  obtain ⟨u, fits, busy, at_2⟩ : ∃ u,
      Along (step threeSlots) (FitsPrefetch threeSlots) Consumer.initial untilWaiting u ∧
      handling u.traffic = 2 ∧ u.traffic.tasks[2]? = some ⟨2, 2, .waiting⟩ :=
    ⟨_, Along.of_execute rfl, rfl, rfl⟩
  obtain ⟨v, acquired⟩ := semaphore_never_blocks (by decide) fits at_2 rfl
  exact ⟨u, v, fits, busy, at_2, acquired⟩

end Examples

end FastapiProject.SemaphoreTuning
