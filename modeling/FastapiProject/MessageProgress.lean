import FastapiProject.MachineProgress
import FastapiProject.MessageSlots

set_option autoImplicit false

/-!
# The message tasks always come to their end

As long as the semaphore was made with a slot, tasks that wait for one cannot wait for
each other: whoever holds a slot has an await of its own before it. Every await that ends
takes its task nearer to the end of `_process_message`.
-/
namespace FastapiProject.MessageProgress
open PythonExceptions MachineRuns MachineProgress IndexedLists ConsumerTraffic MessageSlots
open ConsumerLoop (userCreatedApp)

variable {Msg H : Type}

/-- The awaits that a message task still has before it, at most. -/
def awaitsLeft : SlotStage H → ℕ
  | .created => 5
  | .waiting _ => 4
  | .handling _ _ _ => 3
  | .nacking _ _ => 2
  | .leavingBlock _ _ => 1
  | .ended _ => 0

def remaining (s : State Msg H) : ℕ := total (fun task => awaitsLeft task.stage) s.tasks

/-- A message task moves: the consumer spawns nothing meanwhile. -/
def OfTask (_ : State Msg H) (l : SlotLabel Msg) (_ : State Msg H) : Prop :=
  match l with
  | .start _ | .acquired _ | .handlerEnds _ _ | .settlementEnds _ _ | .cancelTask _ => True
  | .resume _ | .cancelConsumer _ => False

def Follows (handler settlement : ℕ → Except Exn Unit) (_ : State Msg H) (l : SlotLabel Msg)
    (_ : State Msg H) : Prop :=
  match l with
  | .start _ | .acquired _ => True
  | .handlerEnds t outcome => outcome = handler t
  | .settlementEnds t outcome => outcome = settlement t
  | .cancelTask _ | .resume _ | .cancelConsumer _ => False

def Finished (app : App Msg H) (s : State Msg H) : Prop :=
  s.idle = true ∧ ∀ r, s.semaphore = some r →
    s.semaphores[r]? = some app.settings.rmqMaxConcurrentTasks

section Measure
variable {app : App Msg H} {s u : State Msg H} {t : ℕ} {task : SlotTask Msg H}

theorem blockStage_awaitsLeft (app : App Msg H) (m : Msg) (r : ℕ) :
    awaitsLeft (blockStage app m r) < 4 := by
  unfold blockStage
  split
  · exact Nat.lt_succ_self 3
  · exact Nat.lt_of_sub_eq_succ rfl
  · exact Nat.lt_of_sub_eq_succ rfl

theorem handledStage_awaitsLeft (r : ℕ) (outcome : Except Exn Unit) :
    awaitsLeft (handledStage r outcome : SlotStage H) < 3 := by
  unfold handledStage
  split
  · exact Nat.lt_of_sub_eq_succ rfl
  · split
    · exact Nat.lt_succ_self 2
    · exact Nat.lt_of_sub_eq_succ rfl

theorem getSemaphore_tasks (s : State Msg H) : (s.getSemaphore app).1.tasks = s.tasks := by
  unfold State.getSemaphore
  split <;> rfl

def Nearer (s : State Msg H) (t : ℕ) (task : SlotTask Msg H) (u : State Msg H) : Prop :=
  ∃ stage, u.tasks = s.tasks.set t { task with stage := stage } ∧
    awaitsLeft stage < awaitsLeft task.stage

theorem stepTask_nearer {l : SlotLabel Msg} (hs : stepTask app s t task l = some u) :
    Nearer s t task u := by
  cases l with
  | start _ =>
    cases hstage : task.stage with
    | created =>
      simp only [stepTask, hstage] at hs
      cases hs
      refine ⟨.waiting (s.getSemaphore app).2, ?_, by rw [hstage]; exact Nat.lt_succ_self 4⟩
      change (s.getSemaphore app).1.tasks.set t _ = _
      rw [getSemaphore_tasks]
    | _ => simp [stepTask, hstage] at hs
  | acquired _ =>
    cases hstage : task.stage with
    | waiting r =>
      simp only [stepTask, hstage] at hs
      obtain ⟨v, taken, rfl⟩ := Option.map_eq_some_iff.mp hs
      have same : v.tasks = s.tasks := by
        unfold State.take at taken
        split at taken <;> cases taken
        rfl
      refine ⟨blockStage app task.message r, ?_, ?_⟩
      · change v.tasks.set t _ = _
        rw [same]
      · rw [hstage]
        exact blockStage_awaitsLeft app task.message r
    | _ => simp [stepTask, hstage] at hs
  | handlerEnds _ outcome =>
    cases hstage : task.stage with
    | handling r handler body =>
      simp only [stepTask, hstage] at hs
      cases hs
      exact ⟨_, rfl, by rw [hstage]; exact handledStage_awaitsLeft r outcome⟩
    | _ => simp [stepTask, hstage] at hs
  | settlementEnds _ outcome =>
    cases hstage : task.stage with
    | nacking r e =>
      simp only [stepTask, hstage] at hs
      cases hs
      exact ⟨_, rfl, by rw [hstage]; exact Nat.lt_succ_self 1⟩
    | leavingBlock r block =>
      simp only [stepTask, hstage] at hs
      cases hs
      exact ⟨_, rfl, by rw [hstage]; exact Nat.lt_succ_self 0⟩
    | _ => simp [stepTask, hstage] at hs
  | cancelTask _ =>
    cases hstage : task.stage with
    | created | waiting r =>
      simp only [stepTask, hstage] at hs
      cases hs
      exact ⟨_, rfl, by rw [hstage]; exact Nat.succ_pos _⟩
    | _ => simp [stepTask, hstage] at hs
  | resume _ | cancelConsumer _ => cases hs

def taskOf : SlotLabel Msg → Option ℕ
  | .start t | .acquired t | .handlerEnds t _ | .settlementEnds t _ | .cancelTask t => some t
  | .resume _ | .cancelConsumer _ => none

theorem step_nearer {l : SlotLabel Msg} (own : taskOf l = some t) (hs : step app s l = some u) :
    ∃ task, s.tasks[t]? = some task ∧ Nearer s t task u := by
  cases l with
  | resume _ | cancelConsumer _ => cases own
  | start k | acquired k | handlerEnds k _ | settlementEnds k _ | cancelTask k =>
    cases own
    obtain ⟨task, at_t, hs⟩ := Option.bind_eq_some_iff.mp hs
    exact ⟨task, at_t, stepTask_nearer hs⟩

theorem step_spawns {l : SlotLabel Msg} (consumer : taskOf l = none) (hs : step app s l = some u) :
    ∃ spawned, u.tasks = s.tasks ++ spawned := by
  cases l with
  | resume reply =>
    obtain ⟨⟨loop, effect⟩, -, hu⟩ := Option.bind_eq_some_iff.mp hs
    obtain ⟨channels, spawned, performed, -⟩ := perform_spawned s effect
    cases hu
    rw [performed]
    exact ⟨spawned, rfl⟩
  | cancelConsumer isClosed =>
    obtain ⟨loop, -, hu⟩ := Option.bind_eq_some_iff.mp hs
    cases hu
    exact ⟨[], (List.append_nil _).symm⟩
  | _ => cases consumer

theorem ofTask_lowers (app : App Msg H) : Lowers (step app) OfTask remaining := by
  intro s l u hs moves
  have own : ∃ t, taskOf l = some t := by
    cases l with
    | resume _ | cancelConsumer _ => cases moves
    | _ => exact ⟨_, rfl⟩
  obtain ⟨t, own⟩ := own
  obtain ⟨task, at_t, stage, tasks, lower⟩ := step_nearer own hs
  rw [remaining, tasks]
  exact total_set_lt (fun task : SlotTask Msg H => awaitsLeft task.stage) at_t lower

theorem awaitsLeft_le (stage : SlotStage H) : awaitsLeft stage ≤ 5 := by
  cases stage with
  | created => exact Nat.le_refl 5
  | _ => exact Nat.le_of_ble_eq_true rfl

/-- In any run each task moves five times at most, one that is spawned on the way too. -/
theorem countP_taskOf {ls : List (SlotLabel Msg)} (run : Runs (step app) s ls u) (t : ℕ) :
    ls.countP (fun l => taskOf l = some t) ≤ 5 := by
  refine countP_party (fun task : SlotTask Msg H => awaitsLeft task.stage) State.tasks taskOf
    (fun s l u k hs own => ?_) (fun s l u hs consumer => ?_)
    (fun task _ => awaitsLeft_le task.stage) run t
  · obtain ⟨task, at_k, stage, tasks, lower⟩ := step_nearer own hs
    exact ⟨task, _, at_k, tasks, lower⟩
  · obtain ⟨spawned, tasks⟩ := step_spawns consumer hs
    exact ⟨spawned, tasks, fun task _ => awaitsLeft_le task.stage⟩

theorem follows_ofTask {handler settlement : ℕ → Except Exn Unit} (s : State Msg H)
    (l : SlotLabel Msg) (u : State Msg H) (follows : Follows handler settlement s l u) :
    OfTask s l u := by
  cases l with
  | cancelTask _ | resume _ | cancelConsumer _ => cases follows
  | _ => trivial

theorem remaining_le (s : State Msg H) : remaining s ≤ 5 * s.tasks.length :=
  total_le _ (fun task _ => awaitsLeft_le task.stage)

end Measure

section Progress
variable {app : App Msg H} {s u : State Msg H}

theorem slots_run {ls : List (SlotLabel Msg)} (run : Runs (step app) s ls u) (h : Slots app s) :
    Slots app u :=
  run.invariant (Slots app) h (fun _ _ _ h hs => slots_step h (step_slotStep hs))

theorem slots_initial (app : App Msg H) : Slots app (initial : State Msg H) :=
  .unused rfl rfl (by simp [initial])

theorem holder_moves {t : ℕ} {task : SlotTask Msg H} (handler settlement : ℕ → Except Exn Unit)
    (at_t : s.tasks[t]? = some task) (holds : task.stage.holds = true) :
    ∃ l u, step app s l = some u ∧ Follows handler settlement s l u := by
  cases hstage : task.stage with
  | handling r h body =>
    refine ⟨.handlerEnds t (handler t), s.setStage t task (handledStage r (handler t)), ?_, rfl⟩
    simp only [step, at_t, stepTask, hstage, Option.bind_eq_bind, Option.bind_some]
  | nacking r e =>
    refine ⟨.settlementEnds t (settlement t),
      s.setStage t task (.leavingBlock r (.error (raisedAfter e (settlement t)))), ?_, rfl⟩
    simp only [step, at_t, stepTask, hstage, Option.bind_eq_bind, Option.bind_some]
  | leavingBlock r block =>
    refine ⟨.settlementEnds t (settlement t),
      s.endTask t task r (leftBlock block (settlement t)), ?_, rfl⟩
    simp only [step, at_t, stepTask, hstage, Option.bind_eq_bind, Option.bind_some]
  | _ => simp [hstage, SlotStage.holds] at holds

theorem slots_free (h : Slots app s) (nobody : holders s = 0) {r : ℕ}
    (made : s.semaphore = some r) :
    s.semaphores[r]? = some app.settings.rmqMaxConcurrentTasks := by
  obtain ⟨free, here, sum⟩ := (conserved_of_slots h).made r made
  rw [here, ← sum, nobody, Nat.add_zero]

theorem waiter_moves (cap : 1 ≤ app.settings.rmqMaxConcurrentTasks) (h : Slots app s)
    (nobody : holders s = 0) {t r : ℕ} {task : SlotTask Msg H} (at_t : s.tasks[t]? = some task)
    (waiting : task.stage = .waiting r) : ∃ u, step app s (.acquired t) = some u := by
  have mem := List.mem_of_getElem? at_t
  have made := (conserved_of_slots h).shared task mem r (by rw [waiting]; rfl)
  obtain ⟨free, more⟩ := Nat.exists_eq_add_of_le' cap
  have room : s.semaphores[r]? = some (free + 1) := by rw [slots_free h nobody made, more]
  refine ⟨State.setStage { s with semaphores := s.semaphores.set r free } t task
    (blockStage app task.message r), ?_⟩
  simp only [step, at_t, stepTask, waiting, State.take, room, Option.bind_eq_bind,
    Option.bind_some, Option.map_some]

/-- No deadlock: while a task has not ended, one of them can move. -/
theorem unfinished_moves (cap : 1 ≤ app.settings.rmqMaxConcurrentTasks) (h : Slots app s)
    (handler settlement : ℕ → Except Exn Unit) {t : ℕ} {task : SlotTask Msg H}
    (at_t : s.tasks[t]? = some task) (unfinished : task.stage.finished = false) :
    ∃ l u, step app s l = some u ∧ Follows handler settlement s l u := by
  by_cases held : ∃ (k : ℕ) (holder : SlotTask Msg H), s.tasks[k]? = some holder ∧ holder.stage.holds = true
  · obtain ⟨k, holder, at_k, holds⟩ := held
    exact holder_moves handler settlement at_k holds
  · have nobody : holders s = 0 := List.countP_eq_zero.mpr (fun other mem holds => by
      obtain ⟨k, at_k⟩ := List.getElem?_of_mem mem
      exact held ⟨k, other, at_k, holds⟩)
    cases hstage : task.stage with
    | created =>
      refine ⟨.start t, (s.getSemaphore app).1.setStage t task (.waiting (s.getSemaphore app).2),
        ?_, trivial⟩
      simp only [step, at_t, stepTask, hstage, Option.bind_eq_bind, Option.bind_some]
    | waiting r =>
      obtain ⟨u, enabled⟩ := waiter_moves cap h nobody at_t hstage
      exact ⟨.acquired t, u, enabled, trivial⟩
    | ended outcome => simp [hstage, SlotStage.finished] at unfinished
    | _ => exact absurd ⟨t, task, at_t, by rw [hstage]; rfl⟩ held

theorem finished_of_halted (cap : 1 ≤ app.settings.rmqMaxConcurrentTasks) (h : Slots app s)
    {handler settlement : ℕ → Except Exn Unit}
    (halted : Halted (step app) (Follows handler settlement) s) : Finished app s := by
  have ended : ∀ task ∈ s.tasks, task.stage.finished = true := by
    intro task mem
    by_contra unfinished
    obtain ⟨t, at_t⟩ := List.getElem?_of_mem mem
    obtain ⟨l, u, enabled, follows⟩ := unfinished_moves cap h handler settlement at_t
      (Bool.eq_false_iff.mpr unfinished)
    exact halted l u enabled follows
  refine ⟨List.all_eq_true.mpr ended, fun r made => slots_free h ?_ made⟩
  refine List.countP_eq_zero.mpr (fun task mem holds => ?_)
  have finished := ended task mem
  unfold Holds at holds
  cases hstage : task.stage with
  | ended _ =>
    rw [hstage] at holds
    cases holds
  | _ =>
    rw [hstage] at finished
    cases finished

/-- No task moves more than five times. From every reachable state, the tasks that are
there stop only when all have ended and all the slots are free again, and do get there,
however their handlers and settlements end. -/
theorem tasks_complete (cap : 1 ≤ app.settings.rmqMaxConcurrentTasks)
    {before : List (SlotLabel Msg)} (start : Runs (step app) initial before s)
    (handler settlement : ℕ → Except Exn Unit) :
    (∀ after u, Runs (step app) s after u → ∀ t, after.countP (fun l => taskOf l = some t) ≤ 5) ∧
    (∀ after u, Along (step app) OfTask s after u → after.length ≤ 5 * s.tasks.length ∧
      (Halted (step app) (Follows handler settlement) u → Finished app u)) ∧
    ∃ after u, Along (step app) (Follows handler settlement) s after u ∧ Finished app u := by
  have slots := slots_run start (slots_initial app)
  refine ⟨fun _ _ run t => countP_taskOf run t, ?_, ?_⟩
  · intro after u run
    have short := (ofTask_lowers app).length_le run
    have bound := remaining_le s
    exact ⟨by omega, finished_of_halted cap (slots_run run.runs slots)⟩
  · have lowers := (ofTask_lowers app).mono (@follows_ofTask _ _ handler settlement)
    obtain ⟨after, u, run, halted⟩ := lowers.exists_halted s
    exact ⟨after, u, run, finished_of_halted cap (slots_run run.runs slots) halted⟩

end Progress

section Examples

def oneSlot : App Unit Unit := { userCreatedApp with settings := ⟨1, 2⟩ }

def untilBothWait : List (SlotLabel Unit) :=
  List.replicate 7 (.resume .returned) ++
    [.resume (.yielded ()), .resume (.yielded ()), .start 0, .start 1, .acquired 0]

theorem oneSlot_completes : ∃ s, Runs (step oneSlot) initial untilBothWait s ∧
    s.tasks.map (fun task => task.stage.semaphore?) = [some 0, some 0] ∧
    ∃ after u, Along (step oneSlot) (Follows (fun _ => .error .valueError) (fun _ => .ok ())) s
      after u ∧ Finished oneSlot u := by
  obtain ⟨s, start, both⟩ : ∃ s, Runs (step oneSlot) initial untilBothWait s ∧
      s.tasks.map (fun task => task.stage.semaphore?) = [some 0, some 0] :=
    ⟨_, Runs.of_execute rfl, rfl⟩
  exact ⟨s, start, both, (tasks_complete (Nat.le_refl 1) start _ _).2.2⟩

end Examples

end FastapiProject.MessageProgress
