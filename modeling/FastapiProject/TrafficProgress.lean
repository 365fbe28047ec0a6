import FastapiProject.MachineProgress
import FastapiProject.SemaphoreTuning

set_option autoImplicit false

/-!
# The work that is left to the message tasks

Each step of a task takes from it, and as long as there is work somebody can go on: who
holds a slot has a handler that ends, and where nobody holds one a slot is free.
-/
namespace FastapiProject.TrafficProgress
open PythonExceptions MachineRuns MachineProgress ConsumerMessage ConsumerTraffic
  ConsumerTrafficSteps SemaphoreTuning

variable {Msg H : Type}

def workLeft (task : MessageTask Msg H) : ℕ :=
  match task.stage with
  | .waiting => 2
  | .handling _ _ => 1
  | .ended _ => 0

def remaining (s : Traffic Msg H) : ℕ := total workLeft s.tasks

/-- A message task goes on; that one is cancelled while it waits is not needed. -/
def ofTask : TrafficLabel Msg → Bool
  | .acquire _ | .handlerEnds _ _ => true
  | .cancelWaiting _ | .publish _ | .spawnTask _ | .openChannel | .closeChannel | .loseChannel
  | .noticeLoss => false

section Traffic
variable [DecidableEq Msg] {app : App Msg H} {s u : Traffic Msg H} {l : TrafficLabel Msg}

omit [DecidableEq Msg] in
theorem remaining_moved {t : ℕ} {task : MessageTask Msg H} {stage : Stage H}
    (at_t : s.tasks[t]? = some task) (tasks : u.tasks = s.tasks.set t { task with stage := stage })
    (lower : workLeft { task with stage := stage } < workLeft task) :
    remaining u + 1 ≤ remaining s := by
  rw [remaining, tasks]
  exact total_set_lt workLeft at_t lower

theorem remaining_step (hs : TrafficStep app s l u) (noSpawn : ∀ m, l ≠ .spawnTask m) :
    remaining u + (if ofTask l = true then 1 else 0) ≤ remaining s := by
  cases hs with
  | published _ | opened => exact Nat.le_refl _
  | gone _ closes => (rcases closes with ⟨rfl, -⟩ | ⟨rfl, -⟩ | ⟨rfl, -⟩ <;> exact Nat.le_refl _)
  | delivered _ _ _ | yieldedLate _ _ => exact absurd rfl (noSpawn _)
  | invoked at_t waiting _ =>
    refine remaining_moved at_t rfl ?_
    rw [workLeft, workLeft, waiting]
    exact Nat.lt_succ_self 1
  | unrouted at_t waiting _ =>
    refine remaining_moved at_t rfl ?_
    rw [workLeft, workLeft, waiting]
    exact Nat.succ_pos 1
  | handled at_t handling =>
    refine remaining_moved at_t rfl ?_
    rw [workLeft, workLeft, handling]
    exact Nat.succ_pos 0
  | cancelled at_t waiting =>
    refine Nat.le_of_succ_le (remaining_moved at_t rfl ?_)
    rw [workLeft, workLeft, waiting]
    exact Nat.succ_pos 1

omit [DecidableEq Msg] in
theorem handling_of_waiting (nobody : ∀ task ∈ s.tasks, Handling task = false) : handling s = 0 := by
  refine List.countP_eq_zero.mpr (fun task mem => ?_)
  rw [nobody task mem]
  exact Bool.false_ne_true

/-- Tasks cannot all wait for a slot: where no handler is at work, one is free. -/
theorem task_moves (books : Books app s) (cap : 1 ≤ app.settings.rmqMaxConcurrentTasks)
    (busy : s.idle = false) : ∃ l u, s.step app l = some u ∧ ofTask l = true ∧
      ∀ t outcome, l = .handlerEnds t outcome → outcome = .ok () := by
  by_cases working : ∃ task ∈ s.tasks, Handling task = true
  · obtain ⟨task, mem, running⟩ := working
    obtain ⟨t, at_t⟩ := List.getElem?_of_mem mem
    cases stage : task.stage with
    | handling h body =>
      refine ⟨.handlerEnds t (.ok ()), { s.endTask t task (executeHandler (.ok ())) with
        handled := s.handled ++ [(task.message, .ok ())] }, ?_, rfl, by rintro _ _ ⟨⟩; rfl⟩
      simp only [Traffic.step, at_t, stage, Option.bind_eq_bind, Option.bind_some]
    | _ => simp [Handling, stage] at running
  · obtain ⟨task, mem, live⟩ := List.all_eq_false.mp busy
    obtain ⟨t, at_t⟩ := List.getElem?_of_mem mem
    have nobody : ∀ task ∈ s.tasks, Handling task = false := fun task mem =>
      Bool.eq_false_iff.mpr (fun running => working ⟨task, mem, running⟩)
    have waiting : task.stage = .waiting := by
      have still := nobody task mem
      cases stage : task.stage with
      | waiting => rfl
      | handling _ _ => simp [Handling, stage] at still
      | ended _ => simp [Stage.finished, stage] at live
    have free : handling s < app.settings.rmqMaxConcurrentTasks := by
      rw [handling_of_waiting nobody]
      exact cap
    obtain ⟨u, acquired⟩ := (acquire_iff books at_t waiting).mpr free
    exact ⟨.acquire t, u, acquired, rfl, by rintro _ _ ⟨⟩⟩

omit [DecidableEq Msg] in
theorem remaining_le (traffic : Traffic Msg H) : remaining traffic ≤ 2 * traffic.tasks.length := by
  refine total_le workLeft (fun task _ => ?_)
  unfold workLeft
  split <;> decide

end Traffic

end FastapiProject.TrafficProgress
