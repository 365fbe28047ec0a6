import Mathlib.Tactic.Cases
import FastapiProject.PythonExceptions

set_option autoImplicit false

/-!
# The code after the `yield` of `lifespan`

`main.py`, lines 78 to 88. A task carries its whole life as far as shutdown can see it:
what it stored when it ended, or what it will end with once it is cancelled.
-/
namespace FastapiProject.LifespanShutdown
open PythonExceptions

inductive TaskName where
  | consumerTask
  | healthTask
  deriving DecidableEq, Repr

inductive Task where
  | finished (stored : Except Exn Unit)
  | running (onCancel : Except Exn Unit)

inductive Action where
  | cancel (task : TaskName)
  | awaitTask (task : TaskName)
  | closePublisher
  | acloseHttpClient
  deriving DecidableEq, Repr

/-- `await task` after `task.cancel()`, which does nothing to a task that has ended. -/
def Task.outcome : Task → Except Exn Unit
  | .finished stored => stored
  | .running onCancel => onCancel

/-- `try: await task`, `except asyncio.CancelledError: pass`. -/
def awaitCancelled (task : Task) : Except Exn Unit :=
  match task.outcome with
  | .error .cancelledError => .ok ()
  | outcome => outcome

def cancelTasks : List (TaskName × Task) → List Action × Except Exn Unit
  | [] => ([], .ok ())
  | (name, task) :: rest =>
    match awaitCancelled task with
    | .ok () =>
      let (actions, outcome) := cancelTasks rest
      (.cancel name :: .awaitTask name :: actions, outcome)
    | .error e => ([.cancel name, .awaitTask name], .error e)

/-- How `publisher.close()` ends, given how the two calls in it end; `none` when the
object is missing or closed already and the call is not made. -/
def closePublisher (channelClose connectionClose : Option (Except Exn Unit)) : Except Exn Unit := do
  channelClose.getD (.ok ())
  connectionClose.getD (.ok ())

def lifespanExit (consumer health : Task) (close aclose : Except Exn Unit) :
    List Action × Except Exn Unit :=
  match cancelTasks [(.consumerTask, consumer), (.healthTask, health)] with
  | (actions, .error e) => (actions, .error e)
  | (actions, .ok ()) =>
    match close with
    | .error e => (actions ++ [.closePublisher], .error e)
    | .ok () => (actions ++ [.closePublisher, .acloseHttpClient], aclose)

/-- Both tasks are cancelled and awaited, and then both closings run. -/
def ReleasesEverything (actions : List Action) : Prop :=
  ∃ before, actions = before ++ [.closePublisher, .acloseHttpClient] ∧
    ∀ name, Action.cancel name ∈ before ∧ Action.awaitTask name ∈ before

def Closes (closing : Option (Except Exn Unit)) : Prop := ∀ e, closing ≠ some (.error e)

def EndsQuietly (task : Task) : Prop :=
  task.outcome = .ok () ∨ task.outcome = .error .cancelledError

theorem awaitCancelled_ok_iff (task : Task) : awaitCancelled task = .ok () ↔ EndsQuietly task := by
  unfold awaitCancelled EndsQuietly
  cases task.outcome with
  | ok _ => simp
  | error e => cases e <;> simp

theorem closePublisher_ok_iff (channelClose connectionClose : Option (Except Exn Unit)) :
    closePublisher channelClose connectionClose = .ok () ↔
      Closes channelClose ∧ Closes connectionClose := by
  unfold closePublisher Closes
  rcases channelClose with _ | (e | _) <;> rcases connectionClose with _ | (e' | _) <;>
    simp [bind, Except.bind]

theorem cancelTasks_ok (tasks : List (TaskName × Task))
    (quiet : ∀ entry ∈ tasks, EndsQuietly entry.2) :
    cancelTasks tasks =
      (tasks.flatMap (fun entry => [.cancel entry.1, .awaitTask entry.1]), .ok ()) := by
  induction tasks with
  | nil => rfl
  | cons entry rest ih =>
    obtain ⟨name, task⟩ := entry
    have here := (awaitCancelled_ok_iff task).mpr (quiet _ List.mem_cons_self)
    have tail := ih (fun entry hmem => quiet entry (List.mem_cons_of_mem _ hmem))
    simp [cancelTasks, here, tail]

theorem cancelTasks_no_closing (tasks : List (TaskName × Task)) :
    Action.acloseHttpClient ∉ (cancelTasks tasks).1 := by
  induction tasks with
  | nil => exact List.not_mem_nil
  | cons entry rest ih =>
    obtain ⟨name, task⟩ := entry
    cases hr : awaitCancelled task with
    | ok _ => simpa [cancelTasks, hr] using ih
    | error e => simp [cancelTasks, hr]

theorem cancelTasks_error (tasks : List (TaskName × Task)) (name : TaskName) {task : Task}
    (hmem : (name, task) ∈ tasks) (loud : ¬ EndsQuietly task) :
    ∃ e, (cancelTasks tasks).2 = .error e := by
  induction tasks with
  | nil => cases hmem
  | cons entry rest ih =>
    obtain ⟨name', task'⟩ := entry
    cases hr : awaitCancelled task' with
    | error e => exact ⟨e, by simp [cancelTasks, hr]⟩
    | ok _ =>
      rcases List.mem_cons.mp hmem with same | later
      · cases same
        exact absurd ((awaitCancelled_ok_iff _).mp hr) loud
      · obtain ⟨e, he⟩ := ih later
        exact ⟨e, by simpa [cancelTasks, hr] using he⟩

theorem releasesEverything_mem {actions : List Action} (h : ReleasesEverything actions) :
    Action.acloseHttpClient ∈ actions := by
  obtain ⟨before, rfl, -⟩ := h
  simp

/-- Everything is released exactly when both tasks end quietly and neither closing that
the publisher awaits raises. -/
theorem lifespanExit_releases_iff (consumer health : Task)
    (channelClose connectionClose : Option (Except Exn Unit)) (aclose : Except Exn Unit) :
    ReleasesEverything
        (lifespanExit consumer health (closePublisher channelClose connectionClose) aclose).1 ↔
      EndsQuietly consumer ∧ EndsQuietly health ∧
        Closes channelClose ∧ Closes connectionClose := by
  rw [← closePublisher_ok_iff]
  generalize closePublisher channelClose connectionClose = close
  have silent := cancelTasks_no_closing [(.consumerTask, consumer), (.healthTask, health)]
  by_cases hq : EndsQuietly consumer ∧ EndsQuietly health
  · obtain ⟨hc, hh⟩ := hq
    have loop := cancelTasks_ok [(.consumerTask, consumer), (.healthTask, health)]
      (by simp [hc, hh])
    cases close with
    | error e =>
      refine iff_of_false (fun h => ?_) (by simp)
      have closed := releasesEverything_mem h
      simp [lifespanExit, loop] at closed
    | ok _ =>
      refine iff_of_true ⟨_, by simp only [lifespanExit, loop]; rfl, fun name => ?_⟩ ⟨hc, hh, rfl⟩
      cases name <;> simp
  · refine iff_of_false (fun h => ?_) (fun h => hq ⟨h.1, h.2.1⟩)
    have raised : ∃ e, (cancelTasks [(.consumerTask, consumer), (.healthTask, health)]).2 =
        .error e := by
      by_cases hc : EndsQuietly consumer
      · exact cancelTasks_error _ .healthTask (by simp) (fun hh => hq ⟨hc, hh⟩)
      · exact cancelTasks_error _ .consumerTask (by simp) hc
    obtain ⟨e, he⟩ := raised
    have closed := releasesEverything_mem h
    rcases hl : cancelTasks [(.consumerTask, consumer), (.healthTask, health)] with ⟨actions, r⟩
    rw [hl] at he silent
    simp only at he silent
    subst he
    simp only [lifespanExit, hl] at closed
    exact silent closed

/-- A health task that ended when one of its hooks raised leaves both clients open. -/
theorem crashed_health_task_skips_cleanup : ¬ ReleasesEverything
    (lifespanExit (.running (.error .cancelledError)) (.finished (.error .runtimeError))
      (closePublisher none none) (.ok ())).1 := by
  intro h
  have closed := releasesEverything_mem h
  exact absurd closed (by decide)

end FastapiProject.LifespanShutdown
