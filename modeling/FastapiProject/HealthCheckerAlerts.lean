import Mathlib.Data.List.Induction
import FastapiProject.HealthChecker

set_option autoImplicit false

/-!
# Alerts of the checker beside the consumer

The checker keeps no memory of its alerts but the published status, and the consumer
writes that status as well. `status_after` says what the status remembers.
-/
namespace FastapiProject.HealthCheckerAlerts
open HealthChecker

variable {Time : Type}

inductive Event (Time : Type) where
  | tick (o : ProbeOutcome) (method : ProbeMethod) (now : Time)
  | channelError
  deriving DecidableEq, Repr

def onEvent (h : RMQHealthState Time) : Event Time → RMQHealthState Time
  | .tick o method now => (checkerTick h (o.result method) now).1
  | .channelError => channelErrorBranch h

def afterEvents (es : List (Event Time)) : RMQHealthState Time := es.foldl onEvent {}

def lastOutcome (es : List (Event Time)) : Option ProbeOutcome :=
  es.foldl (fun last e => match e with | .tick o _ _ => some o | .channelError => last) none

def channelErrorSinceTick (es : List (Event Time)) : Bool :=
  es.foldl (fun _ e => match e with | .tick _ _ _ => false | .channelError => true) false

section Append
variable (es : List (Event Time)) (o : ProbeOutcome) (method : ProbeMethod) (now : Time)

@[simp] theorem afterEvents_tick : afterEvents (es ++ [.tick o method now]) =
    (checkerTick (afterEvents es) (o.result method) now).1 := by
  simp [afterEvents, onEvent]

@[simp] theorem afterEvents_channelError :
    afterEvents (es ++ [.channelError]) = channelErrorBranch (afterEvents es) := by
  simp [afterEvents, onEvent]

@[simp] theorem lastOutcome_tick : lastOutcome (es ++ [.tick o method now]) = some o := by
  simp [lastOutcome]

@[simp] theorem lastOutcome_channelError : lastOutcome (es ++ [.channelError]) = lastOutcome es := by
  simp [lastOutcome]

@[simp] theorem channelErrorSinceTick_tick :
    channelErrorSinceTick (es ++ [.tick o method now]) = false := by
  simp [channelErrorSinceTick]

@[simp] theorem channelErrorSinceTick_channelError :
    channelErrorSinceTick (es ++ [.channelError]) = true := by
  simp [channelErrorSinceTick]

end Append

theorem tick_status (h : RMQHealthState Time) (o : ProbeOutcome) (method : ProbeMethod) (now : Time) :
    ((checkerTick h (o.result method) now).1.status = .degraded ↔ o = .queueMissing) ∧
    ((checkerTick h (o.result method) now).1.status = .dead ↔ o = .brokerDown) := by
  rw [checkerTick_record]
  cases o with
  | healthy => dsimp only; split <;> simp
  | queueMissing => simp
  | brokerDown => simp

/-- The status remembers the last failed outcome, unless the consumer wrote over it. -/
theorem status_after (es : List (Event Time)) :
    ((afterEvents es).status = .degraded ↔
      channelErrorSinceTick es = true ∨ lastOutcome es = some .queueMissing) ∧
    ((afterEvents es).status = .dead ↔
      channelErrorSinceTick es = false ∧ lastOutcome es = some .brokerDown) := by
  induction es using List.reverseRecOn with
  | nil => simp [afterEvents, channelErrorSinceTick, lastOutcome]
  | append_singleton es e _ =>
    cases e with
    | tick o method now =>
      obtain ⟨degraded, dead⟩ := tick_status (afterEvents es) o method now
      simp [degraded, dead]
    | channelError => simp [channelErrorBranch]

theorem onQueueMissing_iff (h : RMQHealthState Time) (o : ProbeOutcome) (method : ProbeMethod)
    (now : Time) : (checkerTick h (o.result method) now).2 = some .onQueueMissing ↔
      o = .queueMissing ∧ h.status ≠ .degraded := by
  rw [checkerTick_hook]
  cases o with
  | healthy => dsimp only; split <;> simp
  | queueMissing => simp
  | brokerDown => dsimp only; split <;> simp

theorem onRabbitmqDown_iff (h : RMQHealthState Time) (o : ProbeOutcome) (method : ProbeMethod)
    (now : Time) : (checkerTick h (o.result method) now).2 = some .onRabbitmqDown ↔
      o = .brokerDown ∧ h.status ≠ .dead := by
  rw [checkerTick_hook]
  cases o with
  | healthy => dsimp only; split <;> simp
  | queueMissing => dsimp only; split <;> simp
  | brokerDown => simp

/-- Each alert fires in the ticks where its outage begins, and in no other. -/
def EdgeTriggered (es : List (Event Time)) : Prop :=
  ∀ pre o method now post, es = pre ++ .tick o method now :: post →
    ((checkerTick (afterEvents pre) (o.result method) now).2 = some .onQueueMissing ↔
      o = .queueMissing ∧ lastOutcome pre ≠ some .queueMissing) ∧
    ((checkerTick (afterEvents pre) (o.result method) now).2 = some .onRabbitmqDown ↔
      o = .brokerDown ∧ lastOutcome pre ≠ some .brokerDown)

/-- No channel error falls between a tick and a next one that finds the queue newly
missing or the broker still down. -/
def NoMaskedTick (es : List (Event Time)) : Prop :=
  ∀ pre o method now post, es = pre ++ .tick o method now :: post →
    channelErrorSinceTick pre = true →
      ¬ (o = .queueMissing ∧ lastOutcome pre ≠ some .queueMissing) ∧
      ¬ (o = .brokerDown ∧ lastOutcome pre = some .brokerDown)

theorem masked_tick_iff (pre : List (Event Time)) (o : ProbeOutcome) (method : ProbeMethod)
    (now : Time) :
    (((checkerTick (afterEvents pre) (o.result method) now).2 = some .onQueueMissing ↔
      o = .queueMissing ∧ lastOutcome pre ≠ some .queueMissing) ∧
    ((checkerTick (afterEvents pre) (o.result method) now).2 = some .onRabbitmqDown ↔
      o = .brokerDown ∧ lastOutcome pre ≠ some .brokerDown)) ↔
    (channelErrorSinceTick pre = true →
      ¬ (o = .queueMissing ∧ lastOutcome pre ≠ some .queueMissing) ∧
      ¬ (o = .brokerDown ∧ lastOutcome pre = some .brokerDown)) := by
  obtain ⟨degraded, dead⟩ := status_after pre
  rw [onQueueMissing_iff, onRabbitmqDown_iff]
  simp only [ne_eq, degraded, dead]
  cases channelErrorSinceTick pre with
  | false => simp
  | true =>
    cases o with
    | healthy => simp
    | queueMissing => simp
    | brokerDown => simp

/-- The alerts are edge-triggered in exactly the runs without a masked tick. -/
theorem edgeTriggered_iff (es : List (Event Time)) : EdgeTriggered es ↔ NoMaskedTick es := by
  constructor
  · intro h pre o method now post split
    exact (masked_tick_iff pre o method now).mp (h pre o method now post split)
  · intro h pre o method now post split
    exact (masked_tick_iff pre o method now).mpr (h pre o method now post split)

/-- A queue lost between two ticks raises no alert when the consumer noticed it first. -/
theorem channelError_hides_queueMissing : ¬ EdgeTriggered
    [Event.tick .healthy .passive 0, .channelError, .tick .queueMissing .newConnection 1] := by
  intro h
  have alert := (h [.tick .healthy .passive 0, .channelError] .queueMissing .newConnection 1 [] rfl).1
  exact absurd (alert.mpr ⟨rfl, by decide⟩) (by decide)

end FastapiProject.HealthCheckerAlerts
