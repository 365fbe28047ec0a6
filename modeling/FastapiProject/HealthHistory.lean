import FastapiProject.HealthCheckerAlerts
import FastapiProject.ListHistories

set_option autoImplicit false

/-!
# The health record as a function of the probe history

`rmq_health_checker` alone, with hooks that return. The loop keeps seven fields and
branches on one of them; `closedForm` says what each field is from the outcomes so far.
-/
namespace FastapiProject.HealthHistory
open HealthChecker HealthCheckerAlerts ListHistories

variable {Time : Type}

structure Tick (Time : Type) where
  outcome : ProbeOutcome
  method : ProbeMethod
  time : Time
  deriving DecidableEq, Repr

def Tick.event (t : Tick Time) : Event Time := .tick t.outcome t.method t.time

def afterTicks (ticks : List (Tick Time)) : RMQHealthState Time :=
  afterEvents (ticks.map Tick.event)

def previousOutcome (ticks : List (Tick Time)) : Option ProbeOutcome :=
  ticks.getLast?.map Tick.outcome

def outcomeAt (ticks : List (Tick Time)) (i : ℕ) : Option ProbeOutcome := ticks[i]?.map Tick.outcome

def HealthyAt (ticks : List (Tick Time)) (i : ℕ) : Prop := outcomeAt ticks i = some .healthy

/-- Tick `i`, counted from 0, begins an outage or turns one kind of outage into the other. -/
def OutageAt (ticks : List (Tick Time)) (i : ℕ) : Prop :=
  outcomeAt ticks i ≠ some .healthy ∧ (i = 0 ∨ outcomeAt ticks (i - 1) ≠ outcomeAt ticks i)

structure ClosedForm (ticks : List (Tick Time)) (t : Tick Time) (h : RMQHealthState Time) : Prop where
  failures : LongestSuffix (fun u => u.outcome ≠ .healthy) (ticks ++ [t]) h.consecutiveFailures
  lastChecked : h.lastChecked = some t.time
  lastAlive : ∃ last, LastWhere (ticks ++ [t]) (HealthyAt (ticks ++ [t])) last ∧
    h.lastAlive = last.map Tick.time
  lastDead : ∃ last, LastWhere (ticks ++ [t]) (OutageAt (ticks ++ [t])) last ∧
    h.lastDead = last.map Tick.time
  dead : h.status = .dead ↔ t.outcome = .brokerDown
  degraded : h.status = .degraded ↔ t.outcome = .queueMissing
  healthy : h.status = .alive ∨ h.status = .recovered ↔ t.outcome = .healthy
  recovered : ∀ p ∈ ticks.getLast?, t.outcome = .healthy → p.outcome ≠ .healthy →
    h.status = .recovered
  alive : ∀ p ∈ ticks.getLast?, t.outcome = .healthy → p.outcome = .healthy → h.status = .alive
  queueExists : h.queueExists = (t.outcome.result t.method).queueExists
  probeMethod : h.probeMethod = (t.outcome.result t.method).method

def fired (ticks : List (Tick Time)) (t : Tick Time) : Option Hook :=
  (checkerTick (afterTicks ticks) (t.outcome.result t.method) t.time).2

def hookDue (previous : Option ProbeOutcome) : ProbeOutcome → Option Hook
  | .healthy => some (if previous ≠ some .healthy then .onRabbitmqRecovered else .onRabbitmqStillAlive)
  | .queueMissing => if previous ≠ some .queueMissing then some .onQueueMissing else none
  | .brokerDown => some (if previous ≠ some .brokerDown then .onRabbitmqDown else .onRabbitmqStillDead)

section Append
variable (ticks : List (Tick Time)) (t : Tick Time)

@[simp] theorem afterTicks_nil : afterTicks ([] : List (Tick Time)) = {} := rfl

@[simp] theorem afterTicks_concat : afterTicks (ticks ++ [t]) =
    (checkerTick (afterTicks ticks) (t.outcome.result t.method) t.time).1 := by
  rw [afterTicks, List.map_append, List.map_singleton, Tick.event, afterEvents_tick]
  rfl

@[simp] theorem previousOutcome_concat : previousOutcome (ticks ++ [t]) = some t.outcome := by
  simp [previousOutcome]

theorem outcomeAt_here : outcomeAt (ticks ++ [t]) ticks.length = some t.outcome := by
  rw [outcomeAt, List.getElem?_concat_length, Option.map_some]

theorem outcomeAt_old {i : ℕ} (inside : i < ticks.length) :
    outcomeAt (ticks ++ [t]) i = outcomeAt ticks i := by
  rw [outcomeAt, outcomeAt, List.getElem?_append_left inside]

theorem outcomeAt_last :
    outcomeAt ticks (ticks.length - 1) = previousOutcome ticks := by
  rw [outcomeAt, previousOutcome, List.getLast?_eq_getElem?]

theorem healthyAt_here : HealthyAt (ticks ++ [t]) ticks.length ↔ t.outcome = .healthy := by
  rw [HealthyAt, outcomeAt_here, Option.some.injEq]

theorem healthyAt_old {i : ℕ} (inside : i < ticks.length) :
    HealthyAt (ticks ++ [t]) i ↔ HealthyAt ticks i := by
  rw [HealthyAt, HealthyAt, outcomeAt_old ticks t inside]

theorem outageAt_here : OutageAt (ticks ++ [t]) ticks.length ↔
    t.outcome ≠ .healthy ∧ previousOutcome ticks ≠ some t.outcome := by
  rw [OutageAt, outcomeAt_here, ne_eq, Option.some.injEq]
  by_cases empty : ticks.length = 0
  · rw [List.length_eq_zero_iff] at empty
    subst empty
    simp [previousOutcome]
  · have before : ticks.length - 1 < ticks.length := by omega
    rw [outcomeAt_old ticks t before, outcomeAt_last]
    simp only [empty, false_or, ne_eq]

theorem outageAt_old {i : ℕ} (inside : i < ticks.length) :
    OutageAt (ticks ++ [t]) i ↔ OutageAt ticks i := by
  have before : i - 1 < ticks.length := by omega
  rw [OutageAt, OutageAt, outcomeAt_old ticks t inside, outcomeAt_old ticks t before]

end Append

section Status
variable (ticks : List (Tick Time))

theorem channelErrorSinceTick_events : channelErrorSinceTick (ticks.map Tick.event) = false := by
  induction ticks using List.reverseRecOn with
  | nil => rfl
  | append_singleton ticks t _ =>
    rw [List.map_append, List.map_singleton, Tick.event, channelErrorSinceTick_tick]

theorem lastOutcome_events : lastOutcome (ticks.map Tick.event) = previousOutcome ticks := by
  induction ticks using List.reverseRecOn with
  | nil => rfl
  | append_singleton ticks t _ =>
    rw [List.map_append, List.map_singleton, Tick.event, lastOutcome_tick, previousOutcome_concat]

theorem degraded_iff : (afterTicks ticks).status = .degraded ↔
    previousOutcome ticks = some .queueMissing := by
  rw [afterTicks, (status_after _).1, channelErrorSinceTick_events, lastOutcome_events]
  simp

theorem dead_iff : (afterTicks ticks).status = .dead ↔
    previousOutcome ticks = some .brokerDown := by
  rw [afterTicks, (status_after _).2, channelErrorSinceTick_events, lastOutcome_events]
  simp

theorem unknown_iff : (afterTicks ticks).status = .unknown ↔ previousOutcome ticks = none := by
  induction ticks using List.reverseRecOn with
  | nil => simp [previousOutcome]
  | append_singleton ticks t _ =>
    rw [afterTicks_concat, previousOutcome_concat]
    simp [checkerTick_known]

theorem recovers_iff : (afterTicks ticks).status ∈ [.dead, .unknown, .degraded] ↔
    previousOutcome ticks ≠ some .healthy := by
  simp only [List.mem_cons, List.not_mem_nil, or_false, dead_iff, unknown_iff, degraded_iff]
  match previousOutcome ticks with
  | none => simp
  | some .healthy => simp
  | some .queueMissing => simp
  | some .brokerDown => simp

/-- The checker remembers the outcome before this one, and nothing else, for its hooks. -/
theorem fired_eq (t : Tick Time) : fired ticks t = hookDue (previousOutcome ticks) t.outcome := by
  rw [fired, checkerTick_hook]
  cases t.outcome with
  | healthy => simp only [recovers_iff, hookDue]
  | queueMissing => simp only [ne_eq, degraded_iff, hookDue]
  | brokerDown => simp only [ne_eq, dead_iff, hookDue]

end Status

section Run
variable (ticks : List (Tick Time)) (t : Tick Time)

theorem failures_after : LongestSuffix (fun u : Tick Time => u.outcome ≠ .healthy) ticks
    (afterTicks ticks).consecutiveFailures := by
  induction ticks using List.reverseRecOn with
  | nil => exact longestSuffix_nil _
  | append_singleton ticks t ih =>
    rw [afterTicks_concat, checkerTick_consecutiveFailures]
    split
    · rename_i healthy
      exact longestSuffix_concat_fails ticks (not_not.mpr healthy)
    · rename_i failed
      exact ih.concat failed

theorem lastAlive_after : ∃ last, LastWhere ticks (HealthyAt ticks) last ∧
    (afterTicks ticks).lastAlive = last.map Tick.time := by
  induction ticks using List.reverseRecOn with
  | nil => exact ⟨none, by simp [LastWhere], rfl⟩
  | append_singleton ticks t ih =>
    rw [afterTicks_concat, checkerTick_lastAlive]
    split
    · rename_i healthy
      exact ⟨some t, lastWhere_concat ticks t ((healthyAt_here ticks t).mpr healthy), rfl⟩
    · rename_i failed
      obtain ⟨last, is_last, same⟩ := ih
      have fails := mt (healthyAt_here ticks t).mp failed
      exact ⟨last, is_last.concat t fails (fun j inside => healthyAt_old ticks t inside), same⟩

theorem moves_lastDead_iff :
    t.outcome = .queueMissing ∧ (afterTicks ticks).status ≠ .degraded ∨
      t.outcome = .brokerDown ∧ (afterTicks ticks).status ≠ .dead ↔
    OutageAt (ticks ++ [t]) ticks.length := by
  rw [outageAt_here, ne_eq, ne_eq, degraded_iff, dead_iff]
  cases t.outcome with
  | healthy => simp
  | queueMissing => simp
  | brokerDown => simp

theorem lastDead_after : ∃ last, LastWhere ticks (OutageAt ticks) last ∧
    (afterTicks ticks).lastDead = last.map Tick.time := by
  induction ticks using List.reverseRecOn with
  | nil => exact ⟨none, by simp [LastWhere], rfl⟩
  | append_singleton ticks t ih =>
    rw [afterTicks_concat, checkerTick_lastDead]
    split
    · rename_i moves
      exact ⟨some t, lastWhere_concat ticks t ((moves_lastDead_iff ticks t).mp moves), rfl⟩
    · rename_i stays
      obtain ⟨last, is_last, same⟩ := ih
      have fails := mt (moves_lastDead_iff ticks t).mpr stays
      exact ⟨last, is_last.concat t fails (fun j inside => outageAt_old ticks t inside), same⟩

theorem healthy_status (healthy : t.outcome = .healthy) : (afterTicks (ticks ++ [t])).status =
    if previousOutcome ticks ≠ some .healthy then .recovered else .alive := by
  rw [afterTicks_concat, healthy, checkerTick_recovers]
  simp only [recovers_iff]

/-- Every field of the record in terms of the outcomes so far. -/
theorem closedForm : ClosedForm ticks t (afterTicks (ticks ++ [t])) where
  failures := failures_after (ticks ++ [t])
  lastChecked := by rw [afterTicks_concat, checkerTick_lastChecked]
  lastAlive := lastAlive_after (ticks ++ [t])
  lastDead := lastDead_after (ticks ++ [t])
  dead := by rw [dead_iff, previousOutcome_concat, Option.some.injEq]
  degraded := by rw [degraded_iff, previousOutcome_concat, Option.some.injEq]
  healthy := by rw [afterTicks_concat, checkerTick_up_iff]
  recovered := by
    intro p at_last healthy failed
    rw [healthy_status ticks t healthy, previousOutcome, Option.mem_def.mp at_last, Option.map_some]
    simp [failed]
  alive := by
    intro p at_last healthy previous
    rw [healthy_status ticks t healthy, previousOutcome, Option.mem_def.mp at_last, Option.map_some]
    simp [previous]
  queueExists := by rw [afterTicks_concat, checkerTick_queueExists]
  probeMethod := by rw [afterTicks_concat, checkerTick_probeMethod]

end Run

end FastapiProject.HealthHistory
