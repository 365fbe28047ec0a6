import Mathlib.Data.Nat.Notation

set_option autoImplicit false

/-!
# The health record and one tick of `rmq_health_checker`

`rmq/health.py`. A tick is everything between the return of the probe and the hook:
nothing is awaited there, so no other task sees the record half updated.
-/
namespace FastapiProject.HealthChecker

inductive RMQStatus where
  | unknown
  | alive
  | dead
  | recovered
  | degraded
  deriving DecidableEq, Repr

inductive ProbeMethod where
  | none
  | passive
  | newConnection
  deriving DecidableEq, Repr

variable {Time : Type}

structure RMQHealthState (Time : Type) where
  status : RMQStatus := .unknown
  lastChecked : Option Time := none
  lastAlive : Option Time := none
  lastDead : Option Time := none
  consecutiveFailures : ℕ := 0
  probeMethod : ProbeMethod := .none
  queueExists : Option Bool := none
  deriving DecidableEq, Repr

inductive Hook where
  | onRabbitmqDown
  | onRabbitmqRecovered
  | onRabbitmqStillAlive
  | onRabbitmqStillDead
  | onQueueMissing
  deriving DecidableEq, Repr

structure ProbeResult where
  brokerAlive : Bool
  queueExists : Option Bool
  method : ProbeMethod
  deriving DecidableEq, Repr

/-- The body of the loop after the probe, with the hook it then awaits. A queue that is
still missing is only logged. -/
def checkerTick (h : RMQHealthState Time) (result : ProbeResult) (now : Time) :
    RMQHealthState Time × Option Hook :=
  let prevStatus := h.status
  let h := { h with
    lastChecked := some now
    probeMethod := result.method
    queueExists := result.queueExists }
  if result.brokerAlive = true ∧ result.queueExists = some true then
    let h := { h with lastAlive := some now, consecutiveFailures := 0 }
    if prevStatus ∈ [.dead, .unknown, .degraded] then
      ({ h with status := .recovered }, some .onRabbitmqRecovered)
    else
      ({ h with status := .alive }, some .onRabbitmqStillAlive)
  else if result.brokerAlive = true ∧ result.queueExists ≠ some true then
    let h := { h with consecutiveFailures := h.consecutiveFailures + 1 }
    if prevStatus ≠ .degraded then
      ({ h with status := .degraded, lastDead := some now }, some .onQueueMissing)
    else
      (h, none)
  else
    let h := { h with consecutiveFailures := h.consecutiveFailures + 1 }
    if prevStatus ≠ .dead then
      ({ h with status := .dead, lastDead := some now }, some .onRabbitmqDown)
    else
      (h, some .onRabbitmqStillDead)

/-- What the `AMQPChannelError` branch of `rmq_consumer` writes into the record. -/
def channelErrorBranch (h : RMQHealthState Time) : RMQHealthState Time :=
  { h with status := .degraded }

inductive ProbeOutcome where
  | healthy
  | queueMissing
  | brokerDown
  deriving DecidableEq, Repr

def ProbeOutcome.result (o : ProbeOutcome) (method : ProbeMethod) : ProbeResult :=
  match o with
  | .healthy => ⟨true, some true, method⟩
  | .queueMissing => ⟨true, some false, method⟩
  | .brokerDown => ⟨false, none, method⟩

section Outcomes
variable (h : RMQHealthState Time) (method : ProbeMethod) (now : Time)

theorem checkerTick_healthy : checkerTick h (ProbeOutcome.healthy.result method) now =
    if h.status ∈ [.dead, .unknown, .degraded] then
      ({ h with
        status := .recovered, lastChecked := some now, lastAlive := some now,
        consecutiveFailures := 0, probeMethod := method, queueExists := some true },
        some .onRabbitmqRecovered)
    else
      ({ h with
        status := .alive, lastChecked := some now, lastAlive := some now,
        consecutiveFailures := 0, probeMethod := method, queueExists := some true },
        some .onRabbitmqStillAlive) := by
  simp only [checkerTick, ProbeOutcome.result, and_self, ↓reduceIte]

theorem checkerTick_queueMissing : checkerTick h (ProbeOutcome.queueMissing.result method) now =
    if h.status ≠ .degraded then
      ({ h with
        status := .degraded, lastChecked := some now, lastDead := some now,
        consecutiveFailures := h.consecutiveFailures + 1, probeMethod := method,
        queueExists := some false }, some .onQueueMissing)
    else
      ({ h with
        lastChecked := some now, consecutiveFailures := h.consecutiveFailures + 1,
        probeMethod := method, queueExists := some false }, none) := by
  simp [checkerTick, ProbeOutcome.result]

theorem checkerTick_brokerDown : checkerTick h (ProbeOutcome.brokerDown.result method) now =
    if h.status ≠ .dead then
      ({ h with
        status := .dead, lastChecked := some now, lastDead := some now,
        consecutiveFailures := h.consecutiveFailures + 1, probeMethod := method,
        queueExists := none }, some .onRabbitmqDown)
    else
      ({ h with
        lastChecked := some now, consecutiveFailures := h.consecutiveFailures + 1,
        probeMethod := method, queueExists := none }, some .onRabbitmqStillDead) := by
  simp [checkerTick, ProbeOutcome.result]

end Outcomes

section Fields
variable (h : RMQHealthState Time) (o : ProbeOutcome) (method : ProbeMethod) (now : Time)

/-- The record after a tick, field by field. `last_dead` moves when a failure does not find
its own status already there. -/
theorem checkerTick_record : (checkerTick h (o.result method) now).1 =
    { status := match o with
        | .healthy => if h.status ∈ [.dead, .unknown, .degraded] then .recovered else .alive
        | .queueMissing => .degraded
        | .brokerDown => .dead
      lastChecked := some now
      lastAlive := if o = .healthy then some now else h.lastAlive
      lastDead :=
        if o = .queueMissing ∧ h.status ≠ .degraded ∨ o = .brokerDown ∧ h.status ≠ .dead then some now
        else h.lastDead
      consecutiveFailures := if o = .healthy then 0 else h.consecutiveFailures + 1
      probeMethod := (o.result method).method
      queueExists := (o.result method).queueExists } := by
  cases o with
  | healthy => rw [checkerTick_healthy]; split <;> simp_all [ProbeOutcome.result]
  | queueMissing => rw [checkerTick_queueMissing]; split <;> simp_all [ProbeOutcome.result]
  | brokerDown => rw [checkerTick_brokerDown]; split <;> simp_all [ProbeOutcome.result]

theorem checkerTick_hook : (checkerTick h (o.result method) now).2 =
    match o with
    | .healthy =>
      some (if h.status ∈ [.dead, .unknown, .degraded] then .onRabbitmqRecovered
        else .onRabbitmqStillAlive)
    | .queueMissing => if h.status ≠ .degraded then some .onQueueMissing else none
    | .brokerDown => some (if h.status ≠ .dead then .onRabbitmqDown else .onRabbitmqStillDead) := by
  cases o with
  | healthy => rw [checkerTick_healthy]; split <;> rfl
  | queueMissing => rw [checkerTick_queueMissing]; split <;> rfl
  | brokerDown => rw [checkerTick_brokerDown]; split <;> rfl

@[simp] theorem checkerTick_lastChecked :
    (checkerTick h (o.result method) now).1.lastChecked = some now := by
  rw [checkerTick_record]

@[simp] theorem checkerTick_queueExists :
    (checkerTick h (o.result method) now).1.queueExists = (o.result method).queueExists := by
  rw [checkerTick_record]

@[simp] theorem checkerTick_probeMethod :
    (checkerTick h (o.result method) now).1.probeMethod = (o.result method).method := by
  rw [checkerTick_record]

theorem checkerTick_lastAlive : (checkerTick h (o.result method) now).1.lastAlive =
    if o = .healthy then some now else h.lastAlive := by
  rw [checkerTick_record]

theorem checkerTick_consecutiveFailures :
    (checkerTick h (o.result method) now).1.consecutiveFailures =
      if o = .healthy then 0 else h.consecutiveFailures + 1 := by
  rw [checkerTick_record]

theorem checkerTick_lastDead : (checkerTick h (o.result method) now).1.lastDead =
    if o = .queueMissing ∧ h.status ≠ .degraded ∨ o = .brokerDown ∧ h.status ≠ .dead then some now
    else h.lastDead := by
  rw [checkerTick_record]

theorem checkerTick_recovers :
    (checkerTick h (ProbeOutcome.healthy.result method) now).1.status =
      if h.status ∈ [.dead, .unknown, .degraded] then .recovered else .alive := by
  rw [checkerTick_record]

theorem checkerTick_up_iff : (checkerTick h (o.result method) now).1.status = .alive ∨
    (checkerTick h (o.result method) now).1.status = .recovered ↔ o = .healthy := by
  rw [checkerTick_record]
  cases o with
  | healthy => dsimp only; split <;> simp
  | queueMissing => simp
  | brokerDown => simp

theorem checkerTick_known : (checkerTick h (o.result method) now).1.status ≠ .unknown := by
  rw [checkerTick_record]
  cases o with
  | healthy => dsimp only; split <;> simp
  | queueMissing => simp
  | brokerDown => simp

end Fields

end FastapiProject.HealthChecker
