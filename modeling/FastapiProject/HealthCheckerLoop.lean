import FastapiProject.HealthHistory
import FastapiProject.ProbePaths

set_option autoImplicit false

/-!
# The loop of `rmq_health_checker` and what ends it

The `try` of the loop has a clause for cancellation only, and `_probe_new_connection`
closes its connection outside its own clauses. A loop that has not ended has the record
of `HealthHistory`.
-/
namespace FastapiProject.HealthCheckerLoop
open PythonExceptions ListHistories HealthChecker HealthCheckerAlerts HealthProbes ProbePaths
open HealthHistory

variable {Time : Type}

structure Turn (Time : Type) where
  shared : Option SharedChannel
  fresh : NewConnection
  now : Time
  hooks : Hook → Except Exn Unit

structure Checker (Time : Type) where
  record : RMQHealthState Time
  ended : Option Exn

def Checker.initial : Checker Time := ⟨{}, none⟩

def awaitHook (t : Turn Time) (h : RMQHealthState Time) : Option Hook → Checker Time
  | none => ⟨h, none⟩
  | some hook =>
    match t.hooks hook with
    | .ok () => ⟨h, none⟩
    | .error e => ⟨h, some e⟩

/-- One turn. What it raises ends the task, and the record stays as it is then. -/
def turn (s : Checker Time) (t : Turn Time) : Checker Time :=
  match s.ended with
  | some _ => s
  | none =>
    match probe t.shared t.fresh with
    | .error e => ⟨s.record, some e⟩
    | .ok result =>
      let (h, hook) := checkerTick s.record result t.now
      awaitHook t h hook

def loop (turns : List (Turn Time)) : Checker Time := turns.foldl turn .initial

structure Turn.Exceptions (t : Turn Time) : Prop where
  shared : ∀ channel ∈ t.shared, ∀ e, channel.declareQueue = .error e → e.isException = true
  connect : ∀ e, t.fresh.connect = .error e → e.isException = true
  channel : ∀ e, t.fresh.channel = .error e → e.isException = true
  declareQueue : ∀ e, t.fresh.declareQueue = .error e → e.isException = true
  close : ∀ e, t.fresh.close = .error e → e.isException = true
  hooks : ∀ hook e, t.hooks hook = .error e → e.isException = true

def answered : Except Exn Unit → ProbeOutcome
  | .ok () => .healthy
  | .error e => if e = .amqpChannelError then .queueMissing else .brokerDown

def freshOutcome (fresh : NewConnection) : ProbeOutcome :=
  match fresh.connect, fresh.channel with
  | .ok (), .ok () => answered fresh.declareQueue
  | _, _ => .brokerDown

def Turn.outcome (t : Turn Time) : ProbeOutcome :=
  match openShared t.shared with
  | some channel => answered channel.declareQueue
  | none => freshOutcome t.fresh

def Turn.method (t : Turn Time) : ProbeMethod :=
  if (openShared t.shared).isSome then .passive else .newConnection

def Turn.tick (t : Turn Time) : Tick Time := ⟨t.outcome, t.method, t.now⟩

/-- A slow probe that has a connection to close can close it. -/
def Turn.Closes (t : Turn Time) : Prop :=
  openShared t.shared = none → t.fresh.closes → t.fresh.close = .ok ()

/-- The hook that is due after the outcome `previous` returns. -/
def Turn.HookReturns (previous : Option ProbeOutcome) (t : Turn Time) : Prop :=
  ∀ hook ∈ hookDue previous t.outcome, t.hooks hook = .ok ()

/-- In no turn a connection fails to close or a due hook raises. -/
def Undisturbed : List (Turn Time) → Prop :=
  AtEvery fun pre t => t.Closes ∧ t.HookReturns (previousOutcome (pre.map Turn.tick))

structure Records (h : RMQHealthState Time) (result : ProbeResult) (now : Time) : Prop where
  lastChecked : h.lastChecked = some now
  probeMethod : h.probeMethod = result.method
  queueExists : h.queueExists = result.queueExists
  up_iff : h.status = .alive ∨ h.status = .recovered ↔
    result.brokerAlive = true ∧ result.queueExists = some true
  degraded_iff : h.status = .degraded ↔
    result.brokerAlive = true ∧ result.queueExists ≠ some true
  dead_iff : h.status = .dead ↔ result.brokerAlive = false

/-- The task still loops, and every probe that returned a result is in the record after
its turn. -/
structure Survives (turns : List (Turn Time)) : Prop where
  looping : (loop turns).ended = none
  recorded : AtEvery (fun pre t => ∀ result, probe t.shared t.fresh = .ok result →
    Records (loop (pre ++ [t])).record result t.now) turns

section Probes
variable {t : Turn Time}

theorem passive_outcome {outcome : Except Exn Unit}
    (exceptions : ∀ e, outcome = .error e → e.isException = true) :
    (probePassive outcome).1 = .ok ((answered outcome).result .passive) := by
  cases outcome with
  | ok u => rfl
  | error e =>
    rw [probePassive, answered]
    split
    · rfl
    · rw [if_pos (exceptions e rfl)]
      rfl

theorem newConnectionBody_outcome (raises : t.Exceptions) :
    newConnectionBody t.fresh = .ok ((freshOutcome t.fresh).result .newConnection) := by
  rw [newConnectionBody, freshOutcome]
  cases connect : t.fresh.connect with
  | error e => exact failed_returns (raises.connect e connect)
  | ok u =>
    cases channel : t.fresh.channel with
    | error e => exact failed_returns (raises.channel e channel)
    | ok u =>
      cases declare : t.fresh.declareQueue with
      | ok u => rfl
      | error e =>
        simp only [answered]
        split
        · rfl
        · exact failed_returns (raises.declareQueue e declare)

theorem probe_returns (raises : t.Exceptions) (closes : t.Closes) :
    probe t.shared t.fresh = .ok (t.outcome.result t.method) := by
  rw [Turn.outcome, Turn.method]
  cases isOpen : openShared t.shared with
  | some channel =>
    rw [probe_open isOpen]
    have registered := (Option.filter_eq_some_iff.mp isOpen).1
    exact passive_outcome (raises.shared channel registered)
  | none =>
    rw [probe_fresh isOpen, probeNewConnection]
    split
    · rename_i opened
      rw [closes isOpen opened]
      exact newConnectionBody_outcome raises
    · exact newConnectionBody_outcome raises

theorem probe_raises (stuck : ¬ t.Closes) : ∃ e, probe t.shared t.fresh = .error e := by
  rw [Turn.Closes] at stuck
  push Not at stuck
  obtain ⟨isClosed, opened, fails⟩ := stuck
  rw [probe_fresh isClosed, probeNewConnection, if_pos opened]
  cases close : t.fresh.close with
  | ok u => exact absurd close fails
  | error e => exact ⟨e, rfl⟩

theorem closes_of_returns {result : ProbeResult} (returns : probe t.shared t.fresh = .ok result) :
    t.Closes := by
  by_contra stuck
  obtain ⟨e, raised⟩ := probe_raises stuck
  rw [returns] at raised
  cases raised

end Probes

section Loop
variable {turns : List (Turn Time)} {t : Turn Time}

theorem loop_concat (turns : List (Turn Time)) (t : Turn Time) :
    loop (turns ++ [t]) = turn (loop turns) t := by
  rw [loop, List.foldl_append, List.foldl_cons, List.foldl_nil, loop]

theorem turn_ended {s : Checker Time} {e : Exn} (ended : s.ended = some e) : turn s t = s := by
  rw [turn, ended]

theorem turn_looping {s : Checker Time} (looping : s.ended = none) (raises : t.Exceptions)
    (closes : t.Closes) : turn s t =
      awaitHook t (checkerTick s.record (t.outcome.result t.method) t.now).1
        (checkerTick s.record (t.outcome.result t.method) t.now).2 := by
  rw [turn, looping, probe_returns raises closes]

theorem awaitHook_record (h : RMQHealthState Time) (hook : Option Hook) :
    (awaitHook t h hook).record = h := by
  cases hook with
  | none => rfl
  | some hook =>
    rw [awaitHook]
    split <;> rfl

theorem awaitHook_ended (h : RMQHealthState Time) (hook : Option Hook) :
    (awaitHook t h hook).ended = none ↔ ∀ k ∈ hook, t.hooks k = .ok () := by
  cases hook with
  | none => simp [awaitHook]
  | some hook =>
    rw [awaitHook]
    cases returns : t.hooks hook with
    | ok u => simp [returns]
    | error e => simp [returns]

theorem turn_ended_iff {s : Checker Time} (raises : t.Exceptions) :
    (turn s t).ended = none ↔ s.ended = none ∧ t.Closes ∧
      ∀ k ∈ (checkerTick s.record (t.outcome.result t.method) t.now).2, t.hooks k = .ok () := by
  cases ended : s.ended with
  | some e =>
    rw [turn_ended ended, ended]
    simp
  | none =>
    by_cases closes : t.Closes
    · rw [turn_looping ended raises closes, awaitHook_ended]
      simp [closes]
    · obtain ⟨e, raised⟩ := probe_raises closes
      rw [turn, ended, raised]
      simp [closes]

theorem loop_record (raises : ∀ t ∈ turns, t.Exceptions) (looping : (loop turns).ended = none) :
    (loop turns).record = afterTicks (turns.map Turn.tick) := by
  induction turns using List.reverseRecOn with
  | nil => rfl
  | append_singleton turns t ih =>
    have raises_t := raises t (by simp)
    rw [loop_concat] at looping ⊢
    obtain ⟨before, closes, -⟩ := (turn_ended_iff raises_t).mp looping
    rw [turn_looping before raises_t closes, awaitHook_record, List.map_append, List.map_singleton,
      afterTicks_concat, ih (fun u mem => raises u (List.mem_append_left _ mem)) before]
    rfl

theorem looping_iff (raises : ∀ t ∈ turns, t.Exceptions) :
    (loop turns).ended = none ↔ Undisturbed turns := by
  induction turns using List.reverseRecOn with
  | nil => exact iff_of_true rfl (atEvery_nil _)
  | append_singleton turns t ih =>
    have raises_before : ∀ u ∈ turns, u.Exceptions := fun u mem => raises u (List.mem_append_left _ mem)
    rw [loop_concat, turn_ended_iff (raises t (by simp)), Undisturbed, atEvery_concat_iff,
      ih raises_before]
    refine and_congr_right fun undisturbed => and_congr_right fun _ => ?_
    have due : (checkerTick (afterTicks (turns.map Turn.tick)) (t.outcome.result t.method) t.now).2 =
        hookDue (previousOutcome (turns.map Turn.tick)) t.outcome := fired_eq _ t.tick
    rw [loop_record raises_before ((ih raises_before).mpr undisturbed), due]
    rfl

theorem tick_records (h : RMQHealthState Time) (o : ProbeOutcome) (method : ProbeMethod)
    (now : Time) : Records (checkerTick h (o.result method) now).1 (o.result method) now where
  lastChecked := checkerTick_lastChecked h o method now
  probeMethod := checkerTick_probeMethod h o method now
  queueExists := checkerTick_queueExists h o method now
  up_iff := by rw [checkerTick_up_iff]; cases o <;> simp [ProbeOutcome.result]
  degraded_iff := by rw [(tick_status h o method now).1]; cases o <;> simp [ProbeOutcome.result]
  dead_iff := by rw [(tick_status h o method now).2]; cases o <;> simp [ProbeOutcome.result]

theorem turn_records {result : ProbeResult} {s : Checker Time} (raises : t.Exceptions)
    (looping : s.ended = none) (returns : probe t.shared t.fresh = .ok result) :
    Records (turn s t).record result t.now := by
  have closes := closes_of_returns returns
  obtain rfl := Except.ok.inj (returns.symm.trans (probe_returns raises closes))
  rw [turn_looping looping raises closes, awaitHook_record]
  exact tick_records s.record t.outcome t.method t.now

theorem recorded_of_looping (raises : ∀ t ∈ turns, t.Exceptions)
    (looping : (loop turns).ended = none) : AtEvery (fun pre t => ∀ result,
      probe t.shared t.fresh = .ok result → Records (loop (pre ++ [t])).record result t.now) turns := by
  induction turns using List.reverseRecOn with
  | nil => exact atEvery_nil _
  | append_singleton turns t ih =>
    have raises_t := raises t (by simp)
    rw [loop_concat, turn_ended_iff raises_t] at looping
    refine atEvery_concat_iff.mpr ⟨?_, fun result returns => ?_⟩
    · exact ih (fun u mem => raises u (List.mem_append_left _ mem)) looping.1
    · rw [loop_concat]
      exact turn_records raises_t looping.1 returns

end Loop

/-- The monitor survives exactly the turns in which every connection it opens closes and
every hook that is due returns. -/
theorem survives_iff {turns : List (Turn Time)} (raises : ∀ t ∈ turns, t.Exceptions) :
    Survives turns ↔ Undisturbed turns := by
  constructor
  · intro survives
    exact (looping_iff raises).mp survives.looping
  · intro undisturbed
    have looping := (looping_iff raises).mpr undisturbed
    exact ⟨looping, recorded_of_looping raises looping⟩

section Examples

def failedNotification : Turn ℕ where
  shared := none
  fresh := ⟨.error .amqpConnectionError, .ok (), .ok (), true, .ok ()⟩
  now := 0
  hooks := fun _ => .error timeoutError

def quietTurn (now : ℕ) : Turn ℕ where
  shared := none
  fresh := liveConnection
  now := now
  hooks := fun _ => .ok ()

theorem failedNotification_exceptions : failedNotification.Exceptions where
  shared := by rintro channel ⟨⟩
  connect := by rintro e ⟨⟩; rfl
  channel := by rintro e ⟨⟩
  declareQueue := by rintro e ⟨⟩
  close := by rintro e ⟨⟩
  hooks := by rintro hook e ⟨⟩; rfl

theorem quietTurn_exceptions (now : ℕ) : (quietTurn now).Exceptions where
  shared := by rintro channel ⟨⟩
  connect := by rintro e ⟨⟩
  channel := by rintro e ⟨⟩
  declareQueue := by rintro e ⟨⟩
  close := by rintro e ⟨⟩
  hooks := by rintro hook e ⟨⟩

/-- A notification that fails ends the monitor. -/
theorem failed_notification_ends_checker : ¬ ∀ turns : List (Turn ℕ),
    (∀ t ∈ turns, t.Exceptions) → Survives turns := by
  intro h
  have survives := h [failedNotification] (by
    intro t mem
    rw [List.mem_singleton.mp mem]
    exact failedNotification_exceptions)
  exact absurd survives.looping (by decide)

theorem quiet_turns_survived : Survives [quietTurn 0, quietTurn 1] := by
  have raises : ∀ t ∈ [quietTurn 0, quietTurn 1], t.Exceptions := by
    simp only [List.forall_mem_cons, List.not_mem_nil, false_implies, implies_true, and_true]
    exact ⟨quietTurn_exceptions 0, quietTurn_exceptions 1⟩
  refine (survives_iff raises).mpr ((looping_iff raises).mp ?_)
  decide

end Examples

end FastapiProject.HealthCheckerLoop
