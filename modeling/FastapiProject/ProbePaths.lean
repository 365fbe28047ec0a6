import FastapiProject.HealthProbes

set_option autoImplicit false

/-!
# The two paths of a health probe

`rmq/health.py`, lines 120 to 195. The passive path asks on the channel of the consumer and
takes every other failure of that channel for a failure of the broker. The slow path asks
on a connection of its own.
-/
namespace FastapiProject.ProbePaths
open PythonExceptions HealthChecker HealthProbes

structure NewConnection where
  connect : Except Exn Unit
  channel : Except Exn Unit
  declareQueue : Except Exn Unit
  isClosed : Bool
  close : Except Exn Unit

structure SharedChannel where
  isClosed : Bool
  declareQueue : Except Exn Unit

def newConnectionFailed (e : Exn) : Except Exn ProbeResult :=
  if e.isException = true then .ok ⟨false, none, .newConnection⟩ else .error e

/-- The `try` of `_probe_new_connection` with its `except` clauses. -/
def newConnectionBody (fresh : NewConnection) : Except Exn ProbeResult :=
  match fresh.connect with
  | .error e => newConnectionFailed e
  | .ok () =>
    match fresh.channel with
    | .error e => newConnectionFailed e
    | .ok () =>
      match fresh.declareQueue with
      | .ok () => .ok ⟨true, some true, .newConnection⟩
      | .error e =>
        if e = .amqpChannelError then .ok ⟨true, some false, .newConnection⟩
        else newConnectionFailed e

/-- The `finally` closes a connection that was opened and is still open. What `close`
raises replaces the result. -/
def NewConnection.closes (fresh : NewConnection) : Prop :=
  fresh.connect = .ok () ∧ fresh.isClosed = false

instance (fresh : NewConnection) : Decidable fresh.closes := inferInstanceAs (Decidable (_ ∧ _))

def probeNewConnection (fresh : NewConnection) : Except Exn ProbeResult :=
  if fresh.closes then
    match fresh.close with
    | .ok () => newConnectionBody fresh
    | .error e => .error e
  else newConnectionBody fresh

def probe (shared : Option SharedChannel) (fresh : NewConnection) : Except Exn ProbeResult :=
  match shared with
  | some channel =>
    if channel.isClosed = false then (probePassive channel.declareQueue).1
    else probeNewConnection fresh
  | none => probeNewConnection fresh

def openShared (shared : Option SharedChannel) : Option SharedChannel :=
  shared.filter (fun channel => !channel.isClosed)

section Paths
variable {shared : Option SharedChannel} {channel : SharedChannel} {fresh : NewConnection}

theorem probe_open (isOpen : openShared shared = some channel) :
    probe shared fresh = (probePassive channel.declareQueue).1 := by
  obtain ⟨rfl, reports⟩ := Option.filter_eq_some_iff.mp isOpen
  rw [Bool.not_eq_true'] at reports
  exact if_pos reports

theorem probe_fresh (isClosed : openShared shared = none) :
    probe shared fresh = probeNewConnection fresh := by
  cases shared with
  | none => rfl
  | some channel =>
    have reports := Option.filter_eq_none_iff.mp isClosed channel rfl
    rw [Bool.not_eq_true', Bool.not_eq_false] at reports
    exact if_neg (by rw [reports]; decide)

theorem failed_returns {e : Exn} (he : e.isException = true) :
    newConnectionFailed e = .ok ⟨false, none, .newConnection⟩ := if_pos he

end Paths

section Machine
open MachineRuns ConsumerTraffic
variable {Msg H : Type} [DecidableEq Msg] (app : App Msg H) (s : HealthProbes.State Msg H)

def Noted (u : HealthProbes.State Msg H) : Except Exn ProbeResult → Prop
  | .ok result => u.checker = .sleeping ∧ u.results = s.results ++ [result]
  | .error e => u.checker = .ended e

omit [DecidableEq Msg] in
theorem probed_noted {w : HealthProbes.State Msg H} (same : w.results = s.results)
    (result : Except Exn ProbeResult) : Noted s (w.probed result) result := by
  cases result with
  | ok result => exact ⟨rfl, congrArg (fun results => results ++ [result]) same⟩
  | error e => rfl

/-- A tick whose probe nothing interrupts notes what `probe` returns. -/
theorem tick_runs (idle : s.checker = .sleeping) (isClosed : Bool) (outcome : Except Exn Unit)
    (fresh : NewConnection) : ∃ l u, Runs (HealthProbes.step app) s [.tick isClosed, l] u ∧
      Noted s u (probe (s.sharedChannel.map fun _ => ⟨isClosed, outcome⟩) fresh) := by
  have starts : HealthProbes.step app s (.tick isClosed) = some (s.probe isClosed) := if_pos idle
  have slow (path : s.probe isClosed = { s with checker := .newConnection }) :
      ∃ l u, Runs (HealthProbes.step app) s [.tick isClosed, l] u ∧
        Noted s u (probeNewConnection fresh) := by
    rw [path] at starts
    exact ⟨.newConnectionEnds (probeNewConnection fresh), _,
      .cons starts trivial (.single rfl trivial), probed_noted s rfl _⟩
  cases registered : s.sharedChannel with
  | none =>
    apply slow
    rw [State.probe, registered]
  | some c =>
    cases isClosed with
    | true =>
      apply slow
      rw [State.probe, registered]
      rfl
    | false =>
      have path : s.probe false = { s with checker := .passive c } := by
        rw [State.probe, registered]
        rfl
      rw [path] at starts
      have kept (clears : Bool) (w : HealthProbes.State Msg H) :
          (if clears = true then w.setSharedChannel none else w).results = w.results := by
        cases clears <;> rfl
      let w : HealthProbes.State Msg H := { s with checker := .passive c }
      have ends : HealthProbes.step app w (.passiveEnds outcome) =
          some ((if (probePassive outcome).2 = true then w.setSharedChannel none else w).probed
            (probePassive outcome).1) := rfl
      have answers : probe ((some c).map fun _ => ⟨false, outcome⟩) fresh =
          (probePassive outcome).1 := rfl
      rw [answers]
      exact ⟨_, _, .cons starts trivial (.single ends trivial), probed_noted s (kept _ w) _⟩

end Machine

inductive Queue where
  | present
  | missing
  | refused
  deriving DecidableEq, Repr

inductive Broker where
  | down
  | up (queue : Queue)
  deriving DecidableEq, Repr

/-- A passive declare on a channel, which works or does not: it returns when a working
channel reaches a broker with the queue, and raises `AMQPChannelError` when one reaches a
broker whose queue is missing or refused. Whatever it raises is an `Exception`. -/
structure Declares (broker : Broker) (works : Bool) (outcome : Except Exn Unit) : Prop where
  returns_iff : outcome = .ok () ↔ works = true ∧ broker = .up .present
  channelError_iff : outcome = .error .amqpChannelError ↔
    works = true ∧ (broker = .up .missing ∨ broker = .up .refused)
  isException : ∀ e, outcome = .error e → e.isException = true

/-- A fresh connection and its channel work exactly when the broker is up. -/
structure Connects (broker : Broker) (fresh : NewConnection) : Prop where
  connect_iff : fresh.connect = .ok () ↔ broker ≠ .down
  isException : ∀ e, fresh.connect = .error e → e.isException = true
  channel : broker ≠ .down → fresh.channel = .ok ()
  declares : broker ≠ .down → Declares broker true fresh.declareQueue
  close : broker ≠ .down → fresh.close = .ok ()

def report : Broker → Bool × Option Bool
  | .down => (false, none)
  | .up .present => (true, some true)
  | .up _ => (true, some false)

def ProbeResult.pair (result : ProbeResult) : Bool × Option Bool :=
  (result.brokerAlive, result.queueExists)

/-- The shared channel reports itself open and does not work, while the broker does. -/
def Deceived (broker : Broker) (shared : Option SharedChannel) (works : Bool) : Prop :=
  openShared shared ≠ none ∧ works = false ∧ broker ≠ .down

/-- Both paths return, and with the same `(broker_alive, queue_exists)`. -/
def Agree (shared : Option SharedChannel) (fresh : NewConnection) : Prop :=
  ∃ fast slow, probe shared fresh = .ok fast ∧ probeNewConnection fresh = .ok slow ∧
    ProbeResult.pair fast = ProbeResult.pair slow

section Reports
variable {broker : Broker} {works : Bool} {outcome : Except Exn Unit} {fresh : NewConnection}

theorem passive_down (declares : Declares broker works outcome)
    (unreached : works = false ∨ broker = .down) :
    (probePassive outcome).1 = .ok ⟨false, none, .passive⟩ := by
  cases outcome with
  | ok u =>
    obtain ⟨working, up⟩ := declares.returns_iff.mp rfl
    rcases unreached with broken | down
    · exact absurd (working.symm.trans broken) (by decide)
    · exact absurd (up.symm.trans down) (by decide)
  | error e =>
    have other : e ≠ .amqpChannelError := by
      rintro rfl
      obtain ⟨working, gone⟩ := declares.channelError_iff.mp rfl
      rcases unreached with broken | down
      · exact absurd (working.symm.trans broken) (by decide)
      · subst down
        rcases gone with ⟨⟨⟩⟩ | ⟨⟨⟩⟩
    rw [probePassive, if_neg other, if_pos (declares.isException e rfl)]

theorem passive_reports (declares : Declares broker true outcome) :
    ∃ result, (probePassive outcome).1 = .ok result ∧ ProbeResult.pair result = report broker := by
  match broker with
  | .down => exact ⟨_, passive_down declares (.inr rfl), rfl⟩
  | .up .present =>
    rw [declares.returns_iff.mpr ⟨rfl, rfl⟩]
    exact ⟨_, rfl, rfl⟩
  | .up .missing =>
    rw [declares.channelError_iff.mpr ⟨rfl, .inl rfl⟩]
    exact ⟨_, rfl, rfl⟩
  | .up .refused =>
    rw [declares.channelError_iff.mpr ⟨rfl, .inr rfl⟩]
    exact ⟨_, rfl, rfl⟩

theorem newConnectionBody_reports (connects : Connects broker fresh) :
    ∃ result, newConnectionBody fresh = .ok result ∧ ProbeResult.pair result = report broker := by
  by_cases down : broker = .down
  · subst down
    cases reached : fresh.connect with
    | ok u => exact absurd rfl (connects.connect_iff.mp reached)
    | error e =>
      rw [newConnectionBody, reached]
      exact ⟨_, failed_returns (connects.isException e reached), rfl⟩
  · rw [newConnectionBody, connects.connect_iff.mpr down, connects.channel down]
    have declares := connects.declares down
    match broker with
    | .down => exact absurd rfl down
    | .up .present =>
      rw [declares.returns_iff.mpr ⟨rfl, rfl⟩]
      exact ⟨_, rfl, rfl⟩
    | .up .missing =>
      rw [declares.channelError_iff.mpr ⟨rfl, .inl rfl⟩]
      exact ⟨_, rfl, rfl⟩
    | .up .refused =>
      rw [declares.channelError_iff.mpr ⟨rfl, .inr rfl⟩]
      exact ⟨_, rfl, rfl⟩

theorem newConnection_reports (connects : Connects broker fresh) :
    ∃ result, probeNewConnection fresh = .ok result ∧ ProbeResult.pair result = report broker := by
  rw [probeNewConnection]
  split
  · rename_i closes
    have up := connects.connect_iff.mp closes.1
    rw [connects.close up]
    exact newConnectionBody_reports connects
  · exact newConnectionBody_reports connects

end Reports

/-- The paths differ exactly on an open shared channel that does not work while the broker
is up: the passive path reports the broker down. -/
theorem probes_agree_iff {broker : Broker} {shared : Option SharedChannel} {fresh : NewConnection}
    {works : Bool} (connects : Connects broker fresh)
    (declares : ∀ channel ∈ openShared shared, Declares broker works channel.declareQueue) :
    Agree shared fresh ↔ ¬ Deceived broker shared works := by
  obtain ⟨slow, returns, reports⟩ := newConnection_reports connects
  have fast_reports : Agree shared fresh ↔
      ∃ fast, probe shared fresh = .ok fast ∧ ProbeResult.pair fast = report broker := by
    constructor
    · rintro ⟨fast, slow', probed, returns', same⟩
      obtain rfl := Except.ok.inj (returns.symm.trans returns')
      exact ⟨fast, probed, same.trans reports⟩
    · rintro ⟨fast, probed, same⟩
      exact ⟨fast, slow, probed, returns, same.trans reports.symm⟩
  rw [fast_reports]
  cases isOpen : openShared shared with
  | none =>
    rw [probe_fresh isOpen]
    refine iff_of_true ⟨slow, returns, reports⟩ ?_
    rintro ⟨registered, -⟩
    exact registered isOpen
  | some channel =>
    have declares := declares channel isOpen
    rw [probe_open isOpen]
    cases works with
    | true =>
      refine iff_of_true (passive_reports declares) ?_
      rintro ⟨-, ⟨⟩, -⟩
    | false =>
      rw [passive_down declares (.inl rfl)]
      constructor
      · rintro ⟨fast, answer, same⟩ ⟨-, -, up⟩
        obtain rfl := Except.ok.inj answer
        match broker with
        | .down => exact up rfl
        | .up .present => exact absurd same (by decide)
        | .up .missing => exact absurd same (by decide)
        | .up .refused => exact absurd same (by decide)
      · intro undisturbed
        have down : broker = .down := by
          by_contra up
          exact undisturbed ⟨by rw [isOpen]; exact Option.some_ne_none _, rfl, up⟩
        subst down
        exact ⟨_, rfl, rfl⟩

section Examples

def liveConnection : NewConnection := ⟨.ok (), .ok (), .ok (), false, .ok ()⟩

theorem liveConnection_connects : Connects (.up .present) liveConnection where
  connect_iff := by decide
  isException := by rintro e ⟨⟩
  channel := fun _ => rfl
  declares := fun _ => ⟨by decide, by decide, by rintro e ⟨⟩⟩
  close := fun _ => rfl

theorem timeout_declares : Declares (.up .present) false (.error timeoutError) where
  returns_iff := by decide
  channelError_iff := by decide
  isException := by
    rintro e ⟨⟩
    rfl

/-- A call that times out on the shared channel reports a live broker down. -/
theorem timeout_reports_down : ¬ ∀ broker shared fresh works, Connects broker fresh →
    (∀ channel ∈ openShared shared, Declares broker works channel.declareQueue) →
    Agree shared fresh := by
  intro h
  obtain ⟨fast, slow, fast', slow', same⟩ :=
    h (.up .present) (some ⟨false, .error timeoutError⟩) liveConnection false
      liveConnection_connects (by
        rintro channel ⟨⟩
        exact timeout_declares)
  cases fast'
  cases slow'
  exact absurd same (by decide)

theorem working_channel_agrees : Agree (some ⟨false, .ok ()⟩) liveConnection := by
  have declares : ∀ channel ∈ openShared (some ⟨false, .ok ()⟩),
      Declares (.up .present) true channel.declareQueue := by
    rintro channel ⟨⟩
    exact ⟨by decide, by decide, by rintro e ⟨⟩⟩
  refine (probes_agree_iff liveConnection_connects declares).mpr ?_
  rintro ⟨-, ⟨⟩, -⟩

end Examples

end FastapiProject.ProbePaths
