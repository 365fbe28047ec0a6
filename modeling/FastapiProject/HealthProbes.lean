import FastapiProject.ConsumerLoop

set_option autoImplicit false

/-!
# Passive probes beside the consumer

`rmq/health.py`, lines 120 to 195. A probe keeps the channel that it was started on; the
reference it clears when it fails is the shared one, as the consumer has left it.
-/
namespace FastapiProject.HealthProbes
open PythonExceptions MachineRuns HealthChecker ConsumerMessage ConsumerTraffic ConsumerLoop

variable {Msg H : Type}

/-- `_probe_passive`, given how `declare_queue` ends: the answer, and whether
`set_shared_channel(None)` is called. -/
def probePassive : Except Exn Unit → Except Exn ProbeResult × Bool
  | .ok () => (.ok ⟨true, some true, .passive⟩, false)
  | .error e =>
    if e = .amqpChannelError then (.ok ⟨true, some false, .passive⟩, true)
    else if e.isException = true then (.ok ⟨false, none, .passive⟩, true)
    else (.error e, false)

/-- Where `rmq_health_checker` stands; `sleeping` is every await outside its probe. -/
inductive Checker where
  | sleeping
  | passive (channel : ℕ)
  | newConnection
  | ended (e : Exn)
  deriving DecidableEq, Repr

structure State (Msg H : Type) where
  consumer : Consumer Msg H
  checker : Checker
  results : List ProbeResult

def initial : State Msg H := ⟨Consumer.initial, .sleeping, []⟩

inductive ProbeLabel (Msg : Type) where
  | consumer (l : Label Msg)
  | tick (isClosed : Bool)
  | passiveEnds (outcome : Except Exn Unit)
  | newConnectionEnds (outcome : Except Exn ProbeResult)

namespace State
variable (s : State Msg H)

def sharedChannel : Option ℕ := s.consumer.loop.sharedChannel

def setSharedChannel (channel : Option ℕ) : State Msg H :=
  { s with consumer := { s.consumer with loop := { s.consumer.loop with sharedChannel := channel } } }

/-- `_probe`; `isClosed` is what the shared channel says of itself. -/
def probe (isClosed : Bool) : State Msg H :=
  match s.sharedChannel with
  | some c => { s with checker := if isClosed = true then .newConnection else .passive c }
  | none => { s with checker := .newConnection }

/-- The loop of the checker with the answer of its probe; it has a clause for
cancellation only, and that one raises again. -/
def probed : Except Exn ProbeResult → State Msg H
  | .ok result => { s with checker := .sleeping, results := s.results ++ [result] }
  | .error e => { s with checker := .ended e }

end State

section Step
variable [DecidableEq Msg] (app : App Msg H)

def step (s : State Msg H) : ProbeLabel Msg → Option (State Msg H)
  | .consumer l => do return { s with consumer := ← ConsumerLoop.step app s.consumer l }
  | .tick isClosed => if s.checker = .sleeping then some (s.probe isClosed) else none
  | .passiveEnds outcome =>
    match s.checker with
    | .passive _ =>
      let (result, clears) := probePassive outcome
      some ((if clears = true then s.setSharedChannel none else s).probed result)
    | _ => none
  | .newConnectionEnds outcome =>
    match s.checker with
    | .newConnection => some (s.probed outcome)
    | _ => none

end Step

/-- A probe of `c` that fails leaves `c` unregistered and every other channel alone. -/
def InvalidatesProbed (s : State Msg H) (l : ProbeLabel Msg) (u : State Msg H) : Prop :=
  ∀ c e, s.checker = .passive c → l = .passiveEnds (.error e) → e.isException = true →
    u.sharedChannel ≠ some c ∧ ∀ d, d ≠ c → s.sharedChannel = some d → u.sharedChannel = some d

/-- Where a probe fails, the consumer has registered no other channel. -/
def NoOtherRegistered (s : State Msg H) (l : ProbeLabel Msg) (_ : State Msg H) : Prop :=
  ∀ c e, s.checker = .passive c → l = .passiveEnds (.error e) → e.isException = true →
    s.sharedChannel = none ∨ s.sharedChannel = some c

section Steps
variable [DecidableEq Msg] {app : App Msg H} {s u : State Msg H}

theorem probePassive_clears (e : Exn) : (probePassive (.error e)).2 = e.isException := by
  by_cases channelError : e = .amqpChannelError
  · subst channelError
    rfl
  · rw [probePassive, if_neg channelError]
    cases he : e.isException <;> rfl

omit [DecidableEq Msg] in
theorem probed_sharedChannel (s : State Msg H) (result : Except Exn ProbeResult) :
    (s.probed result).sharedChannel = s.sharedChannel := by
  cases result <;> rfl

theorem passiveEnds_sharedChannel {e : Exn}
    (hs : step app s (.passiveEnds (.error e)) = some u) :
    u.sharedChannel = if e.isException = true then none else s.sharedChannel := by
  simp only [step] at hs
  split at hs
  · cases hs
    rw [probed_sharedChannel, probePassive_clears]
    split <;> rfl
  · cases hs

theorem invalidates_iff_step {l : ProbeLabel Msg} (hs : step app s l = some u) :
    InvalidatesProbed s l u ↔ NoOtherRegistered s l u := by
  have cleared {e : Exn} (hl : l = .passiveEnds (.error e)) (he : e.isException = true) :
      u.sharedChannel = none := by
    rw [passiveEnds_sharedChannel (hl ▸ hs), if_pos he]
  constructor
  · intro kept c e probing hl he
    by_contra other
    rw [not_or] at other
    obtain ⟨d, registered⟩ := Option.ne_none_iff_exists'.mp other.1
    have ne : d ≠ c := by
      rintro rfl
      exact other.2 registered
    have still := (kept c e probing hl he).2 d ne registered
    rw [cleared hl he] at still
    cases still
  · intro alone c e probing hl he
    rw [cleared hl he]
    refine ⟨by rintro ⟨⟩, fun d ne registered => ?_⟩
    rcases alone c e probing hl he with none | own
    · rw [none] at registered
      exact registered
    · rw [own] at registered
      exact absurd (Option.some.inj registered).symm ne

/-- In every run the failed probes invalidate the channels they probed and no others
exactly when no probe fails while another channel is registered. -/
theorem invalidatesProbed_iff {ls : List (ProbeLabel Msg)} (run : Runs (step app) initial ls u) :
    Along (step app) InvalidatesProbed initial ls u ↔
      Along (step app) NoOtherRegistered initial ls u :=
  run.along_iff (fun _ => True) trivial (fun _ _ _ _ _ _ => trivial)
    (fun _ _ _ _ hs => invalidates_iff_step hs)

end Steps

section Examples

def untilReregistered : List (ProbeLabel Unit) :=
  [.consumer (.resume .returned), .consumer (.resume .returned), .tick false,
    .consumer (.resume (.raised .amqpConnectionError))] ++
    List.replicate 4 (.consumer (.resume .returned))

def timeoutError : Exn := .other "TimeoutError"

theorem late_probe_unregisters : ¬ ∀ ls u, Runs (step userCreatedApp) initial ls u →
    Along (step userCreatedApp) InvalidatesProbed initial ls u := by
  intro h
  have along := h (untilReregistered ++ [.passiveEnds (.error timeoutError)]) _
    (Runs.of_execute rfl)
  obtain ⟨w, before, enabled, kept⟩ := along.last
  cases before
  cases enabled
  have still := (kept 1 timeoutError rfl rfl rfl).2 2 (by decide) rfl
  cases still

theorem failed_probe_invalidates : ∃ u, Along (step userCreatedApp) InvalidatesProbed initial
    [.consumer (.resume .returned), .consumer (.resume .returned), .tick false,
      .passiveEnds (.error .amqpChannelError)] u ∧ u.sharedChannel = none := by
  have alone : ∃ u, Along (step userCreatedApp) NoOtherRegistered initial
      [.consumer (.resume .returned), .consumer (.resume .returned), .tick false,
        .passiveEnds (.error .amqpChannelError)] u ∧ u.sharedChannel = none := by
    refine ⟨_, .cons rfl ?_ (.cons rfl ?_ (.cons rfl ?_ (.single rfl ?_))), rfl⟩
    · rintro _ _ _ ⟨⟩
    · rintro _ _ _ ⟨⟩
    · rintro _ _ _ ⟨⟩
    · rintro c e ⟨⟩ - -
      exact .inr rfl
  obtain ⟨u, alone, cleared⟩ := alone
  exact ⟨u, (invalidatesProbed_iff alone.runs).mpr alone, cleared⟩

end Examples

end FastapiProject.HealthProbes
