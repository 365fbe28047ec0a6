import Mathlib.Logic.Function.Basic
import FastapiProject.MachineRuns
import FastapiProject.PythonExceptions

set_option autoImplicit false

/-!
# Jobs, broadcasts and websockets over one shared store

`core/jobs.py`, `core/store.py` and the endpoint of `main.py`. A runner or an endpoint
stands at one of its awaits; a label resumes it with what the await gives. A worker
thread has one step for each of its writes.
-/
namespace FastapiProject.JobStore
open PythonExceptions

variable {JobId Ws Payload Time : Type}

inductive JobStatus where
  | pending
  | running
  | done
  | failed
  deriving DecidableEq, Repr

inductive JobResult where
  | gathered (fetch : String) (compute : ℕ)
  | text (s : String)
  deriving DecidableEq, Repr

structure JobRecord (JobId Time : Type) where
  jobId : JobId
  status : JobStatus
  result : Option JobResult
  startedAt : Option Time
  finishedAt : Option Time
  deriving DecidableEq, Repr

/-- `str()` of a payload and of an exception. -/
structure Str (Payload : Type) where
  payload : Payload → String
  exn : Exn → String

/-- Where the dispatched job stands; `ended true` when all its steps have succeeded. -/
inductive Runner (Ws Payload : Type) where
  | queued (payload : Payload) (sync : Bool)
  | gathering (payload : Payload)
  | broadcasting (position : ℕ) (ws : Ws) (dead : List Ws)
  | starting (payload : Payload)
  | sleeping (payload : Payload)
  | ended (succeeded : Bool)
  deriving DecidableEq, Repr

inductive Endpoint where
  | absent
  | accepting
  | receiving
  | echoing
  | ended (outcome : Except Exn Unit)

structure State (JobId Ws Payload Time : Type) where
  activeConnections : List Ws
  jobs : JobId → Option (JobRecord JobId Time)
  runners : JobId → Option (Runner Ws Payload)
  endpoints : Ws → Endpoint

def initial : State JobId Ws Payload Time :=
  ⟨[], fun _ => none, fun _ => none, fun _ => .absent⟩

inductive Label (JobId Ws Payload Time : Type) where
  | submit (id : JobId) (payload : Payload) (sync : Bool)
  | dispatch (id : JobId) (now : Time)
  | startedAt (id : JobId) (now : Time)
  | gatherEnds (id : JobId) (outcome : Except Exn Unit) (now : Time)
  | sendEnds (id : JobId) (outcome : Except Exn Unit) (now : Time)
  | sleepEnds (id : JobId) (outcome : Except Exn Unit) (now : Time)
  | connect (ws : Ws)
  | acceptEnds (ws : Ws) (outcome : Except Exn Unit)
  | receiveEnds (ws : Ws) (outcome : Except Exn Unit)
  | echoEnds (ws : Ws) (outcome : Except Exn Unit)

def Label.job? : Label JobId Ws Payload Time → Option JobId
  | .dispatch id _ | .startedAt id _ | .gatherEnds id _ _ | .sendEnds id _ _ | .sleepEnds id _ _ =>
    some id
  | .submit _ _ _ | .connect _ | .acceptEnds _ _ | .receiveEnds _ _ | .echoEnds _ _ => none

def stepFetchData (str : Str Payload) (payload : Payload) : String := "fetched:" ++ str.payload payload

def stepCompute (str : Str Payload) (payload : Payload) : ℕ := (str.payload payload).length

section Step
variable [DecidableEq JobId] [DecidableEq Ws] (str : Str Payload)

namespace State
variable (s : State JobId Ws Payload Time)

/-- `job_status_store[job_id].update(..)`. -/
def updateJob (id : JobId) (f : JobRecord JobId Time → JobRecord JobId Time) :
    State JobId Ws Payload Time :=
  { s with jobs := Function.update s.jobs id ((s.jobs id).map f) }

def moveRunner (id : JobId) (r : Runner Ws Payload) : State JobId Ws Payload Time :=
  { s with runners := Function.update s.runners id (some r) }

def moveEndpoint (ws : Ws) (e : Endpoint) : State JobId Ws Payload Time :=
  { s with endpoints := Function.update s.endpoints ws e }

def finishJob (id : JobId) (status : JobStatus) (result : JobResult) (now : Time) :
    State JobId Ws Payload Time :=
  s.updateJob id fun r =>
    { r with status := status, result := some result, finishedAt := some now }

/-- The `except Exception` clause of both kinds of job; other exceptions pass it. -/
def jobRaised (id : JobId) (succeeded : Bool) (e : Exn) (now : Time) : State JobId Ws Payload Time :=
  if e.isException = true then
    (s.finishJob id .failed (.text (str.exn e)) now).moveRunner id (.ended succeeded)
  else s.moveRunner id (.ended succeeded)

/-- `broadcast_ws` at the head of its loop: the loop goes by position over the list as it
now is, and the dead connections are removed when it is through. -/
def broadcastWs (id : JobId) (position : ℕ) (dead : List Ws) (now : Time) :
    State JobId Ws Payload Time :=
  match s.activeConnections[position]? with
  | some ws => s.moveRunner id (.broadcasting (position + 1) ws dead)
  | none =>
    match removeEach s.activeConnections dead with
    | (rest, .ok ()) => { s with activeConnections := rest }.moveRunner id (.ended true)
    | (rest, .error e) => { s with activeConnections := rest }.jobRaised str id true e now

/-- `await broadcast_ws(f"job:{job_id}:done")` up to the first send, noted by the job it names. -/
def callBroadcastWs (id : JobId) (now : Time) : State JobId Ws Payload Time × List JobId :=
  (s.broadcastWs str id 0 [] now, [id])

/-- The `except WebSocketDisconnect` clause of the endpoint. -/
def endpointRaised (ws : Ws) (e : Exn) : State JobId Ws Payload Time :=
  if e = .webSocketDisconnect then
    match listRemove s.activeConnections ws with
    | .ok rest => { s with activeConnections := rest }.moveEndpoint ws (.ended (.ok ()))
    | .error e' => s.moveEndpoint ws (.ended (.error e'))
  else s.moveEndpoint ws (.ended (.error e))

end State

/-- `submit_job`: a fresh id, a pending record, and a background task for later. -/
def submitJob (s : State JobId Ws Payload Time) (id : JobId) (payload : Payload) (sync : Bool) :
    State JobId Ws Payload Time :=
  { s with jobs := Function.update s.jobs id (some ⟨id, .pending, none, none, none⟩) }.moveRunner id
    (.queued payload sync)

def notedDead (outcome : Except Exn Unit) (ws : Ws) (dead : List Ws) : List Ws :=
  match outcome with
  | .ok () => dead
  | .error _ => dead ++ [ws]

/-- A job from one await to the next, with the calls of `broadcast_ws` it makes on the way. -/
def resumeJob (s : State JobId Ws Payload Time) (id : JobId) (r : Runner Ws Payload) :
    Label JobId Ws Payload Time → Option (State JobId Ws Payload Time × List JobId)
  | .dispatch _ now =>
    match r with
    | .queued payload false => some ((s.updateJob id fun r =>
        { r with status := .running, startedAt := some now }).moveRunner id (.gathering payload), [])
    | .queued payload true => some ((s.updateJob id fun r =>
        { r with status := .running }).moveRunner id (.starting payload), [])
    | _ => none
  | .startedAt _ now =>
    match r with
    | .starting payload => some ((s.updateJob id fun r =>
        { r with startedAt := some now }).moveRunner id (.sleeping payload), [])
    | _ => none
  | .gatherEnds _ outcome now =>
    match r with
    | .gathering payload =>
      match outcome with
      | .ok () => some ((s.finishJob id .done (.gathered (stepFetchData str payload)
          (stepCompute str payload)) now).callBroadcastWs str id now)
      | .error e => some (s.jobRaised str id false e now, [])
    | _ => none
  | .sendEnds _ outcome now =>
    match r with
    | .broadcasting position ws dead =>
      match outcome with
      | .error e =>
        if e.isException = true then
          some (s.broadcastWs str id position (notedDead outcome ws dead) now, [])
        else some (s.jobRaised str id true e now, [])
      | .ok () => some (s.broadcastWs str id position (notedDead outcome ws dead) now, [])
    | _ => none
  | .sleepEnds _ outcome now =>
    match r with
    | .sleeping payload =>
      match outcome with
      | .ok () => some ((s.finishJob id .done (.text ("sync-processed:" ++ str.payload payload))
          now).moveRunner id (.ended true), [])
      | .error e => some (s.jobRaised str id false e now, [])
    | _ => none
  | _ => none

def stepJob (s : State JobId Ws Payload Time) (id : JobId) (r : Runner Ws Payload)
    (l : Label JobId Ws Payload Time) : Option (State JobId Ws Payload Time) :=
  (resumeJob str s id r l).map Prod.fst

def stepEndpoint (s : State JobId Ws Payload Time) (ws : Ws) :
    Label JobId Ws Payload Time → Option (State JobId Ws Payload Time)
  | .connect _ =>
    match s.endpoints ws with
    | .absent => some (s.moveEndpoint ws .accepting)
    | _ => none
  | .acceptEnds _ outcome =>
    match s.endpoints ws with
    | .accepting =>
      match outcome with
      | .ok () => some ({ s with activeConnections := s.activeConnections ++ [ws] }.moveEndpoint
          ws .receiving)
      | .error e => some (s.moveEndpoint ws (.ended (.error e)))
    | _ => none
  | .receiveEnds _ outcome =>
    match s.endpoints ws with
    | .receiving =>
      match outcome with
      | .ok () => some (s.moveEndpoint ws .echoing)
      | .error e => some (s.endpointRaised ws e)
    | _ => none
  | .echoEnds _ outcome =>
    match s.endpoints ws with
    | .echoing =>
      match outcome with
      | .ok () => some (s.moveEndpoint ws .receiving)
      | .error e => some (s.endpointRaised ws e)
    | _ => none
  | _ => none

def step (s : State JobId Ws Payload Time) (l : Label JobId Ws Payload Time) :
    Option (State JobId Ws Payload Time) :=
  match l with
  | .submit id payload sync =>
    if (s.jobs id).isNone then some (submitJob s id payload sync) else none
  | .dispatch id _ | .startedAt id _ | .gatherEnds id _ _ | .sendEnds id _ _ | .sleepEnds id _ _ =>
    (s.runners id).bind fun r => stepJob str s id r l
  | .connect ws | .acceptEnds ws _ | .receiveEnds ws _ | .echoEnds ws _ => stepEndpoint s ws l

end Step

section Jobs
variable [DecidableEq JobId] (s : State JobId Ws Payload Time) (id : JobId)

@[simp] theorem moveRunner_jobs (r : Runner Ws Payload) : (s.moveRunner id r).jobs = s.jobs := rfl

@[simp] theorem moveRunner_runners (r : Runner Ws Payload) :
    (s.moveRunner id r).runners id = some r := Function.update_self _ _ _

@[simp] theorem updateJob_jobs (f : JobRecord JobId Time → JobRecord JobId Time) :
    (s.updateJob id f).jobs id = (s.jobs id).map f := Function.update_self _ _ _

end Jobs

section Moves
variable [DecidableEq JobId] [DecidableEq Ws] {str : Str Payload}
  {s u : State JobId Ws Payload Time} {id : JobId}

inductive JobMove (str : Str Payload) (s : State JobId Ws Payload Time) (id : JobId) :
    Runner Ws Payload → Label JobId Ws Payload Time → State JobId Ws Payload Time → Prop where
  | begins (k : JobId) (payload : Payload) (now : Time) :
      JobMove str s id (.queued payload false) (.dispatch k now) ((s.updateJob id fun r =>
        { r with status := .running, startedAt := some now }).moveRunner id (.gathering payload))
  | admitted (k : JobId) (payload : Payload) (now : Time) :
      JobMove str s id (.queued payload true) (.dispatch k now) ((s.updateJob id fun r =>
        { r with status := .running }).moveRunner id (.starting payload))
  | stamped (k : JobId) (payload : Payload) (now : Time) :
      JobMove str s id (.starting payload) (.startedAt k now) ((s.updateJob id fun r =>
        { r with startedAt := some now }).moveRunner id (.sleeping payload))
  | gathered (k : JobId) (payload : Payload) (now : Time) :
      JobMove str s id (.gathering payload) (.gatherEnds k (.ok ()) now) ((s.finishJob id .done
        (.gathered (stepFetchData str payload) (stepCompute str payload)) now).broadcastWs
          str id 0 [] now)
  | gatherRaised (k : JobId) (payload : Payload) (e : Exn) (now : Time) :
      JobMove str s id (.gathering payload) (.gatherEnds k (.error e) now)
        (s.jobRaised str id false e now)
  | sent (k : JobId) (position : ℕ) (ws : Ws) (dead : List Ws) (outcome : Except Exn Unit)
      (now : Time) (caught : ∀ e, outcome = .error e → e.isException = true) :
      JobMove str s id (.broadcasting position ws dead) (.sendEnds k outcome now)
        (s.broadcastWs str id position (notedDead outcome ws dead) now)
  | sendRaised (k : JobId) (position : ℕ) (ws : Ws) (dead : List Ws) (e : Exn) (now : Time)
      (fatal : ¬ e.isException = true) :
      JobMove str s id (.broadcasting position ws dead) (.sendEnds k (.error e) now)
        (s.jobRaised str id true e now)
  | slept (k : JobId) (payload : Payload) (now : Time) :
      JobMove str s id (.sleeping payload) (.sleepEnds k (.ok ()) now) ((s.finishJob id .done
        (.text ("sync-processed:" ++ str.payload payload)) now).moveRunner id (.ended true))
  | sleepRaised (k : JobId) (payload : Payload) (e : Exn) (now : Time) :
      JobMove str s id (.sleeping payload) (.sleepEnds k (.error e) now)
        (s.jobRaised str id false e now)

theorem stepJob_move {r : Runner Ws Payload} {l : Label JobId Ws Payload Time}
    (hs : stepJob str s id r l = some u) : JobMove str s id r l u := by
  cases l with
  | dispatch k now =>
    cases r with
    | queued payload sync =>
      cases sync <;> cases hs
      · exact .begins k payload now
      · exact .admitted k payload now
    | _ => cases hs
  | startedAt k now =>
    cases r with
    | starting payload =>
      cases hs
      exact .stamped k payload now
    | _ => cases hs
  | gatherEnds k outcome now =>
    cases r with
    | gathering payload =>
      cases outcome <;> cases hs
      · exact .gatherRaised k payload _ now
      · exact .gathered k payload now
    | _ => cases hs
  | sendEnds k outcome now =>
    cases r with
    | broadcasting position ws dead =>
      cases outcome with
      | ok _ =>
        cases hs
        exact .sent k position ws dead (.ok ()) now (by rintro _ ⟨⟩)
      | error e =>
        simp only [stepJob, resumeJob] at hs
        split at hs
        · rename_i caught
          cases hs
          refine .sent k position ws dead (.error e) now ?_
          rintro _ ⟨⟩
          exact caught
        · rename_i fatal
          cases hs
          exact .sendRaised k position ws dead e now fatal
    | _ => cases hs
  | sleepEnds k outcome now =>
    cases r with
    | sleeping payload =>
      cases outcome <;> cases hs
      · exact .sleepRaised k payload _ now
      · exact .slept k payload now
    | _ => cases hs
  | _ => cases hs

end Moves

section Endpoints
variable [DecidableEq Ws] (s : State JobId Ws Payload Time) (ws : Ws)

theorem stepEndpoint_jobs {u : State JobId Ws Payload Time} {l : Label JobId Ws Payload Time}
    (hs : stepEndpoint s ws l = some u) : u.jobs = s.jobs ∧ u.runners = s.runners := by
  have raised (e : Exn) : (s.endpointRaised ws e).jobs = s.jobs ∧
      (s.endpointRaised ws e).runners = s.runners := by
    unfold State.endpointRaised
    split
    · split <;> exact ⟨rfl, rfl⟩
    · exact ⟨rfl, rfl⟩
  unfold stepEndpoint at hs
  split at hs
  · split at hs <;> cases hs
    exact ⟨rfl, rfl⟩
  · split at hs
    · split at hs <;> cases hs <;> exact ⟨rfl, rfl⟩
    · cases hs
  · split at hs
    · split at hs <;> cases hs
      · exact ⟨rfl, rfl⟩
      · exact raised _
    · cases hs
  · split at hs
    · split at hs <;> cases hs
      · exact ⟨rfl, rfl⟩
      · exact raised _
    · cases hs
  · cases hs

end Endpoints

theorem step_cases [DecidableEq JobId] [DecidableEq Ws] {str : Str Payload}
    {s u : State JobId Ws Payload Time} {l : Label JobId Ws Payload Time}
    (hs : step str s l = some u) :
    (∃ id payload sync, l = .submit id payload sync ∧ s.jobs id = none ∧
      u = submitJob s id payload sync) ∨
    (∃ id r, l.job? = some id ∧ s.runners id = some r ∧ stepJob str s id r l = some u) ∨
    (l.job? = none ∧ u.jobs = s.jobs ∧ u.runners = s.runners) := by
  cases l with
  | submit id payload sync =>
    simp only [step] at hs
    split at hs
    · rename_i fresh
      exact .inl ⟨id, payload, sync, rfl, Option.isNone_iff_eq_none.mp fresh,
        (Option.some.inj hs).symm⟩
    · cases hs
  | dispatch id _ | startedAt id _ | gatherEnds id _ _ | sendEnds id _ _ | sleepEnds id _ _ =>
    obtain ⟨r, hr, hu⟩ := Option.bind_eq_some_iff.mp hs
    exact .inr (.inl ⟨id, r, rfl, hr, hu⟩)
  | connect ws | acceptEnds ws _ | receiveEnds ws _ | echoEnds ws _ =>
    simp only [step] at hs
    exact .inr (.inr ⟨rfl, stepEndpoint_jobs s ws hs⟩)

end FastapiProject.JobStore
