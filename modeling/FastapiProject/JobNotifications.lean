import FastapiProject.JobStoreTerminal

set_option autoImplicit false

/-!
# What a job tells its clients

The statuses of a job and the broadcasts that name it, in order. A coroutine job
broadcasts when its work has succeeded; a thread job and a failed job never do.
-/
namespace FastapiProject.JobNotifications
open PythonExceptions MachineRuns JobStore

variable {JobId Ws Payload Time : Type}

inductive JobEvent where
  | status (status : JobStatus)
  | broadcastWs (message : String)
  deriving DecidableEq, Repr

def doneMessage (jobId : String) : String := "job:" ++ jobId ++ ":done"

/-- The flag that a job was submitted with, how its work has ended, and in order the changes
of its status and the calls of `broadcast_ws` that name it. -/
structure JobLog where
  sync : Option Bool
  outcome : Option (Except Exn Unit)
  events : List JobEvent

structure Traced (JobId Ws Payload Time : Type) where
  store : State JobId Ws Payload Time
  logs : JobId → JobLog

def Traced.initial : Traced JobId Ws Payload Time := ⟨JobStore.initial, fun _ => ⟨none, none, []⟩⟩

def about? : Label JobId Ws Payload Time → Option JobId
  | .submit id _ _ => some id
  | l => l.job?

def statusChange : Option JobStatus → Option JobStatus → List JobEvent
  | before, some after => if before = some after then [] else [.status after]
  | _, none => []

def jobStatus (s : State JobId Ws Payload Time) (id : JobId) : Option JobStatus :=
  (s.jobs id).map JobRecord.status

def JobLog.note (log : JobLog) : Label JobId Ws Payload Time → JobLog
  | .submit _ _ sync => { log with sync := some sync }
  | .gatherEnds _ outcome _ | .sleepEnds _ outcome _ => { log with outcome := some outcome }
  | _ => log

def JobLog.observe (log : JobLog) (before after : Option JobStatus) (calls : List JobEvent) :
    JobLog :=
  { log with events := log.events ++ statusChange before after ++ calls }

section Step
variable [DecidableEq JobId] [DecidableEq Ws] (text : JobId → String) (str : Str Payload)

/-- The calls of `broadcast_ws` that a step makes, by the jobs they name. -/
def broadcastCalls (s : State JobId Ws Payload Time) (l : Label JobId Ws Payload Time) : List JobId :=
  match l.job? with
  | some id => ((s.runners id).bind fun r => resumeJob str s id r l).elim [] Prod.snd
  | none => []

def notices (id : JobId) (calls : List JobId) : List JobEvent :=
  (calls.filter (· = id)).map fun k => .broadcastWs (doneMessage (text k))

def Traced.step (s : Traced JobId Ws Payload Time) (l : Label JobId Ws Payload Time) :
    Option (Traced JobId Ws Payload Time) :=
  (JobStore.step str s.store l).map fun u => ⟨u, fun id =>
    (if about? l = some id then (s.logs id).note l else s.logs id).observe
      (jobStatus s.store id) (jobStatus u id) (notices text id (broadcastCalls str s.store l))⟩

end Step

/-- The events of a job whose work has ended; an outcome that is no `Exception` passes the
clause of either path. -/
def workTrace (message : String) (sync : Bool) (outcome : Except Exn Unit) : List JobEvent :=
  [.status .pending, .status .running] ++
    match outcome with
    | .ok () => .status .done :: if sync = true then [] else [.broadcastWs message]
    | .error e => if e.isException = true then [.status .failed] else []

def workStatus : Except Exn Unit → JobStatus
  | .ok () => .done
  | .error e => if e.isException = true then .failed else .running

/-- How the place of a runner, the status in the store and the log go together. The last
case is a broadcast whose clean-up has raised. -/
inductive Consistent (message : String) :
    Option (Runner Ws Payload) → Option JobStatus → JobLog → Prop where
  | unknown : Consistent message none none ⟨none, none, []⟩
  | queued (payload : Payload) (sync : Bool) : Consistent message (some (.queued payload sync))
      (some .pending) ⟨some sync, none, [.status .pending]⟩
  | gathering (payload : Payload) : Consistent message (some (.gathering payload)) (some .running)
      ⟨some false, none, [.status .pending, .status .running]⟩
  | starting (payload : Payload) : Consistent message (some (.starting payload)) (some .running)
      ⟨some true, none, [.status .pending, .status .running]⟩
  | sleeping (payload : Payload) : Consistent message (some (.sleeping payload)) (some .running)
      ⟨some true, none, [.status .pending, .status .running]⟩
  | broadcasting (position : ℕ) (ws : Ws) (dead : List Ws) :
      Consistent message (some (.broadcasting position ws dead)) (some .done)
        ⟨some false, some (.ok ()), workTrace message false (.ok ())⟩
  | ended (succeeded sync : Bool) (outcome : Except Exn Unit) :
      Consistent message (some (.ended succeeded)) (some (workStatus outcome))
        ⟨some sync, some outcome, workTrace message sync outcome⟩
  | cleanupRaised : Consistent message (some (.ended true)) (some .failed)
      ⟨some false, some (.ok ()), workTrace message false (.ok ()) ++ [.status .failed]⟩

section Effects
variable [DecidableEq JobId] {s u : State JobId Ws Payload Time} {id : JobId} {before : JobStatus}

theorem status_updateJob {f : JobRecord JobId Time → JobRecord JobId Time} {after : JobStatus}
    (hf : ∀ r, r.status = before → (f r).status = after) (h : jobStatus s id = some before) :
    jobStatus (s.updateJob id f) id = some after := by
  obtain ⟨r, found, status⟩ := Option.map_eq_some_iff.mp h
  rw [jobStatus, updateJob_jobs, found, Option.map_some, Option.map_some, hf r status]

theorem status_moveRunner (s : State JobId Ws Payload Time) (id k : JobId) (r : Runner Ws Payload) :
    jobStatus (s.moveRunner k r) id = jobStatus s id := rfl

theorem runner_jobRaised (str : Str Payload) (s : State JobId Ws Payload Time) (id : JobId)
    (succeeded : Bool) (e : Exn) (now : Time) :
    (s.jobRaised str id succeeded e now).runners id = some (.ended succeeded) := by
  unfold State.jobRaised
  split <;> exact moveRunner_runners _ _ _

theorem status_jobRaised (str : Str Payload) (h : jobStatus s id = some before) (succeeded : Bool)
    (e : Exn) (now : Time) : jobStatus (s.jobRaised str id succeeded e now) id =
      some (if e.isException = true then .failed else before) ∧
    (s.jobRaised str id succeeded e now).runners id = some (.ended succeeded) := by
  refine ⟨?_, runner_jobRaised str s id succeeded e now⟩
  unfold State.jobRaised
  split
  · exact status_updateJob (fun _ _ => rfl) h
  · exact h

variable [DecidableEq Ws]

theorem broadcastWs_cases (str : Str Payload) (h : jobStatus s id = some before) (position : ℕ)
    (dead : List Ws) (now : Time) :
    jobStatus (s.broadcastWs str id position dead now) id = some before ∧
      ((∃ ws, (s.broadcastWs str id position dead now).runners id =
          some (.broadcasting (position + 1) ws dead)) ∨
        (s.broadcastWs str id position dead now).runners id = some (.ended true)) ∨
    dead ≠ [] ∧ jobStatus (s.broadcastWs str id position dead now) id = some .failed ∧
      (s.broadcastWs str id position dead now).runners id = some (.ended true) := by
  unfold State.broadcastWs
  split
  · rename_i ws _
    exact .inl ⟨h, .inl ⟨ws, moveRunner_runners _ _ _⟩⟩
  · split
    · exact .inl ⟨h, .inr (moveRunner_runners _ _ _)⟩
    · rename_i rest e removed
      have raised : e = .valueError := removeEach_error s.activeConnections dead (by rw [removed])
      subst raised
      have kept : jobStatus { s with activeConnections := rest } id = some before := h
      obtain ⟨status, runner⟩ := status_jobRaised str kept true .valueError now
      refine .inr ⟨?_, status, runner⟩
      rintro rfl
      cases removed

variable {text : JobId → String} {str : Str Payload} {l : Label JobId Ws Payload Time}
  {calls : List JobId} {log : JobLog}

theorem resumeJob_stepJob {r : Runner Ws Payload} (hs : resumeJob str s id r l = some (u, calls)) :
    stepJob str s id r l = some u := congrArg (Option.map Prod.fst) hs

theorem calls_quiet {r : Runner Ws Payload} (hs : resumeJob str s id r l = some (u, calls))
    (quiet : ∀ k now, l ≠ .gatherEnds k (.ok ()) now) : calls = [] := by
  cases stepJob_move (resumeJob_stepJob hs) with
  | gathered k payload now => exact (quiet k now rfl).elim
  | sent k position ws dead outcome now caught =>
    cases outcome with
    | ok _ => exact (congrArg Prod.snd (Option.some.inj hs)).symm
    | error e =>
      rw [resumeJob, if_pos (caught e rfl)] at hs
      exact (congrArg Prod.snd (Option.some.inj hs)).symm
  | sendRaised k position ws dead e now fatal =>
    rw [resumeJob, if_neg fatal] at hs
    exact (congrArg Prod.snd (Option.some.inj hs)).symm
  | _ => exact (congrArg Prod.snd (Option.some.inj hs)).symm

theorem calls_gathered {payload : Payload} {k : JobId} {now : Time}
    (hs : resumeJob str s id (.gathering payload) (.gatherEnds k (.ok ()) now) = some (u, calls)) :
    calls = [id] := (congrArg Prod.snd (Option.some.inj hs)).symm

theorem calls_own {r : Runner Ws Payload} (hs : resumeJob str s id r l = some (u, calls)) :
    ∀ k ∈ calls, k = id := by
  cases stepJob_move (resumeJob_stepJob hs) with
  | gathered k payload now =>
    rw [calls_gathered hs]
    exact fun k mem => List.mem_singleton.mp mem
  | _ =>
    rw [calls_quiet hs (by rintro _ _ ⟨⟩)]
    rintro _ ⟨⟩

/-- A call is recorded just where a broadcast begins, which can be seen while there is a
connection to send to. -/
theorem called_iff {r : Runner Ws Payload} (listed : s.activeConnections ≠ [])
    (hs : resumeJob str s id r l = some (u, calls)) :
    id ∈ calls ↔ (∀ position ws dead, r ≠ .broadcasting position ws dead) ∧
      ∃ position ws dead, u.runners id = some (.broadcasting position ws dead) := by
  have silent (none : calls = []) (elsewhere : ∀ position ws dead,
      u.runners id ≠ some (.broadcasting position ws dead)) : id ∈ calls ↔
        (∀ position ws dead, r ≠ .broadcasting position ws dead) ∧
          ∃ position ws dead, u.runners id = some (.broadcasting position ws dead) := by
    refine iff_of_false (by rw [none]; exact List.not_mem_nil) ?_
    rintro ⟨-, position, ws, dead, sending⟩
    exact elsewhere position ws dead sending
  cases stepJob_move (resumeJob_stepJob hs) with
  | gathered k payload now =>
    obtain ⟨ws, rest, first⟩ := List.exists_cons_of_ne_nil listed
    refine iff_of_true ?_ ⟨by rintro _ _ _ ⟨⟩, 1, ws, [], ?_⟩
    · rw [calls_gathered hs]
      exact List.mem_singleton_self id
    · unfold State.broadcastWs
      simp only [State.finishJob, State.updateJob, first, List.getElem?_cons_zero]
      exact moveRunner_runners _ _ _
  | sent k position ws dead outcome now caught =>
    refine iff_of_false ?_ (fun begins => begins.1 position ws dead rfl)
    rw [calls_quiet hs (by rintro _ _ ⟨⟩)]
    exact List.not_mem_nil
  | begins k payload now | admitted k payload now | stamped k payload now | slept k payload now =>
    refine silent (calls_quiet hs (by rintro _ _ ⟨⟩)) ?_
    rw [moveRunner_runners]
    rintro _ _ _ ⟨⟩
  | gatherRaised k payload e now | sendRaised k position ws dead e now fatal
  | sleepRaised k payload e now =>
    refine silent (calls_quiet hs (by rintro _ _ ⟨⟩)) ?_
    rw [runner_jobRaised]
    rintro _ _ _ ⟨⟩

theorem broadcastCalls_resumed {r : Runner Ws Payload} (own : l.job? = some id)
    (at_id : s.runners id = some r) (hs : resumeJob str s id r l = some (u, calls)) :
    broadcastCalls str s l = calls := by
  simp only [broadcastCalls, own, at_id, Option.bind_some, hs, Option.elim_some]

omit [DecidableEq Ws] in
theorem notices_other {k : JobId} (own : ∀ x ∈ calls, x = id) (other : k ≠ id) :
    notices text k calls = [] := by
  have none : calls.filter (· = k) = [] := by
    rw [List.filter_eq_nil_iff]
    intro x mem same
    rw [own x mem, decide_eq_true_eq] at same
    exact other same.symm
  rw [notices, none]
  rfl

theorem queued_consistent {payload : Payload} {sync : Bool}
    (status : jobStatus s id = some .pending)
    (hs : resumeJob str s id (.queued payload sync) l = some (u, calls)) :
    Consistent (doneMessage (text id)) (u.runners id) (jobStatus u id)
      ((JobLog.note ⟨some sync, none, [.status .pending]⟩ l).observe (some .pending)
        (jobStatus u id) (notices text id calls)) := by
  cases stepJob_move (resumeJob_stepJob hs) with
  | begins k _ now =>
    have after : jobStatus (s.updateJob id fun r =>
        { r with status := .running, startedAt := some now }) id = some .running :=
      status_updateJob (fun _ _ => rfl) status
    rw [calls_quiet hs (by rintro _ _ ⟨⟩), moveRunner_runners, status_moveRunner, after]
    exact .gathering payload
  | admitted k _ now =>
    have after : jobStatus (s.updateJob id fun r => { r with status := .running }) id =
        some .running := status_updateJob (fun _ _ => rfl) status
    rw [calls_quiet hs (by rintro _ _ ⟨⟩), moveRunner_runners, status_moveRunner, after]
    exact .starting payload

theorem raised_consistent {r : Runner Ws Payload} {sync succeeded : Bool} {e : Exn} {now : Time}
    (status : jobStatus s id = some .running)
    (work : l = .gatherEnds id (.error e) now ∨ l = .sleepEnds id (.error e) now)
    (hs : resumeJob str s id r l = some (s.jobRaised str id succeeded e now, calls)) :
    Consistent (doneMessage (text id)) ((s.jobRaised str id succeeded e now).runners id)
      (jobStatus (s.jobRaised str id succeeded e now) id)
      ((JobLog.note ⟨some sync, none, [.status .pending, .status .running]⟩ l).observe
        (some .running) (jobStatus (s.jobRaised str id succeeded e now) id)
        (notices text id calls)) := by
  obtain ⟨after, runner⟩ := status_jobRaised str status succeeded e now
  have silent : calls = [] := calls_quiet hs (by rcases work with rfl | rfl <;> rintro _ _ ⟨⟩)
  have logged : (JobLog.note ⟨some sync, none, [.status .pending, .status .running]⟩ l).observe
      (some .running) (some (workStatus (.error e))) (notices text id []) =
        ⟨some sync, some (.error e), workTrace (doneMessage (text id)) sync (.error e)⟩ := by
    rcases work with rfl | rfl <;> cases he : e.isException <;>
      simp [JobLog.note, JobLog.observe, statusChange, notices, workStatus, workTrace, he]
  rw [silent, after, runner]
  change Consistent _ _ _ (JobLog.observe _ _ (some (workStatus (.error e))) _)
  rw [logged]
  exact .ended succeeded sync (.error e)

theorem gathering_consistent {payload : Payload} (own : l.job? = some id)
    (status : jobStatus s id = some .running)
    (hs : resumeJob str s id (.gathering payload) l = some (u, calls)) :
    Consistent (doneMessage (text id)) (u.runners id) (jobStatus u id)
      ((JobLog.note ⟨some false, none, [.status .pending, .status .running]⟩ l).observe
        (some .running) (jobStatus u id) (notices text id calls)) := by
  cases stepJob_move (resumeJob_stepJob hs) with
  | gatherRaised k _ e now =>
    cases own
    exact raised_consistent status (.inl rfl) hs
  | gathered k _ now =>
    cases own
    have called : notices text id calls = [.broadcastWs (doneMessage (text id))] := by
      rw [calls_gathered hs, notices, List.filter_singleton, decide_eq_true rfl]
      rfl
    have done : jobStatus (s.finishJob id .done
        (.gathered (stepFetchData str payload) (stepCompute str payload)) now) id = some .done :=
      status_updateJob (fun _ _ => rfl) status
    rw [called]
    rcases broadcastWs_cases str done 0 [] now with ⟨after, ⟨ws, runner⟩ | runner⟩ | ⟨noted, -⟩
    · rw [after, runner]
      exact .broadcasting 1 ws []
    · rw [after, runner]
      exact .ended true false (.ok ())
    · exact absurd rfl noted

theorem starting_consistent {payload : Payload} (status : jobStatus s id = some .running)
    (hs : resumeJob str s id (.starting payload) l = some (u, calls)) :
    Consistent (doneMessage (text id)) (u.runners id) (jobStatus u id)
      ((JobLog.note ⟨some true, none, [.status .pending, .status .running]⟩ l).observe
        (some .running) (jobStatus u id) (notices text id calls)) := by
  cases stepJob_move (resumeJob_stepJob hs) with
  | stamped k _ now =>
    have after : jobStatus (s.updateJob id fun r => { r with startedAt := some now }) id =
        some .running := status_updateJob (fun _ kept => kept) status
    rw [calls_quiet hs (by rintro _ _ ⟨⟩), moveRunner_runners, status_moveRunner, after]
    exact .sleeping payload

theorem sleeping_consistent {payload : Payload} (own : l.job? = some id)
    (status : jobStatus s id = some .running)
    (hs : resumeJob str s id (.sleeping payload) l = some (u, calls)) :
    Consistent (doneMessage (text id)) (u.runners id) (jobStatus u id)
      ((JobLog.note ⟨some true, none, [.status .pending, .status .running]⟩ l).observe
        (some .running) (jobStatus u id) (notices text id calls)) := by
  cases stepJob_move (resumeJob_stepJob hs) with
  | sleepRaised k _ e now =>
    cases own
    exact raised_consistent status (.inr rfl) hs
  | slept k _ now =>
    cases own
    have after : jobStatus (s.finishJob id .done
        (.text ("sync-processed:" ++ str.payload payload)) now) id = some .done :=
      status_updateJob (fun _ _ => rfl) status
    rw [calls_quiet hs (by rintro _ _ ⟨⟩), moveRunner_runners, status_moveRunner, after]
    exact .ended true true (.ok ())

theorem broadcasting_consistent {position : ℕ} {ws : Ws} {dead : List Ws}
    (own : l.job? = some id) (status : jobStatus s id = some .done)
    (hs : resumeJob str s id (.broadcasting position ws dead) l = some (u, calls)) :
    Consistent (doneMessage (text id)) (u.runners id) (jobStatus u id)
      ((JobLog.note ⟨some false, some (.ok ()), workTrace (doneMessage (text id)) false (.ok ())⟩
        l).observe (some .done) (jobStatus u id) (notices text id calls)) := by
  cases stepJob_move (resumeJob_stepJob hs) with
  | sent k _ _ _ outcome now caught =>
    cases own
    rw [calls_quiet hs (by rintro _ _ ⟨⟩)]
    rcases broadcastWs_cases str status position (notedDead outcome ws dead) now with
      ⟨after, ⟨ws, runner⟩ | runner⟩ | ⟨-, after, runner⟩
    · rw [after, runner]
      exact .broadcasting (position + 1) ws _
    · rw [after, runner]
      exact .ended true false (.ok ())
    · rw [after, runner]
      exact .cleanupRaised
  | sendRaised k _ _ _ e now fatal =>
    cases own
    obtain ⟨after, runner⟩ := status_jobRaised str status true e now
    rw [if_neg fatal] at after
    rw [calls_quiet hs (by rintro _ _ ⟨⟩), after, runner]
    exact .ended true false (.ok ())

theorem resumeJob_consistent {r : Runner Ws Payload} {st : Option JobStatus}
    (h : Consistent (doneMessage (text id)) (some r) st log) (status : jobStatus s id = st)
    (own : l.job? = some id) (hs : resumeJob str s id r l = some (u, calls)) :
    Consistent (doneMessage (text id)) (u.runners id) (jobStatus u id)
      ((log.note l).observe st (jobStatus u id) (notices text id calls)) := by
  cases h with
  | queued payload sync => exact queued_consistent status hs
  | gathering payload => exact gathering_consistent own status hs
  | starting payload => exact starting_consistent status hs
  | sleeping payload => exact sleeping_consistent own status hs
  | broadcasting position ws dead => exact broadcasting_consistent own status hs
  | ended succeeded sync outcome => cases stepJob_move (resumeJob_stepJob hs)
  | cleanupRaised => cases stepJob_move (resumeJob_stepJob hs)

end Effects

section Runs
variable {text : JobId → String} {str : Str Payload} {s u : Traced JobId Ws Payload Time}
  {l : Label JobId Ws Payload Time}

def Inv (text : JobId → String) (s : Traced JobId Ws Payload Time) : Prop :=
  ∀ id, Consistent (doneMessage (text id)) (s.store.runners id) (jobStatus s.store id) (s.logs id)

theorem inv_initial (text : JobId → String) :
    Inv text (Traced.initial : Traced JobId Ws Payload Time) := fun _ => .unknown

theorem observe_same (log : JobLog) (st : Option JobStatus) : log.observe st st [] = log := by
  have same : statusChange st st = [] := by
    cases st with
    | none => rfl
    | some _ => exact if_pos rfl
  rw [JobLog.observe, same, List.append_nil, List.append_nil]

theorem events_of_worked (h : Inv text u) {id : JobId} {sync : Bool} {outcome : Except Exn Unit}
    (flag : (u.logs id).sync = some sync) (worked : (u.logs id).outcome = some outcome) :
    (u.logs id).events = workTrace (doneMessage (text id)) sync outcome ∨
      sync = false ∧ outcome = .ok () ∧ (u.logs id).events =
        workTrace (doneMessage (text id)) false (.ok ()) ++ [.status .failed] := by
  have consistent := h id
  generalize u.store.runners id = r, jobStatus u.store id = st, u.logs id = log at *
  cases consistent with
  | unknown | queued | gathering | starting | sleeping => cases worked
  | broadcasting position ws dead =>
    cases flag
    cases worked
    exact .inl rfl
  | ended succeeded sync' outcome' =>
    cases flag
    cases worked
    exact .inl rfl
  | cleanupRaised =>
    cases flag
    cases worked
    exact .inr ⟨rfl, rfl, rfl⟩

def NotifiedOnce (text : JobId → String) (u : Traced JobId Ws Payload Time) (id : JobId) : Prop :=
  (u.logs id).events.count (.broadcastWs (doneMessage (text id))) = 1

variable [DecidableEq JobId] [DecidableEq Ws]

theorem inv_elsewhere (h : Inv text s) {v : State JobId Ws Payload Time} {k : JobId}
    (other : about? l ≠ some k) (runner : v.runners k = s.store.runners k)
    (job : v.jobs k = s.store.jobs k) (silent : notices text k (broadcastCalls str s.store l) = []) :
    Consistent (doneMessage (text k)) (v.runners k) (jobStatus v k)
      ((if about? l = some k then (s.logs k).note l else s.logs k).observe (jobStatus s.store k)
        (jobStatus v k) (notices text k (broadcastCalls str s.store l))) := by
  have status : jobStatus v k = jobStatus s.store k := by rw [jobStatus, job, jobStatus]
  rw [if_neg other, silent, status, observe_same, runner]
  exact h k

omit [DecidableEq Ws] in
theorem inv_submitted (h : Inv text s) {id : JobId} {payload : Payload} {sync : Bool}
    (fresh : s.store.jobs id = none) : Consistent (doneMessage (text id))
      ((submitJob s.store id payload sync).runners id) (jobStatus (submitJob s.store id payload sync) id)
      (((s.logs id).note (.submit id payload sync : Label JobId Ws Payload Time)).observe
        (jobStatus s.store id) (jobStatus (submitJob s.store id payload sync) id) []) := by
  have before := h id
  have absent : jobStatus s.store id = none := by rw [jobStatus, fresh, Option.map_none]
  have job : (submitJob s.store id payload sync).jobs id =
      some ⟨id, .pending, none, none, none⟩ := Function.update_self _ _ _
  have submitted : jobStatus (submitJob s.store id payload sync) id = some .pending := by
    rw [jobStatus, job, Option.map_some]
  have runner : (submitJob s.store id payload sync).runners id = some (.queued payload sync) :=
    moveRunner_runners _ _ _
  rw [absent] at before
  rw [absent, submitted, runner]
  generalize s.store.runners id = r, s.logs id = log at before
  cases before
  exact .queued payload sync

theorem inv_resumed (h : Inv text s) {v : State JobId Ws Payload Time} {id : JobId}
    {r : Runner Ws Payload} (own : l.job? = some id) (about : about? l = some id)
    (at_id : s.store.runners id = some r) (enabled : stepJob str s.store id r l = some v) (k : JobId) :
    Consistent (doneMessage (text k)) (v.runners k) (jobStatus v k)
      ((if about? l = some k then (s.logs k).note l else s.logs k).observe (jobStatus s.store k)
        (jobStatus v k) (notices text k (broadcastCalls str s.store l))) := by
  obtain ⟨⟨v', calls⟩, resumed, rfl⟩ := Option.map_eq_some_iff.mp enabled
  have called := broadcastCalls_resumed own at_id resumed
  by_cases same : k = id
  · subst same
    have before := h k
    rw [at_id] at before
    rw [if_pos about, called]
    exact resumeJob_consistent before rfl own resumed
  · obtain ⟨job, runner⟩ := JobStoreTerminal.stepJob_onlyJob enabled k same
    refine inv_elsewhere h ?_ runner job ?_
    · rw [about]
      exact fun there => same (Option.some.inj there).symm
    · rw [called]
      exact notices_other (calls_own resumed) same

theorem inv_step (h : Inv text s) (hs : Traced.step text str s l = some u) : Inv text u := by
  obtain ⟨v, moved, rfl⟩ := Option.map_eq_some_iff.mp hs
  intro k
  cases l with
  | submit id payload sync =>
    simp only [JobStore.step] at moved
    split at moved
    · rename_i fresh
      cases moved
      rw [Option.isNone_iff_eq_none] at fresh
      by_cases same : k = id
      · subst same
        have here : (if about? (.submit k payload sync : Label JobId Ws Payload Time) = some k then
            (s.logs k).note (.submit k payload sync : Label JobId Ws Payload Time) else s.logs k) =
              (s.logs k).note (.submit k payload sync : Label JobId Ws Payload Time) := if_pos rfl
        simp only [here]
        exact inv_submitted h fresh
      · obtain ⟨job, runner⟩ := JobStoreTerminal.onlyJob_submit payload sync k same
        exact inv_elsewhere h (fun about => same (Option.some.inj about).symm) runner job rfl
    · cases moved
  | dispatch id _ | startedAt id _ | gatherEnds id _ _ | sendEnds id _ _ | sleepEnds id _ _ =>
    obtain ⟨r, at_id, enabled⟩ := Option.bind_eq_some_iff.mp moved
    exact inv_resumed h rfl rfl at_id enabled k
  | connect ws | acceptEnds ws _ | receiveEnds ws _ | echoEnds ws _ =>
    simp only [JobStore.step] at moved
    obtain ⟨jobs, runners⟩ := stepEndpoint_jobs s.store ws moved
    exact inv_elsewhere h (by rintro ⟨⟩) (congrFun runners k) (congrFun jobs k) rfl

theorem inv_run {ls : List (Label JobId Ws Payload Time)}
    (run : Runs (Traced.step text str) Traced.initial ls u) : Inv text u :=
  run.invariant (Inv text) (inv_initial text) (fun _ _ _ h hs => inv_step h hs)

/-- Among an asynchronous and a synchronous job whose work ends in the same way, the first
is notified of once exactly when the work succeeds, the second never, and what is seen of
the two is the same exactly when the work raises. So no outcome makes them agree and be
notified of. -/
theorem notifications_iff (ls ls' : List (Label JobId Ws Payload Time))
    (u u' : Traced JobId Ws Payload Time) (i j : JobId) (outcome : Except Exn Unit)
    (run : Runs (Traced.step text str) Traced.initial ls u)
    (run' : Runs (Traced.step text str) Traced.initial ls' u')
    (async : (u.logs i).sync = some false) (sync : (u'.logs j).sync = some true)
    (worked : (u.logs i).outcome = some outcome) (worked' : (u'.logs j).outcome = some outcome)
    (work : ∀ e, outcome = .error e → e.isException = true) :
    (NotifiedOnce text u i ↔ outcome = .ok ()) ∧ ¬ NotifiedOnce text u' j ∧
      ((u.logs i).events = (u'.logs j).events ↔ outcome ≠ .ok ()) := by
  have trace := events_of_worked (inv_run run) async worked
  have trace' := events_of_worked (inv_run run') sync worked'
  rw [NotifiedOnce, NotifiedOnce]
  cases outcome with
  | ok _ =>
    rcases trace' with trace' | ⟨⟨⟩, -⟩
    rcases trace with trace | ⟨-, -, trace⟩
    · rw [trace, trace']
      simp [workTrace]
    · rw [trace, trace']
      simp [workTrace]
  | error e =>
    rcases trace' with trace' | ⟨⟨⟩, -⟩
    rcases trace with trace | ⟨-, ⟨⟩, -⟩
    rw [trace, trace']
    simp [workTrace, work e rfl]

end Runs

section Examples

def unitStr : Str Unit := ⟨fun _ => "payload", fun _ => ""⟩

def bothDone : List (Label String ℕ Unit ℕ) :=
  [.submit "a" () false, .submit "b" () true, .dispatch "a" 10, .gatherEnds "a" (.ok ()) 11,
    .dispatch "b" 12, .startedAt "b" 13, .sleepEnds "b" (.ok ()) 14]

theorem sync_job_silent : ¬ ∀ (ls : List (Label String ℕ Unit ℕ)) (u : Traced String ℕ Unit ℕ)
    (i j : String) (outcome : Except Exn Unit),
    Runs (Traced.step (fun id => id) unitStr) Traced.initial ls u →
    (u.logs i).sync = some false → (u.logs j).sync = some true →
    (u.logs i).outcome = some outcome → (u.logs j).outcome = some outcome →
    (∀ e, outcome = .error e → e.isException = true) →
      NotifiedOnce (fun id => id) u i ∧ NotifiedOnce (fun id => id) u j ∧
        (u.logs i).events = (u.logs j).events := by
  intro h
  have notified := (h bothDone _ "a" "b" (.ok ()) (Runs.of_execute rfl) rfl rfl rfl rfl
    (by rintro _ ⟨⟩)).2.1
  have counted : [JobEvent.status .pending, .status .running, .status .done].count
      (.broadcastWs (doneMessage "b")) = 1 := notified
  exact absurd counted (by decide)

theorem async_job_notifies : ∃ u : Traced String ℕ Unit ℕ,
    Runs (Traced.step (fun id => id) unitStr) Traced.initial bothDone u ∧
      NotifiedOnce (fun id => id) u "a" ∧ ¬ NotifiedOnce (fun id => id) u "b" ∧
        (u.logs "a").events ≠ (u.logs "b").events := by
  have run : ∃ u : Traced String ℕ Unit ℕ,
      Runs (Traced.step (fun id => id) unitStr) Traced.initial bothDone u ∧
      (u.logs "a").sync = some false ∧ (u.logs "b").sync = some true ∧
      (u.logs "a").outcome = some (.ok ()) ∧ (u.logs "b").outcome = some (.ok ()) :=
    ⟨_, Runs.of_execute rfl, rfl, rfl, rfl, rfl⟩
  obtain ⟨u, run, async, sync, worked, worked'⟩ := run
  obtain ⟨once, never, agree⟩ := notifications_iff _ _ u u "a" "b" (.ok ()) run run async sync
    worked worked' (by rintro _ ⟨⟩)
  exact ⟨u, run, once.mpr rfl, never, fun same => agree.mp same rfl⟩

end Examples

end FastapiProject.JobNotifications
