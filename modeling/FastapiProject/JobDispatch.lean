import FastapiProject.JobStoreTerminal

set_option autoImplicit false

/-!
# Jobs whose runner has gone

`dispatch_job` around the machine of the store. A coroutine job is `dispatch_job` itself;
a thread job is a work item that waits for a free thread while `dispatch_job` awaits it.
Cancelling that await withdraws a work item that no thread has taken up.
-/
namespace FastapiProject.JobDispatch
open PythonExceptions MachineRuns JobStore JobStoreTerminal

variable {JobId Ws Payload Time : Type}

inductive Dispatcher where
  | notStarted
  | awaitingThread
  | ended
  deriving DecidableEq, Repr

structure Dispatched (JobId Ws Payload Time : Type) where
  store : State JobId Ws Payload Time
  dispatchers : JobId → Dispatcher

def Dispatched.initial : Dispatched JobId Ws Payload Time := ⟨JobStore.initial, fun _ => .notStarted⟩

inductive DispatchLabel (JobId Ws Payload Time : Type) where
  | store (l : Label JobId Ws Payload Time)
  | toThread (id : JobId)
  | threadEnds (id : JobId)
  | cancelThread (id : JobId)

section Step
variable [DecidableEq JobId] [DecidableEq Ws] (str : Str Payload)

namespace Dispatched
variable (s : Dispatched JobId Ws Payload Time)

def moveDispatcher (id : JobId) (d : Dispatcher) : Dispatched JobId Ws Payload Time :=
  { s with dispatchers := Function.update s.dispatchers id d }

omit [DecidableEq JobId] in
def admits : Label JobId Ws Payload Time → Bool
  | .dispatch id _ =>
    match s.store.runners id with
    | some (.queued _ true) => s.dispatchers id = .awaitingThread
    | _ => true
  | _ => true

def step : DispatchLabel JobId Ws Payload Time → Option (Dispatched JobId Ws Payload Time)
  | .store l =>
    if s.admits l = true then (JobStore.step str s.store l).map fun u => { s with store := u }
    else none
  | .toThread id =>
    match s.store.runners id, s.dispatchers id with
    | some (.queued _ true), .notStarted => some (s.moveDispatcher id .awaitingThread)
    | _, _ => none
  | .threadEnds id =>
    match s.store.runners id, s.dispatchers id with
    | some (.ended _), .awaitingThread => some (s.moveDispatcher id .ended)
    | _, _ => none
  | .cancelThread id =>
    match s.dispatchers id with
    | .awaitingThread => some (s.moveDispatcher id .ended)
    | _ => none

end Dispatched

end Step

def Exn.Delivered (e : Exn) : Prop := e.isException = true ∨ e = .cancelledError

/-- How the awaits of a job end: a step of the work or a send returns, raises an
`Exception`, or is cancelled where it is one of `dispatch_job`. -/
def Ends : DispatchLabel JobId Ws Payload Time → Prop
  | .store (.gatherEnds _ (.error e) _) | .store (.sendEnds _ (.error e) _) => Exn.Delivered e
  | .store (.sleepEnds _ (.error e) _) => e.isException = true
  | _ => True

def Settled (job : Option (JobRecord JobId Time)) : Prop :=
  ∃ r, job = some r ∧ JobStatus.Terminal r.status ∧ r.finishedAt ≠ none

/-- `dispatch_job` has ended, and so has the work or it was withdrawn. -/
def Gone (s : Dispatched JobId Ws Payload Time) (id : JobId) : Prop :=
  (∃ succeeded, s.store.runners id = some (.ended succeeded)) ∧ s.dispatchers id ≠ .awaitingThread ∨
  (∃ payload sync, s.store.runners id = some (.queued payload sync)) ∧ s.dispatchers id = .ended

def NoneStuck (_ : Dispatched JobId Ws Payload Time) (_ : DispatchLabel JobId Ws Payload Time)
    (u : Dispatched JobId Ws Payload Time) : Prop :=
  ∀ id, Gone u id → Settled (u.store.jobs id)

/-- No cancellation reaches the `gather` of a job, or withdraws its work item. -/
def WorkUncancelled (s : Dispatched JobId Ws Payload Time) (l : DispatchLabel JobId Ws Payload Time)
    (_ : Dispatched JobId Ws Payload Time) : Prop :=
  (∀ id now, l ≠ .store (.gatherEnds id (.error .cancelledError) now)) ∧
  ∀ id payload sync, l = .cancelThread id → s.store.runners id ≠ some (.queued payload sync)

def Sound : Option (Runner Ws Payload) → Option (JobRecord JobId Time) → Dispatcher → Prop
  | none, job, d => job = none ∧ d = .notStarted
  | some (.queued _ sync), job, d =>
    (∃ r, job = some r ∧ r.status = .pending) ∧ d ≠ .ended ∧ (sync = false → d = .notStarted)
  | some (.gathering _), job, d => (∃ r, job = some r ∧ r.status = .running) ∧ d = .notStarted
  | some (.starting _), job, _ | some (.sleeping _), job, _ => job ≠ none
  | some (.broadcasting _ _ _), job, _ | some (.ended _), job, _ => Settled job

def Inv (s : Dispatched JobId Ws Payload Time) : Prop :=
  ∀ id, Sound (s.store.runners id) (s.store.jobs id) (s.dispatchers id)

section Records
variable [DecidableEq JobId] {str : Str Payload} {s : State JobId Ws Payload Time} {id : JobId}

omit [DecidableEq JobId] in
theorem present_of_status {job : Option (JobRecord JobId Time)} {status : JobStatus}
    (h : ∃ r, job = some r ∧ r.status = status) : job ≠ none := by
  obtain ⟨r, rfl, -⟩ := h
  exact Option.some_ne_none r

theorem finishJob_settled {status : JobStatus} (present : s.jobs id ≠ none)
    (terminal : JobStatus.Terminal status) (result : JobResult) (now : Time) :
    Settled ((s.finishJob id status result now).jobs id) := by
  obtain ⟨r, hr⟩ := Option.ne_none_iff_exists'.mp present
  rw [State.finishJob, updateJob_jobs, hr]
  exact ⟨_, rfl, terminal, Option.some_ne_none now⟩

theorem jobRaised_settled (present : s.jobs id ≠ none) (succeeded : Bool) {e : Exn}
    (he : e.isException = true) (now : Time) :
    Settled ((s.jobRaised str id succeeded e now).jobs id) := by
  rw [State.jobRaised, if_pos he, moveRunner_jobs]
  exact finishJob_settled present (.inr rfl) _ now

theorem jobRaised_keeps (settled : Settled (s.jobs id)) (succeeded : Bool) (e : Exn) (now : Time) :
    Settled ((s.jobRaised str id succeeded e now).jobs id) := by
  by_cases he : e.isException = true
  · obtain ⟨r, hr, -⟩ := settled
    exact jobRaised_settled (by rw [hr]; exact Option.some_ne_none r) succeeded he now
  · rw [State.jobRaised, if_neg he, moveRunner_jobs]
    exact settled

theorem jobRaised_runner (str : Str Payload) (succeeded : Bool) (e : Exn) (now : Time) :
    (s.jobRaised str id succeeded e now).runners id = some (.ended succeeded) := by
  rw [State.jobRaised]
  split <;> exact moveRunner_runners _ _ _

theorem broadcastWs_sound [DecidableEq Ws] (settled : Settled (s.jobs id)) (position : ℕ)
    (dead : List Ws) (now : Time) (d : Dispatcher) :
    Sound ((s.broadcastWs str id position dead now).runners id)
      ((s.broadcastWs str id position dead now).jobs id) d := by
  rw [State.broadcastWs]
  split
  · rw [moveRunner_runners, moveRunner_jobs]
    exact settled
  · split
    · rw [moveRunner_runners, moveRunner_jobs]
      exact settled
    · rename_i rest e _
      have settled' : Settled ({ s with activeConnections := rest }.jobs id) := settled
      rw [jobRaised_runner]
      exact jobRaised_keeps settled' true e now

end Records

section Steps
variable [DecidableEq JobId] [DecidableEq Ws] {str : Str Payload}

theorem stepJob_sound {s u : State JobId Ws Payload Time} {id : JobId} {r : Runner Ws Payload}
    {l : Label JobId Ws Payload Time} {d : Dispatcher} (sound : Sound (some r) (s.jobs id) d)
    (ends : Ends (.store l)) (uncancelled : ∀ k now, l ≠ .gatherEnds k (.error .cancelledError) now)
    (hs : stepJob str s id r l = some u) : Sound (u.runners id) (u.jobs id) d := by
  cases stepJob_move hs with
  | begins k payload now =>
    obtain ⟨⟨job, hj, -⟩, -, coroutine⟩ := sound
    rw [moveRunner_runners, moveRunner_jobs, updateJob_jobs, hj]
    exact ⟨⟨_, rfl, rfl⟩, coroutine rfl⟩
  | admitted k payload now =>
    obtain ⟨⟨job, hj, -⟩, -⟩ := sound
    rw [moveRunner_runners, moveRunner_jobs, updateJob_jobs, hj]
    exact Option.some_ne_none _
  | stamped k payload now =>
    obtain ⟨job, hj⟩ := Option.ne_none_iff_exists'.mp sound
    rw [moveRunner_runners, moveRunner_jobs, updateJob_jobs, hj]
    exact Option.some_ne_none _
  | gathered k payload now =>
    exact broadcastWs_sound (finishJob_settled (present_of_status sound.1) (.inl rfl) _ now) 0 [] now d
  | gatherRaised k payload e now =>
    have he : e.isException = true := by
      rcases ends with he | rfl
      · exact he
      · exact absurd rfl (uncancelled k now)
    rw [jobRaised_runner]
    exact jobRaised_settled (present_of_status sound.1) false he now
  | sent k position ws dead outcome now => exact broadcastWs_sound sound position _ now d
  | sendRaised k position ws dead e now =>
    rw [jobRaised_runner]
    exact jobRaised_keeps sound true e now
  | slept k payload now =>
    rw [moveRunner_runners, moveRunner_jobs]
    exact finishJob_settled sound (.inl rfl) _ now
  | sleepRaised k payload e now =>
    rw [jobRaised_runner]
    exact jobRaised_settled sound false ends now

variable {s u : Dispatched JobId Ws Payload Time} {l : DispatchLabel JobId Ws Payload Time}

theorem store_runs {ls : List (DispatchLabel JobId Ws Payload Time)}
    (run : Runs (Dispatched.step str) s ls u) :
    ∃ ms, Runs (JobStore.step str) s.store ms u.store := by
  induction run with
  | nil s => exact ⟨[], .nil _⟩
  | @cons s u v l ls enabled _ _ ih =>
    obtain ⟨ms, rest⟩ := ih
    cases l with
    | store l =>
      simp only [Dispatched.step] at enabled
      split at enabled
      · obtain ⟨store, moved, rfl⟩ := Option.map_eq_some_iff.mp enabled
        exact ⟨l :: ms, .cons moved trivial rest⟩
      · cases enabled
    | toThread id | threadEnds id | cancelThread id =>
      simp only [Dispatched.step] at enabled
      split at enabled <;> cases enabled
      exact ⟨ms, rest⟩

omit [DecidableEq JobId] [DecidableEq Ws] in
theorem inv_initial : Inv (Dispatched.initial : Dispatched JobId Ws Payload Time) :=
  fun _ => ⟨rfl, rfl⟩

omit [DecidableEq JobId] [DecidableEq Ws] in
theorem unsubmitted {r : Option (Runner Ws Payload)} {d : Dispatcher}
    (sound : Sound r (none : Option (JobRecord JobId Time)) d) : r = none ∧ d = .notStarted := by
  match r with
  | none => exact ⟨rfl, sound.2⟩
  | some (.queued _ _) => obtain ⟨⟨job, ⟨⟩, -⟩, -⟩ := sound
  | some (.gathering _) => obtain ⟨⟨job, ⟨⟩, -⟩, -⟩ := sound
  | some (.starting _) => exact absurd rfl sound
  | some (.sleeping _) => exact absurd rfl sound
  | some (.broadcasting _ _ _) => obtain ⟨job, ⟨⟩, -⟩ := sound
  | some (.ended _) => obtain ⟨job, ⟨⟩, -⟩ := sound

theorem store_inv {store : State JobId Ws Payload Time} {l : Label JobId Ws Payload Time}
    (inv : Inv s) (ends : Ends (.store l))
    (uncancelled : ∀ k now, l ≠ .gatherEnds k (.error .cancelledError) now)
    (hs : JobStore.step str s.store l = some store) : Inv { s with store := store } := by
  rcases step_cases hs with ⟨id, payload, sync, -, fresh, rfl⟩ | ⟨id, r, -, at_id, moved⟩ |
      ⟨-, jobs, runners⟩
  · have only : OnlyJob id s.store (submitJob s.store id payload sync) := onlyJob_submit payload sync
    refine only.forall_of (P := fun k r job => Sound r job (s.dispatchers k)) (fun k _ => inv k) ?_
    have sound := inv id
    rw [fresh] at sound
    rw [submitJob, moveRunner_runners, moveRunner_jobs, (unsubmitted sound).2]
    simp only [Function.update_self]
    exact ⟨⟨_, rfl, rfl⟩, by decide, fun _ => rfl⟩
  · have only := stepJob_onlyJob moved
    refine only.forall_of (P := fun k r job => Sound r job (s.dispatchers k)) (fun k _ => inv k) ?_
    exact stepJob_sound (at_id ▸ inv id) ends uncancelled moved
  · intro k
    have sound := inv k
    rw [← jobs, ← runners] at sound
    exact sound

omit [DecidableEq Ws] in
theorem moveDispatcher_inv (inv : Inv s) {id : JobId} {d : Dispatcher}
    (here : Sound (s.store.runners id) (s.store.jobs id) d) : Inv (s.moveDispatcher id d) := by
  intro k
  rw [Dispatched.moveDispatcher]
  by_cases same : k = id
  · subst same
    simpa only [Function.update_self] using here
  · simpa only [Function.update_of_ne same] using inv k

theorem step_inv (inv : Inv s) (ends : Ends l) (uncancelled : WorkUncancelled s l u)
    (hs : s.step str l = some u) : Inv u := by
  cases l with
  | store l =>
    simp only [Dispatched.step] at hs
    split at hs
    · obtain ⟨store, moved, rfl⟩ := Option.map_eq_some_iff.mp hs
      exact store_inv inv ends (fun k now same => uncancelled.1 k now (by rw [same])) moved
    · cases hs
  | toThread id =>
    simp only [Dispatched.step] at hs
    split at hs
    · rename_i payload at_id _
      cases hs
      have sound := inv id
      rw [at_id] at sound
      refine moveDispatcher_inv inv ?_
      rw [at_id]
      exact ⟨sound.1, by decide, by rintro ⟨⟩⟩
    · cases hs
  | threadEnds id =>
    simp only [Dispatched.step] at hs
    split at hs
    · rename_i succeeded at_id _
      cases hs
      have sound := inv id
      rw [at_id] at sound
      refine moveDispatcher_inv inv ?_
      rw [at_id]
      exact sound
    · cases hs
  | cancelThread id =>
    simp only [Dispatched.step] at hs
    split at hs
    · rename_i awaiting
      cases hs
      have sound := inv id
      rw [awaiting] at sound
      refine moveDispatcher_inv inv ?_
      cases at_id : s.store.runners id with
      | none =>
        rw [at_id] at sound
        cases sound.2
      | some r =>
        rw [at_id] at sound
        cases r with
        | queued payload sync => exact absurd at_id (uncancelled.2 id payload sync rfl)
        | gathering payload => cases sound.2
        | _ => exact sound
    · cases hs

omit [DecidableEq JobId] [DecidableEq Ws] in
theorem noneStuck_of_inv (inv : Inv u) : NoneStuck s l u := by
  rintro id (⟨⟨succeeded, at_id⟩, -⟩ | ⟨⟨payload, sync, at_id⟩, withdrawn⟩)
  · have sound := inv id
    rw [at_id] at sound
    exact sound
  · have sound := inv id
    rw [at_id] at sound
    exact absurd withdrawn sound.2.1

omit [DecidableEq JobId] [DecidableEq Ws] in
theorem not_settled {job : Option (JobRecord JobId Time)} {status : JobStatus}
    (waiting : ∃ r, job = some r ∧ r.status = status) (other : ¬ JobStatus.Terminal status) :
    ¬ Settled job := by
  rintro ⟨r, rfl, terminal, -⟩
  obtain ⟨_, ⟨⟩, rfl⟩ := waiting
  exact other terminal

/-- A cancelled `gather` leaves the record running, with nobody to end it. -/
theorem cancelled_gather_stuck {store : State JobId Ws Payload Time} {id : JobId} {now : Time}
    (inv : Inv s)
    (hs : JobStore.step str s.store (.gatherEnds id (.error .cancelledError) now) = some store) :
    Gone { s with store := store } id ∧ ¬ Settled (store.jobs id) := by
  obtain ⟨r, at_id, moved⟩ := Option.bind_eq_some_iff.mp hs
  have sound := inv id
  rw [at_id] at sound
  cases r with
  | gathering payload =>
    obtain ⟨running, coroutine⟩ := sound
    cases moved
    refine ⟨.inl ⟨⟨false, jobRaised_runner str false .cancelledError now⟩, ?_⟩, ?_⟩
    · rw [coroutine]
      decide
    · have passes : ¬ Exn.cancelledError.isException = true := by decide
      rw [State.jobRaised, if_neg passes, moveRunner_jobs]
      exact not_settled running (by rintro (⟨⟨⟩⟩ | ⟨⟨⟩⟩))
  | _ => cases moved

omit [DecidableEq Ws] in
theorem withdrawn_stuck {id : JobId} {payload : Payload} {sync : Bool} (inv : Inv s)
    (at_id : s.store.runners id = some (.queued payload sync)) :
    Gone (s.moveDispatcher id .ended) id ∧ ¬ Settled ((s.moveDispatcher id .ended).store.jobs id) := by
  have sound := inv id
  rw [at_id] at sound
  refine ⟨.inr ⟨⟨payload, sync, at_id⟩, Function.update_self _ _ _⟩, ?_⟩
  exact not_settled sound.1 (by rintro (⟨⟨⟩⟩ | ⟨⟨⟩⟩))

theorem uncancelled_of_noneStuck (inv : Inv s) (hs : s.step str l = some u)
    (none : NoneStuck s l u) : WorkUncancelled s l u := by
  constructor
  · rintro id now rfl
    simp only [Dispatched.step] at hs
    split at hs
    · obtain ⟨store, moved, rfl⟩ := Option.map_eq_some_iff.mp hs
      obtain ⟨gone, unsettled⟩ := cancelled_gather_stuck inv moved
      exact unsettled (none id gone)
    · cases hs
  · rintro id payload sync rfl at_id
    simp only [Dispatched.step] at hs
    split at hs
    · cases hs
      obtain ⟨gone, unsettled⟩ := withdrawn_stuck inv at_id
      exact unsettled (none id gone)
    · cases hs

end Steps

/-- No job is stuck in exactly the runs in which the work of no job is cancelled. -/
theorem noneStuck_iff [DecidableEq JobId] [DecidableEq Ws] {str : Str Payload}
    {ls : List (DispatchLabel JobId Ws Payload Time)} {u : Dispatched JobId Ws Payload Time}
    (run : Along (Dispatched.step str) (fun _ l _ => Ends l) .initial ls u) :
    Along (Dispatched.step str) NoneStuck .initial ls u ↔
      Along (Dispatched.step str) WorkUncancelled .initial ls u := by
  refine run.along_iff Inv inv_initial ?_ ?_
  · exact fun s l u inv hs ends uncancelled => step_inv inv ends uncancelled hs
  · intro s l u inv hs ends
    constructor
    · exact uncancelled_of_noneStuck inv hs
    · exact fun uncancelled => noneStuck_of_inv (step_inv inv ends uncancelled hs)

section Examples

def textOf : Str Unit := ⟨fun _ => "payload", fun _ => "error"⟩

def untilGather : List (DispatchLabel ℕ ℕ Unit ℕ) :=
  [.store (.submit 0 () false), .store (.dispatch 0 1)]

/-- Cancelled at its `gather`, the job is reported running for ever. -/
theorem cancelled_job_stays_running : ¬ ∀ (ls : List (DispatchLabel ℕ ℕ Unit ℕ)) u,
    Along (Dispatched.step textOf) (fun _ l _ => Ends l) .initial ls u →
      Along (Dispatched.step textOf) NoneStuck .initial ls u := by
  intro h
  have along := h (untilGather ++ [.store (.gatherEnds 0 (.error .cancelledError) 2)]) _
    (.cons rfl trivial (.cons rfl trivial (.single rfl (.inr rfl))))
  obtain ⟨w, before, enabled, none⟩ := along.last
  cases before
  cases enabled
  obtain ⟨r, ⟨⟩, terminal, -⟩ := none 0 (.inl ⟨⟨false, rfl⟩, by decide⟩)
  rcases terminal with ⟨⟨⟩⟩ | ⟨⟨⟩⟩

def raisedInThread : List (DispatchLabel ℕ ℕ Unit ℕ) :=
  [.store (.submit 0 () true), .toThread 0, .store (.dispatch 0 1), .store (.startedAt 0 2),
    .store (.sleepEnds 0 (.error .valueError) 3), .threadEnds 0]

theorem raisedInThread_settled : ∃ u,
    Along (Dispatched.step textOf) NoneStuck .initial raisedInThread u := by
  have run : ∃ u, Runs (Dispatched.step textOf) .initial raisedInThread u :=
    ⟨_, Runs.of_execute rfl⟩
  obtain ⟨u, run⟩ := run
  have ends : ∀ l ∈ raisedInThread, Ends l := by
    simp [raisedInThread, Ends, Exn.isException]
  have uncancelled : ∀ l ∈ raisedInThread, ∀ s u, WorkUncancelled s l u := by
    simp [raisedInThread, WorkUncancelled]
  exact ⟨u, (noneStuck_iff (run.along_of_labels fun l mem _ _ => ends l mem)).mpr
    (run.along_of_labels uncancelled)⟩

end Examples

end FastapiProject.JobDispatch
