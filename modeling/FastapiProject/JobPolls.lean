import FastapiProject.JobStoreTerminal

set_option autoImplicit false

/-!
# What a poll of the jobs can observe

`list_jobs` and `get_job_status` read the store at one moment of a run. A worker thread
writes the status and `started_at` apart, so a poll can come between the two.
-/
namespace FastapiProject.JobPolls
open PythonExceptions MachineRuns JobStore JobStoreTerminal

variable {JobId Ws Payload Time : Type}

/-- The store with the keys of `job_status_store`, in the order of their insertion. -/
structure Polled (JobId Ws Payload Time : Type) where
  store : State JobId Ws Payload Time
  keys : List JobId

def Polled.initial : Polled JobId Ws Payload Time := ⟨JobStore.initial, []⟩

inductive PollLabel (JobId Ws Payload Time : Type) where
  | store (l : Label JobId Ws Payload Time)
  | listJobs
  | getJobStatus (id : JobId)

section Polls
variable (s : Polled JobId Ws Payload Time)

/-- `list(job_status_store.values())`. -/
def listJobs : List (JobRecord JobId Time) := s.keys.filterMap s.store.jobs

/-- A record is a dictionary with entries, so `if not job` asks for a missing one only. -/
def getJobStatus (id : JobId) : Except Exn (JobRecord JobId Time) :=
  match s.store.jobs id with
  | none => .error (.httpException 404 "Job not found")
  | some job => .ok job

end Polls

section Step
variable [DecidableEq JobId] [DecidableEq Ws] (str : Str Payload)

def insertKey (keys : List JobId) : Label JobId Ws Payload Time → List JobId
  | .submit id _ _ => keys ++ [id]
  | _ => keys

def Polled.step (s : Polled JobId Ws Payload Time) :
    PollLabel JobId Ws Payload Time → Option (Polled JobId Ws Payload Time)
  | .store l => (JobStore.step str s.store l).map fun u => ⟨u, insertKey s.keys l⟩
  | .listJobs | .getJobStatus _ => some s

end Step

/-- The step is a poll whose answer has the record that is stored under `id`. -/
inductive Observes (s : Polled JobId Ws Payload Time) :
    PollLabel JobId Ws Payload Time → JobId → JobRecord JobId Time → Prop where
  | listed {id : JobId} {r : JobRecord JobId Time} (key : id ∈ s.keys)
      (stored : s.store.jobs id = some r) : Observes s .listJobs id r
  | got {id : JobId} {r : JobRecord JobId Time} (found : getJobStatus s id = .ok r) :
    Observes s (.getJobStatus id) id r

structure Coherent (r : JobRecord JobId Time) : Prop where
  pending : r.status = .pending → r.startedAt = none ∧ r.finishedAt = none ∧ r.result = none
  running : r.status = .running → r.startedAt ≠ none ∧ r.finishedAt = none ∧ r.result = none
  ended : JobStatus.Terminal r.status → r.startedAt ≠ none ∧ r.finishedAt ≠ none ∧ r.result ≠ none

def PollsCoherent (s : Polled JobId Ws Payload Time) (l : PollLabel JobId Ws Payload Time)
    (_ : Polled JobId Ws Payload Time) : Prop :=
  ∀ id r, Observes s l id r → r.jobId = id ∧ Coherent r

/-- The worker thread of the job is between its two first writes. -/
def Starting (s : Polled JobId Ws Payload Time) (id : JobId) : Prop :=
  ∃ payload, s.store.runners id = some (.starting payload)

/-- No poll reads a job whose worker thread is between its two first writes. -/
def PollsStarted (s : Polled JobId Ws Payload Time) (l : PollLabel JobId Ws Payload Time)
    (_ : Polled JobId Ws Payload Time) : Prop :=
  match l with
  | .store _ => True
  | .listJobs => ∀ id, ¬ Starting s id
  | .getJobStatus id => ¬ Starting s id

inductive Written (id : JobId) :
    Option (Runner Ws Payload) → Option (JobRecord JobId Time) → Prop where
  | absent : Written id none none
  | queued (payload : Payload) (sync : Bool) :
    Written id (some (.queued payload sync)) (some ⟨id, .pending, none, none, none⟩)
  | starting (payload : Payload) :
    Written id (some (.starting payload)) (some ⟨id, .running, none, none, none⟩)
  | gathering (payload : Payload) (start : Time) :
    Written id (some (.gathering payload)) (some ⟨id, .running, none, some start, none⟩)
  | sleeping (payload : Payload) (start : Time) :
    Written id (some (.sleeping payload)) (some ⟨id, .running, none, some start, none⟩)
  | broadcasting (position : ℕ) (ws : Ws) (dead : List Ws) (result : JobResult)
      (start finish : Time) : Written id (some (.broadcasting position ws dead))
        (some ⟨id, .done, some result, some start, some finish⟩)
  | ended (succeeded : Bool) {r : JobRecord JobId Time} (own : r.jobId = id) (whole : Coherent r) :
    Written id (some (.ended succeeded)) (some r)

section Records
variable (id : JobId)

theorem coherent_pending : Coherent (⟨id, .pending, none, none, none⟩ : JobRecord JobId Time) :=
  ⟨fun _ => ⟨rfl, rfl, rfl⟩, by rintro ⟨⟩, by rintro (⟨⟨⟩⟩ | ⟨⟨⟩⟩)⟩

theorem coherent_running (start : Time) :
    Coherent (⟨id, .running, none, some start, none⟩ : JobRecord JobId Time) :=
  ⟨by rintro ⟨⟩, fun _ => ⟨Option.some_ne_none start, rfl, rfl⟩, by rintro (⟨⟨⟩⟩ | ⟨⟨⟩⟩)⟩

omit id in
theorem coherent_ended {r : JobRecord JobId Time} (terminal : JobStatus.Terminal r.status)
    (started : r.startedAt ≠ none) (finished : r.finishedAt ≠ none) (answered : r.result ≠ none) :
    Coherent r := by
  refine ⟨fun pending => ?_, fun running => ?_, fun _ => ⟨started, finished, answered⟩⟩
  · rw [pending] at terminal
    rcases terminal with ⟨⟨⟩⟩ | ⟨⟨⟩⟩
  · rw [running] at terminal
    rcases terminal with ⟨⟨⟩⟩ | ⟨⟨⟩⟩

theorem coherent_done (result : JobResult) (start finish : Time) :
    Coherent (⟨id, .done, some result, some start, some finish⟩ : JobRecord JobId Time) :=
  coherent_ended (.inl rfl) (Option.some_ne_none start) (Option.some_ne_none finish)
    (Option.some_ne_none result)

theorem starting_incoherent :
    ¬ Coherent (⟨id, .running, none, none, none⟩ : JobRecord JobId Time) :=
  fun whole => (whole.running rfl).1 rfl

theorem Written.coherent_iff {id : JobId} {runner : Option (Runner Ws Payload)}
    {r : JobRecord JobId Time} (written : Written id runner (some r)) :
    (r.jobId = id ∧ Coherent r) ↔ ¬ ∃ payload, runner = some (.starting payload) := by
  cases written with
  | starting payload =>
    exact iff_of_false (fun h => starting_incoherent id h.2) (not_not_intro ⟨payload, rfl⟩)
  | queued payload sync => exact iff_of_true ⟨rfl, coherent_pending id⟩ (by rintro ⟨_, ⟨⟩⟩)
  | gathering payload start =>
    exact iff_of_true ⟨rfl, coherent_running id start⟩ (by rintro ⟨_, ⟨⟩⟩)
  | sleeping payload start =>
    exact iff_of_true ⟨rfl, coherent_running id start⟩ (by rintro ⟨_, ⟨⟩⟩)
  | broadcasting position ws dead result start finish =>
    exact iff_of_true ⟨rfl, coherent_done id result start finish⟩ (by rintro ⟨_, ⟨⟩⟩)
  | ended succeeded own whole => exact iff_of_true ⟨own, whole⟩ (by rintro ⟨_, ⟨⟩⟩)

end Records

section Writes
variable [DecidableEq JobId] {str : Str Payload} {s : State JobId Ws Payload Time} {id : JobId}
  {r : JobRecord JobId Time}

theorem finishJob_done {start : Time} (result : JobResult) (now : Time)
    (found : s.jobs id = some ⟨id, .running, none, some start, none⟩) :
    (s.finishJob id .done result now).jobs id =
      some ⟨id, .done, some result, some start, some now⟩ := by
  rw [State.finishJob, updateJob_jobs, found]
  rfl

theorem jobRaised_written (found : s.jobs id = some r) (own : r.jobId = id) (whole : Coherent r)
    (started : r.startedAt ≠ none) (succeeded : Bool) (e : Exn) (now : Time) :
    Written id ((s.jobRaised str id succeeded e now).runners id)
      ((s.jobRaised str id succeeded e now).jobs id) := by
  rw [State.jobRaised]
  split
  · rw [moveRunner_runners, moveRunner_jobs, State.finishJob, updateJob_jobs, found]
    exact .ended succeeded own (coherent_ended (.inr rfl) started (Option.some_ne_none now)
      (Option.some_ne_none _))
  · rw [moveRunner_runners, moveRunner_jobs, found]
    exact .ended succeeded own whole

theorem broadcastWs_written [DecidableEq Ws] {result : JobResult} {start finish : Time}
    (found : s.jobs id = some ⟨id, .done, some result, some start, some finish⟩) (position : ℕ)
    (dead : List Ws) (now : Time) :
    Written id ((s.broadcastWs str id position dead now).runners id)
      ((s.broadcastWs str id position dead now).jobs id) := by
  rw [State.broadcastWs]
  split
  · rw [moveRunner_runners, moveRunner_jobs, found]
    exact .broadcasting _ _ dead result start finish
  · split
    · rw [moveRunner_runners, moveRunner_jobs]
      change Written id _ (s.jobs id)
      rw [found]
      exact .ended true rfl (coherent_done id result start finish)
    · rename_i rest e _
      have found' : { s with activeConnections := rest }.jobs id =
          some ⟨id, .done, some result, some start, some finish⟩ := found
      exact jobRaised_written found' rfl (coherent_done id result start finish)
        (Option.some_ne_none start) true e now

theorem stepJob_written [DecidableEq Ws] {u : State JobId Ws Payload Time} {runner : Runner Ws Payload}
    {l : Label JobId Ws Payload Time} (written : Written id (some runner) (s.jobs id))
    (hs : stepJob str s id runner l = some u) : Written id (u.runners id) (u.jobs id) := by
  generalize found : s.jobs id = job at written
  cases stepJob_move hs with
  | begins k payload now =>
    cases written
    rw [moveRunner_runners, moveRunner_jobs, updateJob_jobs, found]
    exact .gathering payload now
  | admitted k payload now =>
    cases written
    rw [moveRunner_runners, moveRunner_jobs, updateJob_jobs, found]
    exact .starting payload
  | stamped k payload now =>
    cases written
    rw [moveRunner_runners, moveRunner_jobs, updateJob_jobs, found]
    exact .sleeping payload now
  | gathered k payload now =>
    cases written with
    | gathering _ start =>
      exact broadcastWs_written (finishJob_done _ now found) 0 [] now
  | gatherRaised k payload e now =>
    cases written with
    | gathering _ start =>
      exact jobRaised_written found rfl (coherent_running id start) (Option.some_ne_none start)
        false e now
  | sent k position ws dead outcome now =>
    cases written with
    | broadcasting _ _ _ result start finish => exact broadcastWs_written found position _ now
  | sendRaised k position ws dead e now =>
    cases written with
    | broadcasting _ _ _ result start finish =>
      exact jobRaised_written found rfl (coherent_done id result start finish)
        (Option.some_ne_none start) true e now
  | slept k payload now =>
    cases written with
    | sleeping _ start =>
      rw [moveRunner_runners, moveRunner_jobs, finishJob_done _ now found]
      exact .ended true rfl (coherent_done id _ start now)
  | sleepRaised k payload e now =>
    cases written with
    | sleeping _ start =>
      exact jobRaised_written found rfl (coherent_running id start) (Option.some_ne_none start)
        false e now

end Writes

structure Inv (s : Polled JobId Ws Payload Time) : Prop where
  written : ∀ id, Written id (s.store.runners id) (s.store.jobs id)
  keys : ∀ id, s.store.jobs id ≠ none → id ∈ s.keys

theorem inv_initial : Inv (Polled.initial : Polled JobId Ws Payload Time) :=
  ⟨fun _ => .absent, fun _ found => absurd rfl found⟩

theorem mem_listJobs_iff {s : Polled JobId Ws Payload Time} {r : JobRecord JobId Time} :
    r ∈ listJobs s ↔ ∃ id, Observes s .listJobs id r := by
  rw [listJobs, List.mem_filterMap]
  constructor
  · rintro ⟨id, key, stored⟩
    exact ⟨id, .listed key stored⟩
  · rintro ⟨id, ⟨key, stored⟩⟩
    exact ⟨id, key, stored⟩

theorem getJobStatus_ok_iff {s : Polled JobId Ws Payload Time} {id : JobId}
    {r : JobRecord JobId Time} : getJobStatus s id = .ok r ↔ s.store.jobs id = some r := by
  rw [getJobStatus]
  split
  · rename_i missing
    rw [missing]
    exact iff_of_false (by rintro ⟨⟩) (by rintro ⟨⟩)
  · rename_i job found
    rw [found, Except.ok.injEq, Option.some.injEq]

section Steps
variable [DecidableEq JobId] [DecidableEq Ws] {str : Str Payload}
  {s u : Polled JobId Ws Payload Time} {l : PollLabel JobId Ws Payload Time}

omit [DecidableEq Ws] in
theorem submit_inv {id : JobId} (inv : Inv s) (payload : Payload) (sync : Bool) :
    Inv ⟨submitJob s.store id payload sync, s.keys ++ [id]⟩ := by
  have only : OnlyJob id s.store (submitJob s.store id payload sync) := onlyJob_submit payload sync
  constructor
  · refine only.forall_of (fun k _ => inv.written k) ?_
    rw [submitJob, moveRunner_runners, moveRunner_jobs]
    simp only [Function.update_self]
    exact .queued payload sync
  · refine only.forall_of (P := fun k _ job => job ≠ none → k ∈ s.keys ++ [id]) ?_ ?_
    · exact fun k _ present => List.mem_append_left _ (inv.keys k present)
    · exact fun _ => List.mem_append_right _ List.mem_cons_self

theorem stepJob_inv {store : State JobId Ws Payload Time} {id : JobId} {runner : Runner Ws Payload}
    {l : Label JobId Ws Payload Time} (inv : Inv s) (at_id : s.store.runners id = some runner)
    (moved : stepJob str s.store id runner l = some store) : Inv ⟨store, s.keys⟩ := by
  have only := stepJob_onlyJob moved
  have before := inv.written id
  rw [at_id] at before
  constructor
  · exact only.forall_of (fun k _ => inv.written k) (stepJob_written before moved)
  · refine only.forall_of (P := fun k _ job => job ≠ none → k ∈ s.keys) ?_ ?_
    · exact fun k _ => inv.keys k
    · refine fun _ => inv.keys id ?_
      intro missing
      rw [missing] at before
      cases before

theorem store_inv {store : State JobId Ws Payload Time} {l : Label JobId Ws Payload Time}
    (inv : Inv s) (hs : JobStore.step str s.store l = some store) :
    Inv ⟨store, insertKey s.keys l⟩ := by
  rcases step_cases hs with ⟨id, payload, sync, rfl, -, rfl⟩ | ⟨id, runner, own, at_id, moved⟩ |
      ⟨own, jobs, runners⟩
  · exact submit_inv inv payload sync
  · have kept : insertKey s.keys l = s.keys := by
      cases l with
      | submit _ _ _ => cases own
      | _ => rfl
    rw [kept]
    exact stepJob_inv inv at_id moved
  · constructor
    · intro k
      have written := inv.written k
      rw [← jobs, ← runners] at written
      exact written
    · intro k present
      have key : k ∈ s.keys := inv.keys k (by rw [← jobs]; exact present)
      cases l with
      | submit _ _ _ => exact List.mem_append_left _ key
      | _ => exact key

theorem step_inv (inv : Inv s) (hs : s.step str l = some u) : Inv u := by
  cases l with
  | store l =>
    obtain ⟨store, moved, rfl⟩ := Option.map_eq_some_iff.mp hs
    exact store_inv inv moved
  | listJobs | getJobStatus id =>
    cases hs
    exact inv

omit [DecidableEq JobId] [DecidableEq Ws] in
theorem observed_iff (inv : Inv s) {id : JobId} {r : JobRecord JobId Time}
    (observed : Observes s l id r) : (r.jobId = id ∧ Coherent r) ↔ ¬ Starting s id := by
  have stored : s.store.jobs id = some r := by
    cases observed with
    | listed _ stored => exact stored
    | got found => exact getJobStatus_ok_iff.mp found
  have written := inv.written id
  rw [stored] at written
  exact written.coherent_iff

omit [DecidableEq JobId] [DecidableEq Ws] in
theorem starting_observed (inv : Inv s) {id : JobId} (starting : Starting s id) :
    ∃ r, Observes s .listJobs id r ∧ Observes s (.getJobStatus id) id r := by
  obtain ⟨payload, at_id⟩ := starting
  have written := inv.written id
  rw [at_id] at written
  obtain ⟨r, stored⟩ : ∃ r, s.store.jobs id = some r := by
    cases found : s.store.jobs id with
    | none => rw [found] at written; cases written
    | some r => exact ⟨r, rfl⟩
  have key := inv.keys id (by rw [stored]; exact Option.some_ne_none r)
  exact ⟨r, .listed key stored, .got (getJobStatus_ok_iff.mpr stored)⟩

omit [DecidableEq JobId] [DecidableEq Ws] in
theorem pollsCoherent_iff_step (inv : Inv s) : PollsCoherent s l u ↔ PollsStarted s l u := by
  cases l with
  | store l => exact iff_of_true (by rintro id r ⟨⟩) trivial
  | listJobs =>
    constructor
    · intro coherent id starting
      obtain ⟨r, observed, -⟩ := starting_observed inv starting
      exact (observed_iff inv observed).mp (coherent id r observed) starting
    · exact fun started id r observed => (observed_iff inv observed).mpr (started id)
  | getJobStatus k =>
    constructor
    · intro coherent starting
      obtain ⟨r, -, observed⟩ := starting_observed inv starting
      exact (observed_iff inv observed).mp (coherent k r observed) starting
    · rintro started id r observed
      have same : id = k := by
        cases observed
        rfl
      exact (observed_iff inv observed).mpr (same ▸ started)

end Steps

/-- Every observed record is coherent in exactly the runs in which no poll comes between
the two first writes of a worker thread whose job it reads. -/
theorem pollsCoherent_iff [DecidableEq JobId] [DecidableEq Ws] {str : Str Payload}
    {ls : List (PollLabel JobId Ws Payload Time)} {u : Polled JobId Ws Payload Time}
    (run : Runs (Polled.step str) .initial ls u) :
    Along (Polled.step str) PollsCoherent .initial ls u ↔
      Along (Polled.step str) PollsStarted .initial ls u :=
  run.along_iff Inv inv_initial (fun _ _ _ inv hs _ => step_inv inv hs)
    (fun _ _ _ inv _ => pollsCoherent_iff_step inv)

section Examples

def jobText : Str Unit := ⟨fun _ => "payload", fun _ => "error"⟩

def halfStarted : List (PollLabel ℕ ℕ Unit ℕ) :=
  [.store (.submit 0 () true), .store (.dispatch 0 1)]

/-- Polled at that moment, the job is running and has not started. -/
theorem running_without_start : ¬ ∀ (ls : List (PollLabel ℕ ℕ Unit ℕ)) u,
    Runs (Polled.step jobText) .initial ls u →
      Along (Polled.step jobText) PollsCoherent .initial ls u := by
  intro h
  have along := h (halfStarted ++ [.getJobStatus 0]) _ (Runs.of_execute rfl)
  obtain ⟨w, before, enabled, coherent⟩ := along.last
  cases before
  cases enabled
  obtain ⟨-, whole⟩ := coherent 0 ⟨0, .running, none, none, none⟩ (.got rfl)
  exact starting_incoherent 0 whole

def polledWhole : List (PollLabel ℕ ℕ Unit ℕ) :=
  [.store (.submit 0 () true), .getJobStatus 0, .store (.dispatch 0 1), .store (.startedAt 0 2),
    .listJobs, .store (.sleepEnds 0 (.ok ()) 3), .getJobStatus 0]

theorem polledWhole_coherent : ∃ u,
    Along (Polled.step jobText) PollsCoherent .initial polledWhole u := by
  have started : ∃ u, Along (Polled.step jobText) PollsStarted .initial polledWhole u := by
    refine ⟨_, .cons rfl trivial (.cons rfl ?_ (.cons rfl trivial (.cons rfl trivial
      (.cons rfl ?_ (.cons rfl trivial (.single rfl ?_))))))⟩
    · rintro ⟨_, ⟨⟩⟩
    · rintro id ⟨payload, at_id⟩
      by_cases here : id = 0
      · subst here
        cases at_id
      · simp [JobStore.initial, submitJob, State.moveRunner, State.updateJob, Polled.initial,
          Function.update_of_ne here] at at_id
    · rintro ⟨_, ⟨⟩⟩
  obtain ⟨u, started⟩ := started
  exact ⟨u, (pollsCoherent_iff started.runs).mpr started⟩

end Examples

end FastapiProject.JobPolls
