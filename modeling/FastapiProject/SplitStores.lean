import FastapiProject.ActiveConnections
import FastapiProject.JobStoreTerminal
import FastapiProject.MachineProducts
import FastapiProject.ModuleInstances

set_option autoImplicit false

/-!
# The store as the application imports it

`core/store.py` is one file and two modules: the jobs broadcast over the list of one, the
websockets join the list of the other. So the jobs and the websockets are two systems side
by side, no job ever notifies anyone, and no websocket is ever removed by a broadcast.
-/
namespace FastapiProject.SplitStores
open PythonExceptions PythonImports MachineRuns MachineProducts JobStore ActiveConnections
open ModuleInstances (Root File connectionsOfJob connectionsOfEndpoint)
open JobStoreTerminal (onlyJob_submit stepJob_onlyJob)

variable {JobId Ws Payload Time : Type}

/-- `active_connections` of each module instance; both ends of `job_status_store` are in
one. -/
structure State (JobId Ws Payload Time : Type) where
  connections : ModuleInstance Root File → List Ws
  jobs : JobId → Option (JobRecord JobId Time)
  runners : JobId → Option (Runner Ws Payload)
  endpoints : Ws → Endpoint

namespace State

def initial : State JobId Ws Payload Time := ⟨fun _ => [], fun _ => none, fun _ => none, fun _ => .absent⟩

def view (s : State JobId Ws Payload Time) (m : ModuleInstance Root File) :
    JobStore.State JobId Ws Payload Time := ⟨s.connections m, s.jobs, s.runners, s.endpoints⟩

def put (s : State JobId Ws Payload Time) (m : ModuleInstance Root File)
    (v : JobStore.State JobId Ws Payload Time) : State JobId Ws Payload Time :=
  ⟨Function.update s.connections m v.activeConnections, v.jobs, v.runners, v.endpoints⟩

end State

def ofJob (l : Label JobId Ws Payload Time) : Bool := (endpointOf l).isNone

/-- The instance whose `active_connections` a step uses. -/
def instanceOf (root : Root) (l : Label JobId Ws Payload Time) : Option (ModuleInstance Root File) :=
  if ofJob l = true then connectionsOfJob root else connectionsOfEndpoint root

section Step
variable [DecidableEq JobId] [DecidableEq Ws]

def step (root : Root) (str : Str Payload) (s : State JobId Ws Payload Time)
    (l : Label JobId Ws Payload Time) : Option (State JobId Ws Payload Time) :=
  (instanceOf root l).bind fun m => (JobStore.step str (s.view m) l).map (s.put m)

end Step

section Frames
variable [DecidableEq JobId] [DecidableEq Ws] (str : Str Payload)
  (s : JobStore.State JobId Ws Payload Time) (endpoints : Ws → Endpoint)
  (jobs : JobId → Option (JobRecord JobId Time)) (runners : JobId → Option (Runner Ws Payload))

def withEndpoints : JobStore.State JobId Ws Payload Time :=
  ⟨s.activeConnections, s.jobs, s.runners, endpoints⟩

def withJobs : JobStore.State JobId Ws Payload Time :=
  ⟨s.activeConnections, jobs, runners, s.endpoints⟩

omit [DecidableEq Ws] in
theorem jobRaised_withEndpoints (id : JobId) (succeeded : Bool) (e : Exn) (now : Time) :
    (withEndpoints s endpoints).jobRaised str id succeeded e now =
      withEndpoints (s.jobRaised str id succeeded e now) endpoints := by
  unfold State.jobRaised
  split <;> rfl

theorem broadcastWs_withEndpoints (id : JobId) (position : ℕ) (dead : List Ws) (now : Time) :
    (withEndpoints s endpoints).broadcastWs str id position dead now =
      withEndpoints (s.broadcastWs str id position dead now) endpoints := by
  have same : (withEndpoints s endpoints).activeConnections = s.activeConnections := rfl
  simp only [State.broadcastWs, same]
  split
  · rfl
  · split
    · rfl
    · exact jobRaised_withEndpoints str ⟨_, s.jobs, s.runners, s.endpoints⟩ endpoints id true _ now

theorem stepJob_withEndpoints (id : JobId) (r : Runner Ws Payload) (l : Label JobId Ws Payload Time) :
    stepJob str (withEndpoints s endpoints) id r l =
      (stepJob str s id r l).map fun u => withEndpoints u endpoints := by
  cases l with
  | dispatch k now =>
    cases r with
    | queued payload sync => cases sync <;> rfl
    | _ => rfl
  | gatherEnds k outcome now =>
    cases r with
    | gathering payload =>
      cases outcome with
      | ok _ =>
        exact congrArg some
          (broadcastWs_withEndpoints str (s.finishJob id .done _ now) endpoints id 0 [] now)
      | error e => exact congrArg some (jobRaised_withEndpoints str s endpoints id false e now)
    | _ => rfl
  | sendEnds k outcome now =>
    cases r with
    | broadcasting position ws dead =>
      cases outcome with
      | ok _ => exact congrArg some (broadcastWs_withEndpoints str s endpoints id position _ now)
      | error e =>
        simp only [stepJob, resumeJob]
        split
        · exact congrArg some (broadcastWs_withEndpoints str s endpoints id position _ now)
        · exact congrArg some (jobRaised_withEndpoints str s endpoints id true e now)
    | _ => rfl
  | sleepEnds k outcome now =>
    cases r with
    | sleeping payload =>
      cases outcome with
      | ok _ => rfl
      | error e => exact congrArg some (jobRaised_withEndpoints str s endpoints id false e now)
    | _ => rfl
  | startedAt k now => cases r <;> rfl
  | _ => rfl

omit [DecidableEq JobId] in
theorem endpointRaised_withJobs (ws : Ws) (e : Exn) :
    (withJobs s jobs runners).endpointRaised ws e = withJobs (s.endpointRaised ws e) jobs runners := by
  have same : (withJobs s jobs runners).activeConnections = s.activeConnections := rfl
  simp only [State.endpointRaised, same]
  split
  · split <;> rfl
  · rfl

omit [DecidableEq JobId] in
theorem stepEndpoint_withJobs (ws : Ws) (l : Label JobId Ws Payload Time) :
    stepEndpoint (withJobs s jobs runners) ws l =
      (stepEndpoint s ws l).map fun u => withJobs u jobs runners := by
  have same : (withJobs s jobs runners).endpoints ws = s.endpoints ws := rfl
  cases l with
  | connect x =>
    simp only [stepEndpoint, same]
    split <;> rfl
  | acceptEnds x outcome =>
    simp only [stepEndpoint, same]
    split
    · cases outcome <;> rfl
    · rfl
  | receiveEnds x outcome | echoEnds x outcome =>
    simp only [stepEndpoint, same]
    split
    · cases outcome with
      | ok _ => rfl
      | error e => exact congrArg some (endpointRaised_withJobs s jobs runners ws e)
    · rfl
  | _ => rfl

theorem step_withEndpoints {l : Label JobId Ws Payload Time} (own : ofJob l = true) :
    JobStore.step str (withEndpoints s endpoints) l =
      (JobStore.step str s l).map fun u => withEndpoints u endpoints := by
  cases l with
  | submit id payload sync =>
    have same : (withEndpoints s endpoints).jobs id = s.jobs id := rfl
    simp only [JobStore.step, same]
    split <;> rfl
  | dispatch id _ | startedAt id _ | gatherEnds id _ _ | sendEnds id _ _ | sleepEnds id _ _ =>
    have same : (withEndpoints s endpoints).runners id = s.runners id := rfl
    simp only [JobStore.step, same]
    cases s.runners id with
    | none => rfl
    | some r =>
      rw [Option.bind_some, Option.bind_some]
      exact stepJob_withEndpoints str s endpoints id r _
  | _ => cases own

theorem step_withJobs {l : Label JobId Ws Payload Time} (own : ofJob l = false) :
    JobStore.step str (withJobs s jobs runners) l =
      (JobStore.step str s l).map fun u => withJobs u jobs runners := by
  cases l with
  | connect ws | acceptEnds ws _ | receiveEnds ws _ | echoEnds ws _ =>
    simp only [JobStore.step]
    exact stepEndpoint_withJobs s jobs runners ws _
  | _ => cases own

end Frames

section Merge
variable (p : JobStore.State JobId Ws Payload Time × JobStore.State JobId Ws Payload Time)
  (v : JobStore.State JobId Ws Payload Time)

def storeOfJobs : ModuleInstance Root File := ⟨.bare, .coreStore⟩

def storeOfEndpoints : ModuleInstance Root File := ⟨.fastapiApp, .coreStore⟩

/-- A store that has had jobs only, and one that has had websockets only. -/
def merge : State JobId Ws Payload Time where
  connections := Function.update (Function.update (fun _ => []) storeOfEndpoints p.2.activeConnections)
    storeOfJobs p.1.activeConnections
  jobs := p.1.jobs
  runners := p.1.runners
  endpoints := p.2.endpoints

theorem merge_view_jobs : (merge p).view storeOfJobs = withEndpoints p.1 p.2.endpoints := by
  have connections : (merge p).connections storeOfJobs = p.1.activeConnections := by
    simp only [merge, Function.update_self]
  unfold State.view withEndpoints
  rw [connections]
  rfl

theorem merge_view_endpoints :
    (merge p).view storeOfEndpoints = withJobs p.2 p.1.jobs p.1.runners := by
  have ne : storeOfEndpoints ≠ storeOfJobs := by decide
  have connections : (merge p).connections storeOfEndpoints = p.2.activeConnections := by
    simp only [merge, Function.update_of_ne ne, Function.update_self]
  unfold State.view withJobs
  rw [connections]
  rfl

theorem put_jobs : (merge p).put storeOfJobs (withEndpoints v p.2.endpoints) = merge (v, p.2) := by
  have connections : Function.update (merge p).connections storeOfJobs v.activeConnections =
      (merge (v, p.2)).connections := Function.update_idem _ _ _
  unfold State.put withEndpoints
  rw [connections]
  rfl

theorem put_endpoints :
    (merge p).put storeOfEndpoints (withJobs v p.1.jobs p.1.runners) = merge (p.1, v) := by
  have ne : storeOfJobs ≠ storeOfEndpoints := by decide
  have connections : Function.update (merge p).connections storeOfEndpoints v.activeConnections =
      (merge (p.1, v)).connections := by
    unfold merge
    rw [Function.update_comm ne, Function.update_idem]
  unfold State.put withJobs
  rw [connections]
  rfl

theorem merge_initial : merge (JobStore.initial, JobStore.initial) =
    (State.initial : State JobId Ws Payload Time) := by
  unfold merge JobStore.initial State.initial
  rw [Function.update_eq_self, Function.update_eq_self]

end Merge

section Product
variable [DecidableEq JobId] [DecidableEq Ws] (root : Root) (str : Str Payload)

theorem step_merge (p : JobStore.State JobId Ws Payload Time × JobStore.State JobId Ws Payload Time)
    (l : Label JobId Ws Payload Time) : step root str (merge p) l =
      (beside ofJob (JobStore.step str) (JobStore.step str) p l).map merge := by
  obtain ⟨v, w⟩ := p
  cases own : ofJob l with
  | true =>
    rw [step, instanceOf, if_pos own, ModuleInstances.connectionsOfJob_eq, Option.bind_some,
      beside_left own, Option.map_map]
    change Option.map _ (JobStore.step str ((merge (v, w)).view storeOfJobs) l) = _
    rw [merge_view_jobs, step_withEndpoints str v w.endpoints own, Option.map_map]
    exact congrArg (fun f => (JobStore.step str v l).map f) (funext (put_jobs (v, w)))
  | false =>
    rw [step, instanceOf, if_neg (by rw [own]; exact Bool.false_ne_true),
      ModuleInstances.connectionsOfEndpoint_eq, Option.bind_some, beside_right own, Option.map_map]
    change Option.map _ (JobStore.step str ((merge (v, w)).view storeOfEndpoints) l) = _
    rw [merge_view_endpoints, step_withJobs str w v.jobs v.runners own, Option.map_map]
    exact congrArg (fun f => (JobStore.step str w l).map f) (funext (put_endpoints (v, w)))

theorem runs_merge_iff {ls : List (Label JobId Ws Payload Time)} {u : State JobId Ws Payload Time} :
    Runs (step root str) State.initial ls u ↔ ∃ p,
      Runs (beside ofJob (JobStore.step str) (JobStore.step str)) (JobStore.initial, JobStore.initial)
        ls p ∧ merge p = u := by
  rw [← merge_initial]
  exact runs_map_iff merge (step_merge root str)

/-- The runs of the application are those of its jobs without any websocket and those of
its websockets without any job, interleaved in any way. -/
theorem independent {ls : List (Label JobId Ws Payload Time)} {u : State JobId Ws Payload Time} :
    Runs (step root str) State.initial ls u ↔ ∃ v w,
      Runs (JobStore.step str) JobStore.initial (ls.filter ofJob) v ∧
      Runs (JobStore.step str) JobStore.initial (ls.filter fun l => !ofJob l) w ∧ u = merge (v, w) := by
  rw [runs_merge_iff]
  constructor
  · rintro ⟨⟨v, w⟩, run, rfl⟩
    obtain ⟨jobs, endpoints⟩ := beside_runs_iff.mp run
    exact ⟨v, w, jobs, endpoints, rfl⟩
  · rintro ⟨v, w, jobs, endpoints, rfl⟩
    exact ⟨(v, w), beside_runs_iff.mpr ⟨jobs, endpoints⟩, rfl⟩

end Product

end FastapiProject.SplitStores
