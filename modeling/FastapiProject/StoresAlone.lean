import Mathlib.Data.List.Nodup
import FastapiProject.JobHistory
import FastapiProject.SplitStores

set_option autoImplicit false

/-!
# Jobs that nobody watches, and websockets that nobody notifies

The two sides of the split store, each by itself: a job whose work has returned is done
for good, and a connection is listed from its acceptance until it disconnects.
-/
namespace FastapiProject.StoresAlone
open PythonExceptions MachineRuns JobStore ActiveConnections SplitStores
open JobHistory (jobRaised_cases)
open JobStoreTerminal (onlyJob_submit stepJob_onlyJob unitStr)
open ModuleInstances (Root)

variable {JobId Ws Payload Time : Type}

inductive Finishes (id : JobId) : Label JobId Ws Payload Time → Prop where
  | gathered (now : Time) : Finishes id (.gatherEnds id (.ok ()) now)
  | slept (now : Time) : Finishes id (.sleepEnds id (.ok ()) now)

theorem Finishes.job? {id : JobId} {l : Label JobId Ws Payload Time} (h : Finishes id l) :
    l.job? = some id := by
  cases h <;> rfl

theorem ofJob_job? {id : JobId} {l : Label JobId Ws Payload Time} (job : l.job? = some id) :
    ofJob l = true := by
  cases l with
  | connect _ | acceptEnds _ _ | receiveEnds _ _ | echoEnds _ _ => cases job
  | _ => rfl

section Jobs
variable [DecidableEq JobId] [DecidableEq Ws] {str : Str Payload} {id : JobId}
  {ls : List (Label JobId Ws Payload Time)} {s u : JobStore.State JobId Ws Payload Time}
  {l : Label JobId Ws Payload Time}

inductive Unwatched (ls : List (Label JobId Ws Payload Time)) (id : JobId) :
    Option (Runner Ws Payload) → Option (JobRecord JobId Time) → Prop where
  | absent (unfinished : ∀ l ∈ ls, ¬ Finishes id l) : Unwatched ls id none none
  | going (r : Runner Ws Payload) (record : JobRecord JobId Time) (preparing : Preparing r)
      (status : record.status ≠ .done) (unfinished : ∀ l ∈ ls, ¬ Finishes id l) :
    Unwatched ls id (some r) (some record)
  | succeeded (record : JobRecord JobId Time) (status : record.status = .done)
      (finished : ∃ l ∈ ls, Finishes id l) : Unwatched ls id (some (.ended true)) (some record)
  | failed (record : JobRecord JobId Time) (status : record.status ≠ .done)
      (unfinished : ∀ l ∈ ls, ¬ Finishes id l) : Unwatched ls id (some (.ended false)) (some record)

omit [DecidableEq JobId] [DecidableEq Ws] in
theorem unfinished_concat (unfinished : ∀ l ∈ ls, ¬ Finishes id l) (here : ¬ Finishes id l) :
    ∀ k ∈ ls ++ [l], ¬ Finishes id k := by
  intro k mem
  rcases List.mem_append.mp mem with old | new
  · exact unfinished k old
  · rw [List.mem_singleton.mp new]
    exact here

omit [DecidableEq JobId] [DecidableEq Ws] in
theorem Unwatched.later {r : Option (Runner Ws Payload)} {record : Option (JobRecord JobId Time)}
    (h : Unwatched ls id r record) (here : ¬ Finishes id l) : Unwatched (ls ++ [l]) id r record := by
  cases h with
  | absent unfinished => exact .absent (unfinished_concat unfinished here)
  | going r record preparing status unfinished =>
    exact .going r record preparing status (unfinished_concat unfinished here)
  | succeeded record status finished =>
    obtain ⟨k, mem, finished⟩ := finished
    exact .succeeded record status ⟨k, List.mem_append_left _ mem, finished⟩
  | failed record status unfinished =>
    exact .failed record status (unfinished_concat unfinished here)

theorem broadcastWs_empty (empty : s.activeConnections = []) (now : Time) :
    s.broadcastWs str id 0 [] now = s.moveRunner id (.ended true) := by
  have none : s.activeConnections[0]? = none := by rw [empty]; rfl
  have removed : removeEach s.activeConnections [] = (s.activeConnections, .ok ()) := rfl
  simp only [State.broadcastWs, none, removed]

theorem unwatched_step {r : Runner Ws Payload} (empty : s.activeConnections = [])
    (h : Unwatched ls id (some r) (s.jobs id)) (own : l.job? = some id)
    (moved : stepJob str s id r l = some u) : Unwatched (ls ++ [l]) id (u.runners id) (u.jobs id) := by
  have move := stepJob_move moved
  generalize found : s.jobs id = job at h
  cases h with
  | succeeded | failed => cases move
  | going r record preparing status unfinished =>
    cases move with
    | begins k payload now =>
      cases own
      rw [moveRunner_runners, moveRunner_jobs, updateJob_jobs, found]
      exact .going _ _ (preparing_gathering payload) (by rintro ⟨⟩)
        (unfinished_concat unfinished (by rintro ⟨⟩))
    | admitted k payload now =>
      cases own
      rw [moveRunner_runners, moveRunner_jobs, updateJob_jobs, found]
      exact .going _ _ (preparing_starting payload) (by rintro ⟨⟩)
        (unfinished_concat unfinished (by rintro ⟨⟩))
    | stamped k payload now =>
      cases own
      rw [moveRunner_runners, moveRunner_jobs, updateJob_jobs, found]
      exact .going _ _ (preparing_sleeping payload) status
        (unfinished_concat unfinished (by rintro ⟨⟩))
    | gathered k payload now =>
      cases own
      rw [broadcastWs_empty (by exact empty), moveRunner_runners, moveRunner_jobs, State.finishJob,
        updateJob_jobs, found]
      exact .succeeded _ rfl ⟨_, List.mem_append_right _ List.mem_cons_self, .gathered now⟩
    | slept k payload now =>
      cases own
      rw [moveRunner_runners, moveRunner_jobs, State.finishJob, updateJob_jobs, found]
      exact .succeeded _ rfl ⟨_, List.mem_append_right _ List.mem_cons_self, .slept now⟩
    | gatherRaised k payload e now | sleepRaised k payload e now =>
      cases own
      obtain ⟨ended, job⟩ := jobRaised_cases str s id false e now
      rw [ended, job, found]
      split
      · exact .failed _ (by rintro ⟨⟩) (unfinished_concat unfinished (by rintro ⟨⟩))
      · exact .failed _ status (unfinished_concat unfinished (by rintro ⟨⟩))
    | sent k position ws dead outcome now caught => exact absurd ⟨position, ws, dead, rfl⟩ preparing.1
    | sendRaised k position ws dead e now fatal => exact absurd ⟨position, ws, dead, rfl⟩ preparing.1

theorem empty_step (empty : s.activeConnections = []) (own : ofJob l = true)
    (hs : JobStore.step str s l = some u) : u.activeConnections = [] := by
  cases step_connectionStep hs with
  | submits _ => exact empty
  | works _ _ _ _ _ _ connections => rw [connections, empty]
  | sends _ _ _ connections => rw [connections, empty]
  | abandons _ _ _ connections => rw [connections, empty]
  | cleans _ _ _ connections =>
    rw [connections, empty]
    exact List.sublist_nil.mp (removeEach_sublist [] _)
  | connects _ | refused _ | joins _ => cases own
  | echoes goes _ _ => (rcases goes with rfl | rfl <;> cases own)
  | leaves ends _ _ => (rcases ends with rfl | rfl <;> cases own)
  | breaks ends _ _ => (rcases ends with rfl | rfl <;> cases own)

def Unnotifying (ls : List (Label JobId Ws Payload Time)) (s : JobStore.State JobId Ws Payload Time) :
    Prop :=
  s.activeConnections = [] ∧ ∀ id, Unwatched ls id (s.runners id) (s.jobs id)

theorem unnotifying_step (h : Unnotifying ls s) (own : ofJob l = true)
    (hs : JobStore.step str s l = some u) : Unnotifying (ls ++ [l]) u := by
  obtain ⟨empty, unwatched⟩ := h
  refine ⟨empty_step empty own hs, ?_⟩
  rcases step_cases hs with ⟨id, payload, sync, rfl, fresh, rfl⟩ | ⟨id, r, owner, at_id, moved⟩ |
    ⟨other, jobs, runners⟩
  · refine (onlyJob_submit payload sync).forall_of (P := fun k => Unwatched _ k)
      (fun k _ => (unwatched k).later (by rintro ⟨⟩)) ?_
    have before := unwatched id
    rw [fresh] at before
    generalize s.runners id = r at before
    cases before with
    | absent unfinished =>
      rw [submitJob, moveRunner_runners, moveRunner_jobs]
      simp only [Function.update_self]
      exact .going _ _ (preparing_queued payload sync) (by rintro ⟨⟩)
        (unfinished_concat unfinished (by rintro ⟨⟩))
  · refine (stepJob_onlyJob moved).forall_of (P := fun k => Unwatched _ k) (fun k other => ?_) ?_
    · refine (unwatched k).later fun finishes => other ?_
      exact Option.some.inj (finishes.job?.symm.trans owner)
    · have before := unwatched id
      rw [at_id] at before
      exact unwatched_step empty before owner moved
  · intro id
    rw [jobs, runners]
    refine (unwatched id).later fun finishes => ?_
    cases other.symm.trans finishes.job?

end Jobs

def Accepted (ls : List (Label JobId Ws Payload Time)) (ws : Ws) : Prop :=
  .acceptEnds ws (.ok ()) ∈ ls

def Disconnected (ls : List (Label JobId Ws Payload Time)) (ws : Ws) : Prop :=
  ∃ l ∈ ls, EndpointEnds l ws .webSocketDisconnect

section Endpoints
variable {ls : List (Label JobId Ws Payload Time)} {l : Label JobId Ws Payload Time}
  {active active' : List Ws} {ws : Ws} {e : Endpoint}

/-- Where a connection is that no broadcast ever removes. -/
inductive Place (ls : List (Label JobId Ws Payload Time)) (active : List Ws) (ws : Ws) :
    Endpoint → Prop where
  | early {e : Endpoint} (early : e = .absent ∨ e = .accepting) (new : ¬ Accepted ls ws)
      (unlisted : ws ∉ active) (staying : ¬ Disconnected ls ws) : Place ls active ws e
  | going {e : Endpoint} (isOpen : Endpoint.Open e) (accepted : Accepted ls ws)
      (listed : ws ∈ active) (staying : ¬ Disconnected ls ws) : Place ls active ws e
  | left (unlisted : ws ∉ active) (disconnected : Disconnected ls ws) :
    Place ls active ws (.ended (.ok ()))
  | refused (e : Exn) (new : ¬ Accepted ls ws) (unlisted : ws ∉ active)
      (staying : ¬ Disconnected ls ws) : Place ls active ws (.ended (.error e))
  | broken (e : Exn) (accepted : Accepted ls ws) (listed : ws ∈ active)
      (staying : ¬ Disconnected ls ws) : Place ls active ws (.ended (.error e))

theorem accepted_concat : Accepted (ls ++ [l]) ws ↔ Accepted ls ws ∨ l = .acceptEnds ws (.ok ()) := by
  rw [Accepted, List.mem_append, List.mem_singleton, eq_comm (a := l)]
  rfl

theorem disconnected_concat : Disconnected (ls ++ [l]) ws ↔
    Disconnected ls ws ∨ EndpointEnds l ws .webSocketDisconnect := by
  unfold Disconnected
  constructor
  · rintro ⟨k, mem, ends⟩
    rcases List.mem_append.mp mem with old | new
    · exact .inl ⟨k, old, ends⟩
    · exact .inr (List.mem_singleton.mp new ▸ ends)
  · rintro (⟨k, mem, ends⟩ | ends)
    · exact ⟨k, List.mem_append_left _ mem, ends⟩
    · exact ⟨l, List.mem_append_right _ List.mem_cons_self, ends⟩

theorem Place.later (h : Place ls active ws e) (same : ws ∈ active' ↔ ws ∈ active)
    (unaccepted : l ≠ .acceptEnds ws (.ok ())) (stays : ¬ EndpointEnds l ws .webSocketDisconnect) :
    Place (ls ++ [l]) active' ws e := by
  have accepted_iff : Accepted (ls ++ [l]) ws ↔ Accepted ls ws := by
    rw [accepted_concat, or_iff_left unaccepted]
  have disconnected_iff : Disconnected (ls ++ [l]) ws ↔ Disconnected ls ws := by
    rw [disconnected_concat, or_iff_left stays]
  cases h with
  | early early new unlisted staying =>
    exact .early early (mt accepted_iff.mp new) (mt same.mp unlisted) (mt disconnected_iff.mp staying)
  | going isOpen accepted listed staying =>
    exact .going isOpen (accepted_iff.mpr accepted) (same.mpr listed) (mt disconnected_iff.mp staying)
  | left unlisted disconnected =>
    exact .left (mt same.mp unlisted) (disconnected_iff.mpr disconnected)
  | refused e new unlisted staying =>
    exact .refused e (mt accepted_iff.mp new) (mt same.mp unlisted) (mt disconnected_iff.mp staying)
  | broken e accepted listed staying =>
    exact .broken e (accepted_iff.mpr accepted) (same.mpr listed) (mt disconnected_iff.mp staying)

theorem Place.of_early (h : Place ls active ws e) (early : e = .absent ∨ e = .accepting) :
    ¬ Accepted ls ws ∧ ws ∉ active ∧ ¬ Disconnected ls ws := by
  cases h with
  | early _ new unlisted staying => exact ⟨new, unlisted, staying⟩
  | going isOpen _ _ _ => (rcases early with rfl | rfl <;> rcases isOpen with ⟨⟨⟩⟩ | ⟨⟨⟩⟩)
  | _ => (rcases early with ⟨⟨⟩⟩ | ⟨⟨⟩⟩)

theorem Place.of_open (h : Place ls active ws e) (isOpen : Endpoint.Open e) :
    Accepted ls ws ∧ ws ∈ active ∧ ¬ Disconnected ls ws := by
  cases h with
  | going _ accepted listed staying => exact ⟨accepted, listed, staying⟩
  | early early _ _ _ => (rcases early with rfl | rfl <;> rcases isOpen with ⟨⟨⟩⟩ | ⟨⟨⟩⟩)
  | _ => (rcases isOpen with ⟨⟨⟩⟩ | ⟨⟨⟩⟩)

theorem endpointOf_ends {x : Ws} {e : Exn} (ends : EndpointEnds l x e) : endpointOf l = some x := by
  rcases ends with rfl | rfl <;> rfl

variable [DecidableEq Ws] {s : JobStore.State JobId Ws Payload Time}

theorem placed_move (placed : ∀ ws, Place ls s.activeConnections ws (s.endpoints ws)) (x : Ws)
    (own : endpointOf l = some x) (others : ∀ ws, ws ≠ x → (ws ∈ active ↔ ws ∈ s.activeConnections))
    (here : Place (ls ++ [l]) active x e) (ws : Ws) :
    Place (ls ++ [l]) active ws (Function.update s.endpoints x e ws) := by
  by_cases same : ws = x
  · subst same
    rw [Function.update_self]
    exact here
  · rw [Function.update_of_ne same]
    refine (placed ws).later (others ws same) ?_ fun ends => ?_
    · rintro rfl
      exact same (Option.some.inj own)
    · exact same (Option.some.inj ((endpointOf_ends ends).symm.trans own))

variable [DecidableEq JobId] {str : Str Payload} {u : JobStore.State JobId Ws Payload Time}

def Placed (ls : List (Label JobId Ws Payload Time)) (s : JobStore.State JobId Ws Payload Time) : Prop :=
  s.activeConnections.Nodup ∧ ∀ ws, Place ls s.activeConnections ws (s.endpoints ws)

theorem placed_step (placed : Placed ls s) (own : ofJob l = false)
    (hs : JobStore.step str s l = some u) : Placed (ls ++ [l]) u := by
  obtain ⟨nodup, places⟩ := placed
  have ofEndpoint {id : JobId} (job : l.job? = some id) : False :=
    Bool.false_ne_true (own.symm.trans (ofJob_job? job))
  cases step_connectionStep hs with
  | submits _ => cases own
  | works job => exact (ofEndpoint job).elim
  | sends head => exact (ofEndpoint head.job?).elim
  | cleans head => exact (ofEndpoint head.job?).elim
  | abandons sending => exact (ofEndpoint rfl).elim
  | @connects x absent =>
    obtain ⟨new, unlisted, staying⟩ := (places x).of_early (.inl absent)
    refine ⟨nodup, placed_move places x rfl (fun _ _ => Iff.rfl) (.early (.inr rfl) ?_ unlisted ?_)⟩
    · rw [accepted_concat, or_iff_left (by rintro ⟨⟩)]
      exact new
    · rw [disconnected_concat, or_iff_left (by rintro (⟨⟨⟩⟩ | ⟨⟨⟩⟩))]
      exact staying
  | @refused x e accepting =>
    obtain ⟨new, unlisted, staying⟩ := (places x).of_early (.inr accepting)
    refine ⟨nodup, placed_move places x rfl (fun _ _ => Iff.rfl) (.refused e ?_ unlisted ?_)⟩
    · rw [accepted_concat, or_iff_left (by rintro ⟨⟩)]
      exact new
    · rw [disconnected_concat, or_iff_left (by rintro (⟨⟨⟩⟩ | ⟨⟨⟩⟩))]
      exact staying
  | @joins x accepting =>
    obtain ⟨-, unlisted, staying⟩ := (places x).of_early (.inr accepting)
    refine ⟨?_, placed_move places x rfl (fun ws other => ?_) (.going (.inl rfl) ?_ ?_ ?_)⟩
    · exact List.nodup_append_comm.mpr (List.nodup_cons.mpr ⟨unlisted, nodup⟩)
    · change ws ∈ s.activeConnections ++ [x] ↔ _
      rw [List.mem_append, List.mem_singleton, or_iff_left other]
    · exact accepted_concat.mpr (.inr rfl)
    · exact List.mem_append_right _ List.mem_cons_self
    · rw [disconnected_concat, or_iff_left (by rintro (⟨⟨⟩⟩ | ⟨⟨⟩⟩))]
      exact staying
  | @echoes _ x e goes before after =>
    obtain ⟨accepted, listed, staying⟩ := (places x).of_open before
    have owner : endpointOf l = some x := by rcases goes with rfl | rfl <;> rfl
    refine ⟨nodup, placed_move places x owner (fun _ _ => Iff.rfl) (.going after ?_ listed ?_)⟩
    · exact accepted_concat.mpr (.inl accepted)
    · rw [disconnected_concat, or_iff_left ?_]
      · exact staying
      · rcases goes with rfl | rfl <;> rintro (⟨⟨⟩⟩ | ⟨⟨⟩⟩)
  | @leaves _ x ends before listed =>
    refine ⟨nodup.erase x, placed_move places x (endpointOf_ends ends) (fun ws other => ?_) (.left ?_ ?_)⟩
    · exact List.mem_erase_of_ne other
    · exact nodup.not_mem_erase
    · exact disconnected_concat.mpr (.inr ends)
  | @breaks _ x e e' ends before unlisted =>
    obtain ⟨accepted, listed, staying⟩ := (places x).of_open before
    have other : e ≠ .webSocketDisconnect := fun disconnect => unlisted disconnect listed
    refine ⟨nodup, placed_move places x (endpointOf_ends ends) (fun _ _ => Iff.rfl)
      (.broken e' (accepted_concat.mpr (.inl accepted)) listed ?_)⟩
    rw [disconnected_concat, or_iff_left ?_]
    · exact staying
    · rcases ends with rfl | rfl <;> rintro (⟨⟨⟩⟩ | ⟨⟨⟩⟩) <;> exact other rfl

end Endpoints

section Application
variable {ls : List (Label JobId Ws Payload Time)}

theorem finishes_filter (id : JobId) :
    (∃ l ∈ ls.filter ofJob, Finishes id l) ↔ ∃ l ∈ ls, Finishes id l := by
  constructor
  · rintro ⟨l, mem, finishes⟩
    exact ⟨l, (List.mem_filter.mp mem).1, finishes⟩
  · rintro ⟨l, mem, finishes⟩
    exact ⟨l, List.mem_filter.mpr ⟨mem, ofJob_job? finishes.job?⟩, finishes⟩

theorem accepted_filter (ws : Ws) : Accepted (ls.filter fun l => !ofJob l) ws ↔ Accepted ls ws := by
  unfold Accepted
  rw [List.mem_filter]
  exact and_iff_left rfl

theorem disconnected_filter (ws : Ws) :
    Disconnected (ls.filter fun l => !ofJob l) ws ↔ Disconnected ls ws := by
  constructor
  · rintro ⟨l, mem, ends⟩
    exact ⟨l, (List.mem_filter.mp mem).1, ends⟩
  · rintro ⟨l, mem, ends⟩
    refine ⟨l, List.mem_filter.mpr ⟨mem, ?_⟩, ends⟩
    rcases ends with rfl | rfl <;> rfl

variable [DecidableEq JobId] [DecidableEq Ws]

theorem unnotifying_run {str : Str Payload} {v : JobStore.State JobId Ws Payload Time}
    (run : Runs (JobStore.step str) JobStore.initial (ls.filter ofJob) v) :
    Unnotifying (ls.filter ofJob) v := by
  have along : Along (JobStore.step str) (fun _ l _ => ofJob l = true) JobStore.initial
      (ls.filter ofJob) v := run.along_of_labels fun l mem _ _ => (List.mem_filter.mp mem).2
  exact along.history Unnotifying ⟨rfl, fun _ => .absent (by rintro _ ⟨⟩)⟩
    (fun _ _ _ _ h hs own => unnotifying_step h own hs)

theorem placed_run {str : Str Payload} {w : JobStore.State JobId Ws Payload Time}
    (run : Runs (JobStore.step str) JobStore.initial (ls.filter fun l => !ofJob l) w) :
    Placed (ls.filter fun l => !ofJob l) w := by
  have along : Along (JobStore.step str) (fun _ l _ => ofJob l = false) JobStore.initial
      (ls.filter fun l => !ofJob l) w :=
    run.along_of_labels fun l mem _ _ => Bool.not_eq_true' _ ▸ (List.mem_filter.mp mem).2
  refine along.history Placed ⟨List.nodup_nil, fun ws => .early (.inl rfl) ?_ ?_ ?_⟩
    (fun _ _ _ _ h hs own => placed_step h own hs)
  · rintro ⟨⟩
  · rintro ⟨⟩
  · rintro ⟨_, ⟨⟩, _⟩

structure Law (ls : List (Label JobId Ws Payload Time)) (u : SplitStores.State JobId Ws Payload Time) :
    Prop where
  unwatched : u.connections storeOfJobs = []
  silent : ∀ id r, u.runners id = some r → ¬ Broadcasting r
  done_iff : ∀ id record, u.jobs id = some record →
    (record.status = .done ↔ ∃ l ∈ ls, Finishes id l)
  nodup : (u.connections storeOfEndpoints).Nodup
  listed_iff : ∀ ws, ws ∈ u.connections storeOfEndpoints ↔ Accepted ls ws ∧ ¬ Disconnected ls ws
  closed_iff : ∀ ws, u.endpoints ws = .ended (.ok ()) ↔ Disconnected ls ws

/-- No job notifies anyone, and so none that has done its work fails after all; a
connection is listed just from its acceptance until it disconnects. -/
theorem application_law (root : Root) (str : Str Payload) {u : SplitStores.State JobId Ws Payload Time}
    (run : Runs (SplitStores.step root str) SplitStores.State.initial ls u) : Law ls u := by
  obtain ⟨⟨v, w⟩, both, rfl⟩ := (runs_merge_iff root str).mp run
  obtain ⟨jobs, endpoints⟩ := MachineProducts.beside_runs_iff.mp both
  obtain ⟨empty, unwatched⟩ := unnotifying_run jobs
  obtain ⟨nodup, places⟩ := placed_run endpoints
  have listOfJobs : (merge (v, w)).connections storeOfJobs = v.activeConnections := by
    simp only [merge, Function.update_self]
  have ne : storeOfEndpoints ≠ storeOfJobs := by decide
  have listOfEndpoints : (merge (v, w)).connections storeOfEndpoints = w.activeConnections := by
    simp only [merge, Function.update_of_ne ne, Function.update_self]
  constructor
  · rw [listOfJobs, empty]
  · intro id r at_id
    have status := unwatched id
    rw [show v.runners id = some r from at_id] at status
    generalize v.jobs id = job at status
    cases status with
    | going _ _ preparing _ _ => exact preparing.1
    | succeeded _ _ _ => exact not_broadcasting_ended true
    | failed _ _ _ => exact not_broadcasting_ended false
  · intro id record at_id
    have status := unwatched id
    rw [show v.jobs id = some record from at_id] at status
    generalize v.runners id = r at status
    rw [← finishes_filter]
    cases status with
    | going _ _ _ status unfinished | failed _ status unfinished =>
      refine iff_of_false status ?_
      rintro ⟨l, mem, finishes⟩
      exact unfinished l mem finishes
    | succeeded _ status finished => exact iff_of_true status finished
  · rw [listOfEndpoints]
    exact nodup
  · intro ws
    rw [listOfEndpoints, ← accepted_filter, ← disconnected_filter]
    have place := places ws
    generalize w.endpoints ws = e at place
    cases place with
    | early _ new unlisted _ => exact iff_of_false unlisted fun h => new h.1
    | going _ accepted listed staying => exact iff_of_true listed ⟨accepted, staying⟩
    | left unlisted disconnected => exact iff_of_false unlisted fun h => h.2 disconnected
    | refused _ new unlisted _ => exact iff_of_false unlisted fun h => new h.1
    | broken _ accepted listed staying => exact iff_of_true listed ⟨accepted, staying⟩
  · intro ws
    rw [← disconnected_filter]
    change w.endpoints ws = _ ↔ _
    have place := places ws
    generalize w.endpoints ws = e at place
    cases place with
    | early early _ _ staying =>
      refine iff_of_false ?_ staying
      rcases early with rfl | rfl <;> rintro ⟨⟩
    | going isOpen _ _ staying =>
      refine iff_of_false ?_ staying
      rcases isOpen with rfl | rfl <;> rintro ⟨⟩
    | left _ disconnected => exact iff_of_true rfl disconnected
    | refused _ _ _ staying | broken _ _ _ staying => exact iff_of_false (by rintro ⟨⟩) staying

end Application

section Examples

def doneUnseen : List (Label Unit Unit Unit Unit) :=
  [.connect (), .acceptEnds () (.ok ()), .submit () () false, .dispatch () (),
    .gatherEnds () (.ok ()) ()]

theorem doneUnseen_law : ∃ u : SplitStores.State Unit Unit Unit Unit,
    u.runners () = some (.ended true) ∧ u.connections storeOfEndpoints = [()] ∧ Law doneUnseen u := by
  obtain ⟨u, run, ended, listed⟩ : ∃ u : SplitStores.State Unit Unit Unit Unit,
      Runs (SplitStores.step .bare unitStr) SplitStores.State.initial doneUnseen u ∧
        u.runners () = some (.ended true) ∧ u.connections storeOfEndpoints = [()] :=
    ⟨_, Runs.of_execute rfl, rfl, rfl⟩
  exact ⟨u, ended, listed, application_law .bare unitStr run⟩

end Examples

end FastapiProject.StoresAlone
