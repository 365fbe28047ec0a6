import Mathlib.Tactic.Cases
import FastapiProject.JobStore

set_option autoImplicit false

/-!
# Terminal statuses of jobs

Between its last record write and its end an async job only broadcasts, so its record
can change again in one place: where the clean-up of `broadcast_ws` raises.
-/
namespace FastapiProject.JobStoreTerminal
open PythonExceptions MachineRuns JobStore

variable {JobId Ws Payload Time : Type}

def JobStatus.Terminal (status : JobStatus) : Prop := status = .done ∨ status = .failed

def StatusMoves (before after : JobStatus) : Prop :=
  after = before ∨ (before = .pending ∧ after = .running) ∨
    (before = .running ∧ JobStatus.Terminal after)

def RecordStep : Option (JobRecord JobId Time) → Option (JobRecord JobId Time) → Prop
  | none, none => True
  | none, some after => after.status = .pending
  | some _, none => False
  | some before, some after =>
    StatusMoves before.status after.status ∧
      (JobStatus.Terminal before.status → after.status = before.status ∧
        after.result = before.result ∧ after.finishedAt = before.finishedAt)

/-- Every record moves as it should, and no job whose steps all succeeded has failed. -/
def TerminalAbsorbing (s : State JobId Ws Payload Time) (_ : Label JobId Ws Payload Time)
    (u : State JobId Ws Payload Time) : Prop :=
  (∀ id, RecordStep (s.jobs id) (u.jobs id)) ∧
  ∀ id r, u.runners id = some (.ended true) → u.jobs id = some r → r.status ≠ .failed

theorem recordStep_refl (r : Option (JobRecord JobId Time)) : RecordStep r r := by
  cases r with
  | none => trivial
  | some r => exact ⟨.inl rfl, fun _ => ⟨rfl, rfl, rfl⟩⟩

def Fits : Option (Runner Ws Payload) → Option (JobRecord JobId Time) → Prop
  | none, job => job = none
  | some _, none => False
  | some (.queued _ _), some job => job.status = .pending
  | some (.gathering _), some job | some (.starting _), some job | some (.sleeping _), some job =>
    job.status = .running
  | some (.broadcasting _ _ _), some job => job.status = .done
  | some (.ended succeeded), some job => succeeded = true → job.status = .done

def Inv (s : State JobId Ws Payload Time) : Prop := ∀ id, Fits (s.runners id) (s.jobs id)

theorem inv_initial : Inv (initial : State JobId Ws Payload Time) := fun _ => rfl

section Framed
variable {s u : State JobId Ws Payload Time} {id : JobId}

def OnlyJob (id : JobId) (s u : State JobId Ws Payload Time) : Prop :=
  ∀ k, k ≠ id → u.jobs k = s.jobs k ∧ u.runners k = s.runners k

theorem OnlyJob.forall_of {P : JobId → Option (Runner Ws Payload) → Option (JobRecord JobId Time) → Prop}
    (only : OnlyJob id s u) (before : ∀ k, k ≠ id → P k (s.runners k) (s.jobs k))
    (here : P id (u.runners id) (u.jobs id)) (k : JobId) : P k (u.runners k) (u.jobs k) := by
  by_cases hk : k = id
  · exact hk ▸ here
  · rw [(only k hk).1, (only k hk).2]
    exact before k hk

theorem inv_of_onlyJob (h : Inv s) (only : OnlyJob id s u)
    (here : Fits (u.runners id) (u.jobs id)) : Inv u :=
  only.forall_of (P := fun _ => Fits) (fun k _ => h k) here

theorem absorbing_of_onlyJob {l : Label JobId Ws Payload Time} (h : Inv u) (only : OnlyJob id s u)
    (here : RecordStep (s.jobs id) (u.jobs id)) : TerminalAbsorbing s l u := by
  refine ⟨fun k => ?_, fun k r hr hj => ?_⟩
  · by_cases hk : k = id
    · exact hk ▸ here
    · rw [(only k hk).1]
      exact recordStep_refl _
  · have fits := h k
    rw [hr, hj] at fits
    rw [fits rfl]
    exact nofun

end Framed

theorem OnlyJob.trans {s u v : State JobId Ws Payload Time} {id : JobId} (h : OnlyJob id s u)
    (h' : OnlyJob id u v) : OnlyJob id s v := by
  intro k hk
  obtain ⟨jobs, runners⟩ := h k hk
  obtain ⟨jobs', runners'⟩ := h' k hk
  exact ⟨jobs'.trans jobs, runners'.trans runners⟩

theorem onlyJob_connections (s : State JobId Ws Payload Time) (id : JobId) (active : List Ws) :
    OnlyJob id s { s with activeConnections := active } := fun _ _ => ⟨rfl, rfl⟩

theorem onlyJob_moveRunner [DecidableEq JobId] (s : State JobId Ws Payload Time) (id : JobId)
    (r : Runner Ws Payload) : OnlyJob id s (s.moveRunner id r) := by
  intro k hk
  exact ⟨rfl, Function.update_of_ne hk _ _⟩

theorem onlyJob_updateJob [DecidableEq JobId] (s : State JobId Ws Payload Time) (id : JobId)
    (f : JobRecord JobId Time → JobRecord JobId Time) : OnlyJob id s (s.updateJob id f) := by
  intro k hk
  exact ⟨Function.update_of_ne hk _ _, rfl⟩

theorem onlyJob_jobRaised [DecidableEq JobId] {str : Str Payload}
    {s : State JobId Ws Payload Time} {id : JobId} (succeeded : Bool) (e : Exn) (now : Time) :
    OnlyJob id s (s.jobRaised str id succeeded e now) := by
  unfold State.jobRaised
  split
  · exact (onlyJob_updateJob s id _).trans (onlyJob_moveRunner _ id _)
  · exact onlyJob_moveRunner s id _

def JobStep (id : JobId) (s u : State JobId Ws Payload Time) : Prop :=
  RecordStep (s.jobs id) (u.jobs id) ∧ Fits (u.runners id) (u.jobs id)

theorem jobStep_jobRaised [DecidableEq JobId] {str : Str Payload}
    {s : State JobId Ws Payload Time} {id : JobId} {r : JobRecord JobId Time} (hr : s.jobs id = some r)
    (running : r.status = .running) (e : Exn) (now : Time) :
    JobStep id s (s.jobRaised str id false e now) := by
  unfold State.jobRaised JobStep
  split
  · simp [State.finishJob, hr, running, RecordStep, StatusMoves, JobStatus.Terminal, Fits]
  · simp [hr, running, RecordStep, StatusMoves, JobStatus.Terminal, Fits]

section Submit
variable [DecidableEq JobId] {s : State JobId Ws Payload Time} {id : JobId}

theorem jobStep_submit (hj : s.jobs id = none) (payload : Payload) (sync : Bool) :
    JobStep id s (submitJob s id payload sync) := by
  simp [JobStep, submitJob, hj, RecordStep, Fits]

theorem onlyJob_submit (payload : Payload) (sync : Bool) :
    OnlyJob id s (submitJob s id payload sync) := by
  intro k hk
  exact ⟨Function.update_of_ne hk _ _, Function.update_of_ne hk _ _⟩

end Submit

section Steps
variable [DecidableEq JobId] [DecidableEq Ws] {str : Str Payload}
  {s u : State JobId Ws Payload Time} {id : JobId}

theorem onlyJob_broadcastWs (position : ℕ) (dead : List Ws) (now : Time) :
    OnlyJob id s (s.broadcastWs str id position dead now) := by
  unfold State.broadcastWs
  split
  · exact onlyJob_moveRunner s id _
  · split
    · exact (onlyJob_connections s id _).trans (onlyJob_moveRunner _ id _)
    · exact (onlyJob_connections s id _).trans (onlyJob_jobRaised _ _ _)

theorem stepJob_onlyJob {r : Runner Ws Payload} {l : Label JobId Ws Payload Time}
    (hs : stepJob str s id r l = some u) : OnlyJob id s u := by
  cases stepJob_move hs with
  | begins | admitted | stamped | slept =>
    exact (onlyJob_updateJob s id _).trans (onlyJob_moveRunner _ id _)
  | gathered => exact (onlyJob_updateJob s id _).trans (onlyJob_broadcastWs _ _ _)
  | sent => exact onlyJob_broadcastWs _ _ _
  | gatherRaised | sendRaised | sleepRaised => exact onlyJob_jobRaised _ _ _

theorem broadcastWs_found (str : Str Payload) (s : State JobId Ws Payload Time) (id : JobId)
    (position : ℕ) (dead : List Ws) (now : Time)
    (found : s.activeConnections.length ≤ position → dead.Subperm s.activeConnections) :
    (s.broadcastWs str id position dead now).jobs = s.jobs ∧
    ((∃ p ws, (s.broadcastWs str id position dead now).runners id =
        some (.broadcasting p ws dead)) ∨
      (s.broadcastWs str id position dead now).runners id = some (.ended true)) := by
  unfold State.broadcastWs
  split
  · exact ⟨rfl, .inl ⟨_, _, moveRunner_runners _ _ _⟩⟩
  · rename_i past
    have ok := (removeEach_ok_iff _ _).mpr (found (List.getElem?_eq_none_iff.mp past))
    split
    · exact ⟨rfl, .inr (moveRunner_runners _ _ _)⟩
    · rename_i rest e failed
      rw [failed] at ok
      cases ok

theorem broadcastWs_missing (str : Str Payload) {position : ℕ} {dead : List Ws} (now : Time)
    (past : s.activeConnections.length ≤ position) (missing : ¬ dead.Subperm s.activeConnections)
    {r : JobRecord JobId Time} (hr : s.jobs id = some r) :
    ∃ r', (s.broadcastWs str id position dead now).jobs id = some r' ∧ r'.status = .failed := by
  have failed : ¬ (removeEach s.activeConnections dead).2 = .ok () :=
    fun ok => missing ((removeEach_ok_iff _ _).mp ok)
  unfold State.broadcastWs
  rw [List.getElem?_eq_none_iff.mpr past]
  dsimp only
  split
  · rename_i ok
    rw [ok] at failed
    exact absurd rfl failed
  · rename_i rest e raised
    have he : e = .valueError := removeEach_error s.activeConnections dead (by rw [raised])
    subst he
    refine ⟨_, by simp only [State.jobRaised, Exn.isException, ↓reduceIte, moveRunner_jobs,
      State.finishJob, updateJob_jobs, hr, Option.map_some]; rfl, rfl⟩

/-- The clean-up of a broadcast finds in `active_connections` every connection that the
broadcast has noted as dead. -/
def CleanupFinds (s : State JobId Ws Payload Time) (l : Label JobId Ws Payload Time)
    (_ : State JobId Ws Payload Time) : Prop :=
  ∀ id outcome now position ws dead, l = .sendEnds id outcome now →
    s.runners id = some (.broadcasting position ws dead) →
    (∀ e, outcome = .error e → e.isException = true) →
    s.activeConnections.length ≤ position →
      (notedDead outcome ws dead).Subperm s.activeConnections

theorem jobStep_broadcastWs (str : Str Payload) {r : JobRecord JobId Time}
    (hr : s.jobs id = some r) (finished : r.status = .done) (position : ℕ) (dead : List Ws)
    (now : Time)
    (found : s.activeConnections.length ≤ position → dead.Subperm s.activeConnections) :
    JobStep id s (s.broadcastWs str id position dead now) := by
  obtain ⟨jobs, runner⟩ := broadcastWs_found str s id position dead now found
  unfold JobStep
  rw [jobs, hr]
  refine ⟨recordStep_refl _, ?_⟩
  rcases runner with ⟨p, ws, hp⟩ | hp
  · rw [hp]
    exact finished
  · rw [hp]
    exact fun _ => finished

theorem jobStep_gathered (str : Str Payload) (payload : Payload) {job : JobRecord JobId Time}
    (hj : s.jobs id = some job) (running : job.status = .running) (now : Time) :
    JobStep id s ((s.finishJob id .done
      (.gathered (stepFetchData str payload) (stepCompute str payload)) now).broadcastWs
        str id 0 [] now) := by
  have written := updateJob_jobs s id (fun r => { r with
    status := JobStatus.done
    result := some (.gathered (stepFetchData str payload) (stepCompute str payload))
    finishedAt := some now })
  rw [hj] at written
  obtain ⟨_, here⟩ := jobStep_broadcastWs str written rfl 0 [] now (fun _ => List.nil_subperm)
  have kept := (broadcastWs_found str (s.finishJob id .done
    (.gathered (stepFetchData str payload) (stepCompute str payload)) now) id 0 [] now
    (fun _ => List.nil_subperm)).1
  refine ⟨?_, here⟩
  rw [kept]
  change RecordStep _ ((s.updateJob id _).jobs id)
  rw [written, hj]
  simp [RecordStep, running, StatusMoves, JobStatus.Terminal]

theorem stepJob_jobStep {r : Runner Ws Payload} {l : Label JobId Ws Payload Time}
    (hr : s.runners id = some r) (fits : Fits (some r) (s.jobs id))
    (hl : l.job? = some id) (good : CleanupFinds s l u) (hs : stepJob str s id r l = some u) :
    JobStep id s u := by
  cases hj : s.jobs id with
  | none => rw [hj] at fits; cases r <;> exact fits.elim
  | some job =>
    rw [hj] at fits
    cases stepJob_move hs with
    | begins k payload now | admitted k payload now =>
      have pending : job.status = .pending := fits
      simp [JobStep, hj, pending, RecordStep, StatusMoves, JobStatus.Terminal, Fits]
    | stamped k payload now =>
      have running : job.status = .running := fits
      simp [JobStep, hj, running, RecordStep, StatusMoves, JobStatus.Terminal, Fits]
    | gathered k payload now => exact jobStep_gathered str payload hj fits now
    | gatherRaised k payload e now | sleepRaised k payload e now =>
      exact jobStep_jobRaised hj fits e now
    | sent k position ws dead outcome now caught =>
      cases Option.some.inj hl
      exact jobStep_broadcastWs str hj fits _ _ now (good _ _ _ _ _ _ rfl hr caught)
    | sendRaised k position ws dead e now fatal =>
      have finished : job.status = .done := fits
      simp [JobStep, State.jobRaised, fatal, hj, recordStep_refl, Fits, finished]
    | slept k payload now =>
      have running : job.status = .running := fits
      simp [JobStep, State.finishJob, hj, running, RecordStep, StatusMoves, JobStatus.Terminal, Fits]

theorem step_good (h : Inv s) {l : Label JobId Ws Payload Time} (hs : step str s l = some u)
    (good : CleanupFinds s l u) : Inv u ∧ TerminalAbsorbing s l u := by
  have from_job {id : JobId} (only : OnlyJob id s u) (here : JobStep id s u) :
      Inv u ∧ TerminalAbsorbing s l u := by
    have next := inv_of_onlyJob h only here.2
    exact ⟨next, absorbing_of_onlyJob next only here.1⟩
  rcases step_cases hs with ⟨id, payload, sync, -, hj, rfl⟩ | ⟨id, r, hl, hr, hu⟩ | ⟨-, hj, hr⟩
  · exact from_job (onlyJob_submit payload sync) (jobStep_submit hj payload sync)
  · exact from_job (stepJob_onlyJob hu) (stepJob_jobStep hr (hr ▸ h id) hl good hu)
  · have next : Inv u := fun k => by rw [hj, hr]; exact h k
    refine ⟨next, fun k => by rw [hj]; exact recordStep_refl _, fun k r hr hj => ?_⟩
    have fits := next k
    rw [hr, hj] at fits
    rw [fits rfl]
    exact nofun

theorem missing_fails (h : Inv s) {l : Label JobId Ws Payload Time} (hs : step str s l = some u)
    (absorbing : TerminalAbsorbing s l u) : CleanupFinds s l u := by
  intro id outcome now position ws dead hl hr isException past
  by_contra missing
  subst hl
  have fits := h id
  rw [hr] at fits
  cases hj : s.jobs id with
  | none => rw [hj] at fits; exact fits
  | some job =>
    rw [hj] at fits
    have finished : job.status = .done := fits
    have hu : s.broadcastWs str id position (notedDead outcome ws dead) now = u := by
      simp only [step, hr, Option.bind_some] at hs
      cases stepJob_move hs with
      | sent => rfl
      | sendRaised _ _ _ _ e _ fatal => exact absurd (isException e rfl) fatal
    obtain ⟨job', hj', failed⟩ := broadcastWs_missing str now past missing hj
    have moved := absorbing.1 id
    rw [← hu, hj, hj'] at moved
    have same := (moved.2 (.inl finished)).1
    rw [failed, finished] at same
    cases same

/-- In every run, terminal statuses are absorbing and no job whose steps succeeded fails
exactly when no clean-up of a broadcast misses a connection. -/
theorem terminalAbsorbing_iff {ls : List (Label JobId Ws Payload Time)}
    (run : Runs (step str) initial ls u) :
    Along (step str) TerminalAbsorbing initial ls u ↔
      Along (step str) CleanupFinds initial ls u :=
  Runs.along_iff Inv run inv_initial (fun _ _ _ h hs good => (step_good h hs good).1)
    (fun _ _ _ h hs => ⟨missing_fails h hs, fun good => (step_good h hs good).2⟩)

end Steps

section Examples

def unitStr : Str Unit := ⟨fun _ => "payload", fun _ => "list.remove(x): x not in list"⟩

/-- Two clients, one job: the first send fails. -/
def firstSendFailed : List (Label ℕ ℕ Unit ℕ) :=
  [.connect 0, .acceptEnds 0 (.ok ()), .connect 1, .acceptEnds 1 (.ok ()),
    .submit 5 () false, .dispatch 5 10, .gatherEnds 5 (.ok ()) 11,
    .sendEnds 5 (.error .runtimeError) 12]

/-- Its client disconnects during the second send. -/
def disconnectedMeanwhile : List (Label ℕ ℕ Unit ℕ) :=
  firstSendFailed ++ [.receiveEnds 0 (.error .webSocketDisconnect)]

theorem disconnect_fails_done_job : ¬ ∀ (ls : List (Label ℕ ℕ Unit ℕ)) u,
    Runs (step unitStr) initial ls u → Along (step unitStr) TerminalAbsorbing initial ls u := by
  intro h
  have along := h (disconnectedMeanwhile ++ [.sendEnds 5 (.ok ()) 13]) _ (Runs.of_execute rfl)
  obtain ⟨w, before, enabled, absorbing, -⟩ := along.last
  cases before
  cases enabled
  have kept := (absorbing 5).2 (.inl rfl)
  exact absurd kept.1 (by decide)

theorem failed_send_cleaned_up : ∃ u,
    Along (step unitStr) TerminalAbsorbing initial (firstSendFailed ++ [.sendEnds 5 (.ok ()) 13]) u ∧
      u.activeConnections = [1] := by
  refine ⟨_, (terminalAbsorbing_iff (Runs.of_execute rfl)).mpr ?_, rfl⟩
  refine .append (.cons rfl ?_ <| .cons rfl ?_ <| .cons rfl ?_ <| .cons rfl ?_ <| .cons rfl ?_ <|
    .cons rfl ?_ <| .cons rfl ?_ <| .cons rfl ?_ <| .nil _) (.single rfl ?_)
  case refine_8 =>
    rintro _ _ _ _ _ _ ⟨⟩ ⟨⟩ - past
    exact absurd past (by decide)
  case refine_9 =>
    rintro _ _ _ _ _ _ ⟨⟩ ⟨⟩ - -
    decide
  all_goals rintro _ _ _ _ _ _ ⟨⟩

end Examples

end FastapiProject.JobStoreTerminal
