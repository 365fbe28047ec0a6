import Mathlib.Order.Defs.PartialOrder
import FastapiProject.JobStoreTerminal

set_option autoImplicit false

/-!
# A job's record, told from the run

Whatever the other jobs and the websockets do in between, the record of a job is made of
the payload it was submitted with and of the times at which its own labels occurred, in
their order.
-/
namespace FastapiProject.JobHistory
open PythonExceptions MachineRuns JobStore JobStoreTerminal

variable {JobId Ws Payload Time : Type}

section Records
variable (str : Str Payload) (id : JobId) (ls : List (Label JobId Ws Payload Time))

def gatheredResult (payload : Payload) : JobResult :=
  .gathered (stepFetchData str payload) (stepCompute str payload)

def sleptResult (payload : Payload) : JobResult := .text ("sync-processed:" ++ str.payload payload)

def begun (payload : Payload) (start : Time) : List (Label JobId Ws Payload Time) :=
  [.submit id payload false, .dispatch id start]

def stamped (payload : Payload) (dispatched start : Time) : List (Label JobId Ws Payload Time) :=
  [.submit id payload true, .dispatch id dispatched, .startedAt id start]

/-- The record that a runner leaves, with the labels of `ls` that explain it. -/
inductive Ended : Bool → JobRecord JobId Time → Prop
  | gathered (payload : Payload) (start finish : Time)
      (told : (begun id payload start ++ [Label.gatherEnds id (.ok ()) finish]).Sublist ls) :
    Ended true ⟨id, .done, some (gatheredResult str payload), some start, some finish⟩
  | notifyFailed (payload : Payload) (start gatheredAt finish : Time) (outcome : Except Exn Unit)
      (told : (begun id payload start ++
        [Label.gatherEnds id (.ok ()) gatheredAt, Label.sendEnds id outcome finish]).Sublist ls) :
    Ended true ⟨id, .failed, some (.text (str.exn .valueError)), some start, some finish⟩
  | gatherFailed (payload : Payload) (start finish : Time) (e : Exn) (caught : e.isException = true)
      (told : (begun id payload start ++ [Label.gatherEnds id (.error e) finish]).Sublist ls) :
    Ended false ⟨id, .failed, some (.text (str.exn e)), some start, some finish⟩
  | gatherPassed (payload : Payload) (start : Time) (told : (begun id payload start).Sublist ls) :
    Ended false ⟨id, .running, none, some start, none⟩
  | slept (payload : Payload) (dispatched start finish : Time)
      (told : (stamped id payload dispatched start ++
        [Label.sleepEnds id (.ok ()) finish]).Sublist ls) :
    Ended true ⟨id, .done, some (sleptResult str payload), some start, some finish⟩
  | sleepFailed (payload : Payload) (dispatched start finish : Time) (e : Exn)
      (caught : e.isException = true)
      (told : (stamped id payload dispatched start ++
        [Label.sleepEnds id (.error e) finish]).Sublist ls) :
    Ended false ⟨id, .failed, some (.text (str.exn e)), some start, some finish⟩
  | sleepPassed (payload : Payload) (dispatched start : Time)
      (told : (stamped id payload dispatched start).Sublist ls) :
    Ended false ⟨id, .running, none, some start, none⟩

inductive Recorded : Option (Runner Ws Payload) → Option (JobRecord JobId Time) → Prop
  | absent : Recorded none none
  | queued (payload : Payload) (sync : Bool) (told : [.submit id payload sync].Sublist ls) :
    Recorded (some (.queued payload sync)) (some ⟨id, .pending, none, none, none⟩)
  | gathering (payload : Payload) (start : Time) (told : (begun id payload start).Sublist ls) :
    Recorded (some (.gathering payload)) (some ⟨id, .running, none, some start, none⟩)
  | broadcasting (payload : Payload) (start finish : Time) (position : ℕ) (ws : Ws) (dead : List Ws)
      (told : (begun id payload start ++ [Label.gatherEnds id (.ok ()) finish]).Sublist ls) :
    Recorded (some (.broadcasting position ws dead))
      (some ⟨id, .done, some (gatheredResult str payload), some start, some finish⟩)
  | starting (payload : Payload) (dispatched : Time)
      (told : [.submit id payload true, .dispatch id dispatched].Sublist ls) :
    Recorded (some (.starting payload)) (some ⟨id, .running, none, none, none⟩)
  | sleeping (payload : Payload) (dispatched start : Time)
      (told : (stamped id payload dispatched start).Sublist ls) :
    Recorded (some (.sleeping payload)) (some ⟨id, .running, none, some start, none⟩)
  | ended (succeeded : Bool) (r : JobRecord JobId Time) (ended : Ended str id ls succeeded r) :
    Recorded (some (.ended succeeded)) (some r)

end Records

section Later
variable {str : Str Payload} {id : JobId} {ls : List (Label JobId Ws Payload Time)}
  {l : Label JobId Ws Payload Time} {told : List (Label JobId Ws Payload Time)}

theorem sublist_later (h : told.Sublist ls) (l : Label JobId Ws Payload Time) :
    told.Sublist (ls ++ [l]) :=
  h.trans (List.sublist_append_left ls [l])

theorem sublist_now (h : told.Sublist ls) (l : Label JobId Ws Payload Time) :
    (told ++ [l]).Sublist (ls ++ [l]) :=
  h.append (List.Sublist.refl [l])

theorem Ended.later {succeeded : Bool} {r : JobRecord JobId Time}
    (h : Ended str id ls succeeded r) (l : Label JobId Ws Payload Time) :
    Ended str id (ls ++ [l]) succeeded r := by
  cases h with
  | gathered payload start finish told => exact .gathered payload _ _ (sublist_later told l)
  | notifyFailed payload start at_ finish outcome told =>
    exact .notifyFailed payload _ at_ _ outcome (sublist_later told l)
  | gatherFailed payload start finish e caught told =>
    exact .gatherFailed payload _ _ e caught (sublist_later told l)
  | gatherPassed payload start told => exact .gatherPassed payload _ (sublist_later told l)
  | slept payload dispatched start finish told =>
    exact .slept payload dispatched _ _ (sublist_later told l)
  | sleepFailed payload dispatched start finish e caught told =>
    exact .sleepFailed payload dispatched _ _ e caught (sublist_later told l)
  | sleepPassed payload dispatched start told =>
    exact .sleepPassed payload dispatched _ (sublist_later told l)

theorem Recorded.later {runner : Option (Runner Ws Payload)} {r : Option (JobRecord JobId Time)}
    (h : Recorded str id ls runner r) (l : Label JobId Ws Payload Time) :
    Recorded str id (ls ++ [l]) runner r := by
  cases h with
  | absent => exact .absent
  | queued payload sync told => exact .queued payload sync (sublist_later told l)
  | gathering payload start told => exact .gathering payload start (sublist_later told l)
  | broadcasting payload start finish position ws dead told =>
    exact .broadcasting payload start finish position ws dead (sublist_later told l)
  | starting payload dispatched told => exact .starting payload dispatched (sublist_later told l)
  | sleeping payload dispatched start told =>
    exact .sleeping payload dispatched start (sublist_later told l)
  | ended succeeded r h => exact .ended succeeded r (h.later l)

end Later

section Steps
variable [DecidableEq JobId] {str : Str Payload} {id : JobId}
  {ls : List (Label JobId Ws Payload Time)} {s u : State JobId Ws Payload Time}

theorem jobRaised_cases (str : Str Payload) (s : State JobId Ws Payload Time) (id : JobId)
    (succeeded : Bool) (e : Exn) (now : Time) :
    (s.jobRaised str id succeeded e now).runners id = some (.ended succeeded) ∧
      (s.jobRaised str id succeeded e now).jobs id =
        if e.isException = true then
          (s.jobs id).map fun r => { r with
            status := .failed, result := some (.text (str.exn e)), finishedAt := some now }
        else s.jobs id := by
  rw [State.jobRaised]
  split
  · exact ⟨moveRunner_runners _ id _, updateJob_jobs s id _⟩
  · exact ⟨moveRunner_runners _ id _, rfl⟩

variable [DecidableEq Ws]

theorem broadcastWs_recorded {payload : Payload} {start finish : Time}
    (found : s.jobs id =
      some ⟨id, .done, some (gatheredResult str payload), some start, some finish⟩)
    (told : (begun id payload start ++ [Label.gatherEnds id (.ok ()) finish]).Sublist ls)
    {position : ℕ} {dead : List Ws} {now : Time}
    (sent : dead = [] ∨ ∃ outcome, (begun id payload start ++
      [Label.gatherEnds id (.ok ()) finish, Label.sendEnds id outcome now]).Sublist ls) :
    Recorded str id ls ((s.broadcastWs str id position dead now).runners id)
      ((s.broadcastWs str id position dead now).jobs id) := by
  rw [State.broadcastWs]
  split
  · rw [moveRunner_runners, moveRunner_jobs, found]
    exact .broadcasting payload start finish _ _ _ told
  · split
    · rw [moveRunner_runners, moveRunner_jobs]
      change Recorded str id ls _ (s.jobs id)
      rw [found]
      exact .ended true _ (.gathered payload start finish told)
    · rename_i rest e failed
      have value : e = .valueError :=
        removeEach_error s.activeConnections dead (congrArg Prod.snd failed)
      subst value
      obtain ⟨runner, job⟩ := jobRaised_cases str { s with activeConnections := rest } id true
        .valueError now
      have caught : Exn.valueError.isException = true := rfl
      rw [runner, job, if_pos caught]
      change Recorded str id ls _ ((s.jobs id).map _)
      rw [found]
      rcases sent with rfl | ⟨outcome, sent⟩
      · cases failed
      · exact .ended true _ (.notifyFailed payload start finish now outcome sent)

theorem stepJob_recorded {runner : Runner Ws Payload} {l : Label JobId Ws Payload Time}
    (recorded : Recorded str id ls (some runner) (s.jobs id)) (own : l.job? = some id)
    (hs : stepJob str s id runner l = some u) :
    Recorded str id (ls ++ [l]) (u.runners id) (u.jobs id) := by
  generalize found : s.jobs id = job at recorded
  cases stepJob_move hs with
  | begins k payload now =>
    cases own
    cases recorded with
    | queued _ _ told =>
      rw [moveRunner_runners, moveRunner_jobs, updateJob_jobs, found]
      exact .gathering payload now (sublist_now told _)
  | admitted k payload now =>
    cases own
    cases recorded with
    | queued _ _ told =>
      rw [moveRunner_runners, moveRunner_jobs, updateJob_jobs, found]
      exact .starting payload now (sublist_now told _)
  | stamped k payload now =>
    cases own
    cases recorded with
    | starting _ dispatched told =>
      rw [moveRunner_runners, moveRunner_jobs, updateJob_jobs, found]
      exact .sleeping payload dispatched now (sublist_now told _)
  | gathered k payload now =>
    cases own
    cases recorded with
    | gathering _ start told =>
      refine broadcastWs_recorded ?_ (sublist_now told _) (Or.inl rfl)
      rw [State.finishJob, updateJob_jobs, found]
      rfl
  | gatherRaised k payload e now =>
    cases own
    cases recorded with
    | gathering _ start told =>
      obtain ⟨ended, job⟩ := jobRaised_cases str s id false e now
      rw [ended, job, found]
      by_cases caught : e.isException = true
      · rw [if_pos caught]
        exact .ended false _ (.gatherFailed payload start now e caught (sublist_now told _))
      · rw [if_neg caught]
        exact .ended false _ (.gatherPassed payload start (sublist_later told _))
  | sent k position ws dead outcome now =>
    cases own
    cases recorded with
    | broadcasting payload start finish _ _ _ told =>
      have again := sublist_now told (Label.sendEnds id outcome now)
      rw [List.append_assoc] at again
      exact broadcastWs_recorded found (sublist_later told _) (Or.inr ⟨outcome, again⟩)
  | sendRaised k position ws dead e now fatal =>
    cases own
    cases recorded with
    | broadcasting payload start finish _ _ _ told =>
      obtain ⟨ended, job⟩ := jobRaised_cases str s id true e now
      rw [ended, job, if_neg fatal, found]
      exact .ended true _ (.gathered payload start finish (sublist_later told _))
  | slept k payload now =>
    cases own
    cases recorded with
    | sleeping _ dispatched start told =>
      rw [moveRunner_runners, moveRunner_jobs, State.finishJob, updateJob_jobs, found]
      exact .ended true _ (.slept payload dispatched start now (sublist_now told _))
  | sleepRaised k payload e now =>
    cases own
    cases recorded with
    | sleeping _ dispatched start told =>
      obtain ⟨ended, job⟩ := jobRaised_cases str s id false e now
      rw [ended, job, found]
      by_cases caught : e.isException = true
      · rw [if_pos caught]
        exact .ended false _ (.sleepFailed payload dispatched start now e caught
          (sublist_now told _))
      · rw [if_neg caught]
        exact .ended false _ (.sleepPassed payload dispatched start (sublist_later told _))

/-- The history of the labels tells every record of the store. -/
def Told (str : Str Payload) (ls : List (Label JobId Ws Payload Time))
    (s : State JobId Ws Payload Time) : Prop :=
  ∀ id, Recorded str id ls (s.runners id) (s.jobs id)

theorem told_step {l : Label JobId Ws Payload Time} (told : Told str ls s)
    (hs : step str s l = some u) : Told str (ls ++ [l]) u := by
  rcases step_cases hs with ⟨id, payload, sync, rfl, -, rfl⟩ | ⟨id, runner, own, at_id, moved⟩ |
      ⟨-, jobs, runners⟩
  · have only : OnlyJob id s (submitJob s id payload sync) := onlyJob_submit payload sync
    refine only.forall_of (P := fun k => Recorded str k _) (fun k _ => (told k).later _) ?_
    rw [submitJob, moveRunner_runners, moveRunner_jobs]
    simp only [Function.update_self]
    exact .queued payload sync (List.sublist_append_right ls _)
  · have before := told id
    rw [at_id] at before
    exact (stepJob_onlyJob moved).forall_of (P := fun k => Recorded str k _)
      (fun k _ => (told k).later _) (stepJob_recorded before own moved)
  · intro k
    rw [jobs, runners]
    exact (told k).later _

/-- Every record of a reachable state is told by its own labels of the run: its result is
that of its own payload, or the text of its own exception, and its times are theirs. -/
theorem record_told (str : Str Payload) {ls : List (Label JobId Ws Payload Time)}
    {s : State JobId Ws Payload Time} (run : Runs (step str) initial ls s) (id : JobId) :
    Recorded str id ls (s.runners id) (s.jobs id) :=
  run.history (Told str) (fun _ => .absent) (fun _ _ _ _ told hs => told_step told hs) id

end Steps

section Clock

/-- `datetime.utcnow()` at a label that has one. -/
def Label.now? : Label JobId Ws Payload Time → Option Time
  | .dispatch _ now | .startedAt _ now | .gatherEnds _ _ now | .sendEnds _ _ now
  | .sleepEnds _ _ now => some now
  | .submit _ _ _ | .connect _ | .acceptEnds _ _ | .receiveEnds _ _ | .echoEnds _ _ => none

variable [LE Time]

def ClockForward (ls : List (Label JobId Ws Payload Time)) : Prop :=
  (ls.filterMap Label.now?).Pairwise (· ≤ ·)

theorem ClockForward.told {ls told : List (Label JobId Ws Payload Time)} (clock : ClockForward ls)
    (h : told.Sublist ls) : (told.filterMap Label.now?).Pairwise (· ≤ ·) :=
  clock.sublist (h.filterMap Label.now?)

theorem Ended.times {str : Str Payload} {id : JobId} {ls : List (Label JobId Ws Payload Time)}
    (clock : ClockForward ls) {succeeded : Bool} {r : JobRecord JobId Time}
    (h : Ended str id ls succeeded r) {start finish : Time} (started : r.startedAt = some start)
    (finished : r.finishedAt = some finish) : start ≤ finish := by
  cases h with
  | gathered _ _ _ told | gatherFailed _ _ _ _ _ told =>
    cases started
    cases finished
    have ordered := clock.told told
    exact (List.pairwise_cons.mp ordered).1 finish List.mem_cons_self
  | notifyFailed _ _ _ _ _ told =>
    cases started
    cases finished
    have ordered := clock.told told
    exact (List.pairwise_cons.mp ordered).1 finish (List.mem_cons_of_mem _ List.mem_cons_self)
  | slept _ _ _ _ told | sleepFailed _ _ _ _ _ _ told =>
    cases started
    cases finished
    have ordered := (List.pairwise_cons.mp (clock.told told)).2
    exact (List.pairwise_cons.mp ordered).1 finish List.mem_cons_self
  | gatherPassed | sleepPassed => cases finished

/-- No job is finished before it has started, on a clock that never goes back. -/
theorem started_before_finished [DecidableEq JobId] [DecidableEq Ws] (str : Str Payload)
    {ls : List (Label JobId Ws Payload Time)} {s : State JobId Ws Payload Time}
    (run : Runs (step str) initial ls s) (clock : ClockForward ls) (id : JobId)
    (r : JobRecord JobId Time) (found : s.jobs id = some r) (start finish : Time)
    (started : r.startedAt = some start) (finished : r.finishedAt = some finish) :
    start ≤ finish := by
  have recorded := record_told str run id
  rw [found] at recorded
  generalize s.runners id = runner at recorded
  cases recorded with
  | broadcasting payload _ _ position ws dead told =>
    cases started
    cases finished
    have ordered := clock.told told
    exact (List.pairwise_cons.mp ordered).1 finish List.mem_cons_self
  | ended succeeded _ h => exact h.times clock started finished
  | queued | starting => cases started
  | gathering | sleeping => cases finished

end Clock

section Notices
variable [DecidableEq JobId] [DecidableEq Ws] {str : Str Payload}
  {ls : List (Label JobId Ws Payload Time)} {s : State JobId Ws Payload Time}

/-- A connection has been passed the message of the job. -/
def Notified (ls : List (Label JobId Ws Payload Time)) (s : State JobId Ws Payload Time)
    (id : JobId) : Prop :=
  (∃ position ws dead, s.runners id = some (.broadcasting position ws dead)) ∨
    ∃ outcome now, .sendEnds id outcome now ∈ ls

def Answered (job : Option (JobRecord JobId Time)) : Prop :=
  ∃ r, job = some r ∧ JobStatus.Terminal r.status ∧ r.result ≠ none ∧ r.finishedAt ≠ none

def Broadcast (runner : Option (Runner Ws Payload)) : Prop :=
  (∃ position ws dead, runner = some (.broadcasting position ws dead)) ∨
    runner = some (.ended true)

theorem broadcastWs_runner (str : Str Payload) (s : State JobId Ws Payload Time) (id : JobId)
    (position : ℕ) (dead : List Ws) (now : Time) :
    Broadcast ((s.broadcastWs str id position dead now).runners id) := by
  rw [State.broadcastWs]
  split
  · rw [moveRunner_runners]
    exact Or.inl ⟨_, _, _, rfl⟩
  · split
    · rw [moveRunner_runners]
      exact Or.inr rfl
    · exact Or.inr (jobRaised_cases str _ id true _ now).1

omit [DecidableEq JobId] [DecidableEq Ws] in
theorem Recorded.answered {id : JobId} {runner : Option (Runner Ws Payload)}
    {job : Option (JobRecord JobId Time)} (h : Recorded str id ls runner job)
    (begun : Broadcast runner) : Answered job := by
  cases h with
  | broadcasting => exact ⟨_, rfl, Or.inl rfl, Option.some_ne_none _, Option.some_ne_none _⟩
  | ended succeeded r ended =>
    rcases begun with ⟨_, _, _, ⟨⟩⟩ | ⟨⟨⟩⟩
    cases ended with
    | gathered | slept =>
      exact ⟨_, rfl, Or.inl rfl, Option.some_ne_none _, Option.some_ne_none _⟩
    | notifyFailed =>
      exact ⟨_, rfl, Or.inr rfl, Option.some_ne_none _, Option.some_ne_none _⟩
  | absent | queued | gathering | starting | sleeping => rcases begun with ⟨_, _, _, ⟨⟩⟩ | ⟨⟨⟩⟩

/-- After a send of its message a job's runner never leaves the broadcast again. -/
def SendsBroadcast (ls : List (Label JobId Ws Payload Time)) (s : State JobId Ws Payload Time) :
    Prop :=
  ∀ id outcome now, .sendEnds id outcome now ∈ ls → Broadcast (s.runners id)

theorem stepJob_broadcast {u : State JobId Ws Payload Time} {id : JobId} {runner : Runner Ws Payload}
    {l : Label JobId Ws Payload Time} (hs : stepJob str s id runner l = some u)
    (begun : Broadcast (some runner) ∨ ∃ outcome now, l = .sendEnds id outcome now) :
    Broadcast (u.runners id) := by
  cases stepJob_move hs with
  | sent => exact broadcastWs_runner str s id _ _ _
  | sendRaised => exact Or.inr (jobRaised_cases str s id true _ _).1
  | begins | admitted | stamped | gathered | gatherRaised | slept | sleepRaised =>
    rcases begun with (⟨_, _, _, ⟨⟩⟩ | ⟨⟨⟩⟩) | ⟨_, _, ⟨⟩⟩

theorem sendsBroadcast_step {u : State JobId Ws Payload Time} {l : Label JobId Ws Payload Time}
    (told : Told str ls s) (sends : SendsBroadcast ls s) (hs : step str s l = some u) :
    SendsBroadcast (ls ++ [l]) u := by
  intro id outcome now mem
  rcases step_cases hs with ⟨k, payload, sync, rfl, fresh, rfl⟩ | ⟨k, runner, own, at_k, moved⟩ |
      ⟨own, -, runners⟩
  · have old : .sendEnds id outcome now ∈ ls := by
      rcases List.mem_append.mp mem with old | new
      · exact old
      · cases List.mem_singleton.mp new
    have begun := sends id outcome now old
    have other : id ≠ k := by
      rintro rfl
      obtain ⟨r, found, -⟩ := (told id).answered begun
      rw [fresh] at found
      cases found
    rw [((onlyJob_submit payload sync : OnlyJob k s _) id other).2]
    exact begun
  · by_cases here : id = k
    · subst here
      refine stepJob_broadcast moved ?_
      rcases List.mem_append.mp mem with old | new
      · rw [← at_k]
        exact Or.inl (sends id outcome now old)
      · exact Or.inr ⟨outcome, now, (List.mem_singleton.mp new).symm⟩
    · rw [(stepJob_onlyJob moved id here).2]
      rcases List.mem_append.mp mem with old | new
      · exact sends id outcome now old
      · cases List.mem_singleton.mp new
        cases own
        exact absurd rfl here
  · rw [runners]
    rcases List.mem_append.mp mem with old | new
    · exact sends id outcome now old
    · cases List.mem_singleton.mp new
      cases own

/-- No notice is premature: once a connection has been passed a job's message, every later
state has the job done or failed, with its result and its time. -/
theorem notified_answered (str : Str Payload) {ls : List (Label JobId Ws Payload Time)}
    {s : State JobId Ws Payload Time} (run : Runs (step str) initial ls s) (id : JobId)
    (notified : Notified ls s id) : Answered (s.jobs id) := by
  have told := record_told str run id
  rcases notified with sending | ⟨outcome, now, sent⟩
  · exact told.answered (Or.inl sending)
  · have both := run.history (fun ls s => Told str ls s ∧ SendsBroadcast ls s)
      ⟨fun _ => .absent, fun _ _ _ none => absurd none List.not_mem_nil⟩
      (fun _ _ _ _ h hs => ⟨told_step h.1 hs, sendsBroadcast_step h.1 h.2 hs⟩)
    exact told.answered (both.2 id outcome now sent)

end Notices

section Examples

def unitStr : Str Unit := ⟨fun _ => "payload", fun _ => "error"⟩

def twoJobs : List (Label ℕ ℕ Unit ℕ) :=
  [.connect 1, .acceptEnds 1 (.ok ()), .submit 7 () false, .dispatch 7 10, .submit 8 () true,
    .gatherEnds 7 (.ok ()) 11, .dispatch 8 12, .startedAt 8 13, .sendEnds 7 (.ok ()) 14]

theorem twoJobs_told : ∃ s, Runs (step unitStr) initial twoJobs s ∧
    Recorded unitStr 7 twoJobs (s.runners 7) (s.jobs 7) ∧
    s.jobs 7 = some ⟨7, .done, some (.gathered "fetched:payload" 7), some 10, some 11⟩ := by
  obtain ⟨s, run, job⟩ : ∃ s, Runs (step unitStr) initial twoJobs s ∧
      s.jobs 7 = some ⟨7, .done, some (.gathered "fetched:payload" 7), some 10, some 11⟩ :=
    ⟨_, Runs.of_execute rfl, rfl⟩
  exact ⟨s, run, record_told unitStr run 7, job⟩

theorem twoJobs_ordered : ∃ s r, Runs (step unitStr) initial twoJobs s ∧ s.jobs 7 = some r ∧
    r.startedAt = some 10 ∧ r.finishedAt = some 11 ∧ 10 ≤ 11 := by
  obtain ⟨s, run, job⟩ : ∃ s, Runs (step unitStr) initial twoJobs s ∧
      s.jobs 7 = some ⟨7, .done, some (.gathered "fetched:payload" 7), some 10, some 11⟩ :=
    ⟨_, Runs.of_execute rfl, rfl⟩
  have clock : ClockForward twoJobs := by
    change [10, 11, 12, 13, 14].Pairwise (· ≤ ·)
    decide
  exact ⟨s, _, run, job, rfl, rfl,
    started_before_finished unitStr run clock 7 _ job 10 11 rfl rfl⟩

theorem twoJobs_answered : ∃ s, Runs (step unitStr) initial twoJobs s ∧ Answered (s.jobs 7) := by
  obtain ⟨s, run⟩ : ∃ s, Runs (step unitStr) initial twoJobs s := ⟨_, Runs.of_execute rfl⟩
  exact ⟨s, run, notified_answered unitStr run 7
    (Or.inr ⟨.ok (), 14, by simp [twoJobs]⟩)⟩

end Examples

end FastapiProject.JobHistory
