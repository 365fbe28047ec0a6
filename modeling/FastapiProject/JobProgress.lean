import FastapiProject.ActiveConnections
import FastapiProject.JobHistory
import FastapiProject.MachineProgress

set_option autoImplicit false

/-!
# Every job comes to its end

A job waits for no other job and for no endpoint. Its broadcast goes by position over a
list that others change meanwhile: removals can only shorten it, and each client that
connects can make it longer by one send.
-/
namespace FastapiProject.JobProgress
open PythonExceptions MachineRuns MachineProgress JobStore ActiveConnections
open JobHistory (Recorded Told jobRaised_cases told_step)

variable {JobId Ws Payload Time : Type}

/-- The awaits that a job has before it, if nobody connects meanwhile. -/
def awaitsLeft (connections : ℕ) : Runner Ws Payload → ℕ
  | .queued _ _ => connections + 3
  | .gathering _ => connections + 2
  | .broadcasting position _ _ => connections - position + 1
  | .starting _ => 2
  | .sleeping _ => 1
  | .ended _ => 0

def left (id : JobId) (s : State JobId Ws Payload Time) : ℕ :=
  match s.runners id with
  | some r => awaitsLeft s.activeConnections.length r
  | none => 0

def joins : Label JobId Ws Payload Time → Bool
  | .acceptEnds _ (.ok ()) => true
  | _ => false

variable [DecidableEq JobId]

def ofJob (id : JobId) (l : Label JobId Ws Payload Time) : Bool := l.job? == some id

def Own (id : JobId) (_ : State JobId Ws Payload Time) (l : Label JobId Ws Payload Time)
    (_ : State JobId Ws Payload Time) : Prop := ofJob id l = true

def Ended (id : JobId) (s : State JobId Ws Payload Time) : Prop :=
  ∃ succeeded, s.runners id = some (.ended succeeded)

section Measure
variable {s u : State JobId Ws Payload Time} {id : JobId} {r : Runner Ws Payload}

omit [DecidableEq JobId] in
theorem left_of (at_id : s.runners id = some r) :
    left id s = awaitsLeft s.activeConnections.length r := by
  rw [left, at_id]

theorem left_moveRunner (s : State JobId Ws Payload Time) (id : JobId) (r : Runner Ws Payload) :
    left id (s.moveRunner id r) = awaitsLeft s.activeConnections.length r :=
  left_of (moveRunner_runners s id r)

theorem left_jobRaised (str : Str Payload) (s : State JobId Ws Payload Time) (id : JobId)
    (succeeded : Bool) (e : Exn) (now : Time) : left id (s.jobRaised str id succeeded e now) = 0 :=
  left_of (jobRaised_cases str s id succeeded e now).1

theorem awaitsLeft_le {n m k : ℕ} (le : n ≤ m + k) (r : Runner Ws Payload) :
    awaitsLeft n r ≤ awaitsLeft m r + k := by
  cases r with
  | queued _ _ | gathering _ | broadcasting _ _ _ =>
    simp only [awaitsLeft]
    omega
  | starting _ | sleeping _ | ended _ => exact Nat.le_add_right _ k

omit [DecidableEq JobId] in
theorem awaitsLeft_bound (connections : ℕ) (r : Runner Ws Payload) :
    awaitsLeft connections r ≤ connections + 3 := by
  cases r with
  | queued _ _ | gathering _ | broadcasting _ _ _ | starting _ | sleeping _ | ended _ =>
    simp only [awaitsLeft]
    omega

variable [DecidableEq Ws]

theorem left_broadcastWs (str : Str Payload) (s : State JobId Ws Payload Time) (id : JobId)
    (position : ℕ) (dead : List Ws) (now : Time) :
    left id (s.broadcastWs str id position dead now) ≤ s.activeConnections.length - position := by
  unfold State.broadcastWs
  split
  · rename_i ws found
    have inside := (List.getElem?_eq_some_iff.mp found).1
    rw [left_moveRunner, awaitsLeft]
    omega
  · split
    · rw [left_moveRunner]
      exact Nat.zero_le _
    · rw [left_jobRaised]
      exact Nat.zero_le _

end Measure

section Steps
variable [DecidableEq Ws] {str : Str Payload} {s u : State JobId Ws Payload Time} {id : JobId}
  {l : Label JobId Ws Payload Time}

theorem stepJob_left {r : Runner Ws Payload} (at_id : s.runners id = some r)
    (hs : stepJob str s id r l = some u) : left id u < left id s := by
  rw [left_of at_id]
  cases stepJob_move hs with
  | begins _ payload now =>
    rw [left_moveRunner]
    exact Nat.lt_succ_self _
  | admitted _ payload now =>
    rw [left_moveRunner]
    exact Nat.lt_of_lt_of_le (Nat.lt_succ_self 2) (Nat.le_add_left _ _)
  | stamped _ payload now =>
    rw [left_moveRunner]
    exact Nat.lt_succ_self 1
  | gathered _ payload now =>
    refine Nat.lt_of_le_of_lt (left_broadcastWs str _ id 0 [] now) ?_
    exact Nat.lt_of_lt_of_le (Nat.lt_succ_self _) (Nat.le_succ _)
  | sent _ position ws dead outcome now _ =>
    exact Nat.lt_succ_of_le (left_broadcastWs str s id position _ now)
  | gatherRaised _ payload e now | sendRaised _ position ws dead e now _
  | sleepRaised _ payload e now =>
    rw [left_jobRaised]
    exact Nat.succ_pos _
  | slept _ payload now =>
    rw [left_moveRunner]
    exact Nat.succ_pos 0

theorem own_stepJob (own : ofJob id l = true) (hs : step str s l = some u) :
    ∃ r, s.runners id = some r ∧ stepJob str s id r l = some u := by
  cases l with
  | dispatch k _ | startedAt k _ | gatherEnds k _ _ | sendEnds k _ _ | sleepEnds k _ _ =>
    cases of_decide_eq_true own
    exact Option.bind_eq_some_iff.mp hs
  | _ => cases own

theorem own_lowers (str : Str Payload) (id : JobId) :
    Lowers (step str) (Own id) (left id : State JobId Ws Payload Time → ℕ) := by
  intro s l u hs own
  obtain ⟨r, at_id, moved⟩ := own_stepJob own hs
  exact stepJob_left at_id moved

omit [DecidableEq Ws] in
theorem jobMoves_other {k : JobId} {r : Runner Ws Payload} (moves : JobMoves s k r u)
    (other : k ≠ id) : u.runners id = s.runners id := by
  rw [moves.runners]
  exact Function.update_of_ne (Ne.symm other) _ _

theorem step_known (hs : ConnectionStep s l u) (known : s.jobs id ≠ none) :
    u.jobs id ≠ none ∧ (ofJob id l = false → u.runners id = s.runners id) := by
  have other {k : JobId} (own : l.job? = some k) (not : ofJob id l = false) : k ≠ id := by
    rintro rfl
    rw [ofJob, own, beq_self_eq_true] at not
    cases not
  have stays {k : JobId} {r : Runner Ws Payload} (moves : JobMoves s k r u) : u.jobs id ≠ none :=
    fun gone => known ((moves.jobs id).mp gone)
  cases hs with
  | @submits k payload sync fresh =>
    have other : id ≠ k := by
      rintro rfl
      exact known fresh
    refine ⟨?_, fun _ => Function.update_of_ne other _ _⟩
    change Function.update s.jobs k _ id ≠ none
    rw [Function.update_of_ne other]
    exact known
  | works own _ _ _ _ moves _ =>
    exact ⟨stays moves, fun not => jobMoves_other moves (other own not)⟩
  | sends head _ moves _ | cleans head _ moves _ =>
    exact ⟨stays moves, fun not => jobMoves_other moves (other head.job? not)⟩
  | abandons _ _ moves _ => exact ⟨stays moves, fun not => jobMoves_other moves (other rfl not)⟩
  | connects _ | refused _ | joins _ | echoes _ _ _ | leaves _ _ _ | breaks _ _ _ =>
    exact ⟨known, fun _ => rfl⟩

theorem step_connections (hs : ConnectionStep s l u) :
    u.activeConnections.length ≤ s.activeConnections.length + if joins l = true then 1 else 0 := by
  have kept (connections : u.activeConnections.Sublist s.activeConnections) :
      u.activeConnections.length ≤ s.activeConnections.length + if joins l = true then 1 else 0 :=
    Nat.le_add_right_of_le connections.length_le
  cases hs with
  | submits _ | connects _ | refused _ | echoes _ _ _ | breaks _ _ _ =>
    exact kept (List.Sublist.refl _)
  | works _ _ _ _ _ _ connections | sends _ _ _ connections | abandons _ _ _ connections =>
    exact kept (connections ▸ List.Sublist.refl _)
  | cleans _ _ _ connections => exact kept (connections ▸ removeEach_sublist _ _)
  | leaves _ _ _ => exact kept List.erase_sublist
  | @joins ws _ =>
    change (s.activeConnections ++ [ws]).length ≤ s.activeConnections.length + 1
    exact Nat.le_of_eq List.length_append

/-- The awaits left to a job go down with each of its own, and up at most when a client
joins. -/
theorem left_step (known : s.jobs id ≠ none) (hs : step str s l = some u) :
    left id u + (if ofJob id l = true then 1 else 0) ≤
      left id s + if joins l = true then 1 else 0 := by
  cases own : ofJob id l with
  | true =>
    have less := own_lowers str id s l u hs own
    exact Nat.le_add_right_of_le less
  | false =>
    have moves := step_connectionStep hs
    have same := (step_known moves known).2 own
    have length := step_connections moves
    unfold left
    rw [same]
    cases s.runners id with
    | none => exact Nat.zero_le _
    | some r => exact awaitsLeft_le length r

end Steps

section Completion
variable [DecidableEq Ws] {str : Str Payload} {s u : State JobId Ws Payload Time} {id : JobId}
  {before ls : List (Label JobId Ws Payload Time)}

theorem submitted_runner (start : Runs (step str) initial before s) (known : s.jobs id ≠ none) :
    ∃ r, s.runners id = some r := by
  have told : Told str before s :=
    start.history (Told str) (fun _ => .absent) (fun _ _ _ _ told hs => told_step told hs)
  have recorded := told id
  cases runner : s.runners id with
  | some r => exact ⟨r, rfl⟩
  | none =>
    rw [runner] at recorded
    cases job : s.jobs id with
    | none => exact absurd job known
    | some record =>
      rw [job] at recorded
      cases recorded

theorem job_moves [Nonempty Time] (str : Str Payload) {r : Runner Ws Payload}
    (at_id : s.runners id = some r) (live : ∀ succeeded, r ≠ .ended succeeded) :
    ∃ l u, step str s l = some u ∧ ofJob id l = true := by
  obtain ⟨now⟩ := ‹Nonempty Time›
  have own : (some id == some id) = true := beq_self_eq_true _
  cases r with
  | queued payload sync =>
    cases sync with
    | false => exact ⟨.dispatch id now, _, by rw [step, at_id]; rfl, own⟩
    | true => exact ⟨.dispatch id now, _, by rw [step, at_id]; rfl, own⟩
  | gathering payload => exact ⟨.gatherEnds id (.ok ()) now, _, by rw [step, at_id]; rfl, own⟩
  | broadcasting position ws dead =>
    exact ⟨.sendEnds id (.ok ()) now, _, by rw [step, at_id]; rfl, own⟩
  | starting payload => exact ⟨.startedAt id now, _, by rw [step, at_id]; rfl, own⟩
  | sleeping payload => exact ⟨.sleepEnds id (.ok ()) now, _, by rw [step, at_id]; rfl, own⟩
  | ended succeeded => exact absurd rfl (live succeeded)

theorem halted_ended [Nonempty Time] {r : Runner Ws Payload} (at_id : s.runners id = some r)
    (halted : Halted (step str) (Own id) s) : Ended id s := by
  by_contra going
  obtain ⟨l, u, moved, own⟩ := job_moves str at_id (by
    rintro succeeded rfl
    exact going ⟨succeeded, at_id⟩)
  exact halted l u moved own

theorem ended_halted (ended : Ended id s) : Halted (step str) (Own id) s := by
  obtain ⟨succeeded, at_id⟩ := ended
  intro l u hs own
  obtain ⟨r, found, moved⟩ := own_stepJob own hs
  rw [at_id] at found
  cases found
  cases stepJob_move moved

/-- Every submitted job comes to its end, whatever the other jobs and the endpoints do
meanwhile. Only clients that connect can add to the awaits it has before it, one each, and
its end is the only place where it stops. -/
theorem jobs_complete [Nonempty Time] (start : Runs (step str) initial before s)
    (known : s.jobs id ≠ none) (run : Runs (step str) s ls u) :
    ls.countP (ofJob id) ≤ s.activeConnections.length + 3 + ls.countP joins ∧
      (Halted (step str) (Own id) u ↔ Ended id u) ∧
      ∃ ms v, Along (step str) (Own id) u ms v ∧ Ended id v := by
  have still {v : State JobId Ws Payload Time} {ms : List (Label JobId Ws Payload Time)}
      (run : Runs (step str) s ms v) : ∃ r, v.runners id = some r := by
    refine submitted_runner (start.append run) ?_
    exact run.invariant (fun s => s.jobs id ≠ none) known
      (fun _ _ _ known hs => (step_known (step_connectionStep hs) known).1)
  obtain ⟨r, at_id⟩ := still run
  refine ⟨?_, ⟨halted_ended at_id, ended_halted⟩, ?_⟩
  · have kept : Along (step str) (fun s _ _ => s.jobs id ≠ none) s ls u :=
      run.imp_of_invariant (fun s => s.jobs id ≠ none) known
        (fun _ _ _ known hs _ => (step_known (step_connectionStep hs) known).1)
        (fun _ _ _ known _ _ => known)
    have balance (s : State JobId Ws Payload Time) (l : Label JobId Ws Payload Time)
        (u : State JobId Ws Payload Time) (hs : step str s l = some u) (known : s.jobs id ≠ none) :
        left id u + (if ofJob id l = true then 1 else 0) ≤
          left id s + 1 * if joins l = true then 1 else 0 := by
      rw [Nat.one_mul]
      exact left_step known hs
    have count := countP_le_countP (ofJob id) joins 1 balance kept
    obtain ⟨r, at_id⟩ := still (.nil s)
    have bound := awaitsLeft_bound s.activeConnections.length r
    rw [left_of at_id] at count
    omega
  · obtain ⟨ms, v, onward, halted⟩ := (own_lowers str id).exists_halted u
    obtain ⟨r, at_id⟩ := still (run.append onward.runs)
    exact ⟨ms, v, onward, halted_ended at_id halted⟩

end Completion

section Examples

def unitStr : Str Unit := ⟨fun _ => "payload", fun _ => "error"⟩

def untilDispatched : List (Label ℕ ℕ Unit ℕ) :=
  [.connect 0, .acceptEnds 0 (.ok ()), .submit 5 () false, .dispatch 5 10]

def joinedMeanwhile : List (Label ℕ ℕ Unit ℕ) :=
  [.gatherEnds 5 (.ok ()) 11, .connect 1, .acceptEnds 1 (.ok ()), .sendEnds 5 (.ok ()) 12,
    .sendEnds 5 (.ok ()) 13]

theorem joinedMeanwhile_completes : ∃ s u, Runs (step unitStr) initial untilDispatched s ∧
    Runs (step unitStr) s joinedMeanwhile u ∧ Ended 5 u ∧ Halted (step unitStr) (Own 5) u ∧
    joinedMeanwhile.countP (ofJob 5) ≤ 1 + 3 + joinedMeanwhile.countP joins := by
  obtain ⟨s, u, start, known, one, run, ended⟩ : ∃ s u,
      Runs (step unitStr) initial untilDispatched s ∧ s.jobs 5 ≠ none ∧
        s.activeConnections.length = 1 ∧ Runs (step unitStr) s joinedMeanwhile u ∧ Ended 5 u :=
    ⟨_, _, Runs.of_execute rfl, by rintro ⟨⟩, rfl, Runs.of_execute rfl, true, rfl⟩
  obtain ⟨bound, halted, -⟩ := jobs_complete start known run
  rw [one] at bound
  exact ⟨s, u, start, run, ended, halted.mpr ended, bound⟩

end Examples

end FastapiProject.JobProgress
