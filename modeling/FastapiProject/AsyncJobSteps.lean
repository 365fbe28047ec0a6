import FastapiProject.AsyncioGather
import FastapiProject.JobHistory

set_option autoImplicit false

/-!
# The two steps of an async job

`_async_job` down to the tasks that `asyncio.gather` makes of `_step_fetch_data` and
`_step_compute`: they end in either order, in between whatever else happens, and the job
reads its result off the future. `JobStore`, where the whole gather is one await, is shown
to be this system with the ends of the steps left out.
-/
namespace FastapiProject.AsyncJobSteps
open PythonExceptions MachineRuns JobStoreTerminal JobHistory AsyncioGather
open JobStore (Str Runner)

variable {JobId Ws Payload Time : Type}

inductive StepResult where
  | fetch (text : String)
  | compute (length : ℕ)
  deriving DecidableEq, Repr

/-- `gathers` holds the payload and the future of each job that has come to its gather. -/
structure State (JobId Ws Payload Time : Type) where
  store : JobStore.State JobId Ws Payload Time
  gathers : JobId → Option (Payload × Gather Exn StepResult)

def initial : State JobId Ws Payload Time := ⟨JobStore.initial, fun _ => none⟩

inductive Label (JobId Ws Payload Time : Type) where
  | store (l : JobStore.Label JobId Ws Payload Time)
  | stepEnds (id : JobId) (i : ℕ) (outcome : Except Exn Unit)

def Label.store? : Label JobId Ws Payload Time → Option (JobStore.Label JobId Ws Payload Time)
  | .store l => some l
  | .stepEnds _ _ _ => none

def project (ls : List (Label JobId Ws Payload Time)) : List (JobStore.Label JobId Ws Payload Time) :=
  ls.filterMap Label.store?

def stepReturn (str : Str Payload) (payload : Payload) : ℕ → StepResult
  | 0 => .fetch (JobStore.stepFetchData str payload)
  | _ => .compute (JobStore.stepCompute str payload)

def stepOutcome (str : Str Payload) (payload : Payload) (i : ℕ) :
    Except Exn Unit → Except Exn StepResult
  | .ok () => .ok (stepReturn str payload i)
  | .error e => .error e

/-- `result_a, result_b = ..` and the dict made of the two. -/
def unpackResults : List (Except Exn StepResult) → Option JobStore.JobResult
  | [.ok (.fetch a), .ok (.compute b)] => some (.gathered a b)
  | _ => none

section Step
variable [DecidableEq JobId] [DecidableEq Ws] (str : Str Payload)

/-- `_async_job` from its gather, when the future is done. A cancellation that comes only
then is raised in place of the result. -/
def gatherReturns (store : JobStore.State JobId Ws Payload Time) (id : JobId) (now : Time)
    (result : Except Exn (List (Except Exn StepResult))) :
    Except Exn Unit → Option (JobStore.State JobId Ws Payload Time)
  | .ok () =>
    match result with
    | .ok rs => (unpackResults rs).map fun result =>
        (store.finishJob id .done result now).broadcastWs str id 0 [] now
    | .error _ => none
  | .error e =>
    if result = .error e ∨ e = .cancelledError then some (store.jobRaised str id false e now)
    else none

/-- An async job that is dispatched makes its tasks and waits for their future. -/
def startGather (s : State JobId Ws Payload Time) :
    JobStore.Label JobId Ws Payload Time → JobId → Option (Payload × Gather Exn StepResult)
  | .dispatch id _ =>
    match s.store.runners id with
    | some (.queued payload false) =>
      Function.update s.gathers id (some (payload, Gather.start false 2))
    | _ => s.gathers
  | _ => s.gathers

def stepStore (s : State JobId Ws Payload Time) (l : JobStore.Label JobId Ws Payload Time) :
    Option (JobStore.State JobId Ws Payload Time) :=
  match l with
  | .gatherEnds id outcome now =>
    match s.store.runners id, s.gathers id with
    | some (.gathering _), some (_, g) =>
      g.outer.bind fun result => gatherReturns str s.store id now result outcome
    | _, _ => none
  | _ => JobStore.step str s.store l

def step (s : State JobId Ws Payload Time) :
    Label JobId Ws Payload Time → Option (State JobId Ws Payload Time)
  | .store l => (stepStore str s l).map fun store => ⟨store, startGather s l⟩
  | .stepEnds id i outcome =>
    match s.gathers id with
    | some (payload, g) => (g.childEnds (i, stepOutcome str payload i outcome)).map fun g =>
        { s with gathers := Function.update s.gathers id (some (payload, g)) }
    | none => none

end Step

section Results
variable {str : Str Payload} {payload : Payload} {ends : List (ℕ × Except Exn Unit)}
  {g : Gather Exn StepResult}

def returned (str : Str Payload) (payload : Payload) (ends : List (ℕ × Except Exn Unit)) :
    List (ℕ × Except Exn StepResult) :=
  ends.map fun l => (l.1, stepOutcome str payload l.1 l.2)

theorem raised_stepOutcome (i : ℕ) (outcome : Except Exn Unit) :
    Gather.raised false (stepOutcome str payload i outcome) = Gather.raised false outcome := by
  cases outcome <;> rfl

theorem firstRaised_returned (ends : List (ℕ × Except Exn Unit)) :
    Gather.firstRaised false (returned str payload ends) = Gather.firstRaised false ends := by
  rw [Gather.firstRaised, returned, List.findSome?_map, Gather.firstRaised]
  exact congrArg (fun f => ends.findSome? f) (funext fun l => raised_stepOutcome l.1 l.2)

theorem ok_of_unraised {outcome : Except Exn Unit} (quiet : Gather.raised false outcome = none) :
    outcome = .ok () := by
  cases outcome with
  | ok _ => rfl
  | error e => cases quiet

/-- Whichever step ends first, the future's results are those of fetch and compute. -/
theorem gathered_results (after : Gather.After false 2 (returned str payload ends) g)
    {rs : List (Except Exn StepResult)} (done : g.outer = some (.ok rs)) :
    unpackResults rs = some (gatheredResult str payload) ∧ ends.length = 2 ∧
      ∀ l ∈ ends, l.2 = .ok () := by
  obtain ⟨all, quiet⟩ := after.done done
  have unraised (l : ℕ × Except Exn Unit) (mem : l ∈ ends) : l.2 = .ok () := by
    have silent := quiet _ (List.mem_map_of_mem mem)
    rw [raised_stepOutcome] at silent
    exact ok_of_unraised silent
  have returns := after.returns (fun i => .ok (stepReturn str payload i)) (fun l mem => ?_)
    (fun _ _ => rfl) all
  · rw [done] at returns
    cases returns
    exact ⟨rfl, (List.length_map _).symm.trans all, unraised⟩
  · obtain ⟨k, ended, rfl⟩ := List.mem_map.mp mem
    rw [unraised k ended]
    rfl

theorem gathered_raised (after : Gather.After false 2 (returned str payload ends) g) {e : Exn}
    (failed : g.outer = some (.error e)) : Gather.firstRaised false ends = some e := by
  have outer := after.outer
  rw [failed, firstRaised_returned] at outer
  cases first : Gather.firstRaised false ends with
  | some e' =>
    rw [first] at outer
    cases outer
    rfl
  | none =>
    rw [first] at outer
    obtain ⟨_, -, impossible⟩ := Option.map_eq_some_iff.mp outer.symm
    cases impossible

end Results

section Refinement
variable [DecidableEq JobId] [DecidableEq Ws] {str : Str Payload}

theorem broadcastWs_runner (str : Str Payload) (s : JobStore.State JobId Ws Payload Time) (id : JobId)
    (position : ℕ) (dead : List Ws) (now : Time) :
    (∃ ws, (s.broadcastWs str id position dead now).runners id =
      some (.broadcasting (position + 1) ws dead)) ∨
    (s.broadcastWs str id position dead now).runners id = some (.ended true) := by
  rw [JobStore.State.broadcastWs]
  split
  · rename_i ws _
    exact .inl ⟨ws, JobStore.moveRunner_runners _ id _⟩
  · split
    · exact .inr (JobStore.moveRunner_runners _ id _)
    · exact .inr (jobRaised_cases str _ id _ _ now).1

theorem resumed_runner {s u : JobStore.State JobId Ws Payload Time} {id : JobId}
    {r : Runner Ws Payload} {l : JobStore.Label JobId Ws Payload Time}
    (hs : JobStore.stepJob str s id r l = some u) :
    ∃ r', u.runners id = some r' ∧ (∀ payload sync, r' ≠ .queued payload sync) ∧
      ∀ payload, r' = .gathering payload → r = .queued payload false ∧ ∃ k now, l = .dispatch k now := by
  have sends (v : JobStore.State JobId Ws Payload Time) (position : ℕ) (dead : List Ws) (now : Time)
      (same : u = v.broadcastWs str id position dead now) :
      ∃ r', u.runners id = some r' ∧ (∀ payload sync, r' ≠ .queued payload sync) ∧
        ∀ payload, r' = .gathering payload →
          r = .queued payload false ∧ ∃ k now, l = .dispatch k now := by
    rw [same]
    rcases broadcastWs_runner str v id position dead now with ⟨ws, here⟩ | here <;>
      exact ⟨_, here, by rintro _ _ ⟨⟩, by rintro _ ⟨⟩⟩
  cases JobStore.stepJob_move hs with
  | begins k payload now =>
    refine ⟨_, JobStore.moveRunner_runners _ id _, by rintro _ _ ⟨⟩, ?_⟩
    rintro _ ⟨⟩
    exact ⟨rfl, k, now, rfl⟩
  | gathered k payload now => exact sends _ _ _ now rfl
  | sent k position ws dead outcome now caught => exact sends _ _ _ now rfl
  | admitted k payload now | stamped k payload now | slept k payload now =>
    exact ⟨_, JobStore.moveRunner_runners _ id _, by rintro _ _ ⟨⟩, by rintro _ ⟨⟩⟩
  | gatherRaised k payload e now | sendRaised k position ws dead e now fatal
  | sleepRaised k payload e now =>
    exact ⟨_, (jobRaised_cases str _ id _ _ now).1, by rintro _ _ ⟨⟩, by rintro _ ⟨⟩⟩

theorem gathering_from {s u : JobStore.State JobId Ws Payload Time}
    {l : JobStore.Label JobId Ws Payload Time} (hs : JobStore.step str s l = some u) {id : JobId}
    {payload : Payload} (gathering : u.runners id = some (.gathering payload)) :
    (s.runners id = some (.gathering payload) ∧ l.job? ≠ some id) ∨
      (∃ now, l = .dispatch id now) ∧ s.runners id = some (.queued payload false) := by
  rcases JobStore.step_cases hs with ⟨k, payload', sync, rfl, -, rfl⟩ | ⟨k, r, own, at_k, moved⟩ |
    ⟨own, -, runners⟩
  · by_cases same : id = k
    · subst same
      cases (JobStore.moveRunner_runners _ id _).symm.trans gathering
    · rw [(onlyJob_submit payload' sync id same).2] at gathering
      exact .inl ⟨gathering, by rintro ⟨⟩⟩
  · by_cases same : id = k
    · subst same
      obtain ⟨r', here, -, dispatched⟩ := resumed_runner moved
      obtain ⟨rfl, k, now, rfl⟩ := dispatched payload (Option.some.inj (here.symm.trans gathering))
      cases own
      exact .inr ⟨⟨now, rfl⟩, at_k⟩
    · rw [(stepJob_onlyJob moved id same).2] at gathering
      refine .inl ⟨gathering, fun other => same ?_⟩
      exact Option.some.inj (other.symm.trans own)
  · rw [runners] at gathering
    exact .inl ⟨gathering, by rw [own]; rintro ⟨⟩⟩

omit [DecidableEq Ws] in
theorem startGather_cases (s : State JobId Ws Payload Time)
    (l : JobStore.Label JobId Ws Payload Time) : startGather s l = s.gathers ∨
      ∃ id now payload, l = .dispatch id now ∧
        startGather s l = Function.update s.gathers id (some (payload, Gather.start false 2)) := by
  cases l with
  | dispatch k now =>
    cases here : s.store.runners k with
    | none => exact .inl (by simp only [startGather, here])
    | some r =>
      cases r with
      | queued payload sync =>
        cases sync with
        | true => exact .inl (by simp only [startGather, here])
        | false => exact .inr ⟨k, now, payload, rfl, by simp only [startGather, here]⟩
      | _ => exact .inl (by simp only [startGather, here])
  | _ => exact .inl rfl

omit [DecidableEq Ws] in
theorem startGather_other {s : State JobId Ws Payload Time} {id : JobId}
    {l : JobStore.Label JobId Ws Payload Time} (other : l.job? ≠ some id) :
    startGather s l id = s.gathers id := by
  rcases startGather_cases s l with same | ⟨k, now, payload, rfl, started⟩
  · rw [same]
  · have ne : id ≠ k := by
      rintro rfl
      exact other rfl
    rw [started, Function.update_of_ne ne]

omit [DecidableEq Ws] in
theorem startGather_none {s : State JobId Ws Payload Time} {id : JobId}
    {l : JobStore.Label JobId Ws Payload Time} (idle : startGather s l id = none) :
    s.gathers id = none := by
  rcases startGather_cases s l with same | ⟨k, now, payload, rfl, started⟩
  · rwa [same] at idle
  · rw [started] at idle
    by_cases own : id = k
    · subst own
      rw [Function.update_self] at idle
      cases idle
    · rwa [Function.update_of_ne own] at idle

def stepEnd (id : JobId) : Label JobId Ws Payload Time → Option (ℕ × Except Exn Unit)
  | .stepEnds k i outcome => if k = id then some (i, outcome) else none
  | .store _ => none

def stepEnds (id : JobId) (ls : List (Label JobId Ws Payload Time)) : List (ℕ × Except Exn Unit) :=
  ls.filterMap (stepEnd id)

section Ends
variable (id : JobId) (ls : List (Label JobId Ws Payload Time))

omit [DecidableEq Ws] in
theorem stepEnds_store (l : JobStore.Label JobId Ws Payload Time) :
    stepEnds id (ls ++ [.store l]) = stepEnds id ls := by
  rw [stepEnds, List.filterMap_append]
  exact List.append_nil _

omit [DecidableEq Ws] in
theorem stepEnds_own (i : ℕ) (outcome : Except Exn Unit) :
    stepEnds id (ls ++ [.stepEnds id i outcome]) = stepEnds id ls ++ [(i, outcome)] := by
  have here : stepEnd id (.stepEnds id i outcome : Label JobId Ws Payload Time) =
      some (i, outcome) := if_pos rfl
  rw [stepEnds, List.filterMap_append, List.filterMap_cons_some here]
  rfl

omit [DecidableEq Ws] in
theorem stepEnds_other {k : JobId} (other : k ≠ id) (i : ℕ) (outcome : Except Exn Unit) :
    stepEnds id (ls ++ [.stepEnds k i outcome]) = stepEnds id ls := by
  have none : stepEnd id (.stepEnds k i outcome : Label JobId Ws Payload Time) = none := if_neg other
  rw [stepEnds, List.filterMap_append, List.filterMap_cons_none none]
  exact List.append_nil _

omit [DecidableEq JobId] [DecidableEq Ws] in
theorem project_store (l : JobStore.Label JobId Ws Payload Time) :
    project (ls ++ [.store l]) = project ls ++ [l] := List.filterMap_append

omit [DecidableEq JobId] [DecidableEq Ws] in
theorem project_stepEnds (i : ℕ) (outcome : Except Exn Unit) :
    project (ls ++ [.stepEnds id i outcome]) = project ls :=
  List.filterMap_append.trans (List.append_nil _)

end Ends

/-- The future of a job at its gather is what the ends of the job's own steps have made of
it, and no step has ended for a job that has not been dispatched. -/
structure Inv (str : Str Payload) (ls : List (Label JobId Ws Payload Time))
    (s : State JobId Ws Payload Time) : Prop where
  told : Told str (project ls) s.store
  gathering : ∀ id payload, s.store.runners id = some (.gathering payload) →
    ∃ g, s.gathers id = some (payload, g) ∧
      Gather.After false 2 (returned str payload (stepEnds id ls)) g
  unstarted : ∀ id, s.gathers id = none → stepEnds id ls = []
  waiting : ∀ id, s.store.runners id = none ∨
    (∃ payload sync, s.store.runners id = some (.queued payload sync)) → s.gathers id = none

variable {s u : State JobId Ws Payload Time} {ls : List (Label JobId Ws Payload Time)}

omit [DecidableEq Ws] in
theorem inv_initial (str : Str Payload) : Inv str [] (initial : State JobId Ws Payload Time) where
  told _ := .absent
  gathering := by rintro _ _ ⟨⟩
  unstarted _ _ := rfl
  waiting _ _ := rfl

theorem Inv.waited (inv : Inv str ls s) {l : JobStore.Label JobId Ws Payload Time}
    {store : JobStore.State JobId Ws Payload Time} (hs : JobStore.step str s.store l = some store)
    {id : JobId} (waits : store.runners id = none ∨
      ∃ payload sync, store.runners id = some (.queued payload sync)) :
    startGather s l id = none := by
  rcases JobStore.step_cases hs with ⟨k, payload, sync, rfl, fresh, rfl⟩ | ⟨k, r, own, -, moved⟩ |
    ⟨own, -, runners⟩
  · change s.gathers id = none
    by_cases same : id = k
    · subst same
      have told := inv.told id
      rw [fresh] at told
      refine inv.waiting id (.inl ?_)
      generalize s.store.runners id = runner at told
      cases told
      rfl
    · rw [(onlyJob_submit payload sync id same).2] at waits
      exact inv.waiting id waits
  · by_cases same : id = k
    · subst same
      obtain ⟨r', here, unqueued, -⟩ := resumed_runner moved
      rcases waits with none | ⟨payload, sync, queued⟩
      · cases here.symm.trans none
      · exact (unqueued payload sync (Option.some.inj (here.symm.trans queued))).elim
    · rw [(stepJob_onlyJob moved id same).2] at waits
      rw [startGather_other (by rw [own]; exact fun there => same (Option.some.inj there).symm)]
      exact inv.waiting id waits
  · rw [runners] at waits
    rw [startGather_other (by rw [own]; rintro ⟨⟩)]
    exact inv.waiting id waits

theorem inv_store (inv : Inv str ls s) {l : JobStore.Label JobId Ws Payload Time}
    {store : JobStore.State JobId Ws Payload Time} (hs : JobStore.step str s.store l = some store) :
    Inv str (ls ++ [.store l]) ⟨store, startGather s l⟩ where
  told := by
    rw [project_store]
    exact told_step inv.told hs
  gathering id payload gathering := by
    rw [stepEnds_store]
    change ∃ g, startGather s l id = _ ∧ _
    rcases gathering_from hs gathering with ⟨before, other⟩ | ⟨⟨now, rfl⟩, queued⟩
    · rw [startGather_other other]
      exact inv.gathering id payload before
    · have first := inv.unstarted id (inv.waiting id (.inr ⟨payload, false, queued⟩))
      refine ⟨Gather.start false 2, ?_, ?_⟩
      · simp only [startGather, queued, Function.update_self]
      · rw [first]
        exact Gather.after_start
  unstarted id idle := by
    rw [stepEnds_store]
    exact inv.unstarted id (startGather_none idle)
  waiting id waits := inv.waited hs waits

theorem inv_stepEnds (inv : Inv str ls s) {id : JobId} {i : ℕ} {outcome : Except Exn Unit}
    (hs : step str s (.stepEnds id i outcome) = some u) :
    Inv str (ls ++ [.stepEnds id i outcome]) u ∧ u.store = s.store := by
  simp only [step] at hs
  split at hs
  · rename_i payload g here
    obtain ⟨g', ends, rfl⟩ := Option.map_eq_some_iff.mp hs
    refine ⟨⟨?_, fun k payload' gathering => ?_, fun k idle => ?_, fun k waits => ?_⟩, rfl⟩
    · rw [project_stepEnds]
      exact inv.told
    · obtain ⟨g₀, there, after⟩ := inv.gathering k payload' gathering
      by_cases same : k = id
      · subst same
        rw [here] at there
        cases there
        refine ⟨g', Function.update_self _ _ _, ?_⟩
        rw [stepEnds_own, returned, List.map_append]
        exact Gather.after_step after ends
      · rw [stepEnds_other k ls (Ne.symm same)]
        exact ⟨g₀, (Function.update_of_ne same _ _).trans there, after⟩
    · change Function.update s.gathers id _ k = none at idle
      by_cases same : k = id
      · subst same
        rw [Function.update_self] at idle
        cases idle
      · rw [Function.update_of_ne same] at idle
        rw [stepEnds_other k ls (Ne.symm same)]
        exact inv.unstarted k idle
    · change Function.update s.gathers id _ k = none
      by_cases same : k = id
      · subst same
        cases here.symm.trans (inv.waiting k waits)
      · rw [Function.update_of_ne same]
        exact inv.waiting k waits
  · cases hs

/-- What the resumed job is told by its gather, and what it writes into its record. -/
def Resumes (str : Str Payload) (ls : List (Label JobId Ws Payload Time)) (id : JobId) (now : Time)
    (job : Option (JobStore.JobRecord JobId Time)) : Except Exn Unit → Prop
  | .ok () => (stepEnds id ls).length = 2 ∧ (∀ l ∈ stepEnds id ls, l.2 = .ok ()) ∧
      ∃ payload start, .store (.submit id payload false) ∈ ls ∧
        job = some ⟨id, .done, some (gatheredResult str payload), some start, some now⟩
  | .error e => (Gather.firstRaised false (stepEnds id ls) = some e ∨ e = .cancelledError) ∧
      (e.isException = true →
        ∃ start, job = some ⟨id, .failed, some (.text (str.exn e)), some start, some now⟩)

theorem gatherReturns_step (inv : Inv str ls s) {id : JobId} {outcome : Except Exn Unit} {now : Time}
    {store : JobStore.State JobId Ws Payload Time}
    (hs : stepStore str s (.gatherEnds id outcome now) = some store) :
    JobStore.step str s.store (.gatherEnds id outcome now) = some store ∧
      Resumes str ls id now (store.jobs id) outcome := by
  simp only [stepStore] at hs
  split at hs
  · rename_i payload p g gathering here
    obtain ⟨g', there, after⟩ := inv.gathering id payload gathering
    rw [here] at there
    cases there
    obtain ⟨result, done, hs⟩ := Option.bind_eq_some_iff.mp hs
    have told := inv.told id
    rw [gathering] at told
    generalize record : s.store.jobs id = job at told
    obtain ⟨start, submitted, rfl⟩ : ∃ start, .store (.submit id payload false) ∈ ls ∧
        job = some ⟨id, .running, none, some start, none⟩ := by
      cases told with
      | gathering _ start told =>
        have mem := told.subset (List.mem_cons_self : _ ∈ begun id payload start)
        obtain ⟨l, mem, projected⟩ := List.mem_filterMap.mp mem
        cases l with
        | store l =>
          cases projected
          exact ⟨start, mem, rfl⟩
        | stepEnds k i outcome => cases projected
    simp only [JobStore.step, gathering, Option.bind_some, JobStore.stepJob, JobStore.resumeJob]
    cases outcome with
    | ok _ =>
      cases result with
      | ok rs =>
        obtain ⟨same, both, returned⟩ := gathered_results after done
        simp only [gatherReturns, same, Option.map_some] at hs
        cases hs
        refine ⟨rfl, both, returned, payload, start, submitted, ?_⟩
        obtain ⟨kept, -⟩ := broadcastWs_found str (s.store.finishJob id .done
          (gatheredResult str payload) now) id 0 [] now (fun _ => List.nil_subperm)
        rw [kept, JobStore.State.finishJob, JobStore.updateJob_jobs, record]
        rfl
      | error e => cases hs
    | error e =>
      simp only [gatherReturns] at hs
      split at hs
      · rename_i reason
        cases hs
        refine ⟨rfl, reason.imp_left fun failed => gathered_raised after (done.trans ?_),
          fun caught => ⟨start, ?_⟩⟩
        · rw [failed]
        · rw [(jobRaised_cases str s.store id false e now).2, if_pos caught, record]
          rfl
      · cases hs
  · cases hs

theorem store_step (inv : Inv str ls s) {l : JobStore.Label JobId Ws Payload Time}
    (hs : step str s (.store l) = some u) :
    JobStore.step str s.store l = some u.store ∧ Inv str (ls ++ [.store l]) u := by
  obtain ⟨store, moved, rfl⟩ := Option.map_eq_some_iff.mp hs
  have moved' : JobStore.step str s.store l = some store := by
    cases l with
    | gatherEnds id outcome now => exact (gatherReturns_step inv moved).1
    | _ => exact moved
  exact ⟨moved', inv_store inv moved'⟩

theorem inv_step (inv : Inv str ls s) {l : Label JobId Ws Payload Time}
    (hs : step str s l = some u) : Inv str (ls ++ [l]) u := by
  cases l with
  | store l => exact (store_step inv hs).2
  | stepEnds id i outcome => exact (inv_stepEnds inv hs).1

theorem inv_run (run : Runs (step str) initial ls u) : Inv str ls u :=
  run.history (Inv str) (inv_initial str) (fun _ _ _ _ inv hs => inv_step inv hs)

theorem projects {ms : List (Label JobId Ws Payload Time)} (inv : Inv str ls s)
    (run : Runs (step str) s ms u) : Runs (JobStore.step str) s.store (project ms) u.store := by
  induction run generalizing ls with
  | nil s => exact .nil _
  | @cons s w v l ms enabled _ _ ih =>
    cases l with
    | store l =>
      obtain ⟨moved, inv'⟩ := store_step inv enabled
      exact .cons moved trivial (ih inv')
    | stepEnds id i outcome =>
      obtain ⟨inv', same⟩ := inv_stepEnds inv enabled
      rw [← same]
      exact ih inv'

def Fresh (s : State JobId Ws Payload Time) : Prop :=
  ∀ id payload, s.store.runners id = some (.gathering payload) →
    s.gathers id = some (payload, Gather.start false 2)

theorem fresh_store (fresh : Fresh s) {l : JobStore.Label JobId Ws Payload Time}
    {store : JobStore.State JobId Ws Payload Time} (hs : JobStore.step str s.store l = some store) :
    Fresh ⟨store, startGather s l⟩ := by
  intro id payload gathering
  change startGather s l id = _
  rcases gathering_from hs gathering with ⟨before, other⟩ | ⟨⟨now, rfl⟩, queued⟩
  · rw [startGather_other other]
    exact fresh id payload before
  · simp only [startGather, queued, Function.update_self]

theorem stepEnds_step {id : JobId} {payload : Payload} {g g' : Gather Exn StepResult} {i : ℕ}
    {outcome : Except Exn Unit} (here : s.gathers id = some (payload, g))
    (ends : g.childEnds (i, stepOutcome str payload i outcome) = some g') :
    step str s (.stepEnds id i outcome) =
      some { s with gathers := Function.update s.gathers id (some (payload, g')) } := by
  simp only [step, here, ends, Option.map_some]

theorem resumed_fresh (fresh : Fresh s) {id : JobId} {outcome : Except Exn Unit} {now : Time}
    {w : JobStore.State JobId Ws Payload Time}
    (hs : JobStore.step str s.store (.gatherEnds id outcome now) = some w)
    (entry : Option (Payload × Gather Exn StepResult)) :
    Fresh ⟨w, Function.update s.gathers id entry⟩ := by
  intro k payload gathering
  rcases gathering_from hs gathering with ⟨before, other⟩ | ⟨⟨_, ⟨⟩⟩, -⟩
  have ne : k ≠ id := by
    rintro rfl
    exact other rfl
  exact (Function.update_of_ne ne _ _).trans (fresh k payload before)

/-- What `JobStore` does in one step at a gather, the steps and the future do in two or three. -/
theorem gather_simulated (fresh : Fresh s) {id : JobId} {outcome : Except Exn Unit} {now : Time}
    {w : JobStore.State JobId Ws Payload Time}
    (hs : JobStore.step str s.store (.gatherEnds id outcome now) = some w) :
    ∃ ls u, project ls = [.gatherEnds id outcome now] ∧ Runs (step str) s ls u ∧ u.store = w ∧
      Fresh u := by
  obtain ⟨r, at_id, moved⟩ := Option.bind_eq_some_iff.mp hs
  have gathering : ∃ payload, r = .gathering payload := by
    cases r with
    | gathering payload => exact ⟨payload, rfl⟩
    | _ => cases moved
  obtain ⟨payload, rfl⟩ := gathering
  have here := fresh id payload at_id
  have resumes (v : State JobId Ws Payload Time) {g : Gather Exn StepResult}
      {result : Except Exn (List (Except Exn StepResult))} (store : v.store = s.store)
      (there : v.gathers id = some (payload, g)) (done : g.outer = some result)
      (returns : gatherReturns str s.store id now result outcome = some w) :
      step str v (.store (.gatherEnds id outcome now)) = some ⟨w, v.gathers⟩ := by
    simp only [step, stepStore, store, at_id, there, done, Option.bind_some, returns,
      Option.map_some, startGather]
  cases outcome with
  | error e =>
    cases moved
    let failed : State JobId Ws Payload Time := ⟨s.store, Function.update s.gathers id
      (some (payload, ⟨false, [some (.error e), none], some (.error e)⟩))⟩
    have ends : step str s (.stepEnds id 0 (.error e)) = some failed := stepEnds_step here rfl
    have last := resumes failed rfl (Function.update_self _ _ _) rfl
      (by simp only [gatherReturns, true_or, ↓reduceIte])
    exact ⟨[.stepEnds id 0 (.error e), .store _], _, rfl,
      .cons ends trivial (.single last trivial), rfl, resumed_fresh fresh hs _⟩
  | ok _ =>
    cases moved
    let first : Gather Exn StepResult := ⟨false, [some (.ok (stepReturn str payload 0)), none], none⟩
    let results : List (Except Exn StepResult) :=
      [.ok (stepReturn str payload 0), .ok (stepReturn str payload 1)]
    let both : Gather Exn StepResult := ⟨false, results.map some, some (.ok results)⟩
    let fetched : State JobId Ws Payload Time :=
      ⟨s.store, Function.update s.gathers id (some (payload, first))⟩
    let computed : State JobId Ws Payload Time :=
      ⟨s.store, Function.update fetched.gathers id (some (payload, both))⟩
    have fetches : step str s (.stepEnds id 0 (.ok ())) = some fetched :=
      stepEnds_step here rfl
    have computes : step str fetched (.stepEnds id 1 (.ok ())) = some computed :=
      stepEnds_step (Function.update_self _ _ _) rfl
    have last := resumes computed rfl (Function.update_self _ _ _) rfl rfl
    refine ⟨[.stepEnds id 0 (.ok ()), .stepEnds id 1 (.ok ()), .store _], _, rfl,
      .cons fetches trivial (.cons computes trivial (.single last trivial)), rfl, ?_⟩
    change Fresh ⟨_, Function.update (Function.update s.gathers id _) id _⟩
    rw [Function.update_idem]
    exact resumed_fresh fresh hs _

theorem simulates {ms : List (JobStore.Label JobId Ws Payload Time)}
    {t v : JobStore.State JobId Ws Payload Time} (run : Runs (JobStore.step str) t ms v)
    (same : s.store = t) (fresh : Fresh s) :
    ∃ ls u, project ls = ms ∧ Runs (step str) s ls u ∧ u.store = v := by
  induction run generalizing s with
  | nil t => exact ⟨[], s, rfl, .nil s, same⟩
  | @cons t w v l ms enabled _ _ ih =>
    subst same
    have first : ∃ ls u, project ls = [l] ∧ Runs (step str) s ls u ∧ u.store = w ∧ Fresh u := by
      cases l with
      | gatherEnds id outcome now => exact gather_simulated fresh enabled
      | _ =>
        refine ⟨[.store _], ⟨w, startGather s _⟩, rfl, .single ?_ trivial, rfl,
          fresh_store fresh enabled⟩
        simp only [step, stepStore, enabled, Option.map_some]
    obtain ⟨ls, u, projected, run, store, fresh'⟩ := first
    obtain ⟨ls', u', projected', run', store'⟩ := ih store fresh'
    refine ⟨ls ++ ls', u', ?_, run.append run', store'⟩
    rw [project, List.filterMap_append, ← project, ← project, projected, projected']
    rfl

/-- The system with the two steps refines `JobStore`, and leaves none of its runs out:
whatever the steps do in between, and whichever ends first, the records, the broadcasts and
the connections are those of a run in which the gather is one await, and of every such run.
And a job goes on from its gather only when both its steps have returned, with their two
results, or with the exception that the first of them has raised, if it is not cancelled. -/
theorem gather_refinement (str : Str Payload) :
    (∀ (ls : List (Label JobId Ws Payload Time)) u, Runs (step str) initial ls u →
      Runs (JobStore.step str) JobStore.initial (project ls) u.store) ∧
    (∀ (ms : List (JobStore.Label JobId Ws Payload Time)) v,
      Runs (JobStore.step str) JobStore.initial ms v →
        ∃ ls u, project ls = ms ∧ Runs (step str) initial ls u ∧ u.store = v) ∧
    ∀ (ls : List (Label JobId Ws Payload Time)) u id outcome now,
      Runs (step str) initial (ls ++ [.store (.gatherEnds id outcome now)]) u →
        Resumes str ls id now (u.store.jobs id) outcome := by
  refine ⟨fun ls u run => ?_, fun ms v run => ?_, fun ls u id outcome now run => ?_⟩
  · exact projects (inv_initial str) run
  · exact simulates run rfl (by rintro _ _ ⟨⟩)
  · obtain ⟨s, before, enabled, -⟩ := run.last
    obtain ⟨store, moved, rfl⟩ := Option.map_eq_some_iff.mp enabled
    exact (gatherReturns_step (inv_run (Runs.of_execute before)) moved).2

end Refinement

section Examples

def computedFirst : List (Label ℕ ℕ Unit ℕ) :=
  [.store (.submit 7 () false), .store (.dispatch 7 10), .stepEnds 7 1 (.ok ()),
    .store (.submit 8 () true), .stepEnds 7 0 (.ok ()), .store (.gatherEnds 7 (.ok ()) 11)]

example : (execute (step JobHistory.unitStr) initial computedFirst).map
    (fun s => (s.store.jobs 7).map (·.result)) =
      some (some (some (.gathered "fetched:payload" 7))) := rfl

end Examples

end FastapiProject.AsyncJobSteps
