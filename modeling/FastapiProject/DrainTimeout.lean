import FastapiProject.AsyncioGather
import FastapiProject.ConsumerLoop
import FastapiProject.ConsumerTrafficSteps

set_option autoImplicit false

/-!
# `_drain_tasks` and its timeout

`asyncio.wait_for(asyncio.gather(*_active_tasks, return_exceptions=True), timeout)`: when the
time is up the gather is cancelled, which cancels its tasks, and still it is done only when
each of them has ended, in whatever way it takes its cancellation. So the drain is over, by
either branch, just when `ConsumerLoop` lets it be, and its last loop finds no task.
-/
namespace FastapiProject.DrainTimeout
open PythonExceptions MachineRuns IndexedLists ConsumerMessage ConsumerTraffic ConsumerTrafficSteps
  ConsumerLoop AsyncioGather

variable {Msg H : Type}

def unfinishedAt (s : Traffic Msg H) (t : ℕ) : Bool :=
  match s.tasks[t]? with
  | some task => !task.stage.finished
  | none => false

/-- `_active_tasks`. -/
def activeTasks (s : Traffic Msg H) : List ℕ := (List.range s.tasks.length).filter (unfinishedAt s)

/-- The arguments of the gather, its future, and whether the time is up. -/
structure Drain where
  awaited : List ℕ
  gather : Gather Exn Unit
  timedOut : Bool

/-- `remaining` are the tasks that were cancelled after a timeout. -/
structure State (Msg H : Type) where
  consumer : Consumer Msg H
  drain : Option Drain
  remaining : Option (List ℕ)

def initial : State Msg H := ⟨Consumer.initial, none, none⟩

inductive Label (Msg : Type) where
  | consumer (l : ConsumerLoop.Label Msg)
  | deadline

def Label.consumer? : Label Msg → Option (ConsumerLoop.Label Msg)
  | .consumer l => some l
  | .deadline => none

def project (ls : List (Label Msg)) : List (ConsumerLoop.Label Msg) := ls.filterMap Label.consumer?

def taskOf : TrafficLabel Msg → Option ℕ
  | .acquire t | .handlerEnds t _ | .cancelWaiting t => some t
  | _ => none

def outcomeAt (s : Traffic Msg H) (t : ℕ) : Option (Except Exn Unit) :=
  s.tasks[t]?.bind fun task =>
    match task.stage with
    | .ended outcome => some outcome
    | .waiting | .handling _ _ => none

namespace Drain

def start (s : Traffic Msg H) : Drain :=
  ⟨activeTasks s, .start true (activeTasks s).length, false⟩

/-- The done callback of the task `t`, when it has ended. -/
def note (d : Drain) (s : Traffic Msg H) (t : ℕ) : Drain :=
  match outcomeAt s t with
  | some outcome => { d with
      gather := (d.gather.childEnds (d.awaited.idxOf t, outcome)).getD d.gather }
  | none => d

def follow (d : Drain) (s : Traffic Msg H) : ConsumerLoop.Label Msg → Drain
  | .traffic l =>
    match taskOf l with
    | some t => d.note s t
    | none => d
  | _ => d

end Drain

def drainAfter (drain : Option Drain) (l : ConsumerLoop.Label Msg) (c : Consumer Msg H) : Option Drain :=
  if c.loop.pc = .draining then
    match drain with
    | some d => some (d.follow c.traffic l)
    | none => some (.start c.traffic)
  else none

section Step
variable [DecidableEq Msg] (app : App Msg H) (s : State Msg H)

/-- The await of the drain is over, and the branch of the timeout looks at what is left. -/
def drainReturns (d : Drain) : Option (State Msg H) :=
  d.gather.outer.map fun _ =>
    { consumer := { s.consumer with loop := s.consumer.loop.afterDrain }
      drain := none
      remaining := if d.timedOut = true then some (activeTasks s.consumer.traffic) else s.remaining }

def stepConsumer (l : ConsumerLoop.Label Msg) : Option (State Msg H) :=
  (ConsumerLoop.step app s.consumer l).map fun c => ⟨c, drainAfter s.drain l c, s.remaining⟩

def step : Label Msg → Option (State Msg H)
  | .deadline =>
    match s.drain with
    | some d => if d.timedOut = true then none else some { s with drain := some { d with timedOut := true } }
    | none => none
  | .consumer (.resume .returned) =>
    match s.drain with
    | some d => drainReturns s d
    | none => stepConsumer app s (.resume .returned)
  | .consumer l => stepConsumer app s l

end Step

section Awaiting
variable {s u : Traffic Msg H} {d : Drain}

structure Awaits (s : Traffic Msg H) (d : Drain) : Prop where
  after : ∃ ls, Gather.After true d.awaited.length ls d.gather
  nodup : d.awaited.Nodup
  covers : ∀ t, unfinishedAt s t = true → t ∈ d.awaited
  child : ∀ (j : ℕ) t, d.awaited[j]? = some t →
    (d.gather.children[j]? = some none ↔ unfinishedAt s t = true)

theorem unfinishedAt_some {t : ℕ} {task : MessageTask Msg H} (at_t : s.tasks[t]? = some task) :
    unfinishedAt s t = !task.stage.finished := by
  rw [unfinishedAt, at_t]

theorem idle_iff : s.idle = true ↔ ∀ t, unfinishedAt s t = false := by
  unfold Traffic.idle unfinishedAt
  rw [List.all_eq_true]
  constructor
  · intro idle t
    split
    · rename_i task at_t
      rw [idle task (List.mem_of_getElem? at_t)]
      rfl
    · rfl
  · intro ended task mem
    obtain ⟨t, at_t⟩ := List.getElem?_of_mem mem
    have here := ended t
    rw [at_t] at here
    simpa using here

theorem awaits_start (s : Traffic Msg H) : Awaits s (.start s) where
  after := ⟨[], Gather.after_start⟩
  nodup := List.nodup_range.filter _
  covers t unfinished := by
    refine List.mem_filter.mpr ⟨List.mem_range.mpr ?_, unfinished⟩
    by_contra outside
    rw [unfinishedAt, List.getElem?_eq_none (Nat.le_of_not_lt outside)] at unfinished
    cases unfinished
  child j t at_j := by
    have inside := (List.getElem?_eq_some_iff.mp at_j).1
    have active := (List.mem_filter.mp (List.mem_of_getElem? at_j)).2
    refine iff_of_true ?_ active
    change (List.replicate (activeTasks s).length none)[j]? = some none
    exact (List.getElem?_replicate).trans (if_pos inside)

theorem Awaits.done_iff (h : Awaits s d) : d.gather.outer.isSome = true ↔ s.idle = true := by
  obtain ⟨ls, after⟩ := h.after
  rw [after.done_iff, idle_iff, List.all_eq_true]
  constructor
  · intro all t
    by_contra unfinished
    rw [Bool.not_eq_false] at unfinished
    obtain ⟨j, at_j⟩ := List.getElem?_of_mem (h.covers t unfinished)
    have pending := (h.child j t at_j).mpr unfinished
    cases all none (List.mem_of_getElem? pending)
  · intro ended child mem
    obtain ⟨j, at_j⟩ := List.getElem?_of_mem mem
    cases child with
    | some outcome => rfl
    | none =>
      have inside := (List.getElem?_eq_some_iff.mp at_j).1
      rw [after.length] at inside
      have unfinished := (h.child j _ (List.getElem?_eq_getElem inside)).mp at_j
      rw [ended] at unfinished
      cases unfinished

theorem Awaits.of_same (h : Awaits s d) (same : ∀ t, unfinishedAt u t = unfinishedAt s t) :
    Awaits u d where
  after := h.after
  nodup := h.nodup
  covers t unfinished := h.covers t ((same t).symm.trans unfinished)
  child j t at_j := by
    rw [same]
    exact h.child j t at_j

theorem unfinishedAt_set {t : ℕ} {task : MessageTask Msg H} {stage : Stage H}
    (at_t : s.tasks[t]? = some task) (tasks : u.tasks = s.tasks.set t { task with stage := stage })
    (k : ℕ) : unfinishedAt u k = if k = t then !stage.finished else unfinishedAt s k := by
  by_cases same : k = t
  · subst same
    rw [if_pos rfl]
    exact unfinishedAt_some (by rw [tasks]; exact getElem?_set_here at_t _)
  · rw [if_neg same, unfinishedAt, tasks, List.getElem?_set_ne (Ne.symm same), ← unfinishedAt]

theorem Awaits.ended (h : Awaits s d) {t : ℕ} {task : MessageTask Msg H} {outcome : Except Exn Unit}
    (at_t : s.tasks[t]? = some task) (live : task.stage.finished = false)
    (tasks : u.tasks = s.tasks.set t { task with stage := .ended outcome }) :
    Awaits u { d with gather := (d.gather.childEnds (d.awaited.idxOf t, outcome)).getD d.gather } := by
  have unfinished : unfinishedAt s t = true := by
    rw [unfinishedAt_some at_t, live]
    rfl
  have mem := h.covers t unfinished
  have at_j : d.awaited[d.awaited.idxOf t]? = some t := List.getElem?_idxOf mem
  have pending := (h.child _ t at_j).mpr unfinished
  obtain ⟨ls, after⟩ := h.after
  have now := unfinishedAt_set at_t tasks
  have ends : d.gather.childEnds (d.awaited.idxOf t, outcome) = some { d.gather with
      children := d.gather.children.set (d.awaited.idxOf t) (some outcome)
      outer := d.gather.outer.or (Gather.settled d.gather.returnExceptions
        (d.gather.children.set (d.awaited.idxOf t) (some outcome)) outcome) } := by
    simp only [Gather.childEnds, pending]
  rw [ends, Option.getD_some]
  refine ⟨⟨_, Gather.after_step after ends⟩, h.nodup, fun k hk => ?_, fun k t' at_k => ?_⟩
  · rw [now] at hk
    split at hk
    · cases hk
    · exact h.covers k hk
  · change (d.gather.children.set (d.awaited.idxOf t) (some outcome))[k]? = some none ↔ _
    rw [now]
    by_cases same : t' = t
    · subst same
      have place : k = d.awaited.idxOf t' := (idxOf_of_getElem? h.nodup at_k).symm
      rw [place, getElem?_set_here pending, if_pos rfl]
      exact iff_of_false (by simp) (by simp [Stage.finished])
    · have other : d.awaited.idxOf t ≠ k := by
        rintro rfl
        rw [at_j] at at_k
        exact same (Option.some.inj at_k).symm
      rw [List.getElem?_set_ne other, if_neg same]
      exact h.child k t' at_k

end Awaiting

section Steps
variable [DecidableEq Msg] {app : App Msg H}

theorem step_tasks {s u : Traffic Msg H} {l : TrafficLabel Msg} (hs : TrafficStep app s l u)
    (noSpawn : ∀ m, l ≠ .spawnTask m) : taskOf l = none ∧ u.tasks = s.tasks ∨
      ∃ t task stage, taskOf l = some t ∧ s.tasks[t]? = some task ∧ task.stage.finished = false ∧
        u.tasks = s.tasks.set t { task with stage := stage } := by
  cases hs with
  | published new => exact .inl ⟨rfl, rfl⟩
  | delivered | yieldedLate => exact absurd rfl (noSpawn _)
  | opened => exact .inl ⟨rfl, rfl⟩
  | gone notOpen closes =>
    refine .inl ⟨?_, rfl⟩
    rcases closes with ⟨rfl, -⟩ | ⟨rfl, -⟩ | ⟨rfl, -⟩ <;> rfl
  | invoked at_t waiting routed => exact .inr ⟨_, _, _, rfl, at_t, by rw [waiting]; rfl, rfl⟩
  | unrouted at_t waiting nobody => exact .inr ⟨_, _, _, rfl, at_t, by rw [waiting]; rfl, rfl⟩
  | handled at_t handling => exact .inr ⟨_, _, _, rfl, at_t, by rw [handling]; rfl, rfl⟩
  | cancelled at_t waiting => exact .inr ⟨_, _, _, rfl, at_t, by rw [waiting]; rfl, rfl⟩

theorem awaits_follow {s u : Traffic Msg H} {d : Drain} {l : TrafficLabel Msg} (h : Awaits s d)
    (hs : TrafficStep app s l u) (noSpawn : ∀ m, l ≠ .spawnTask m) :
    Awaits u (d.follow u (.traffic l)) := by
  rcases step_tasks hs noSpawn with ⟨none, tasks⟩ | ⟨t, task, stage, own, at_t, live, tasks⟩
  · simp only [Drain.follow, none]
    refine h.of_same fun t => ?_
    rw [unfinishedAt, tasks, ← unfinishedAt]
  · simp only [Drain.follow, own]
    have here : u.tasks[t]? = some { task with stage := stage } := by
      rw [tasks]
      exact getElem?_set_here at_t _
    cases stage with
    | ended outcome =>
      have ended : outcomeAt u t = some outcome := by rw [outcomeAt, here]; rfl
      rw [Drain.note, ended]
      exact h.ended at_t live tasks
    | waiting | handling =>
      have going : outcomeAt u t = none := by rw [outcomeAt, here]; rfl
      rw [Drain.note, going]
      refine h.of_same fun k => ?_
      rw [unfinishedAt_set at_t tasks]
      split
      · rename_i same
        subst same
        rw [unfinishedAt_some at_t, live]
        rfl
      · rfl

structure Inv (s : State Msg H) : Prop where
  draining : ∀ d, s.drain = some d → s.consumer.loop.pc = .draining ∧ Awaits s.consumer.traffic d
  idle : s.drain = none → s.consumer.loop.pc ≠ .draining
  remaining : ∀ ts, s.remaining = some ts → ts = []

omit [DecidableEq Msg] in
theorem inv_initial : Inv (initial : State Msg H) where
  draining d here := by cases here
  idle _ := nofun
  remaining ts here := by cases here

theorem afterDrain_pc (loop : Loop) : loop.afterDrain.pc ≠ .draining := by
  unfold Loop.afterDrain
  dsimp only
  split <;> nofun

theorem stays_draining {s u : Consumer Msg H} {l : ConsumerLoop.Label Msg}
    (hs : ConsumerLoop.step app s l = some u) (before : s.loop.pc = .draining)
    (after : u.loop.pc = .draining) : ∃ tl, l = .traffic tl ∧ TrafficStep app s.traffic tl u.traffic ∧
      ∀ m, tl ≠ .spawnTask m := by
  rcases step_cases hs with ⟨reply, effect, rfl, resumed, -⟩ | ⟨isClosed, rfl, cancelled, -⟩ |
    ⟨tl, rfl, permits, moved, -⟩
  · exfalso
    simp only [Consumer.resumed] at resumed
    cases reply with
    | returned =>
      simp only [Loop.resume, before] at resumed
      split at resumed
      · have same : s.loop.afterDrain = u.loop := congrArg Prod.fst (Option.some.inj resumed)
        rw [← same] at after
        exact afterDrain_pc _ after
      · cases resumed
    | raised e =>
      simp only [Loop.resume, before] at resumed
      split at resumed <;> cases resumed
    | yielded m =>
      simp [Loop.resume, before] at resumed
    | exhausted => simp [Loop.resume, before] at resumed
  · exfalso
    simp only [Loop.cancel, before, Loop.raise, Option.some.injEq] at cancelled
    rw [← cancelled] at after
    cases after
  · refine ⟨tl, rfl, step_trafficStep moved, ?_⟩
    rintro m rfl
    cases permits

variable {s u : State Msg H}

theorem inv_consumer (inv : Inv s) {l : ConsumerLoop.Label Msg} {c : Consumer Msg H}
    (hs : ConsumerLoop.step app s.consumer l = some c) :
    Inv (⟨c, drainAfter s.drain l c, s.remaining⟩ : State Msg H) := by
  refine ⟨fun d here => ?_, fun none => ?_, inv.remaining⟩
  · simp only [drainAfter] at here
    split at here
    · rename_i draining
      refine ⟨draining, ?_⟩
      split at here
      · rename_i d' there
        cases here
        obtain ⟨before, awaits⟩ := inv.draining d' there
        obtain ⟨tl, rfl, moved, noSpawn⟩ := stays_draining hs before draining
        exact awaits_follow awaits moved noSpawn
      · cases here
        exact awaits_start c.traffic
    · cases here
  · intro draining
    change (if c.loop.pc = .draining then _ else _) = _ at none
    rw [if_pos draining] at none
    split at none <;> cases none

omit [DecidableEq Msg] in
theorem activeTasks_idle {s : Traffic Msg H} (idle : s.idle = true) : activeTasks s = [] :=
  List.filter_eq_nil_iff.mpr fun t _ => by simp [idle_iff.mp idle t]

theorem drainReturns_step (inv : Inv s) {d : Drain} (here : s.drain = some d)
    (hs : drainReturns s d = some u) :
    ConsumerLoop.step app s.consumer (.resume .returned) = some u.consumer ∧ Inv u := by
  obtain ⟨draining, awaits⟩ := inv.draining d here
  obtain ⟨result, done, rfl⟩ := Option.map_eq_some_iff.mp hs
  have idle := awaits.done_iff.mp (by rw [done]; rfl)
  refine ⟨?_, ?_, ?_, ?_⟩
  · simp only [ConsumerLoop.step, Consumer.resumed, Loop.resume, draining, idle, ↓reduceIte,
      Option.bind_eq_bind, Option.bind_some, Consumer.perform, Option.pure_def]
  · rintro d' ⟨⟩
  · exact fun _ => afterDrain_pc _
  · intro ts left
    change (if d.timedOut = true then some (activeTasks s.consumer.traffic) else s.remaining) =
      some ts at left
    split at left
    · cases left
      exact activeTasks_idle idle
    · exact inv.remaining ts left

theorem step_consumer (inv : Inv s) {l : ConsumerLoop.Label Msg}
    (hs : step app s (.consumer l) = some u) :
    ConsumerLoop.step app s.consumer l = some u.consumer ∧ Inv u := by
  have plain (hs : stepConsumer app s l = some u) :
      ConsumerLoop.step app s.consumer l = some u.consumer ∧ Inv u := by
    obtain ⟨c, moved, rfl⟩ := Option.map_eq_some_iff.mp hs
    exact ⟨moved, inv_consumer inv moved⟩
  cases l with
  | resume reply =>
    cases reply with
    | returned =>
      cases here : s.drain with
      | some d =>
        simp only [step, here] at hs
        exact drainReturns_step inv here hs
      | none =>
        simp only [step, here] at hs
        exact plain hs
    | _ => exact plain hs
  | _ => exact plain hs

theorem step_deadline (inv : Inv s) (hs : step app s .deadline = some u) :
    u.consumer = s.consumer ∧ Inv u := by
  simp only [step] at hs
  split at hs
  · rename_i d here
    split at hs <;> cases hs
    obtain ⟨draining, awaits⟩ := inv.draining d here
    refine ⟨rfl, fun d' same => ?_, nofun, inv.remaining⟩
    cases same
    exact ⟨draining, ⟨awaits.after, awaits.nodup, awaits.covers, awaits.child⟩⟩
  · cases hs

theorem projects {ls : List (Label Msg)} (inv : Inv s) (run : Runs (step app) s ls u) :
    Runs (ConsumerLoop.step app) s.consumer (project ls) u.consumer ∧ Inv u := by
  induction run with
  | nil s => exact ⟨.nil _, inv⟩
  | @cons s w v l ls enabled _ _ ih =>
    cases l with
    | consumer l =>
      obtain ⟨moved, inv'⟩ := step_consumer inv enabled
      obtain ⟨run, inv''⟩ := ih inv'
      exact ⟨.cons moved trivial run, inv''⟩
    | deadline =>
      obtain ⟨same, inv'⟩ := step_deadline inv enabled
      rw [← same]
      exact ih inv'

theorem consumer_simulated (inv : Inv s) {l : ConsumerLoop.Label Msg} {c : Consumer Msg H}
    (hs : ConsumerLoop.step app s.consumer l = some c) :
    ∃ u, step app s (.consumer l) = some u ∧ u.consumer = c := by
  have plain : stepConsumer app s l = some ⟨c, drainAfter s.drain l c, s.remaining⟩ := by
    rw [stepConsumer, hs, Option.map_some]
  cases l with
  | resume reply =>
    cases reply with
    | returned =>
      cases here : s.drain with
      | some d =>
        obtain ⟨draining, awaits⟩ := inv.draining d here
        simp only [ConsumerLoop.step, Consumer.resumed, Loop.resume, draining, Option.bind_eq_bind] at hs
        split at hs
        · rename_i idle
          cases hs
          obtain ⟨result, done⟩ := Option.isSome_iff_exists.mp (awaits.done_iff.mpr idle)
          have returns : step app s (.consumer (.resume .returned)) =
              some ⟨⟨s.consumer.loop.afterDrain, s.consumer.traffic⟩, none, if d.timedOut = true then
                some (activeTasks s.consumer.traffic) else s.remaining⟩ := by
            simp only [step, here, drainReturns, done, Option.map_some]
          exact ⟨_, returns, rfl⟩
        · cases hs
      | none => exact ⟨_, by simp only [step, here]; exact plain, rfl⟩
    | _ => exact ⟨_, plain, rfl⟩
  | _ => exact ⟨_, plain, rfl⟩

theorem simulates {ms : List (ConsumerLoop.Label Msg)} {c v : Consumer Msg H}
    (run : Runs (ConsumerLoop.step app) c ms v) (same : s.consumer = c) (inv : Inv s) :
    ∃ ls u, project ls = ms ∧ Runs (step app) s ls u ∧ u.consumer = v := by
  induction run generalizing s with
  | nil c => exact ⟨[], s, rfl, .nil s, same⟩
  | @cons c w v l ms enabled _ _ ih =>
    subst same
    obtain ⟨u, moved, store⟩ := consumer_simulated inv enabled
    obtain ⟨ls, v', projected, run, store'⟩ := ih store (step_consumer inv moved).2
    refine ⟨.consumer l :: ls, v', ?_, .cons moved trivial run, store'⟩
    rw [← projected]
    rfl

end Steps

section Examples

/-- The time is up while a handler runs, and the drain ends when the handler does. -/
def timedOut : List (Label Unit) :=
  untilHandling.map .consumer ++ [.consumer (.cancel false), .consumer (.resume .returned),
    .consumer (.resume .returned), .deadline,
    .consumer (.traffic (.handlerEnds 0 (.error .cancelledError))), .consumer (.resume .returned)]

example : (execute (step userCreatedApp) initial timedOut).map
    (fun s => (s.consumer.loop.pc, s.remaining, s.consumer.traffic.place ())) =
      some (.ended .cancelledError, some [], .ready true) := rfl

end Examples

end FastapiProject.DrainTimeout
