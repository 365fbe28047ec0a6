import FastapiProject.ConsumerLoop
import FastapiProject.IndexedLists

set_option autoImplicit false

/-!
# The slots of the semaphore

`_get_semaphore` and `_process_message` at their awaits, with the semaphores as objects:
a task keeps the one it was given, whatever `_semaphore` holds later. How a settlement
ends is left open, as is how a handler ends.
-/
namespace FastapiProject.MessageSlots
open PythonExceptions PythonJson MachineRuns IndexedLists ConsumerMessage ConsumerTraffic ConsumerLoop

variable {Msg H : Type}

/-- The awaits of `_process_message`, with the semaphore in its local variable. -/
inductive SlotStage (H : Type) where
  | created
  | waiting (semaphore : ℕ)
  | handling (semaphore : ℕ) (handler : H) (body : Json)
  | nacking (semaphore : ℕ) (e : Exn)
  | leavingBlock (semaphore : ℕ) (block : Except Exn Unit)
  | ended (outcome : Except Exn Unit)

structure SlotTask (Msg H : Type) where
  message : Msg
  stage : SlotStage H

/-- `semaphores` are the objects made so far, each with its `_value`; `semaphore` is the
global `_semaphore`. -/
structure State (Msg H : Type) where
  loop : Loop
  channels : ℕ
  semaphores : List ℕ
  semaphore : Option ℕ
  tasks : List (SlotTask Msg H)

def initial : State Msg H := ⟨Loop.initial, 0, [], none, []⟩

namespace SlotStage

def semaphore? : SlotStage H → Option ℕ
  | .waiting r | .handling r _ _ | .nacking r _ | .leavingBlock r _ => some r
  | .created | .ended _ => none

def holds : SlotStage H → Bool
  | .handling _ _ _ | .nacking _ _ | .leavingBlock _ _ => true
  | .created | .waiting _ | .ended _ => false

def inHandler : SlotStage H → Bool
  | .handling _ _ _ => true
  | _ => false

def finished : SlotStage H → Bool
  | .ended _ => true
  | _ => false

end SlotStage

inductive SlotLabel (Msg : Type) where
  | resume (reply : Reply Msg)
  | cancelConsumer (isClosed : Bool)
  | start (t : ℕ)
  | acquired (t : ℕ)
  | handlerEnds (t : ℕ) (outcome : Except Exn Unit)
  | settlementEnds (t : ℕ) (outcome : Except Exn Unit)
  | cancelTask (t : ℕ)

namespace State
variable (s : State Msg H)

def idle : Bool := s.tasks.all fun task => task.stage.finished

def setStage (t : ℕ) (task : SlotTask Msg H) (stage : SlotStage H) : State Msg H :=
  { s with tasks := s.tasks.set t { task with stage := stage } }

def getSemaphore (app : App Msg H) : State Msg H × ℕ :=
  match s.semaphore with
  | some r => (s, r)
  | none => ({ s with
      semaphores := s.semaphores ++ [app.settings.rmqMaxConcurrentTasks]
      semaphore := some s.semaphores.length }, s.semaphores.length)

def take (r : ℕ) : Option (State Msg H) :=
  match s.semaphores[r]? with
  | some (free + 1) => some { s with semaphores := s.semaphores.set r free }
  | some 0 | none => none

def release (r : ℕ) : State Msg H :=
  { s with semaphores := s.semaphores.modify r (· + 1) }

/-- The end of `async with semaphore`. -/
def endTask (t : ℕ) (task : SlotTask Msg H) (r : ℕ) (outcome : Except Exn Unit) : State Msg H :=
  (s.setStage t task (.ended outcome)).release r

end State

/-- From the slot to the first await of the block. -/
def blockStage (app : App Msg H) (m : Msg) (r : ℕ) : SlotStage H :=
  match app.route m with
  | .ok (some (handler, body)) => .handling r handler body
  | .ok none => .leavingBlock r (.ok ())
  | .error e => .leavingBlock r (.error e)

/-- `await handler(body)` and its `except Exception` clause up to the settlement. -/
def handledStage (r : ℕ) : Except Exn Unit → SlotStage H
  | .ok () => .leavingBlock r (.ok ())
  | .error e => if e.isException = true then .nacking r e else .leavingBlock r (.error e)

def raisedAfter (e : Exn) : Except Exn Unit → Exn
  | .ok () => e
  | .error e' => e'

def leftBlock (block settlement : Except Exn Unit) : Except Exn Unit :=
  match block with
  | .ok () => settlement
  | .error e => .error (raisedAfter e settlement)

section Step
variable (app : App Msg H)

def stepTask (s : State Msg H) (t : ℕ) (task : SlotTask Msg H) :
    SlotLabel Msg → Option (State Msg H)
  | .start _ =>
    match task.stage with
    | .created =>
      let (s, r) := s.getSemaphore app
      some (s.setStage t task (.waiting r))
    | _ => none
  | .acquired _ =>
    match task.stage with
    | .waiting r => (s.take r).map (·.setStage t task (blockStage app task.message r))
    | _ => none
  | .handlerEnds _ outcome =>
    match task.stage with
    | .handling r _ _ => some (s.setStage t task (handledStage r outcome))
    | _ => none
  | .settlementEnds _ outcome =>
    match task.stage with
    | .nacking r e => some (s.setStage t task (.leavingBlock r (.error (raisedAfter e outcome))))
    | .leavingBlock r block => some (s.endTask t task r (leftBlock block outcome))
    | _ => none
  | .cancelTask _ =>
    match task.stage with
    | .created | .waiting _ => some (s.setStage t task (.ended (.error .cancelledError)))
    | _ => none
  | .resume _ | .cancelConsumer _ => none

def perform (s : State Msg H) : Option (TrafficLabel Msg) → State Msg H
  | some (.spawnTask m) => { s with tasks := s.tasks ++ [⟨m, .created⟩] }
  | some .openChannel => { s with channels := s.channels + 1 }
  | _ => s

def step (s : State Msg H) (l : SlotLabel Msg) : Option (State Msg H) :=
  match l with
  | .resume reply => do
    let (loop, effect) ← s.loop.resume s.idle (s.channels + 1) reply
    return { perform s effect with loop := loop }
  | .cancelConsumer isClosed => do return { s with loop := ← s.loop.cancel s.idle isClosed }
  | .start t | .acquired t | .handlerEnds t _ | .settlementEnds t _ | .cancelTask t => do
    let task ← s.tasks[t]?
    stepTask app s t task l

end Step

section Steps
variable {app : App Msg H} {s u : State Msg H}

inductive SlotStep (app : App Msg H) (s : State Msg H) : State Msg H → Prop where
  | consumer (loop : Loop) (channels : ℕ) (spawned : List (SlotTask Msg H))
      (created : ∀ task ∈ spawned, task.stage = .created) :
    SlotStep app s { s with loop := loop, channels := channels, tasks := s.tasks ++ spawned }
  | started {t : ℕ} {task : SlotTask Msg H} (at_t : s.tasks[t]? = some task)
      (created : task.stage = .created) :
    SlotStep app s ((s.getSemaphore app).1.setStage t task (.waiting (s.getSemaphore app).2))
  | acquired {t r free : ℕ} {task : SlotTask Msg H} {stage : SlotStage H}
      (at_t : s.tasks[t]? = some task) (waiting : task.stage = .waiting r)
      (room : s.semaphores[r]? = some (free + 1)) (holds : stage.holds = true)
      (same : stage.semaphore? = some r) :
    SlotStep app s (State.setStage { s with semaphores := s.semaphores.set r free } t task stage)
  | moved {t : ℕ} {task : SlotTask Msg H} {stage : SlotStage H} (at_t : s.tasks[t]? = some task)
      (held : task.stage.holds = true) (holds : stage.holds = true)
      (same : stage.semaphore? = task.stage.semaphore?) :
    SlotStep app s (s.setStage t task stage)
  | released {t r : ℕ} {task : SlotTask Msg H} {outcome : Except Exn Unit}
      (at_t : s.tasks[t]? = some task) (held : task.stage.holds = true)
      (here : task.stage.semaphore? = some r) : SlotStep app s (s.endTask t task r outcome)
  | cancelled {t : ℕ} {task : SlotTask Msg H} (at_t : s.tasks[t]? = some task)
      (free : task.stage.holds = false) :
    SlotStep app s (s.setStage t task (.ended (.error .cancelledError)))

theorem blockStage_holds (app : App Msg H) (m : Msg) (r : ℕ) :
    (blockStage app m r).holds = true ∧ (blockStage app m r).semaphore? = some r := by
  unfold blockStage
  split <;> exact ⟨rfl, rfl⟩

theorem handledStage_holds (r : ℕ) (outcome : Except Exn Unit) :
    (handledStage r outcome : SlotStage H).holds = true ∧
      (handledStage r outcome : SlotStage H).semaphore? = some r := by
  unfold handledStage
  split
  · exact ⟨rfl, rfl⟩
  · split <;> exact ⟨rfl, rfl⟩

theorem stepTask_slotStep {t : ℕ} {task : SlotTask Msg H} {l : SlotLabel Msg}
    (at_t : s.tasks[t]? = some task) (hs : stepTask app s t task l = some u) :
    SlotStep app s u := by
  cases l with
  | start _ =>
    cases hstage : task.stage with
    | created =>
      simp only [stepTask, hstage] at hs
      exact Option.some.inj hs ▸ .started at_t hstage
    | _ => simp [stepTask, hstage] at hs
  | acquired _ =>
    cases hstage : task.stage with
    | waiting r =>
      simp only [stepTask, hstage] at hs
      obtain ⟨v, taken, hu⟩ := Option.map_eq_some_iff.mp hs
      unfold State.take at taken
      split at taken
      · rename_i free room
        cases taken
        obtain ⟨holds, same⟩ := blockStage_holds app task.message r
        exact hu ▸ .acquired at_t hstage room holds same
      · cases taken
      · cases taken
    | _ => simp [stepTask, hstage] at hs
  | handlerEnds _ outcome =>
    cases hstage : task.stage with
    | handling r handler body =>
      simp only [stepTask, hstage] at hs
      obtain ⟨holds, same⟩ := handledStage_holds (H := H) r outcome
      exact Option.some.inj hs ▸ .moved at_t (by rw [hstage]; rfl) holds (by rw [same, hstage]; rfl)
    | _ => simp [stepTask, hstage] at hs
  | settlementEnds _ outcome =>
    cases hstage : task.stage with
    | nacking r e =>
      simp only [stepTask, hstage] at hs
      exact Option.some.inj hs ▸ .moved at_t (by rw [hstage]; rfl) rfl (by rw [hstage]; rfl)
    | leavingBlock r block =>
      simp only [stepTask, hstage] at hs
      exact Option.some.inj hs ▸ .released at_t (by rw [hstage]; rfl) (by rw [hstage]; rfl)
    | _ => simp [stepTask, hstage] at hs
  | cancelTask _ =>
    cases hstage : task.stage with
    | created | waiting r =>
      simp only [stepTask, hstage] at hs
      exact Option.some.inj hs ▸ .cancelled at_t (by rw [hstage]; rfl)
    | _ => simp [stepTask, hstage] at hs
  | resume _ | cancelConsumer _ => cases hs

theorem perform_spawned (s : State Msg H) (effect : Option (TrafficLabel Msg)) :
    ∃ channels spawned, perform s effect =
        { s with channels := channels, tasks := s.tasks ++ spawned } ∧
      ∀ task ∈ spawned, task.stage = .created := by
  unfold perform
  split
  · exact ⟨_, _, rfl, by simp⟩
  · exact ⟨_, [], by rw [List.append_nil], by simp⟩
  · exact ⟨_, [], by rw [List.append_nil], by simp⟩

theorem step_slotStep {l : SlotLabel Msg} (hs : step app s l = some u) : SlotStep app s u := by
  cases l with
  | resume reply =>
    obtain ⟨⟨loop, effect⟩, -, hu⟩ := Option.bind_eq_some_iff.mp hs
    obtain ⟨channels, spawned, performed, created⟩ := perform_spawned s effect
    cases hu
    rw [performed]
    exact .consumer loop channels spawned created
  | cancelConsumer isClosed =>
    obtain ⟨loop, -, hu⟩ := Option.bind_eq_some_iff.mp hs
    cases hu
    have kept : SlotStep app s { s with loop := loop, tasks := s.tasks ++ [] } :=
      .consumer loop s.channels [] (by simp)
    rwa [List.append_nil] at kept
  | start t | acquired t | handlerEnds t _ | settlementEnds t _ | cancelTask t =>
    obtain ⟨task, at_t, hs⟩ := Option.bind_eq_some_iff.mp hs
    exact stepTask_slotStep at_t hs

end Steps

def Holds (task : SlotTask Msg H) : Bool := task.stage.holds

def holders (s : State Msg H) : ℕ := s.tasks.countP Holds

/-- There is one semaphore at most, every task that has one has that one, and its free
slots and the holders add up. -/
inductive Slots (app : App Msg H) (s : State Msg H) : Prop where
  | unused (none : s.semaphore = none) (noObject : s.semaphores = [])
      (noTask : ∀ task ∈ s.tasks, task.stage.semaphore? = .none) : Slots app s
  | used (free : ℕ) (object : s.semaphore = some 0) (only : s.semaphores = [free])
      (same : ∀ task ∈ s.tasks, ∀ r, task.stage.semaphore? = some r → r = 0)
      (conserved : free + holders s = app.settings.rmqMaxConcurrentTasks) : Slots app s

section Invariant
variable {app : App Msg H} {s u : State Msg H}

theorem holds_semaphore {stage : SlotStage H} (holds : stage.holds = true) :
    ∃ r, stage.semaphore? = some r := by
  cases stage with
  | handling r _ _ | nacking r _ | leavingBlock r _ => exact ⟨r, rfl⟩
  | _ => cases holds

theorem holders_unused (noTask : ∀ task ∈ s.tasks, task.stage.semaphore? = none) :
    holders s = 0 := by
  refine List.countP_eq_zero.mpr (fun task mem holds => ?_)
  obtain ⟨r, here⟩ := holds_semaphore holds
  rw [noTask task mem] at here
  cases here

theorem holders_setStage {t : ℕ} {task : SlotTask Msg H} (at_t : s.tasks[t]? = some task)
    (stage : SlotStage H) : holders (s.setStage t task stage) +
      (if task.stage.holds = true then 1 else 0) =
        holders s + (if stage.holds = true then 1 else 0) :=
  countP_set_add at_t Holds { task with stage := stage }

theorem mem_setStage {t : ℕ} {task task' : SlotTask Msg H} {stage : SlotStage H}
    (mem : task' ∈ (s.setStage t task stage).tasks) : task' ∈ s.tasks ∨ task'.stage = stage := by
  rcases List.mem_or_eq_of_mem_set mem with old | rfl
  · exact .inl old
  · exact .inr rfl

theorem slots_setStage {t : ℕ} {task : SlotTask Msg H} {stage : SlotStage H} (h : Slots app s)
    (at_t : s.tasks[t]? = some task) (kept : stage.holds = task.stage.holds)
    (from_task : ∀ r, stage.semaphore? = some r → task.stage.semaphore? = some r) :
    Slots app (s.setStage t task stage) := by
  have mem := List.mem_of_getElem? at_t
  cases h with
  | unused none noObject noTask =>
    refine .unused none noObject (fun task' mem' => ?_)
    rcases mem_setStage mem' with old | new
    · exact noTask task' old
    · rw [new]
      cases hr : stage.semaphore? with
      | none => rfl
      | some r => rw [noTask task mem] at from_task; cases from_task r hr
  | used free object only same conserved =>
    refine .used free object only (fun task' mem' r hr => ?_) ?_
    · rcases mem_setStage mem' with old | new
      · exact same task' old r hr
      · rw [new] at hr
        exact same task mem r (from_task r hr)
    · have counted := holders_setStage at_t stage
      rw [kept] at counted
      omega

theorem slots_spawned (h : Slots app s) (loop : Loop) (channels : ℕ)
    {spawned : List (SlotTask Msg H)} (created : ∀ task ∈ spawned, task.stage = .created) :
    Slots app { s with loop := loop, channels := channels, tasks := s.tasks ++ spawned } := by
  have fresh : ∀ task ∈ spawned, task.stage.semaphore? = none := fun task mem => by
    rw [created task mem]
    rfl
  cases h with
  | unused none noObject noTask =>
    refine .unused none noObject (fun task mem => ?_)
    rcases List.mem_append.mp mem with old | new
    · exact noTask task old
    · exact fresh task new
  | used free object only same conserved =>
    refine .used free object only (fun task mem r hr => ?_) ?_
    · rcases List.mem_append.mp mem with old | new
      · exact same task old r hr
      · rw [fresh task new] at hr
        cases hr
    · have idle : spawned.countP Holds = 0 := List.countP_eq_zero.mpr (fun task mem holds => by
        rw [Holds, created task mem] at holds
        cases holds)
      change free + (s.tasks ++ spawned).countP Holds = _
      rw [List.countP_append, idle, Nat.add_zero]
      exact conserved

theorem slots_started (h : Slots app s) {t : ℕ} {task : SlotTask Msg H}
    (at_t : s.tasks[t]? = some task) (created : task.stage = .created) :
    Slots app ((s.getSemaphore app).1.setStage t task (.waiting (s.getSemaphore app).2)) := by
  have counted (v : State Msg H) (tasks : v.tasks = s.tasks) (r : ℕ) :
      holders (v.setStage t task (.waiting r)) = holders s := by
    have counted := holders_setStage (s := v) (tasks ▸ at_t) (.waiting r)
    rw [created] at counted
    have same : holders v = holders s := by rw [holders, holders, tasks]
    simpa [SlotStage.holds, same] using counted
  cases h with
  | unused none noObject noTask =>
    refine .used app.settings.rmqMaxConcurrentTasks ?_ ?_ (fun task' mem r hr => ?_) ?_
    · simp [State.getSemaphore, none, noObject, State.setStage]
    · simp [State.getSemaphore, none, noObject, State.setStage]
    · rcases mem_setStage mem with old | new
      · simp only [State.getSemaphore, none] at old
        rw [noTask task' old] at hr
        cases hr
      · rw [new] at hr
        simp only [State.getSemaphore, none, noObject] at hr
        exact (Option.some.inj hr).symm
    · rw [counted _ (by simp [State.getSemaphore, none]), holders_unused noTask]
      rfl
  | used free object only same conserved =>
    have got : s.getSemaphore app = (s, 0) := by simp [State.getSemaphore, object]
    rw [got]
    refine .used free object only (fun task' mem r hr => ?_) ?_
    · rcases mem_setStage mem with old | new
      · exact same task' old r hr
      · rw [new] at hr
        exact (Option.some.inj hr).symm
    · rw [counted s rfl]
      exact conserved

theorem slots_acquired (h : Slots app s) {t r free : ℕ} {task : SlotTask Msg H}
    {stage : SlotStage H} (at_t : s.tasks[t]? = some task) (waiting : task.stage = .waiting r)
    (room : s.semaphores[r]? = some (free + 1)) (holds : stage.holds = true)
    (here : stage.semaphore? = some r) :
    Slots app (State.setStage { s with semaphores := s.semaphores.set r free } t task stage) := by
  cases h with
  | unused _ noObject _ =>
    rw [noObject] at room
    cases room
  | used free' object only same conserved =>
    have zero : r = 0 := same task (List.mem_of_getElem? at_t) r (by rw [waiting]; rfl)
    subst zero
    rw [only] at room
    cases room
    refine .used free object (by simp [State.setStage, only]) (fun task' mem r hr => ?_) ?_
    · rcases mem_setStage mem with old | new
      · exact same task' old r hr
      · rw [new, here] at hr
        exact (Option.some.inj hr).symm
    · have counted := holders_setStage (s := { s with semaphores := s.semaphores.set 0 free })
        at_t stage
      rw [waiting, holds] at counted
      have before : holders { s with semaphores := s.semaphores.set 0 free } = holders s := rfl
      simp only [SlotStage.holds, Bool.false_eq_true, ↓reduceIte, before] at counted
      omega

theorem slots_released (h : Slots app s) {t r : ℕ} {task : SlotTask Msg H}
    (at_t : s.tasks[t]? = some task) (held : task.stage.holds = true)
    (here : task.stage.semaphore? = some r) (outcome : Except Exn Unit) :
    Slots app (s.endTask t task r outcome) := by
  cases h with
  | unused _ _ noTask =>
    rw [noTask task (List.mem_of_getElem? at_t)] at here
    cases here
  | used free object only same conserved =>
    have zero : r = 0 := same task (List.mem_of_getElem? at_t) r here
    subst zero
    refine .used (free + 1) object (by simp [State.endTask, State.release, State.setStage, only])
      (fun task' mem r hr => ?_) ?_
    · rcases mem_setStage mem with old | new
      · exact same task' old r hr
      · rw [new] at hr
        cases hr
    · have counted := holders_setStage at_t (.ended outcome)
      rw [held] at counted
      have after : holders (s.endTask t task 0 outcome) =
        holders (s.setStage t task (.ended outcome)) := rfl
      simp only [SlotStage.holds, Bool.false_eq_true, ↓reduceIte] at counted
      omega

theorem slots_step (h : Slots app s) (hs : SlotStep app s u) : Slots app u := by
  cases hs with
  | consumer loop channels spawned created => exact slots_spawned h loop channels created
  | started at_t created => exact slots_started h at_t created
  | acquired at_t waiting room holds here => exact slots_acquired h at_t waiting room holds here
  | moved at_t held holds same =>
    exact slots_setStage h at_t (by rw [held, holds]) (fun r hr => by rw [← same]; exact hr)
  | released at_t held here => exact slots_released h at_t held here _
  | cancelled at_t free =>
    exact slots_setStage h at_t (by rw [free]; rfl) (fun r hr => nomatch hr)

theorem semaphore_step {r : ℕ} (hs : SlotStep app s u) (made : s.semaphore = some r) :
    u.semaphore = some r := by
  cases hs with
  | started _ _ =>
    have got : s.getSemaphore app = (s, r) := by simp [State.getSemaphore, made]
    rw [got]
    exact made
  | _ => exact made

structure Conserved (app : App Msg H) (s : State Msg H) : Prop where
  cap : holders s ≤ app.settings.rmqMaxConcurrentTasks
  made : ∀ r, s.semaphore = some r → ∃ free, s.semaphores[r]? = some free ∧
    free + holders s = app.settings.rmqMaxConcurrentTasks
  unmade : s.semaphore = none → holders s = 0
  shared : ∀ task ∈ s.tasks, ∀ r, task.stage.semaphore? = some r → s.semaphore = some r
  inSlot : ∀ task ∈ s.tasks, task.stage.inHandler = true → Holds task = true ∧
    task.stage.semaphore? = s.semaphore

theorem conserved_of_slots (h : Slots app s) : Conserved app s := by
  have shared : ∀ task ∈ s.tasks, ∀ r, task.stage.semaphore? = some r → s.semaphore = some r := by
    intro task mem r hr
    cases h with
    | unused _ _ noTask =>
      rw [noTask task mem] at hr
      cases hr
    | used free object only same conserved => rw [object, same task mem r hr]
  have inSlot (task : SlotTask Msg H) (mem : task ∈ s.tasks)
      (running : task.stage.inHandler = true) : Holds task = true ∧
        task.stage.semaphore? = s.semaphore := by
    have holds : task.stage.holds = true := by
      cases hstage : task.stage with
      | handling _ _ _ => rfl
      | _ => rw [hstage] at running; cases running
    obtain ⟨r, hr⟩ := holds_semaphore holds
    exact ⟨holds, hr.trans (shared task mem r hr).symm⟩
  cases h with
  | unused none noObject noTask =>
    have nobody := holders_unused noTask
    refine ⟨by omega, fun r hr => ?_, fun _ => nobody, shared, inSlot⟩
    rw [none] at hr
    cases hr
  | used free object only same conserved =>
    refine ⟨by omega, fun r hr => ?_, fun none => ?_, shared, inSlot⟩
    · rw [object] at hr
      cases hr
      exact ⟨free, by rw [only]; rfl, conserved⟩
    · rw [object] at none
      cases none

/-- In every run no more tasks hold a slot than there are, no slot is lost, and the
semaphore that one task has used all later tasks use. -/
theorem slots_conserved {before after : List (SlotLabel Msg)}
    (start : Runs (step app) initial before s) (run : Runs (step app) s after u) :
    Conserved app u ∧ ∀ r, s.semaphore = some r → u.semaphore = some r := by
  have first : Slots app (initial : State Msg H) := .unused rfl rfl (by simp [initial])
  have slots {ls : List (SlotLabel Msg)} {s u : State Msg H} (run : Runs (step app) s ls u)
      (h : Slots app s) : Slots app u :=
    run.invariant (Slots app) h (fun _ _ _ h hs => slots_step h (step_slotStep hs))
  refine ⟨conserved_of_slots (slots run (slots start first)), fun r made => ?_⟩
  exact run.invariant (fun s => s.semaphore = some r) made
    (fun _ _ _ made hs => semaphore_step (step_slotStep hs) made)

end Invariant

section Examples

def untilAcquired : List (SlotLabel Unit) :=
  List.replicate 7 (.resume .returned) ++ [.resume (.yielded ()), .start 0, .acquired 0]

theorem userCreated_slots : ∃ s u, Runs (step userCreatedApp) initial untilAcquired s ∧
    Runs (step userCreatedApp) s [.handlerEnds 0 (.error .valueError),
      .settlementEnds 0 (.error .channelInvalidState), .settlementEnds 0 (.ok ())] u ∧
    holders s = 1 ∧ Conserved userCreatedApp s ∧ Conserved userCreatedApp u ∧ holders u = 0 := by
  obtain ⟨s, u, start, run, one, none⟩ : ∃ s u, Runs (step userCreatedApp) initial untilAcquired s ∧
      Runs (step userCreatedApp) s [.handlerEnds 0 (.error .valueError),
        .settlementEnds 0 (.error .channelInvalidState), .settlementEnds 0 (.ok ())] u ∧
      holders s = 1 ∧ holders u = 0 :=
    ⟨_, _, Runs.of_execute rfl, Runs.of_execute rfl, rfl, rfl⟩
  exact ⟨s, u, start, run, one, (slots_conserved start (.nil s)).1, (slots_conserved start run).1,
    none⟩

end Examples

end FastapiProject.MessageSlots
