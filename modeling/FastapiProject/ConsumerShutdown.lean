import FastapiProject.ConsumerLoop
import FastapiProject.ConsumerTrafficSteps

set_option autoImplicit false

/-!
# What a cancelled consumer does

From most awaits the cancellation unwinds both blocks and reaches the clause that
drains; from a sleep it ends the coroutine at once. An exception on the way takes the
place of the cancellation.
-/
namespace FastapiProject.ConsumerShutdown
open PythonExceptions MachineRuns ConsumerMessage ConsumerTraffic ConsumerTrafficSteps ConsumerLoop

variable {Msg H : Type}

def Pc.shuttingDown : Pc → Bool
  | .leavingIterator pending | .leavingConnection pending => decide (pending = some .cancelledError)
  | .draining | .closingConnection => true
  | .ended e => decide (e = .cancelledError)
  | _ => false

def Pc.unwindSteps : Pc → ℕ
  | .leavingIterator _ => 4
  | .leavingConnection _ => 3
  | .draining => 2
  | .closingConnection => 1
  | _ => 0

/-- A cancellation is on its way out, and nothing is left behind once it is past the drain. -/
def Loop.Unwinding (idle : Bool) (loop : Loop) : Prop :=
  Pc.shuttingDown loop.pc = true ∧
    (loop.pc = .closingConnection ∨ loop.pc = .ended .cancelledError →
      loop.drained = true ∧ idle = true)

section Loop
variable {idle : Bool} {loop loop' : Loop} {next : ℕ} {e : Exn} {reply : Reply Msg}
  {effect : Option (TrafficLabel Msg)}

theorem exceptClauses_other (he : e ≠ .cancelledError) :
    Pc.shuttingDown (loop.exceptClauses idle e).pc = false ∧
      (loop.exceptClauses idle e).drained = loop.drained := by
  unfold Loop.exceptClauses
  rw [if_neg he]
  split
  · exact ⟨rfl, rfl⟩
  · split
    · exact ⟨rfl, rfl⟩
    · split
      · exact ⟨rfl, rfl⟩
      · exact ⟨decide_eq_false he, rfl⟩

theorem exceptClauses_cancelled (idle : Bool) (loop : Loop) :
    Loop.Unwinding idle (loop.exceptClauses idle .cancelledError) ∧
      Pc.unwindSteps (loop.exceptClauses idle .cancelledError).pc ≤ 2 := by
  simp only [Loop.exceptClauses, reduceCtorEq, ↓reduceIte, Loop.drainTasks]
  cases idle with
  | false => exact ⟨⟨rfl, fun past => by simp at past⟩, Nat.le_refl _⟩
  | true =>
    simp only [↓reduceIte, Loop.afterDrain]
    split
    · exact ⟨⟨rfl, fun _ => ⟨rfl, rfl⟩⟩, by decide⟩
    · exact ⟨⟨rfl, fun _ => ⟨rfl, rfl⟩⟩, by decide⟩

theorem raise_other (he : e ≠ .cancelledError) (hr : loop.raise idle e = some loop') :
    Pc.shuttingDown loop'.pc = false ∧ loop'.drained = loop.drained := by
  have pending : some e ≠ some .cancelledError := fun same => he (Option.some.inj same)
  unfold Loop.raise at hr
  split at hr <;> cases hr
  · exact exceptClauses_other he
  · exact exceptClauses_other he
  all_goals first
    | exact ⟨decide_eq_false pending, rfl⟩
    | exact ⟨decide_eq_false he, rfl⟩

theorem resume_raised (hr : loop.resume idle next (.raised e) = some (loop', effect)) :
    Pc.shuttingDown loop'.pc = false ∧ loop'.drained = loop.drained := by
  simp only [Loop.resume] at hr
  split at hr
  · cases hr
  · rename_i he
    split at hr
    · obtain ⟨_, raised, same⟩ := Option.map_eq_some_iff.mp hr
      cases same
      have other := raise_other he raised
      exact other
    · obtain ⟨_, raised, same⟩ := Option.map_eq_some_iff.mp hr
      cases same
      have other := raise_other he raised
      exact other
    · cases hr
    · obtain ⟨_, raised, same⟩ := Option.map_eq_some_iff.mp hr
      cases same
      exact raise_other he raised

theorem resume_other (working : Pc.shuttingDown loop.pc = false)
    (hr : loop.resume idle next reply = some (loop', effect)) :
    Pc.shuttingDown loop'.pc = false ∧ loop'.drained = loop.drained := by
  cases reply with
  | raised e => exact resume_raised hr
  | yielded m =>
    simp only [Loop.resume] at hr
    split at hr <;> cases hr
    exact ⟨working, rfl⟩
  | exhausted =>
    simp only [Loop.resume] at hr
    split at hr <;> cases hr
    exact ⟨rfl, rfl⟩
  | returned =>
    cases hpc : loop.pc with
    | leavingIterator pending =>
      rw [hpc] at working
      simp only [Loop.resume, hpc] at hr
      cases hr
      exact ⟨working, rfl⟩
    | leavingConnection pending =>
      rw [hpc] at working
      cases pending with
      | none =>
        simp only [Loop.resume, hpc] at hr
        cases hr
        exact ⟨rfl, rfl⟩
      | some e =>
        simp only [Loop.resume, hpc] at hr
        cases hr
        refine exceptClauses_other (fun same => ?_)
        rw [same] at working
        cases working
    | draining | closingConnection =>
      rw [hpc] at working
      cases working
    | iterating | ended _ =>
      simp only [Loop.resume, hpc] at hr
      cases hr
    | _ =>
      simp only [Loop.resume, hpc] at hr
      cases hr
      exact ⟨rfl, rfl⟩

theorem resume_unwinding (h : Loop.Unwinding idle loop) (quiet : ∀ e, reply ≠ .raised e)
    (hr : loop.resume idle next reply = some (loop', effect)) :
    Loop.Unwinding idle loop' ∧ Pc.unwindSteps loop'.pc < Pc.unwindSteps loop.pc ∧
      (effect = none ∨ effect = some .closeChannel) := by
  obtain ⟨shutting, past⟩ := h
  have notIterating : loop.pc ≠ .iterating := by
    intro hpc
    rw [hpc] at shutting
    cases shutting
  cases reply with
  | raised e => exact absurd rfl (quiet e)
  | yielded m =>
    simp only [Loop.resume, if_neg notIterating] at hr
    cases hr
  | exhausted =>
    simp only [Loop.resume, if_neg notIterating] at hr
    cases hr
  | returned =>
    cases hpc : loop.pc with
    | leavingIterator pending =>
      rw [hpc] at shutting
      simp only [Loop.resume, hpc] at hr
      cases hr
      refine ⟨⟨shutting, fun gone => ?_⟩, Nat.lt_succ_self 3, .inl rfl⟩
      rcases gone with gone | gone <;> cases gone
    | leavingConnection pending =>
      rw [hpc] at shutting
      cases of_decide_eq_true shutting
      simp only [Loop.resume, hpc] at hr
      cases hr
      obtain ⟨unwinding, bound⟩ := exceptClauses_cancelled idle { loop with connection := some true }
      exact ⟨unwinding, Nat.lt_succ_of_le bound, .inr rfl⟩
    | draining =>
      simp only [Loop.resume, hpc] at hr
      split at hr <;> cases hr
      rename_i finished
      unfold Loop.Unwinding Loop.afterDrain
      dsimp only
      split
      · exact ⟨⟨rfl, fun _ => ⟨rfl, finished⟩⟩, by decide, .inl rfl⟩
      · exact ⟨⟨rfl, fun _ => ⟨rfl, finished⟩⟩, by decide, .inl rfl⟩
    | closingConnection =>
      simp only [Loop.resume, hpc] at hr
      cases hr
      exact ⟨⟨rfl, fun _ => past (.inl hpc)⟩, Nat.lt_succ_self 0, .inr rfl⟩
    | ended e =>
      simp only [Loop.resume, hpc] at hr
      cases hr
    | _ =>
      rw [hpc] at shutting
      cases shutting

theorem cancel_cases {isClosed : Bool} (hr : loop.cancel idle isClosed = some loop') :
    (loop.pc = .sleeping ∧ loop'.pc = .ended .cancelledError ∧ loop'.drained = loop.drained) ∨
    (loop.pc ≠ .sleeping ∧ Loop.Unwinding idle loop' ∧ Pc.unwindSteps loop'.pc ≤ 4) ∨
    Pc.shuttingDown loop.pc = true := by
  unfold Loop.cancel Loop.raise at hr
  cases hpc : loop.pc with
  | sleeping =>
    simp only [hpc] at hr
    cases hr
    exact .inl ⟨rfl, rfl, rfl⟩
  | connecting | leavingConnection _ =>
    simp only [hpc] at hr
    cases hr
    obtain ⟨unwinding, bound⟩ := exceptClauses_cancelled idle _
    exact .inr (.inl ⟨nofun, unwinding, Nat.le_trans bound (by decide)⟩)
  | draining | closingConnection => exact .inr (.inr rfl)
  | ended e =>
    simp only [hpc] at hr
    cases hr
  | _ =>
    simp only [hpc] at hr
    cases hr
    refine .inr (.inl ⟨nofun, ⟨rfl, fun gone => ?_⟩, by simp [Pc.unwindSteps]⟩)
    rcases gone with gone | gone <;> cases gone

theorem Loop.Unwinding.mono {idle' : Bool} (h : Loop.Unwinding idle loop)
    (le : idle = true → idle' = true) : Loop.Unwinding idle' loop :=
  ⟨h.1, fun past => ⟨(h.2 past).1, le (h.2 past).2⟩⟩

end Loop

def quiet : Label Msg → Bool
  | .cancel _ | .resume (.raised _) => false
  | .resume _ | .traffic _ => true

def isResume : Label Msg → Bool
  | .resume _ => true
  | .cancel _ | .traffic _ => false

def Unwinding (s : Consumer Msg H) : Prop := Loop.Unwinding s.traffic.idle s.loop

/-- The consumer ended with its cancellation, after the drain, and left no task behind. -/
def EndsDrained (s : Consumer Msg H) : Prop :=
  s.loop.pc = .ended .cancelledError ∧ s.loop.drained = true ∧ s.traffic.idle = true

def Settled (s : Consumer Msg H) : Prop := Pc.unwindSteps s.loop.pc = 0

section Ends
variable {u : Consumer Msg H}

theorem endsDrained_shuttingDown (h : EndsDrained u) : Pc.shuttingDown u.loop.pc = true := by
  rw [h.1]
  rfl

theorem endsDrained_of_settled (h : Unwinding u) (settled : Settled u) : EndsDrained u := by
  have ended : u.loop.pc = .ended .cancelledError := by
    obtain ⟨shutting, -⟩ := h
    unfold Settled at settled
    cases hpc : u.loop.pc with
    | ended e =>
      rw [hpc] at shutting
      rw [of_decide_eq_true shutting]
    | leavingIterator _ | leavingConnection _ | draining | closingConnection =>
      rw [hpc] at settled
      cases settled
    | _ =>
      rw [hpc] at shutting
      cases shutting
  obtain ⟨drained, idle⟩ := h.2 (.inr ended)
  exact ⟨ended, drained, idle⟩

end Ends

section Steps
variable [DecidableEq Msg] {app : App Msg H}

theorem idle_step {s u : Traffic Msg H} {l : TrafficLabel Msg} (hs : TrafficStep app s l u)
    (noSpawn : ∀ m, l ≠ .spawnTask m) (idle : s.idle = true) : u.idle = true := by
  have busy {t : ℕ} {task : MessageTask Msg H} (at_t : s.tasks[t]? = some task)
      (live : task.stage.finished = false) : u.idle = true := by
    have finished := List.all_eq_true.mp idle task (List.mem_of_getElem? at_t)
    rw [live] at finished
    cases finished
  cases hs with
  | published _ | opened | gone _ _ => exact idle
  | delivered _ _ _ | yieldedLate _ _ => exact absurd rfl (noSpawn _)
  | invoked at_t waiting _ | unrouted at_t waiting _ | cancelled at_t waiting =>
    exact busy at_t (by rw [waiting]; rfl)
  | handled at_t handling => exact busy at_t (by rw [handling]; rfl)

variable {s u : Consumer Msg H} {l : Label Msg} {ls : List (Label Msg)}

theorem unwinding_parts (h : Unwinding s) (hs : step app s l = some u) (hl : quiet l = true) :
    Loop.Unwinding s.traffic.idle u.loop ∧ (s.traffic.idle = true → u.traffic.idle = true) ∧
      Pc.unwindSteps u.loop.pc + (if isResume l then 1 else 0) ≤ Pc.unwindSteps s.loop.pc := by
  rcases step_cases hs with ⟨reply, effect, rfl, resumed, performed⟩ | ⟨_, rfl, -, -⟩ |
    ⟨tl, rfl, permits, moved, loop⟩
  · have calm : ∀ e, reply ≠ .raised e := by
      rintro e rfl
      cases hl
    obtain ⟨next, less, effects⟩ := resume_unwinding h calm resumed
    refine ⟨next, fun idle => ?_, less⟩
    rcases effects with rfl | rfl
    · have same : s.traffic = u.traffic := Option.some.inj performed
      rwa [← same]
    · have moved : s.traffic.step app .closeChannel = some u.traffic := performed
      exact idle_step (step_trafficStep moved) (fun _ => nofun) idle
  · cases hl
  · rw [loop]
    refine ⟨h, idle_step (step_trafficStep moved) ?_, Nat.le_refl _⟩
    rintro m rfl
    cases permits

theorem unwinding_step (h : Unwinding s) (hs : step app s l = some u) (hl : quiet l = true) :
    Unwinding u ∧
      Pc.unwindSteps u.loop.pc + (if isResume l then 1 else 0) ≤ Pc.unwindSteps s.loop.pc := by
  obtain ⟨next, idle, less⟩ := unwinding_parts h hs hl
  exact ⟨next.mono idle, less⟩

theorem astray_step (h : Pc.shuttingDown s.loop.pc = false) (hs : step app s l = some u)
    (hl : ∀ b, l ≠ .cancel b) :
    Pc.shuttingDown u.loop.pc = false ∧ u.loop.drained = s.loop.drained := by
  rcases step_cases hs with ⟨reply, effect, rfl, resumed, -⟩ | ⟨b, rfl, -, -⟩ | ⟨_, rfl, -, -, loop⟩
  · exact resume_other h resumed
  · exact absurd rfl (hl b)
  · rw [loop]
    exact ⟨h, rfl⟩

theorem astray_run (h : Pc.shuttingDown s.loop.pc = false) (run : Runs (step app) s ls u)
    (once : ∀ b, .cancel b ∉ ls) :
    Pc.shuttingDown u.loop.pc = false ∧ u.loop.drained = s.loop.drained := by
  induction run with
  | nil s => exact ⟨h, rfl⟩
  | cons enabled _ _ ih =>
    obtain ⟨next, same⟩ := astray_step h enabled (fun b hb => once b (hb ▸ List.mem_cons_self))
    obtain ⟨last, same'⟩ := ih next (fun b hb => once b (List.mem_cons_of_mem _ hb))
    exact ⟨last, same'.trans same⟩

theorem unwinding_run (h : Unwinding s) (run : Runs (step app) s ls u)
    (calm : ∀ l ∈ ls, quiet l = true) :
    Unwinding u ∧ Pc.unwindSteps u.loop.pc + ls.countP isResume ≤ Pc.unwindSteps s.loop.pc := by
  induction run with
  | nil s => exact ⟨h, Nat.le_refl _⟩
  | @cons s u v l ls enabled _ _ ih =>
    obtain ⟨next, less⟩ := unwinding_step h enabled (calm l List.mem_cons_self)
    obtain ⟨last, less'⟩ := ih next (fun l hl => calm l (List.mem_cons_of_mem _ hl))
    refine ⟨last, ?_⟩
    rw [List.countP_cons]
    omega

theorem raised_run (h : Unwinding s) (run : Runs (step app) s ls u) (once : ∀ b, .cancel b ∉ ls)
    (raised : ¬ ∀ l ∈ ls, quiet l = true) : Pc.shuttingDown u.loop.pc = false := by
  induction run with
  | nil s => exact absurd (fun _ hl => nomatch hl) raised
  | @cons s u v l ls enabled _ tail ih =>
    have once' : ∀ b, .cancel b ∉ ls := fun b hb => once b (List.mem_cons_of_mem _ hb)
    cases hl : quiet l with
    | true =>
      refine ih (unwinding_step h enabled hl).1 once' (fun calm => raised ?_)
      intro l' hl'
      rcases List.mem_cons.mp hl' with rfl | hl'
      · exact hl
      · exact calm l' hl'
    | false =>
      rcases step_cases enabled with ⟨reply, effect, rfl, resumed, -⟩ | ⟨b, rfl, -, -⟩ |
        ⟨_, rfl, -, -, -⟩
      · cases reply with
        | raised e => exact (astray_run (resume_raised resumed).1 tail once').1
        | _ => cases hl
      · exact absurd List.mem_cons_self (once b)
      · cases hl

theorem ended_step {e : Exn} (h : s.loop.pc = .ended e) (hs : step app s l = some u) :
    u.loop = s.loop := by
  rcases step_cases hs with ⟨reply, effect, rfl, resumed, -⟩ | ⟨b, rfl, cancelled, -⟩ |
    ⟨_, rfl, -, -, loop⟩
  · cases reply <;> simp [Consumer.resumed, Loop.resume, Loop.raise, h] at resumed
  · simp [Loop.cancel, Loop.raise, h] at cancelled
  · exact loop

theorem ended_run {e : Exn} (h : s.loop.pc = .ended e) (run : Runs (step app) s ls u) :
    u.loop = s.loop := by
  induction run with
  | nil s => rfl
  | cons enabled _ _ ih =>
    have same := ended_step h enabled
    exact (ih (by rw [same]; exact h)).trans same

end Steps

section Completion
variable [DecidableEq Msg] {app : App Msg H} {s : Consumer Msg H}

theorem finish_task (app : App Msg H) {t : ℕ} {task : MessageTask Msg H}
    (at_t : s.traffic.tasks[t]? = some task) (live : task.stage.finished = false) : ∃ l u o, quiet l = true ∧ step app s l = some u ∧
      u.traffic.tasks = (s.traffic.setStage t task (.ended o)).tasks := by
  cases stage : task.stage with
  | waiting =>
    refine ⟨.traffic (.cancelWaiting t),
      ⟨s.loop, s.traffic.setStage t task (.ended (.error .cancelledError))⟩, _, rfl, ?_, rfl⟩
    simp only [step, Consumer.permits, ↓reduceIte, Traffic.step, at_t, stage, Option.bind_eq_bind,
      Option.bind_some]
    rfl
  | handling h body =>
    refine ⟨.traffic (.handlerEnds t (.ok ())),
      ⟨s.loop, { s.traffic.endTask t task (executeHandler (.ok ())) with
        handled := s.traffic.handled ++ [(task.message, .ok ())] }⟩,
      (process false (executeHandler (.ok ())) { channel := s.traffic.channel task.channel }).1,
      rfl, ?_, rfl⟩
    simp only [step, Consumer.permits, ↓reduceIte, Traffic.step, at_t, stage,
      Option.bind_eq_bind, Option.bind_some]
    rfl
  | ended o =>
    rw [stage] at live
    cases live

theorem finish_tasks (app : App Msg H) (s : Consumer Msg H) (k : ℕ) : ∃ ls u, Runs (step app) s ls u ∧
    (∀ l ∈ ls, quiet l = true) ∧ u.traffic.tasks.length = s.traffic.tasks.length ∧
    ∀ t task, t < k → u.traffic.tasks[t]? = some task → task.stage.finished = true := by
  induction k with
  | zero => exact ⟨[], s, .nil s, fun _ => nofun, rfl, fun _ _ h => nomatch h⟩
  | succ k ih =>
    obtain ⟨ls, u, run, calm, length, finished⟩ := ih
    have extend (here : ∀ task, u.traffic.tasks[k]? = some task → task.stage.finished = true) :
        ∀ t task, t < k + 1 → u.traffic.tasks[t]? = some task → task.stage.finished = true := by
      intro t task le at_t
      rcases Nat.lt_succ_iff_lt_or_eq.mp le with lt | rfl
      · exact finished t task lt at_t
      · exact here task at_t
    cases at_k : u.traffic.tasks[k]? with
    | none => exact ⟨ls, u, run, calm, length, extend (fun task h => by rw [at_k] at h; cases h)⟩
    | some task =>
      cases live : task.stage.finished with
      | true =>
        refine ⟨ls, u, run, calm, length, extend (fun task' h => ?_)⟩
        cases at_k.symm.trans h
        exact live
      | false =>
        obtain ⟨l, v, o, hl, moved, tasks⟩ := finish_task app at_k live
        refine ⟨ls ++ [l], v, run.append (.single moved trivial), ?_, ?_, ?_⟩
        · intro l' hl'
          rcases List.mem_append.mp hl' with hl' | hl'
          · exact calm l' hl'
          · rw [List.mem_singleton.mp hl']
            exact hl
        · rw [tasks, ← length]
          exact List.length_set
        · intro t task' le at_t
          rw [tasks, setStage_tasks at_k] at at_t
          split at at_t
          · cases at_t
            rfl
          · exact finished t task' (by omega) at_t

theorem returned_enabled (app : App Msg H) (h : Unwinding s) (idle : s.traffic.idle = true) :
    s.loop.pc = .ended .cancelledError ∨ ∃ u, step app s (.resume .returned) = some u := by
  obtain ⟨shutting, -⟩ := h
  cases hpc : s.loop.pc with
  | leavingIterator pending =>
    exact .inr ⟨_, by simp only [step, Consumer.resumed, Loop.resume, hpc]; rfl⟩
  | leavingConnection pending =>
    rw [hpc] at shutting
    cases of_decide_eq_true shutting
    exact .inr ⟨_, by simp only [step, Consumer.resumed, Loop.resume, hpc]; rfl⟩
  | draining =>
    exact .inr ⟨_, by simp only [step, Consumer.resumed, Loop.resume, hpc, idle, ↓reduceIte]; rfl⟩
  | closingConnection =>
    exact .inr ⟨_, by simp only [step, Consumer.resumed, Loop.resume, hpc]; rfl⟩
  | ended e =>
    rw [hpc] at shutting
    cases of_decide_eq_true shutting
    exact .inl rfl
  | _ =>
    rw [hpc] at shutting
    cases shutting

theorem idle_completes (n : ℕ) (h : Unwinding s) (idle : s.traffic.idle = true)
    (lt : Pc.unwindSteps s.loop.pc < n) :
    ∃ ls u, Runs (step app) s ls u ∧ (∀ l ∈ ls, quiet l = true) ∧ EndsDrained u := by
  induction n generalizing s with
  | zero => omega
  | succ n ih =>
    rcases returned_enabled app h idle with hpc | ⟨u, moved⟩
    · exact ⟨[], s, .nil s, fun _ => nofun, hpc, (h.2 (.inr hpc)).1, idle⟩
    · obtain ⟨next, idle', less⟩ := unwinding_parts h moved rfl
      change Pc.unwindSteps u.loop.pc + 1 ≤ _ at less
      obtain ⟨ls, v, run, calm, ends⟩ := ih (next.mono idle') (idle' idle) (by omega)
      refine ⟨.resume .returned :: ls, v, .cons moved trivial run, fun l hl => ?_, ends⟩
      rcases List.mem_cons.mp hl with rfl | hl
      · rfl
      · exact calm l hl

theorem unwinding_completes (app : App Msg H) (h : Unwinding s) :
    ∃ ls u, Runs (step app) s ls u ∧ (∀ l ∈ ls, quiet l = true) ∧ EndsDrained u := by
  obtain ⟨ls, u, run, calm, length, finished⟩ := finish_tasks app s s.traffic.tasks.length
  obtain ⟨next, -⟩ := unwinding_run h run calm
  have idle : u.traffic.idle = true := by
    refine List.all_eq_true.mpr (fun task htask => ?_)
    obtain ⟨t, inside, rfl⟩ := List.getElem_of_mem htask
    exact finished t _ (by omega) (List.getElem?_eq_getElem inside)
  obtain ⟨ls', v, run', calm', ends⟩ := idle_completes _ next idle (Nat.lt_succ_self _)
  refine ⟨ls ++ ls', v, run.append run', fun l hl => ?_, ends⟩
  rcases List.mem_append.mp hl with hl | hl
  · exact calm l hl
  · exact calm' l hl

end Completion

section Shutdown
variable [DecidableEq Msg] {app : App Msg H} {s s' u : Consumer Msg H}
  {before ls : List (Label Msg)} {isClosed : Bool}

theorem undrained_run (start : Runs (step app) Consumer.initial before s)
    (first : ∀ b, .cancel b ∉ before) :
    Pc.shuttingDown s.loop.pc = false ∧ s.loop.drained = false :=
  astray_run rfl start first

/-- A consumer that is cancelled ends by the cancellation, drained and with no task left,
exactly when it was not asleep before a retry and nothing raises while it unwinds; it
then ends after at most four further awaits, and nothing can keep it from ending. -/
theorem cancelled_endsDrained_iff (start : Runs (step app) Consumer.initial before s)
    (first : ∀ b, .cancel b ∉ before) (cancelled : step app s (.cancel isClosed) = some s')
    (run : Runs (step app) s' ls u) (once : ∀ b, .cancel b ∉ ls) :
    (Settled u →
      (EndsDrained u ↔ s.loop.pc ≠ .sleeping ∧ ∀ e, .resume (.raised e) ∉ ls)) ∧
    (s.loop.pc ≠ .sleeping → (∀ e, .resume (.raised e) ∉ ls) →
      ls.countP isResume ≤ 4 ∧
      ∃ ms v, Runs (step app) u ms v ∧ (∀ l ∈ ms, quiet l = true) ∧ EndsDrained v) := by
  obtain ⟨working, undrained⟩ := undrained_run start first
  have calm : (∀ e, .resume (.raised e) ∉ ls) ↔ ∀ l ∈ ls, quiet l = true := by
    constructor
    · intro h l hl
      match l with
      | .cancel b => exact absurd hl (once b)
      | .resume (.raised e) => exact absurd hl (h e)
      | .resume .returned | .resume (.yielded _) | .resume .exhausted | .traffic _ => rfl
    · intro h e he
      cases h _ he
  rw [calm]
  rcases step_cases cancelled with ⟨_, _, hl, -, -⟩ | ⟨_, hl, moved, same⟩ | ⟨_, hl, -, -, -⟩
  · cases hl
  · cases hl
    rcases cancel_cases moved with ⟨asleep, ended, kept⟩ | ⟨awake, unwinding, bound⟩ | shutting
    · refine ⟨fun _ => iff_of_false (fun h => ?_) (fun h => h.1 asleep), fun awake => absurd asleep awake⟩
      have drained := h.2.1
      rw [ended_run ended run, kept, undrained] at drained
      cases drained
    · have cancelled : Unwinding s' := by
        unfold Unwinding
        rwa [same]
      constructor
      · intro settled
        constructor
        · intro h
          refine ⟨awake, ?_⟩
          by_contra raised
          have lost := raised_run cancelled run once raised
          rw [endsDrained_shuttingDown h] at lost
          cases lost
        · intro h
          exact endsDrained_of_settled (unwinding_run cancelled run h.2).1 settled
      · intro _ h
        obtain ⟨last, steps⟩ := unwinding_run cancelled run h
        exact ⟨by omega, unwinding_completes app last⟩
    · rw [working] at shutting
      cases shutting
  · cases hl

end Shutdown

section Examples

def untilAsleep : List (Label Unit) :=
  untilHandling ++ [.resume (.raised .amqpConnectionError), .resume .returned, .resume .returned]

theorem cancelled_asleep_abandons_task : ¬ ∀ before s isClosed s' ls u,
    Runs (step userCreatedApp) Consumer.initial before s → (∀ b, .cancel b ∉ before) →
      step userCreatedApp s (.cancel isClosed) = some s' → Runs (step userCreatedApp) s' ls u →
        (∀ b, .cancel b ∉ ls) → Settled u → EndsDrained u := by
  intro h
  have ends := h untilAsleep _ false _ [] _ (Runs.of_execute rfl) (by simp [untilAsleep, untilHandling])
    rfl (.nil _) (fun _ => nofun) rfl
  exact absurd ends.2.1 (by decide)

def duringDrain : List (Label Unit) :=
  [.resume .returned, .resume .returned, .traffic (.handlerEnds 0 (.ok ())), .resume .returned]

theorem cancelled_iterating_drains : ∃ s s' u,
    Runs (step userCreatedApp) Consumer.initial untilHandling s ∧
      step userCreatedApp s (.cancel false) = some s' ∧
      Runs (step userCreatedApp) s' duringDrain u ∧ EndsDrained u := by
  obtain ⟨s, s', u, start, cancelled, run, settled, awake⟩ : ∃ s s' u,
      Runs (step userCreatedApp) Consumer.initial untilHandling s ∧
        step userCreatedApp s (.cancel false) = some s' ∧
        Runs (step userCreatedApp) s' duringDrain u ∧ Settled u ∧ s.loop.pc ≠ .sleeping :=
    ⟨_, _, _, Runs.of_execute rfl, rfl, Runs.of_execute rfl, rfl, nofun⟩
  have shutdown := cancelled_endsDrained_iff start (by simp [untilHandling]) cancelled run
    (by simp [duringDrain])
  exact ⟨s, s', u, start, cancelled, run, (shutdown.1 settled).mpr ⟨awake, by simp [duringDrain]⟩⟩

end Examples

end FastapiProject.ConsumerShutdown
