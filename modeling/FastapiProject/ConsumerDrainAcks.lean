import FastapiProject.ConsumerShutdown

set_option autoImplicit false

/-!
# What the drain can still acknowledge

The cancellation leaves `async with connection` before it reaches the clause that
drains, so every channel is closed by the time a handler finishes there.
-/
namespace FastapiProject.ConsumerDrainAcks
open PythonExceptions MachineRuns ConsumerMessage ConsumerTraffic ConsumerTrafficSteps ConsumerLoop
  ConsumerShutdown

variable {Msg H : Type}

def Pc.insideConnection : Pc → Bool
  | .leavingConnection _ => true
  | pc => pc.holdsChannel

structure OneChannel (s : Consumer Msg H) : Prop where
  old : ∀ c, c ≠ s.traffic.current → s.traffic.channel c = .closed
  outside : Pc.insideConnection s.loop.pc = false → s.traffic.channel s.traffic.current = .closed

/-- The broker has taken the acknowledgement that task `t` ended with. -/
def AckAccepted (t : ℕ) (s : Consumer Msg H) : Prop :=
  ∃ task, s.traffic.tasks[t]? = some task ∧ task.stage = .ended (.ok ()) ∧
    s.traffic.place task.message = .acked

theorem oneChannel_initial : OneChannel (Consumer.initial : Consumer Msg H) :=
  ⟨fun _ _ => rfl, fun _ => rfl⟩

theorem resume_channel {idle : Bool} {loop loop' : Loop} {next : ℕ} {reply : Reply Msg}
    {effect : Option (TrafficLabel Msg)}
    (hr : loop.resume idle next reply = some (loop', effect)) :
    (effect = some .openChannel → Pc.insideConnection loop.pc = false ∧
      Pc.insideConnection loop'.pc = true) ∧
    (effect = some .closeChannel ∨ Pc.insideConnection loop'.pc = true ∨
      Pc.insideConnection loop.pc = false) := by
  cases reply with
  | yielded m =>
    simp only [Loop.resume] at hr
    split at hr <;> cases hr
    rename_i hpc
    exact ⟨by rintro ⟨⟩, .inr (.inl (by rw [hpc]; rfl))⟩
  | exhausted =>
    simp only [Loop.resume] at hr
    split at hr <;> cases hr
    exact ⟨by rintro ⟨⟩, .inr (.inl rfl)⟩
  | returned =>
    cases hpc : loop.pc with
    | leavingConnection pending =>
      cases pending with
      | none | some _ =>
        simp only [Loop.resume, hpc] at hr
        cases hr
        exact ⟨by rintro ⟨⟩, .inl rfl⟩
    | openingChannel =>
      simp only [Loop.resume, hpc] at hr
      cases hr
      exact ⟨fun _ => ⟨rfl, rfl⟩, .inr (.inl rfl)⟩
    | draining =>
      simp only [Loop.resume, hpc] at hr
      split at hr <;> cases hr
      exact ⟨by rintro ⟨⟩, .inr (.inr rfl)⟩
    | iterating | ended _ =>
      simp only [Loop.resume, hpc] at hr
      cases hr
    | connecting | sleeping | closingConnection =>
      simp only [Loop.resume, hpc] at hr
      cases hr
      exact ⟨by rintro ⟨⟩, .inr (.inr rfl)⟩
    | _ =>
      simp only [Loop.resume, hpc] at hr
      cases hr
      exact ⟨by rintro ⟨⟩, .inr (.inl rfl)⟩
  | raised e =>
    simp only [Loop.resume] at hr
    split at hr
    · cases hr
    · cases hpc : loop.pc with
      | leavingConnection _ | closingConnection =>
        simp only [hpc] at hr
        obtain ⟨_, -, same⟩ := Option.map_eq_some_iff.mp hr
        cases same
        exact ⟨by rintro ⟨⟩, .inl rfl⟩
      | draining =>
        simp only [hpc] at hr
        cases hr
      | connecting | sleeping | ended _ | openingChannel =>
        simp only [hpc] at hr
        obtain ⟨_, -, same⟩ := Option.map_eq_some_iff.mp hr
        cases same
        exact ⟨by rintro ⟨⟩, .inr (.inr rfl)⟩
      | _ =>
        simp only [hpc, Loop.raise, Option.map_some] at hr
        cases hr
        exact ⟨by rintro ⟨⟩, .inr (.inl rfl)⟩

section Held
variable {app : App Msg H} {s u : Traffic Msg H} {l : TrafficLabel Msg} {t k : ℕ} {m : Msg}
  {task : MessageTask Msg H}

def Held (t : ℕ) (m : Msg) (s : Traffic Msg H) : Prop :=
  (∃ c, s.place m = .unacked c t) ∨ s.place m = .ready true

def Live (t : ℕ) (s : Traffic Msg H) : Prop :=
  ∃ task, s.tasks[t]? = some task ∧ task.stage.finished = false

theorem live_setStage {stage : Stage H} (at_k : s.tasks[k]? = some task)
    (was : task.stage.finished = false) (tasks : u.tasks = (s.setStage k task stage).tasks)
    (live : Live t u) : Live t s ∧ (stage.finished = true → t ≠ k) := by
  obtain ⟨task', at_t, unfinished⟩ := live
  rw [tasks, setStage_tasks at_k] at at_t
  split at at_t
  · rename_i same
    subst same
    cases at_t
    exact ⟨⟨task, at_k, was⟩, fun finished => by rw [unfinished] at finished; cases finished⟩
  · exact ⟨⟨task', at_t, unfinished⟩, fun _ => ‹_›⟩

variable [DecidableEq Msg]

theorem held_receive {sent : List Settlement} (ne : t ≠ k) (held : Held t m s)
    (place : u.place m = s.receive k task sent m) : Held t m u := by
  unfold Held at held ⊢
  rw [place, receive_keeps]
  · exact held
  · rcases held with ⟨c, hp⟩ | hp
    · rw [hp]
      exact fun same => ne (Place.unacked.inj same).2
    · rw [hp]
      exact nofun

theorem held_step (hs : TrafficStep app s l u) (noSpawn : ∀ m, l ≠ .spawnTask m)
    (live : Live t u) : Live t s ∧ (Held t m s → Held t m u) := by
  cases hs with
  | @published k new =>
    refine ⟨live, fun held => ?_⟩
    have ne : m ≠ k := by
      rintro rfl
      rcases held with ⟨c, hp⟩ | hp <;> cases new.symm.trans hp
    rcases held with ⟨c, hp⟩ | hp
    · exact .inl ⟨c, (Function.update_of_ne ne _ _).trans hp⟩
    · exact .inr ((Function.update_of_ne ne _ _).trans hp)
  | delivered _ _ _ | yieldedLate _ _ => exact absurd rfl (noSpawn _)
  | opened => exact ⟨live, id⟩
  | gone _ _ =>
    refine ⟨live, fun held => ?_⟩
    rcases held with ⟨c, hp⟩ | hp
    · by_cases last : c = s.current
      · exact .inr (by simp [Traffic.closing, Traffic.requeued, hp, last])
      · exact .inl ⟨c, requeued_unacked.mpr ⟨hp, last⟩⟩
    · exact .inr ((requeued_keeps (by simp [hp])).trans hp)
  | invoked at_k waiting _ => exact ⟨(live_setStage at_k (by rw [waiting]; rfl) rfl live).1, id⟩
  | @unrouted k free task outcome at_k waiting _ =>
    obtain ⟨before, other⟩ := live_setStage at_k (by rw [waiting]; rfl) endTask_tasks live
    exact ⟨before, fun held => held_receive (other rfl) held rfl⟩
  | @handled k task h body outcome at_k handling =>
    obtain ⟨before, other⟩ := live_setStage at_k (by rw [handling]; rfl) rfl live
    exact ⟨before, fun held => held_receive (other rfl) held rfl⟩
  | cancelled at_k waiting => exact ⟨(live_setStage at_k (by rw [waiting]; rfl) rfl live).1, id⟩

end Held

section Steps
variable [DecidableEq Msg] {app : App Msg H} {s u : Consumer Msg H} {l : Label Msg}
  {ls : List (Label Msg)}

theorem oneChannel_traffic {tl : TrafficLabel Msg} (h : OneChannel s)
    (moved : s.traffic.step app tl = some u.traffic)
    (opens : tl = .openChannel → Pc.insideConnection u.loop.pc = true ∧
      s.traffic.channel s.traffic.current = .closed)
    (leaves : tl = .closeChannel ∨ Pc.insideConnection u.loop.pc = true ∨
      Pc.insideConnection s.loop.pc = false) : OneChannel u := by
  rcases step_channel (step_trafficStep moved) with ⟨stays, channel, current⟩ |
    ⟨hl, current, channel⟩ | ⟨state, current, channel, gone, closes⟩
  · refine ⟨fun c hc => ?_, fun outside => ?_⟩
    · rw [current] at hc
      rw [channel]
      exact h.old c hc
    · rw [channel, current]
      rcases leaves with closed | inside | outside'
      · exact absurd closed stays
      · rw [outside] at inside
        cases inside
      · exact h.outside outside'
  · obtain ⟨inside, closed⟩ := opens hl
    refine ⟨fun c hc => ?_, fun outside => ?_⟩
    · rw [current] at hc
      rw [channel, Function.update_of_ne hc]
      by_cases last : c = s.traffic.current
      · rw [last]
        exact closed
      · exact h.old c last
    · rw [outside] at inside
      cases inside
  · refine ⟨fun c hc => ?_, fun outside => ?_⟩
    · rw [current] at hc
      rw [channel, Function.update_of_ne hc]
      exact h.old c hc
    · rw [channel, current, Function.update_self]
      rcases leaves with closed | inside | outside'
      · exact closes closed
      · rw [outside] at inside
        cases inside
      · rcases gone with closed | isOpen
        · exact closed
        · rw [h.outside outside'] at isOpen
          cases isOpen

theorem oneChannel_step (h : OneChannel s) (hs : step app s l = some u)
    (hl : ∀ b, l ≠ .cancel b) : OneChannel u := by
  rcases step_cases hs with ⟨reply, effect, rfl, resumed, performed⟩ | ⟨b, rfl, -, -⟩ |
    ⟨tl, rfl, permits, moved, loop⟩
  · obtain ⟨opens, leaves⟩ := resume_channel resumed
    cases effect with
    | none =>
      have same : s.traffic = u.traffic := Option.some.inj performed
      refine ⟨fun c hc => ?_, fun outside => ?_⟩
      · rw [← same] at hc ⊢
        exact h.old c hc
      · rw [← same]
        rcases leaves with closed | inside | outside'
        · cases closed
        · rw [outside] at inside
          cases inside
        · exact h.outside outside'
    | some tl =>
      have moved : s.traffic.step app tl = some u.traffic := performed
      refine oneChannel_traffic h moved (fun opened => ?_) ?_
      · obtain ⟨outside, inside⟩ := opens (by rw [opened])
        exact ⟨inside, h.outside outside⟩
      · exact leaves.imp_left Option.some.inj
  · exact absurd rfl (hl b)
  · refine oneChannel_traffic h moved (fun opened => ?_) (.inr ?_)
    · subst opened
      simp only [Consumer.permits, Bool.and_eq_true, beq_iff_eq] at permits
      obtain ⟨holds, closed⟩ := permits
      rw [loop]
      refine ⟨?_, closed⟩
      cases hpc : s.loop.pc <;> rw [hpc] at holds <;> first | exact holds | rfl
    · rw [loop]
      cases Pc.insideConnection s.loop.pc with
      | true => exact .inl rfl
      | false => exact .inr rfl

theorem oneChannel_run (h : OneChannel s) (run : Runs (step app) s ls u)
    (once : ∀ b, .cancel b ∉ ls) : OneChannel u := by
  induction run with
  | nil s => exact h
  | cons enabled _ _ ih =>
    have next := oneChannel_step h enabled (fun b hb => once b (hb ▸ List.mem_cons_self))
    exact ih next (fun b hb => once b (List.mem_cons_of_mem _ hb))

theorem inv_run (h : Inv app s.traffic) (run : Runs (step app) s ls u) : Inv app u.traffic := by
  refine Runs.invariant (fun s => Inv app s.traffic) run h (fun s l u inv enabled => ?_)
  rcases step_traffic enabled with ⟨same, -⟩ | ⟨tl, moved, -⟩
  · rwa [same]
  · exact inv_step inv (step_trafficStep moved)

theorem shutting_noSpawn (shutting : Pc.shuttingDown s.loop.pc = true)
    (hs : step app s l = some u) : u.traffic = s.traffic ∨
      ∃ tl, TrafficStep app s.traffic tl u.traffic ∧ ∀ m, tl ≠ .spawnTask m := by
  rcases step_cases hs with ⟨reply, effect, rfl, resumed, performed⟩ | ⟨b, rfl, -, same⟩ |
    ⟨tl, rfl, permits, moved, loop⟩
  · cases effect with
    | none => exact .inl (Option.some.inj performed).symm
    | some tl =>
      refine .inr ⟨tl, step_trafficStep performed, fun m hm => ?_⟩
      rcases resume_effect resumed with rfl | rfl | ⟨iterating, -⟩
      · cases hm
      · cases hm
      · rw [iterating] at shutting
        cases shutting
  · exact .inl same
  · refine .inr ⟨tl, step_trafficStep moved, ?_⟩
    rintro m rfl
    cases permits

theorem held_run {t : ℕ} {m : Msg} (run : Runs (step app) s ls u) (once : ∀ b, .cancel b ∉ ls)
    (shutting : Pc.shuttingDown u.loop.pc = true) (live : Live t u.traffic) :
    Live t s.traffic ∧ (Held t m s.traffic → Held t m u.traffic) := by
  induction run with
  | nil s => exact ⟨live, id⟩
  | @cons s u v l ls enabled _ tail ih =>
    have once' : ∀ b, .cancel b ∉ ls := fun b hb => once b (List.mem_cons_of_mem _ hb)
    have hl : ∀ b, l ≠ .cancel b := fun b hb => once b (hb ▸ List.mem_cons_self)
    obtain ⟨live', kept⟩ := ih once' shutting live
    -- had the consumer been at work here, it would be at work at the end of the run too
    have here : Pc.shuttingDown s.loop.pc = true := by
      by_contra astray
      have working := (astray_run (Bool.eq_false_iff.mpr astray) (.cons enabled trivial tail) once).1
      rw [shutting] at working
      cases working
    rcases shutting_noSpawn here enabled with same | ⟨tl, moved, noSpawn⟩
    · rw [same] at live' kept
      exact ⟨live', kept⟩
    · obtain ⟨before, kept'⟩ := held_step moved noSpawn live'
      exact ⟨before, fun held => kept (kept' held)⟩

theorem cancel_iterating {isClosed : Bool} (iterating : s.loop.pc = .iterating)
    (cancelled : step app s (.cancel isClosed) = some u) :
    u.loop.pc = .leavingIterator (some .cancelledError) ∧ u.traffic = s.traffic := by
  rcases step_cases cancelled with ⟨_, _, hl, -, -⟩ | ⟨_, hl, moved, same⟩ | ⟨_, hl, -, -, -⟩
  · cases hl
  · simp only [Loop.cancel, Loop.raise, iterating] at moved
    refine ⟨?_, same⟩
    rw [← Option.some.inj moved]
  · cases hl

theorem handlerEnds_step {t : ℕ} {outcome : Except Exn Unit}
    (hs : step app s (.traffic (.handlerEnds t outcome)) = some u) :
    ∃ task handler body, s.traffic.tasks[t]? = some task ∧ task.stage = .handling handler body ∧
      u.traffic = { s.traffic.endTask t task (executeHandler outcome) with
        handled := s.traffic.handled ++ [(task.message, outcome)] } := by
  rcases step_cases hs with ⟨_, _, hl, -, -⟩ | ⟨_, hl, -, -⟩ | ⟨_, hl, -, moved, -⟩
  · cases hl
  · cases hl
  · cases hl
    generalize u.traffic = w at moved ⊢
    cases step_trafficStep moved with
    | handled at_t handling => exact ⟨_, _, _, at_t, handling, rfl⟩
    | gone _ closes => rcases closes with ⟨h, -⟩ | ⟨h, -⟩ | ⟨h, -⟩ <;> cases h

/-- No message that a handler finishes during the drain is acknowledged: the channel it
came in on is closed, and its message is back in the queue. -/
theorem drained_ack_refused {before : List (Label Msg)} {s' v u : Consumer Msg H}
    {isClosed : Bool} {t : ℕ} {task : MessageTask Msg H}
    (start : Runs (step app) Consumer.initial before s) (first : ∀ b, .cancel b ∉ before)
    (iterating : s.loop.pc = .iterating) (cancelled : step app s (.cancel isClosed) = some s')
    (inFlight : s.traffic.tasks[t]? = some task) (run : Runs (step app) s' ls v)
    (once : ∀ b, .cancel b ∉ ls) (draining : v.loop.pc = .draining)
    (returns : step app v (.traffic (.handlerEnds t (.ok ()))) = some u) :
    ¬ AckAccepted t u ∧ (s.traffic.channel task.channel = .opened →
      u.traffic.place task.message = .ready true) := by
  have inv : Inv app s.traffic := inv_run inv_initial start
  have before_cancel := oneChannel_run oneChannel_initial start first
  obtain ⟨loop, traffic⟩ := cancel_iterating iterating cancelled
  have after_cancel : OneChannel s' := by
    refine ⟨fun c hc => ?_, fun outside => ?_⟩
    · rw [traffic] at hc ⊢
      exact before_cancel.old c hc
    · rw [loop] at outside
      cases outside
  have inv' : Inv app v.traffic := inv_run (by rw [traffic]; exact inv) run
  have one := oneChannel_run after_cancel run once
  have closed (c : ℕ) : v.traffic.channel c = .closed := by
    by_cases last : c = v.traffic.current
    · rw [last]
      exact one.outside (by rw [draining]; rfl)
    · exact one.old c last
  obtain ⟨task', handler, body, at_t, handling, ended⟩ := handlerEnds_step returns
  rw [ended]
  constructor
  · rintro ⟨task'', at_t', stage, -⟩
    rw [ended] at at_t'
    have refused := (setStage_tasks (k := t) at_t _).symm.trans at_t'
    rw [if_pos rfl, closed] at refused
    cases refused
    cases stage
  · intro healthy
    have live : Live t v.traffic := ⟨task', at_t, by rw [handling]; rfl⟩
    obtain ⟨⟨task'', at_s, unfinished⟩, kept⟩ :=
      held_run (m := task.message) run once (by rw [draining]; rfl) live
    rw [traffic] at at_s kept
    cases at_s.symm.trans inFlight
    have place := (handled_place inv' at_t handling (.ok ())).trans
      (if_neg (by rw [closed]; decide))
    rw [place]
    rcases kept (.inl ⟨_, inv.owned t task inFlight unfinished healthy⟩) with ⟨c, hp⟩ | back
    · have isOpen := inv'.isOpen _ c t hp
      rw [closed] at isOpen
      cases isOpen
    · exact back

end Steps

section Examples

def untilDraining : List (Label Unit) := [.resume .returned, .resume .returned]

theorem drained_ack_lost : ¬ ∀ before s isClosed s' ls v u t task,
    Runs (step userCreatedApp) Consumer.initial before s → (∀ b, .cancel b ∉ before) →
      s.loop.pc = .iterating → s.traffic.channel s.traffic.current = .opened →
      step userCreatedApp s (.cancel isClosed) = some s' → s.traffic.tasks[t]? = some task →
      Runs (step userCreatedApp) s' ls v → (∀ b, .cancel b ∉ ls) → v.loop.pc = .draining →
      step userCreatedApp v (.traffic (.handlerEnds t (.ok ()))) = some u → AckAccepted t u := by
  intro h
  obtain ⟨task, at_0, stage, -⟩ := h untilHandling _ false _ untilDraining _ _ 0 _
    (Runs.of_execute rfl) (by simp [untilHandling]) rfl rfl rfl rfl (Runs.of_execute rfl)
    (by simp [untilDraining]) rfl rfl
  cases at_0
  cases stage

theorem drained_message_redelivered : ∃ s s' v u,
    Runs (step userCreatedApp) Consumer.initial untilHandling s ∧
      step userCreatedApp s (.cancel false) = some s' ∧
      Runs (step userCreatedApp) s' untilDraining v ∧
      step userCreatedApp v (.traffic (.handlerEnds 0 (.ok ()))) = some u ∧
      ¬ AckAccepted 0 u ∧ u.traffic.place () = .ready true := by
  obtain ⟨s, s', v, u, task, start, iterating, cancelled, inFlight, healthy, run, draining,
      returns⟩ : ∃ s s' v u task, Runs (step userCreatedApp) Consumer.initial untilHandling s ∧
        s.loop.pc = .iterating ∧ step userCreatedApp s (.cancel false) = some s' ∧
        s.traffic.tasks[0]? = some task ∧ s.traffic.channel task.channel = .opened ∧
        Runs (step userCreatedApp) s' untilDraining v ∧ v.loop.pc = .draining ∧
        step userCreatedApp v (.traffic (.handlerEnds 0 (.ok ()))) = some u :=
    ⟨_, _, _, _, _, Runs.of_execute rfl, rfl, rfl, rfl, rfl, Runs.of_execute rfl, rfl, rfl⟩
  obtain ⟨refused, back⟩ := drained_ack_refused start (by simp [untilHandling]) iterating cancelled
    inFlight run (by simp [untilDraining]) draining returns
  exact ⟨s, s', v, u, start, cancelled, run, returns, refused, back healthy⟩

end Examples

end FastapiProject.ConsumerDrainAcks
